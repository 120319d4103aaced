import Settlement.Journal.Outbound

/-!
# Tickets

A nonce belongs to a signing key on a chain, the *lane* on which it was reserved. With its lane
it is a *ticket*: at most one transaction can be signed with it. The attempts of a cross-chain
transaction carry tickets; the ticket of the attempt that is to be voted on is its open ticket.

A cross-chain transaction changes in one way only after it is stored: the outcome of the attempt
in flight becomes known, and a revert may follow (`Settlement.Cctx.Settles`). The attempts that
were there stay where they are, with their tickets (`Settlement.Cctx.Settles.follows`).
-/

namespace Settlement

/-! ### Lanes and tickets -/

/-- The numbering of a signing key on a chain. -/
structure Lane where
  signingKey : String
  chainId : ChainId
  deriving DecidableEq

/-- A nonce with its lane. -/
structure Ticket where
  lane : Lane
  nonce : UInt64
  deriving DecidableEq

/-- The record that a ticket belongs to a transaction. -/
def Ticket.ownedBy (t : Ticket) (x : Digest) : NonceOwner :=
  ⟨t.lane.signingKey, t.lane.chainId, t.nonce, x⟩

namespace Attempt

/-- The lane on which the nonce of an attempt is reserved. -/
def lane (a : Attempt) : Lane :=
  ⟨a.signingKey, a.chainId⟩

/-- The ticket of an attempt, if it has a nonce. -/
def ticket? (a : Attempt) : Option Ticket :=
  a.nonce.map fun nonce => ⟨a.lane, nonce⟩

theorem ticket?_eq_some_iff {a : Attempt} {key : String} {chainId : ChainId}
    {n : UInt64} : a.ticket? = some ⟨⟨key, chainId⟩, n⟩ ↔
      a.signingKey = key ∧ a.chainId = chainId ∧ a.nonce = some n := by
  rw [ticket?, Option.map_eq_some_iff]
  constructor
  · rintro ⟨n, hn, heq⟩
    cases heq
    exact ⟨rfl, rfl, hn⟩
  · rintro ⟨rfl, rfl, hn⟩
    exact ⟨n, hn, rfl⟩

/-- The second is the first at a later time: on the same lane, with the same nonce, and with an
outcome if there was one. -/
structure Follows (a b : Attempt) : Prop where
  lane_eq : b.lane = a.lane
  nonce_eq : b.nonce = a.nonce
  isExecuted : a.isExecuted → b.isExecuted

theorem Follows.refl (a : Attempt) : a.Follows a :=
  ⟨rfl, rfl, id⟩

theorem Follows.trans {a b c : Attempt} (h : a.Follows b) (h' : b.Follows c) : a.Follows c :=
  ⟨h'.lane_eq.trans h.lane_eq, h'.nonce_eq.trans h.nonce_eq, h'.isExecuted ∘ h.isExecuted⟩

theorem Follows.ticket?_eq {a b : Attempt} (h : a.Follows b) : b.ticket? = a.ticket? := by
  rw [ticket?, ticket?, h.nonce_eq, h.lane_eq]

end Attempt

namespace Cctx

/-- The tickets of a transaction, in the order of its attempts. -/
def tickets (c : Cctx) : List Ticket :=
  c.attempts.filterMap Attempt.ticket?

/-- The ticket of the attempt that is to be voted on. -/
def openTicket? (c : Cctx) : Option Ticket :=
  if Journal.awaitsVote c then c.current.ticket? else none

/-- The attempt in flight is the last one. -/
theorem exists_attempts_eq (c : Cctx) : ∃ before, c.attempts = before ++ [c.current] := by
  cases hrevert : c.revert with
  | none => exact ⟨[], by simp [attempts, current, hrevert]⟩
  | some a => exact ⟨[c.outbound], by simp [attempts, current, hrevert]⟩

/-- Without a revert, the first attempt is the one in flight. -/
theorem current_eq_outbound {c : Cctx} (h : c.revert = none) : c.current = c.outbound := by
  rw [current, h]
  rfl

/-- Once there is a revert, it is in flight. -/
theorem current_eq_revert {c : Cctx} {r : Attempt} (h : c.revert = some r) : c.current = r := by
  rw [current, h]
  rfl

theorem current_mem_attempts (c : Cctx) : c.current ∈ c.attempts := by
  obtain ⟨before, h⟩ := c.exists_attempts_eq
  rw [h]
  exact List.mem_append_right before List.mem_cons_self

theorem length_attempts_le (c : Cctx) : c.attempts.length ≤ 2 := by
  cases hrevert : c.revert <;> simp [attempts, hrevert]

/-- An open ticket is that of the attempt in flight, whose outcome is not known. -/
theorem eq_of_openTicket? {c : Cctx} {t : Ticket} (h : c.openTicket? = some t) :
    c.current.ticket? = some t ∧ c.status.awaitsOutbound = true ∧ c.current.isExecuted = false := by
  rw [openTicket?] at h
  split at h
  · next hawaits =>
    rw [Journal.awaitsVote, Bool.and_eq_true, Bool.not_eq_true'] at hawaits
    exact ⟨h, hawaits⟩
  · cases h

/-- An open ticket is one of the tickets. -/
theorem mem_tickets_of_openTicket? {c : Cctx} {t : Ticket} (h : c.openTicket? = some t) :
    t ∈ c.tickets :=
  List.mem_filterMap.2 ⟨_, c.current_mem_attempts, (eq_of_openTicket? h).1⟩

/-- **Different attempts of a transaction have different tickets**, if no ticket occurs twice. -/
theorem slot_eq_of_ticket?_eq {c : Cctx} (h : c.tickets.Nodup) {i j : Nat} {a b : Attempt}
    {t : Ticket} (ha : c.attempts[i]? = some a) (hb : c.attempts[j]? = some b)
    (hat : a.ticket? = some t) (hbt : b.ticket? = some t) : i = j := by
  have hpairwise := List.pairwise_iff_getElem.1 (List.pairwise_filterMap.1 h)
  obtain ⟨hi, rfl⟩ := List.getElem?_eq_some_iff.1 ha
  obtain ⟨hj, rfl⟩ := List.getElem?_eq_some_iff.1 hb
  -- That the tickets differ is said of an earlier and a later place.
  rcases Nat.lt_trichotomy i j with hlt | heq | hlt
  · exact absurd rfl (hpairwise i j hi hj hlt t hat t hbt)
  · exact heq
  · exact absurd rfl (hpairwise j i hj hi hlt t hbt t hat)

/-! ### Later forms of a transaction -/

/-- The second is the first at a later time: every attempt has a later form at the same place,
and others may have come after them. -/
structure Follows (c d : Cctx) : Prop where
  index_eq : d.index = c.index
  inbound_eq : d.inbound = c.inbound
  attempts : ∀ (i : Nat) (a : Attempt), c.attempts[i]? = some a →
    ∃ b, d.attempts[i]? = some b ∧ a.Follows b

theorem Follows.refl (c : Cctx) : c.Follows c :=
  ⟨rfl, rfl, fun _ a ha => ⟨a, ha, .refl a⟩⟩

theorem Follows.trans {c d e : Cctx} (h : c.Follows d) (h' : d.Follows e) : c.Follows e := by
  refine ⟨h'.index_eq.trans h.index_eq, h'.inbound_eq.trans h.inbound_eq, fun i a ha => ?_⟩
  obtain ⟨b, hb, hab⟩ := h.attempts i a ha
  obtain ⟨b', hb', hbb'⟩ := h'.attempts i b hb
  exact ⟨b', hb', hab.trans hbb'⟩

/-- The second is the first with the outcome of the attempt in flight known. If a revert
follows, it is signed with the same key, and its ticket is open. -/
structure Settles (c d : Cctx) (opened : Option Ticket) : Prop where
  index_eq : d.index = c.index
  inbound_eq : d.inbound = c.inbound
  attempts : ∃ before a more, c.attempts = before ++ [c.current] ∧
    d.attempts = before ++ a :: more ∧ c.current.Follows a ∧ a.isExecuted ∧
    (∀ b ∈ more, b.signingKey = c.outbound.signingKey) ∧
    more.filterMap Attempt.ticket? = opened.toList
  openTicket?_eq : d.openTicket? = opened

namespace Settles

variable {c d : Cctx} {opened : Option Ticket}

theorem follows (h : c.Settles d opened) : c.Follows d := by
  obtain ⟨before, a, more, hc, hd, ha, -, -, -⟩ := h.attempts
  refine ⟨h.index_eq, h.inbound_eq, fun i b hb => ?_⟩
  rw [hc] at hb
  rw [hd]
  rcases Nat.lt_or_ge i before.length with hlt | hge
  · rw [List.getElem?_append_left hlt] at hb ⊢
    exact ⟨b, hb, .refl b⟩
  · rw [List.getElem?_append_right hge] at hb ⊢
    rw [List.getElem?_singleton] at hb
    split at hb
    · next hzero => cases hb; exact ⟨a, by rw [hzero]; rfl, ha⟩
    · cases hb

/-- A settled transaction has kept its tickets, with that of the revert behind them. -/
theorem tickets_eq (h : c.Settles d opened) : d.tickets = c.tickets ++ opened.toList := by
  obtain ⟨before, a, more, hc, hd, ha, -, -, hmore⟩ := h.attempts
  rw [tickets, tickets, hc, hd, List.filterMap_append, List.filterMap_append,
    List.filterMap_cons, List.filterMap_cons, ha.ticket?_eq, hmore, List.append_assoc]
  cases c.current.ticket? <;> rfl

/-- The attempt that was in flight is executed now. -/
theorem exists_executed (h : c.Settles d opened) :
    ∃ a ∈ d.attempts, c.current.Follows a ∧ a.isExecuted := by
  obtain ⟨before, a, more, -, hd, ha, hexecuted, -, -⟩ := h.attempts
  exact ⟨a, by simp [hd], ha, hexecuted⟩

/-- The first attempt is signed with the same key as before. -/
theorem signed_eq (h : c.Settles d opened) :
    d.outbound.signingKey = c.outbound.signingKey := by
  obtain ⟨b, hb, hlane, -, -⟩ := h.follows.attempts 0 c.outbound rfl
  obtain rfl : d.outbound = b := Option.some.inj hb
  exact congrArg Lane.signingKey hlane

/-- Both attempts are signed with the same key. -/
theorem signingKey_eq (h : c.Settles d opened)
    (hc : ∀ b ∈ c.attempts, b.signingKey = c.outbound.signingKey) :
    ∀ b ∈ d.attempts, b.signingKey = d.outbound.signingKey := by
  obtain ⟨before, a, more, hbefore, hd, ha, -, hmore, -⟩ := h.attempts
  have hall : ∀ b ∈ d.attempts, b.signingKey = c.outbound.signingKey := by
    intro b hb
    rw [hd, List.mem_append, List.mem_cons] at hb
    rw [hbefore] at hc
    rcases hb with hb | rfl | hb
    · exact hc b (List.mem_append_left _ hb)
    · exact (congrArg Lane.signingKey ha.lane_eq).trans
        (hc _ (List.mem_append_right _ List.mem_cons_self))
    · exact hmore b hb
  intro b hb
  rw [hall b hb, hall d.outbound List.mem_cons_self]

end Settles

end Cctx

end Settlement
