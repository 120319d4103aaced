import Mathlib.Logic.Function.Basic
import Settlement.Proofs.Key
import Settlement.Proofs.Nonce
import Settlement.Proofs.Stages
import Settlement.Proofs.Tickets

/-!
# Accounts

What settlement rests on, apart from how it is stored: the cross-chain transactions, the nonces
of every lane, the owners of tickets and the marks of external events. The calls change these
accounts in few ways (`Settlement.Accounts.Step`): nothing happens, an event is marked, a
transaction is opened for a marked event or for a fund migration, or the attempt in flight of a
transaction is settled. A ticket is issued at most once in a step, and retired only when its
attempt is settled.

Main statement: every step keeps the accounts sound (`Settlement.Accounts.Sound`), as long as
there is another nonce after those that were issued (`Settlement.Accounts.Sound.step`).
-/

namespace Settlement

/-! ### External events -/

/-- An external event, up to the case of the transaction hash: the hash is in small letters. -/
structure Origin where
  chainId : ChainId
  txHash : String
  eventIndex : UInt64
  foldCase_txHash : foldCase txHash = txHash
  deriving DecidableEq

/-- The external event that is found in some place of a transaction on a chain. -/
def Origin.of (chainId : ChainId) (txHash : String) (eventIndex : UInt64) : Origin :=
  ⟨chainId, foldCase txHash, eventIndex, foldCase_foldCase txHash⟩

theorem Origin.of_eq_of_iff {chainId chainId' : ChainId} {txHash txHash' : String}
    {eventIndex eventIndex' : UInt64} :
    Origin.of chainId txHash eventIndex = .of chainId' txHash' eventIndex' ↔
      chainId = chainId' ∧ foldCase txHash = foldCase txHash' ∧ eventIndex = eventIndex' := by
  rw [Origin.of, Origin.of, Origin.mk.injEq]

/-- The external event of an inbound transaction. -/
def Inbound.origin (i : Inbound) : Origin :=
  .of i.senderChain i.observedHash i.eventIndex

/-- The external event that a vote reports. -/
def InboundVote.origin (m : InboundVote) : Origin :=
  .of m.senderChain m.inboundHash m.eventIndex

/-! ### Accounts and their changes -/

/-- What settlement rests on. -/
structure Accounts where
  /-- The cross-chain transactions. -/
  cctx : Digest → Option Cctx
  /-- The nonces of every lane. -/
  nonces : Lane → NonceRecord
  /-- The owners of tickets. -/
  owner : Ticket → Option NonceOwner
  /-- Whether an external event is marked. -/
  marked : Origin → Bool

namespace Accounts

/-- The accounts before anything has happened. -/
def empty : Accounts where
  cctx _ := none
  nonces lane := .fresh lane.signingKey lane.chainId
  owner _ := none
  marked _ := false

/-- The next ticket of a lane. -/
def nextTicket (a : Accounts) (lane : Lane) : Ticket :=
  ⟨lane, (a.nonces lane).next⟩

/-- The accounts with an external event marked. -/
def mark (a : Accounts) (o : Origin) : Accounts :=
  { a with marked := Function.update a.marked o true }

/-- The accounts with the next ticket of a lane given to a transaction. -/
def issue (a : Accounts) (lane : Lane) (x : Digest) : Accounts :=
  { a with
    nonces := Function.update a.nonces lane (a.nonces lane).reserve.2
    owner := Function.update a.owner (a.nextTicket lane) (some ((a.nextTicket lane).ownedBy x)) }

/-- The accounts with a ticket given to a transaction on some lane, or on none. -/
def issueOn (a : Accounts) (x : Digest) : Option Lane → Accounts
  | none => a
  | some lane => a.issue lane x

/-- The accounts in which a ticket is not pending. -/
def retire (a : Accounts) (t : Ticket) : Accounts :=
  { a with
    nonces := Function.update a.nonces t.lane
      { a.nonces t.lane with pending := (a.nonces t.lane).pending.erase t.nonce } }

/-- The accounts in which a ticket is not pending, if one is given. -/
def retireOf (a : Accounts) : Option Ticket → Accounts
  | none => a
  | some t => a.retire t

/-- The accounts with a transaction entered under its index. -/
def file (a : Accounts) (c : Cctx) : Accounts :=
  { a with cctx := Function.update a.cctx c.index (some c) }

/-! ### What the changes leave as it was -/

section Changes

variable (a : Accounts) (o : Origin) (x : Digest) (c : Cctx) (lane : Option Lane)
  (closed : Option Ticket)

@[simp]
theorem issueOn_cctx : (a.issueOn x lane).cctx = a.cctx := by
  cases lane <;> rfl

@[simp]
theorem issueOn_marked : (a.issueOn x lane).marked = a.marked := by
  cases lane <;> rfl

@[simp]
theorem retireOf_cctx : (a.retireOf closed).cctx = a.cctx := by
  cases closed <;> rfl

@[simp]
theorem retireOf_owner : (a.retireOf closed).owner = a.owner := by
  cases closed <;> rfl

@[simp]
theorem retireOf_marked : (a.retireOf closed).marked = a.marked := by
  cases closed <;> rfl

theorem file_cctx (y : Digest) : (a.file c).cctx y = if y = c.index then some c else a.cctx y :=
  Function.update_apply _ _ _ _

theorem mark_marked (o' : Origin) : (a.mark o).marked o' = if o' = o then true else a.marked o' :=
  Function.update_apply _ _ _ _

/-! ### What they change -/

theorem issue_owner (lane : Lane) (t : Ticket) : (a.issue lane x).owner t =
    if t = a.nextTicket lane then some ((a.nextTicket lane).ownedBy x) else a.owner t :=
  Function.update_apply _ _ _ _

theorem issue_nonces (lane l : Lane) : (a.issue lane x).nonces l =
    if l = lane then (a.nonces lane).reserve.2 else a.nonces l :=
  Function.update_apply _ _ _ _

theorem retire_nonces (t : Ticket) (l : Lane) : (a.retire t).nonces l =
    if l = t.lane then
      { a.nonces t.lane with pending := (a.nonces t.lane).pending.erase t.nonce }
    else a.nonces l :=
  Function.update_apply _ _ _ _

/-- A ticket that is issued belongs to the transaction. -/
theorem issueOn_owner (t : Ticket) : (a.issueOn x lane).owner t =
    if lane.map a.nextTicket = some t then some (t.ownedBy x) else a.owner t := by
  cases lane with
  | none => rfl
  | some lane =>
    rw [issueOn, issue_owner, Option.map_some]
    by_cases h : t = a.nextTicket lane
    · rw [if_pos h, if_pos (congrArg some h.symm), h]
    · rw [if_neg h, if_neg fun heq => h (Option.some.inj heq).symm]

/-- The lane of a ticket that is issued goes on to the next nonce. -/
theorem next_issueOn (l : Lane) : ((a.issueOn x lane).nonces l).next =
    if lane = some l then (a.nonces l).next + 1 else (a.nonces l).next := by
  cases lane with
  | none => rfl
  | some lane =>
    rw [issueOn, issue_nonces]
    by_cases h : l = lane
    · rw [if_pos h, if_pos (congrArg some h.symm), h]
      rfl
    · rw [if_neg h, if_neg fun heq => h (Option.some.inj heq).symm]

/-- The nonces below the next one are those from before and the one that is issued, if there is
another one after it. -/
theorem lt_next_issueOn (hroom : ∀ l, lane = some l → (a.nonces l).next.toNat + 1 < UInt64.size)
    (t : Ticket) : t.nonce < ((a.issueOn x lane).nonces t.lane).next ↔
      lane.map a.nextTicket = some t ∨ t.nonce < (a.nonces t.lane).next := by
  obtain ⟨l, n⟩ := t
  rw [next_issueOn]
  cases lane with
  | none => simp
  | some lane =>
    simp only [Option.map_some, Option.some.injEq, nextTicket, Ticket.mk.injEq]
    by_cases hl : lane = l
    · subst hl
      have hnext : ((a.nonces lane).next + 1).toNat = (a.nonces lane).next.toNat + 1 := by
        rw [UInt64.toNat_add]
        exact Nat.mod_eq_of_lt (hroom lane rfl)
      rw [if_pos rfl, and_iff_right rfl, UInt64.lt_iff_toNat_lt, UInt64.lt_iff_toNat_lt, hnext,
        ← UInt64.toNat_inj]
      omega
    · rw [if_neg hl, or_iff_right fun heq => hl heq.1]

/-- A ticket that is issued is pending. -/
theorem pending_issueOn (t : Ticket) :
    ((a.issueOn x lane).nonces t.lane).pending.contains t.nonce = true ↔
      lane.map a.nextTicket = some t ∨ (a.nonces t.lane).pending.contains t.nonce = true := by
  obtain ⟨l, n⟩ := t
  cases lane with
  | none => simp [issueOn]
  | some lane =>
    rw [issueOn, issue_nonces, Option.map_some, Option.some.injEq, nextTicket, Ticket.mk.injEq]
    split
    · next h =>
      subst h
      rw [NonceRecord.reserve, NonceSet.contains_insert, eq_comm, and_iff_right rfl]
    · next h =>
      have h : ¬(lane = l ∧ (a.nonces lane).next = n) := fun heq => h heq.1.symm
      rw [or_iff_right h]

@[simp]
theorem next_retireOf (l : Lane) :
    ((a.retireOf closed).nonces l).next = (a.nonces l).next := by
  cases closed with
  | none => rfl
  | some t =>
    rw [retireOf, retire_nonces]
    split
    · next h => rw [h]
    · rfl

/-- A ticket that is retired is not pending, and the others are as they were. -/
theorem pending_retireOf (t : Ticket) :
    ((a.retireOf closed).nonces t.lane).pending.contains t.nonce = true ↔
      (a.nonces t.lane).pending.contains t.nonce = true ∧ closed ≠ some t := by
  obtain ⟨l, n⟩ := t
  cases closed with
  | none => simp [retireOf]
  | some u =>
    obtain ⟨l', n'⟩ := u
    rw [retireOf, retire_nonces, ne_eq, Option.some.injEq, Ticket.mk.injEq]
    split
    · next h =>
      have h : l = l' := h
      subst h
      rw [NonceSet.contains_erase, and_iff_right rfl, ne_eq, eq_comm (a := n)]
    · next h =>
      have h : ¬(l' = l ∧ n' = n) := fun heq => h heq.1.symm
      rw [and_iff_left h]

end Changes

/-! ### Tickets and nonces -/

/-- The tickets that were issued are those that transactions carry. -/
structure Numbered (a : Accounts) : Prop where
  /-- Every nonce below the next one has an owner, and no other nonce has. -/
  owner_isSome_iff : ∀ t, (a.owner t).isSome ↔ t.nonce < (a.nonces t.lane).next
  /-- The record of an owner repeats the ticket. -/
  owner_eq : ∀ t o, a.owner t = some o → o = t.ownedBy o.cctxIndex
  /-- A transaction carries the tickets that belong to it. -/
  owner_iff : ∀ t x, a.owner t = some (t.ownedBy x) ↔ ∃ c, a.cctx x = some c ∧ t ∈ c.tickets
  /-- No ticket occurs twice in a transaction. -/
  nodup : ∀ x c, a.cctx x = some c → c.tickets.Nodup
  /-- The pending nonces are those of open tickets. -/
  pending_iff : ∀ t, (a.nonces t.lane).pending.contains t.nonce = true ↔
    ∃ x c, a.cctx x = some c ∧ c.openTicket? = some t

namespace Numbered

variable {a : Accounts}

/-- A ticket belongs to one transaction. -/
theorem index_eq_of_mem_tickets (h : a.Numbered) {x y : Digest} {c d : Cctx} {t : Ticket}
    (hc : a.cctx x = some c) (hct : t ∈ c.tickets) (hd : a.cctx y = some d)
    (hdt : t ∈ d.tickets) : x = y := by
  have hx := (h.owner_iff t x).2 ⟨c, hc, hct⟩
  have hy := (h.owner_iff t y).2 ⟨d, hd, hdt⟩
  exact congrArg NonceOwner.cctxIndex (Option.some.inj (hx.symm.trans hy))

/-- The next ticket of a lane has no owner yet. -/
theorem owner_nextTicket (h : a.Numbered) (lane : Lane) : a.owner (a.nextTicket lane) = none := by
  refine Option.not_isSome_iff_eq_none.1 fun hsome => ?_
  exact UInt64.lt_irrefl _ ((h.owner_isSome_iff _).1 hsome)

/-- A ticket without an owner is not carried. -/
theorem not_mem_tickets (h : a.Numbered) {t : Ticket} (ht : a.owner t = none) {x : Digest}
    {c : Cctx} (hc : a.cctx x = some c) : t ∉ c.tickets := by
  intro hmem
  have howner := (h.owner_iff t x).2 ⟨c, hc, hmem⟩
  rw [ht] at howner
  cases howner

/-- A ticket that is issued has no owner before. -/
theorem owner_of_issued (h : a.Numbered) {lane : Option Lane} {t : Ticket}
    (ht : lane.map a.nextTicket = some t) : a.owner t = none := by
  obtain ⟨l, -, rfl⟩ := Option.map_eq_some_iff.1 ht
  exact h.owner_nextTicket l

end Numbered

/-! ### A transaction entered anew -/

/-- A transaction as it is entered anew: it has kept the tickets that it had, if it was there.
The ticket that was open before is closed, and the one that is issued to it is open now. -/
structure Renews (a : Accounts) (c : Cctx) (lane : Option Lane) (closed : Option Ticket) :
    Prop where
  tickets_eq : c.tickets = ((a.cctx c.index).map Cctx.tickets).getD []
    ++ (lane.map a.nextTicket).toList
  openTicket?_eq : c.openTicket? = lane.map a.nextTicket
  closed_eq : (a.cctx c.index).bind Cctx.openTicket? = closed

/-- The accounts after that. -/
def renew (a : Accounts) (c : Cctx) (lane : Option Lane) (closed : Option Ticket) : Accounts :=
  ((a.issueOn c.index lane).retireOf closed).file c

namespace Renews

variable {a : Accounts} {c : Cctx} {lane : Option Lane} {closed : Option Ticket}

theorem mem_tickets_iff (hr : a.Renews c lane closed) (t : Ticket) : t ∈ c.tickets ↔
    (∃ d, a.cctx c.index = some d ∧ t ∈ d.tickets) ∨ lane.map a.nextTicket = some t := by
  rw [hr.tickets_eq, List.mem_append, Option.mem_toList]
  cases a.cctx c.index <;> simp

/-- The ticket that is closed was open. -/
theorem exists_of_closed (hr : a.Renews c lane closed) {t : Ticket} (ht : closed = some t) :
    ∃ d, a.cctx c.index = some d ∧ d.openTicket? = some t :=
  Option.bind_eq_some_iff.1 (hr.closed_eq.trans ht)

theorem renew_cctx (a : Accounts) (y : Digest) : (a.renew c lane closed).cctx y =
    if y = c.index then some c else a.cctx y := by
  rw [renew, file_cctx, retireOf_cctx, issueOn_cctx]

/-- What is stored after a renewal is the transaction that is entered, or was stored before under
another index. -/
theorem eq_or_of_renew {y : Digest} {d : Cctx} (h : (a.renew c lane closed).cctx y = some d) :
    y = c.index ∧ c = d ∨ y ≠ c.index ∧ a.cctx y = some d := by
  rw [renew_cctx] at h
  split at h
  · next hy => exact .inl ⟨hy, Option.some.inj h⟩
  · next hy => exact .inr ⟨hy, h⟩

theorem renew_owner (a : Accounts) (t : Ticket) : (a.renew c lane closed).owner t =
    if lane.map a.nextTicket = some t then some (t.ownedBy c.index) else a.owner t := by
  change ((a.issueOn c.index lane).retireOf closed).owner t = _
  rw [retireOf_owner, issueOn_owner]

/-- Marking an event is about neither transactions, -/
theorem renew_mark_cctx (a : Accounts) (o : Origin) :
    ((a.mark o).renew c lane closed).cctx = (a.renew c lane closed).cctx := by
  funext y
  rw [renew_cctx, renew_cctx]
  rfl

/-- nor the owners of tickets. -/
theorem renew_mark_owner (a : Accounts) (o : Origin) :
    ((a.mark o).renew c lane closed).owner = (a.renew c lane closed).owner := by
  funext t
  rw [renew_owner, renew_owner]
  rfl

theorem owner_isSome_iff (h : a.Numbered)
    (hroom : ∀ l, lane = some l → (a.nonces l).next.toNat + 1 < UInt64.size) (t : Ticket) :
    ((a.renew c lane closed).owner t).isSome ↔
      t.nonce < ((a.renew c lane closed).nonces t.lane).next := by
  change _ ↔ t.nonce < (((a.issueOn c.index lane).retireOf closed).nonces t.lane).next
  rw [renew_owner, next_retireOf, lt_next_issueOn a c.index lane hroom, ← h.owner_isSome_iff]
  split
  · next ht => simp [ht]
  · next ht => rw [or_iff_right ht]

theorem owner_iff (h : a.Numbered) (hr : a.Renews c lane closed) (t : Ticket) (x : Digest) :
    (a.renew c lane closed).owner t = some (t.ownedBy x) ↔
      ∃ d, (a.renew c lane closed).cctx x = some d ∧ t ∈ d.tickets := by
  rw [renew_owner, renew_cctx]
  by_cases hx : x = c.index
  · subst hx
    simp only [if_true, Option.some.injEq, exists_eq_left', hr.mem_tickets_iff]
    split
    · next ht => simp [ht]
    · next ht => rw [h.owner_iff, or_iff_left ht]
  · rw [if_neg hx]
    split
    · next ht =>
      -- Nobody else can carry the ticket that is issued.
      have hne : ¬∃ d, a.cctx x = some d ∧ t ∈ d.tickets :=
        fun ⟨_, hd, hmem⟩ => h.not_mem_tickets (h.owner_of_issued ht) hd hmem
      rw [iff_false_right hne, Option.some.injEq]
      exact fun heq => hx (congrArg NonceOwner.cctxIndex heq).symm
    · exact h.owner_iff t x

theorem nodup (h : a.Numbered) (hr : a.Renews c lane closed) : c.tickets.Nodup := by
  rw [hr.tickets_eq]
  cases hold : a.cctx c.index with
  | none => cases lane <;> simp
  | some d =>
    -- The ticket that is issued had no owner, so it was not carried before.
    refine List.nodup_append.2 ⟨h.nodup _ d hold, by cases lane <;> simp, fun t ht u hu => ?_⟩
    rintro rfl
    exact h.not_mem_tickets (h.owner_of_issued (Option.mem_toList.1 hu)) hold ht

theorem pending_iff (h : a.Numbered) (hr : a.Renews c lane closed) (t : Ticket) :
    ((a.renew c lane closed).nonces t.lane).pending.contains t.nonce = true ↔
      ∃ x d, (a.renew c lane closed).cctx x = some d ∧ d.openTicket? = some t := by
  change (((a.issueOn c.index lane).retireOf closed).nonces t.lane).pending.contains t.nonce
    = true ↔ _
  rw [pending_retireOf, pending_issueOn, h.pending_iff]
  simp only [renew_cctx]
  constructor
  · rintro ⟨ht | ⟨x, d, hd, hdt⟩, hne⟩
    · exact ⟨c.index, c, if_pos rfl, hr.openTicket?_eq.trans ht⟩
    · refine ⟨x, d, ?_, hdt⟩
      rw [if_neg, hd]
      rintro rfl
      rw [← hr.closed_eq, hd] at hne
      exact hne hdt
  · rintro ⟨x, d, hd, hdt⟩
    split at hd
    -- The ticket that is issued is new, so it is not the one that is closed.
    · cases hd
      have ht := hr.openTicket?_eq.symm.trans hdt
      refine ⟨.inl ht, fun hc => ?_⟩
      obtain ⟨d, hd, hopen⟩ := hr.exists_of_closed hc
      exact h.not_mem_tickets (h.owner_of_issued ht) hd (Cctx.mem_tickets_of_openTicket? hopen)
    -- The ticket that is closed belongs to this transaction and to no other.
    · next hx =>
      refine ⟨.inr ⟨x, d, hd, hdt⟩, fun hc => hx ?_⟩
      obtain ⟨d', hd', hopen⟩ := hr.exists_of_closed hc
      exact h.index_eq_of_mem_tickets hd (Cctx.mem_tickets_of_openTicket? hdt) hd'
        (Cctx.mem_tickets_of_openTicket? hopen)

end Renews

/-- **Tickets stay in order when a transaction is entered anew**, as long as the nonce after one
that is issued is a nonce again. -/
theorem Numbered.renew {a : Accounts} (h : a.Numbered) {c : Cctx} {lane : Option Lane}
    {closed : Option Ticket} (hr : a.Renews c lane closed)
    (hroom : ∀ l, ((a.renew c lane closed).owner (a.nextTicket l)).isSome →
      (a.nonces l).next.toNat + 1 < UInt64.size) : (a.renew c lane closed).Numbered where
  owner_isSome_iff := Renews.owner_isSome_iff h fun l hl => hroom l (by
    rw [Renews.renew_owner, hl, Option.map_some, if_pos rfl]
    rfl)
  owner_eq t o ho := by
    rw [Renews.renew_owner] at ho
    split at ho
    · cases ho; rfl
    · exact h.owner_eq t o ho
  owner_iff := Renews.owner_iff h hr
  nodup x d hd := by
    obtain ⟨-, rfl⟩ | ⟨-, hd⟩ := Renews.eq_or_of_renew hd
    · exact Renews.nodup h hr
    · exact h.nodup x d hd
  pending_iff := Renews.pending_iff h hr

/-! ### Transactions and events -/

/-- Transactions are kept under their own index, and both of their attempts are signed with the
same key. -/
structure Filed (a : Accounts) : Prop where
  index_eq : ∀ x c, a.cctx x = some c → c.index = x
  signingKey_eq : ∀ x c, a.cctx x = some c → ∀ b ∈ c.attempts,
    b.signingKey = c.outbound.signingKey

/-- The event of every transaction that comes from one is marked, and no two transactions come
from the same event. -/
structure Marked (a : Accounts) : Prop where
  marked : ∀ x c, a.cctx x = some c → c.inbound.coinType ≠ .cmd →
    a.marked c.inbound.origin = true
  index_eq_of_origin_eq : ∀ x y c d, a.cctx x = some c → a.cctx y = some d →
    c.inbound.coinType ≠ .cmd → d.inbound.coinType ≠ .cmd →
    c.inbound.origin = d.inbound.origin → x = y

/-- Every transaction is well formed. -/
structure Shaped (a : Accounts) : Prop where
  formed : ∀ x c, a.cctx x = some c → c.Formed

/-- Everything is in order. -/
structure Sound (a : Accounts) : Prop extends Numbered a, Filed a, Marked a, Shaped a

/-- **No two attempts of a transaction have the same nonce on the same chain.** -/
theorem Sound.slot_eq {a : Accounts} (h : a.Sound) {x : Digest} {c : Cctx} {i j : Nat}
    {b b' : Attempt} {n : UInt64} (hc : a.cctx x = some c) (hi : c.attempts[i]? = some b)
    (hj : c.attempts[j]? = some b') (hchain : b.chainId = b'.chainId) (hn : b.nonce = some n)
    (hn' : b'.nonce = some n) : i = j := by
  have hkey : b.signingKey = b'.signingKey :=
    (h.signingKey_eq x c hc b (List.mem_of_getElem? hi)).trans
      (h.signingKey_eq x c hc b' (List.mem_of_getElem? hj)).symm
  exact Cctx.slot_eq_of_ticket?_eq (h.nodup x c hc) hi hj
    (Attempt.ticket?_eq_some_iff.2 ⟨hkey, hchain, hn⟩)
    (Attempt.ticket?_eq_some_iff.2 ⟨rfl, rfl, hn'⟩)

theorem sound_empty : empty.Sound where
  owner_isSome_iff t := by simp [empty, NonceRecord.fresh]
  owner_eq _ _ := nofun
  owner_iff t x := by simp [empty]
  nodup _ _ := nofun
  pending_iff t := by simp [empty, NonceRecord.fresh]
  index_eq _ _ := nofun
  signingKey_eq _ _ := nofun
  marked _ _ := nofun
  index_eq_of_origin_eq _ _ _ _ := nofun
  formed _ _ := nofun

/-! ### Steps -/

/-- A transaction that is new to the accounts. It waits for the vote on its only ticket, the next
one of a lane, or it has no ticket and waits for nothing. -/
structure Opens (a : Accounts) (c : Cctx) (lane : Option Lane) : Prop where
  absent : a.cctx c.index = none
  renews : a.Renews c lane none
  signingKey_eq : ∀ b ∈ c.attempts, b.signingKey = c.outbound.signingKey
  formed : c.Formed

theorem Opens.index_ne {a : Accounts} {c d : Cctx} {lane : Option Lane} (h : a.Opens c lane)
    {x : Digest} (hd : a.cctx x = some d) : x ≠ c.index := by
  rintro rfl
  rw [h.absent] at hd
  cases hd

/-- What one call makes of the accounts. The message is that of the vote that settles an attempt,
if one is settled. -/
inductive Step (a : Accounts) : Option OutboundVote → Accounts → Prop
  /-- Nothing happens. -/
  | keep : Step a none a
  /-- An event is marked, and nothing comes of it. -/
  | mark (o : Origin) : Step a none (a.mark o)
  /-- A transaction is opened for an event that was not marked before. -/
  | openInbound {c : Cctx} {lane : Option Lane} (hmark : a.marked c.inbound.origin = false)
      (hopens : a.Opens c lane) : Step a none ((a.mark c.inbound.origin).renew c lane none)
  /-- A transaction is opened that moves funds to another key. -/
  | openMigration {c : Cctx} {lane : Lane} (hcmd : c.inbound.coinType = .cmd)
      (hopens : a.Opens c (some lane)) : Step a none (a.renew c (some lane) none)
  /-- The attempt in flight is settled, and a revert may follow it. -/
  | settle {m : OutboundVote} {c d : Cctx} {lane : Option Lane}
      (hcctx : a.cctx m.cctxIndex = some c)
      (hopen : c.openTicket? = some ⟨⟨c.current.signingKey, m.chainId⟩, m.nonce⟩)
      (hsettles : c.Settles d (lane.map a.nextTicket)) (hformed : c.Formed → d.Formed) :
      Step a (some m) (a.renew d lane (some ⟨⟨c.current.signingKey, m.chainId⟩, m.nonce⟩))

/-- The second accounts are the first at a later time: owners and marks have stayed, and
transactions have later forms. -/
structure Extends (a b : Accounts) : Prop where
  owner : ∀ t o, a.owner t = some o → b.owner t = some o
  marked : ∀ o, a.marked o = true → b.marked o = true
  cctx : ∀ x c, a.cctx x = some c → ∃ d, b.cctx x = some d ∧ c.Follows d

theorem Extends.refl (a : Accounts) : a.Extends a :=
  ⟨fun _ _ => id, fun _ => id, fun _ c hc => ⟨c, hc, .refl c⟩⟩

theorem Extends.trans {a b c : Accounts} (h : a.Extends b) (h' : b.Extends c) : a.Extends c := by
  refine ⟨fun t o => h'.owner t o ∘ h.owner t o, fun o => h'.marked o ∘ h.marked o, ?_⟩
  intro x d hd
  obtain ⟨e, he, hde⟩ := h.cctx x d hd
  obtain ⟨f, hf, hef⟩ := h'.cctx x e he
  exact ⟨f, hf, hde.trans hef⟩

section Step

variable {a b : Accounts} {c d : Cctx} {lane : Option Lane} {closed : Option Ticket}

theorem Renews.mark (h : a.Renews c lane closed) (o : Origin) :
    (a.mark o).Renews c lane closed :=
  ⟨h.tickets_eq, h.openTicket?_eq, h.closed_eq⟩

/-- The renewed form of a settled transaction. -/
theorem Renews.of_settles {t : Ticket} (hcctx : a.cctx c.index = some c)
    (hopen : c.openTicket? = some t) (hsettles : c.Settles d (lane.map a.nextTicket)) :
    a.Renews d lane (some t) := by
  refine ⟨?_, hsettles.openTicket?_eq, ?_⟩
  · rw [hsettles.index_eq, hcctx, hsettles.tickets_eq]
    rfl
  · rw [hsettles.index_eq, hcctx]
    exact hopen

/-- A transaction may be entered anew without any loss, if it is a later form of what was there. -/
theorem Numbered.extends_renew (h : a.Numbered)
    (hfollows : ∀ d, a.cctx c.index = some d → d.Follows c) :
    a.Extends (a.renew c lane closed) := by
  refine ⟨fun t o ho => ?_, fun o ho => ?_, fun x d hd => ?_⟩
  · rw [Renews.renew_owner, if_neg, ho]
    intro ht
    rw [h.owner_of_issued ht] at ho
    cases ho
  · change ((a.issueOn c.index lane).retireOf closed).marked o = true
    rwa [retireOf_marked, issueOn_marked]
  · rw [Renews.renew_cctx]
    split
    · next hx => exact ⟨c, rfl, hfollows d (hx ▸ hd)⟩
    · exact ⟨d, hd, .refl d⟩

theorem Filed.renew (h : a.Filed)
    (hkeys : ∀ b ∈ c.attempts, b.signingKey = c.outbound.signingKey) :
    (a.renew c lane closed).Filed where
  index_eq x d hd := by
    obtain ⟨hx, rfl⟩ | ⟨-, hd⟩ := Renews.eq_or_of_renew hd
    · exact hx.symm
    · exact h.index_eq x d hd
  signingKey_eq x d hd := by
    obtain ⟨-, rfl⟩ | ⟨-, hd⟩ := Renews.eq_or_of_renew hd
    · exact hkeys
    · exact h.signingKey_eq x d hd

/-- Marks stay in order when a transaction is entered anew, if its event is marked and nothing
else comes from it. -/
theorem Marked.renew (h : a.Marked)
    (hmark : c.inbound.coinType ≠ .cmd → a.marked c.inbound.origin = true)
    (honly : c.inbound.coinType ≠ .cmd → ∀ x d, a.cctx x = some d → d.inbound.coinType ≠ .cmd →
      d.inbound.origin = c.inbound.origin → x = c.index) :
    (a.renew c lane closed).Marked where
  marked x d hd hcoin := by
    change ((a.issueOn c.index lane).retireOf closed).marked _ = true
    rw [retireOf_marked, issueOn_marked]
    obtain ⟨-, rfl⟩ | ⟨-, hd⟩ := Renews.eq_or_of_renew hd
    · exact hmark hcoin
    · exact h.marked x d hd hcoin
  index_eq_of_origin_eq x y d e hd he hdcoin hecoin horigin := by
    obtain ⟨hx, rfl⟩ | ⟨-, hd⟩ := Renews.eq_or_of_renew hd
    · obtain ⟨hy, rfl⟩ | ⟨-, he⟩ := Renews.eq_or_of_renew he
      · exact hx.trans hy.symm
      · exact hx.trans (honly hdcoin y e he hecoin horigin.symm).symm
    · obtain ⟨hy, rfl⟩ | ⟨-, he⟩ := Renews.eq_or_of_renew he
      · exact (honly hecoin x d hd hdcoin horigin).trans hy.symm
      · exact h.index_eq_of_origin_eq x y d e hd he hdcoin hecoin horigin

theorem Shaped.renew (h : a.Shaped) (hc : c.Formed) : (a.renew c lane closed).Shaped where
  formed x d hd := by
    obtain ⟨-, rfl⟩ | ⟨-, hd⟩ := Renews.eq_or_of_renew hd
    · exact hc
    · exact h.formed x d hd

theorem extends_mark (a : Accounts) (o : Origin) : a.Extends (a.mark o) := by
  refine ⟨fun _ _ => id, fun o' ho' => ?_, fun _ c hc => ⟨c, hc, .refl c⟩⟩
  rw [mark_marked]
  split
  · rfl
  · exact ho'

/-- More marks do no harm. -/
theorem Sound.mark (h : a.Sound) (o : Origin) : (a.mark o).Sound :=
  { h with
    owner_isSome_iff := h.owner_isSome_iff
    owner_eq := h.owner_eq
    owner_iff := h.owner_iff
    pending_iff := h.pending_iff
    marked := fun x c hc hcoin => (extends_mark a o).marked _ (h.marked x c hc hcoin) }

/-- **A step loses nothing.** -/
theorem Sound.extends_of_step {m : Option OutboundVote} (h : a.Sound) (hstep : a.Step m b) :
    a.Extends b := by
  cases hstep with
  | keep => exact .refl a
  | mark o => exact extends_mark a o
  | openInbound hmark hopens =>
    exact (extends_mark a _).trans
      ((h.mark _).extends_renew fun d hd => absurd rfl (hopens.index_ne hd))
  | openMigration hcmd hopens =>
    exact h.extends_renew fun d hd => absurd rfl (hopens.index_ne hd)
  | settle hcctx hopen hsettles hformed =>
    refine h.extends_renew fun e he => ?_
    rw [hsettles.index_eq, h.index_eq _ _ hcctx, hcctx] at he
    cases he
    exact hsettles.follows

/-- **A step keeps the accounts sound**, if the nonce after every one that it issues is a nonce
again. -/
theorem Sound.step {m : Option OutboundVote} (h : a.Sound) (hstep : a.Step m b)
    (hroom : ∀ l, (b.owner (a.nextTicket l)).isSome →
      (a.nonces l).next.toNat + 1 < UInt64.size) : b.Sound := by
  cases hstep with
  | keep => exact h
  | mark o => exact h.mark o
  | @openInbound c lane hmark hopens =>
    have hmarked := h.mark c.inbound.origin
    have hself : (a.mark c.inbound.origin).marked c.inbound.origin = true := by
      rw [mark_marked, if_pos rfl]
    refine ⟨hmarked.toNumbered.renew (hopens.renews.mark _) hroom,
      hmarked.toFiled.renew hopens.signingKey_eq,
      hmarked.toMarked.renew (fun _ => hself) fun _ x d hd hcoin horigin => ?_,
      hmarked.toShaped.renew hopens.formed⟩
    -- What came from the same event would have marked it.
    have hbefore := h.marked x d hd hcoin
    rw [horigin, hmark] at hbefore
    cases hbefore
  | openMigration hcmd hopens =>
    exact ⟨h.toNumbered.renew hopens.renews hroom, h.toFiled.renew hopens.signingKey_eq,
      h.toMarked.renew (fun hcoin => absurd hcmd hcoin) fun hcoin => absurd hcmd hcoin,
      h.toShaped.renew hopens.formed⟩
  | @settle m c d lane hcctx hopen hsettles hformed =>
    have hindex := h.index_eq _ _ hcctx
    rw [← hindex] at hcctx
    refine ⟨h.toNumbered.renew (.of_settles hcctx hopen hsettles) hroom,
      h.toFiled.renew ?_, h.toMarked.renew ?_ ?_,
      h.toShaped.renew (hformed (h.formed _ _ hcctx))⟩
    · exact hsettles.signingKey_eq (h.signingKey_eq _ _ hcctx)
    · rw [hsettles.inbound_eq]
      exact h.marked _ c hcctx
    · rw [hsettles.inbound_eq, hsettles.index_eq]
      intro hcoin x e he hecoin horigin
      exact h.index_eq_of_origin_eq _ _ e c he hcctx hecoin hcoin horigin

end Step

end Accounts

end Settlement
