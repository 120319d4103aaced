import Settlement.Proofs.NonceIssuance

/-!
# Work lists

A signer asks which transactions it has to sign on a chain. The answer is put together from three
places: the pending nonces lead to owners, the owners to transactions, and what does not fit is
left out without a word. In every world that is reached nothing has to be left out
(`Settlement.World.Sound.pendingCctxsOf_eq`), and the list has what it should have
(`Settlement.Reachable.work_list_exact`).
-/

namespace Settlement

variable {γ : Type}

/-- A well-formed transaction that waits for an outcome has an open ticket. -/
theorem Cctx.Formed.exists_openTicket? {c : Cctx} (h : c.Formed)
    (hstatus : c.status = .pendingOutbound ∨ c.status = .pendingRevert) :
    ∃ n, c.openTicket? = some ⟨c.current.lane, n⟩ := by
  have hstage := h.isAt
  have hcurrent : c.current.isExecuted = false ∧ c.current.nonce.isSome = true := by
    rcases hstatus with hstatus | hstatus
    · rw [hstatus] at hstage
      rw [current_eq_outbound hstage.1]
      exact hstage.2
    · rw [hstatus] at hstage
      obtain ⟨-, -, r, hr, hopen⟩ := hstage
      rw [current_eq_revert hr]
      exact hopen
  obtain ⟨n, hn⟩ := Option.isSome_iff_exists.1 hcurrent.2
  exact ⟨n, openTicket?_eq_some_iff.2
    ⟨hstatus, Attempt.ticket?_eq_some_iff.2 ⟨rfl, rfl, hn⟩, hcurrent.1⟩⟩

/-- The first of two transactions is signed before the second: the attempts in flight have
nonces, and that of the first is the lower one. -/
def Cctx.SignedBefore (c d : Cctx) : Prop :=
  ∃ m n, c.current.nonce = some m ∧ d.current.nonce = some n ∧ m < n

/-- Transactions are in the order in which they are to be signed if their open tickets are. -/
theorem Cctx.pairwise_signedBefore {cs : List Cctx} {lane : Lane} {ns : List UInt64}
    (htickets : cs.map openTicket? = ns.map fun n => some ⟨lane, n⟩)
    (hsorted : ns.Pairwise (· < ·)) : cs.Pairwise SignedBefore := by
  have hpairs : (cs.map openTicket?).Pairwise fun s t =>
      ∃ m n, s = some ⟨lane, m⟩ ∧ t = some ⟨lane, n⟩ ∧ m < n := by
    rw [htickets, List.pairwise_map]
    exact hsorted.imp fun hlt => ⟨_, _, rfl, rfl, hlt⟩
  refine (List.pairwise_map.1 hpairs).imp fun ⟨m, n, hm, hn, hlt⟩ => ⟨m, n, ?_, ?_, hlt⟩
  · exact (Attempt.ticket?_eq_some_iff.1 (eq_of_openTicket? hm).1).2.2
  · exact (Attempt.ticket?_eq_some_iff.1 (eq_of_openTicket? hn).1).2.2

namespace World.Sound

variable {w : World γ} {x y : Digest} {c d : Cctx} {t : Ticket} {lane : Lane} {n : UInt64}

/-- An open ticket belongs to one transaction. -/
theorem eq_of_openTicket? (h : w.Sound) (hc : w.accounts.cctx x = some c)
    (hct : c.openTicket? = some t) (hd : w.accounts.cctx y = some d)
    (hdt : d.openTicket? = some t) : c = d := by
  obtain rfl := h.accounts.index_eq_of_mem_tickets hc (Cctx.mem_tickets_of_openTicket? hct) hd
    (Cctx.mem_tickets_of_openTicket? hdt)
  exact Option.some.inj (hc.symm.trans hd)

/-- Of two stored transactions of which one is signed before the other, each has its own index. -/
theorem index_ne_of_signedBefore (h : w.Sound) (hc : w.accounts.cctx x = some c)
    (hd : w.accounts.cctx y = some d) (hbefore : c.SignedBefore d) : c.index ≠ d.index := by
  intro heq
  rw [← h.accounts.index_eq x c hc, heq, h.accounts.index_eq y d hd, hd] at hc
  obtain rfl := Option.some.inj hc
  obtain ⟨m, n, hm, hn, hlt⟩ := hbefore
  obtain rfl := Option.some.inj (hm.symm.trans hn)
  exact UInt64.lt_irrefl _ hlt

/-- The pending nonces of a lane are those of its open tickets. -/
theorem mem_pending_iff (h : w.Sound) : n ∈ (w.accounts.nonces lane).pending.toList ↔
    ∃ x c, w.accounts.cctx x = some c ∧ c.openTicket? = some ⟨lane, n⟩ := by
  rw [← h.accounts.pending_iff ⟨lane, n⟩, NonceSet.contains, List.contains_iff_mem]

/-- **A transaction is found by its open ticket.** -/
theorem pendingCctx?_eq (h : w.Sound) (hc : w.accounts.cctx x = some c)
    (ht : c.openTicket? = some ⟨lane, n⟩) :
    Journal.pendingCctx? w.store.restored lane.signingKey lane.chainId n = .ok (some c) := by
  have howner := h.nonceOwner?_eq ⟨lane, n⟩
  rw [(h.accounts.owner_iff _ x).2 ⟨c, hc, Cctx.mem_tickets_of_openTicket? ht⟩] at howner
  have hread := h.cctx?_eq x
  rw [hc] at hread
  obtain ⟨hticket, -, hopen⟩ := Cctx.eq_of_openTicket? ht
  obtain ⟨-, hchain, hnonce⟩ := Attempt.ticket?_eq_some_iff.1 hticket
  exact bind_eq_ok_iff.2 ⟨_, registryError_lift_eq_ok_iff.2 howner,
    bind_eq_ok_iff.2 ⟨_, hread, if_pos ⟨hnonce, hchain, by rw [hopen]; rfl⟩⟩⟩

/-- **Nothing is left out**: for every nonce that belongs to an open ticket, its transaction is
found. -/
theorem pendingCctxsOf_eq (h : w.Sound) {ns : List UInt64}
    (hns : ∀ n ∈ ns, ∃ x c, w.accounts.cctx x = some c ∧ c.openTicket? = some ⟨lane, n⟩) :
    ∃ cs, Journal.pendingCctxsOf w.store.restored lane.signingKey lane.chainId ns = .ok cs ∧
      cs.map Cctx.openTicket? = ns.map (fun n => some ⟨lane, n⟩) ∧
      ∀ c ∈ cs, ∃ x, w.accounts.cctx x = some c := by
  induction ns with
  | nil => exact ⟨[], rfl, rfl, List.forall_mem_nil _⟩
  | cons n ns ih =>
    obtain ⟨x, c, hc, ht⟩ := hns n List.mem_cons_self
    obtain ⟨cs, hcs, htickets, hstored⟩ := ih fun m hm => hns m (List.mem_cons_of_mem n hm)
    refine ⟨c :: cs, ?_, ?_, fun d hd => ?_⟩
    · rw [Journal.pendingCctxsOf, h.pendingCctx?_eq hc ht, hcs]
      rfl
    · rw [List.map_cons, List.map_cons, ht, htickets]
    · rcases List.mem_cons.1 hd with rfl | hd
      · exact ⟨x, hc⟩
      · exact hstored d hd

end World.Sound

section Runs

variable [Gateway γ] {service : Service} {w : World γ}

/-- **A work list has what is to be signed, once and in order**: the transactions that wait for
the outcome of an attempt which this key has to sign for this chain, all of them and no others,
no two with the same index, and by increasing nonces of these attempts. -/
theorem Reachable.work_list_exact (h : Reachable service w) (key : String) (chainId : ChainId) :
    ∃ cs, Journal.pendingCctxs w.store.restored key chainId = .ok cs ∧
      (∀ c, c ∈ cs ↔ (∃ x, w.Stores x c) ∧
        (c.status = .pendingOutbound ∨ c.status = .pendingRevert) ∧
        c.current.signingKey = key ∧ c.current.chainId = chainId) ∧
      (cs.map Cctx.index).Nodup ∧ cs.Pairwise Cctx.SignedBefore := by
  have hsound := h.sound
  have hpending : ∀ n ∈ (w.accounts.nonces ⟨key, chainId⟩).pending.toList,
      ∃ x c, w.accounts.cctx x = some c ∧ c.openTicket? = some ⟨⟨key, chainId⟩, n⟩ :=
    fun n hn => hsound.mem_pending_iff.1 hn
  obtain ⟨cs, hcs, htickets, hstored⟩ := hsound.pendingCctxsOf_eq hpending
  -- The open tickets are those of the pending nonces, in the order of these.
  have hordered : cs.Pairwise Cctx.SignedBefore :=
    Cctx.pairwise_signedBefore htickets (w.accounts.nonces ⟨key, chainId⟩).pending.sorted
  refine ⟨cs, bind_eq_ok_iff.2 ⟨_, registryError_lift_eq_ok_iff.2
    (hsound.pendingNonces_eq ⟨key, chainId⟩), hcs⟩, fun c => ⟨fun hc => ?_, ?_⟩, ?_, hordered⟩
  · obtain ⟨x, hx⟩ := hstored c hc
    obtain ⟨n, -, hn⟩ := List.mem_map.1 (htickets ▸ List.mem_map_of_mem hc)
    obtain ⟨hstatus, hticket, -⟩ := Cctx.openTicket?_eq_some_iff.1 hn.symm
    obtain ⟨hkey, hchain, -⟩ := Attempt.ticket?_eq_some_iff.1 hticket
    exact ⟨⟨x, hsound.stores_iff.2 hx⟩, hstatus, hkey, hchain⟩
  · rintro ⟨⟨x, hx⟩, hstatus, rfl, rfl⟩
    rw [hsound.stores_iff] at hx
    obtain ⟨n, ht⟩ := (hsound.accounts.formed x c hx).exists_openTicket? hstatus
    -- Its nonce is pending, and the transaction that is found for the nonce is this one.
    have hn := hsound.mem_pending_iff.2 ⟨x, c, hx, ht⟩
    have hfound : some ⟨c.current.lane, n⟩ ∈ cs.map Cctx.openTicket? := by
      rw [htickets]
      exact List.mem_map_of_mem hn
    obtain ⟨d, hd, hdt⟩ := List.mem_map.1 hfound
    obtain ⟨y, hy⟩ := hstored d hd
    rwa [hsound.eq_of_openTicket? hx ht hy hdt]
  · refine List.pairwise_map.2 (hordered.imp_of_mem fun {c d} hc hd hbefore => ?_)
    obtain ⟨x, hx⟩ := hstored c hc
    obtain ⟨y, hy⟩ := hstored d hd
    exact hsound.index_ne_of_signedBefore hx hy hbefore

/-- What was made of the deposit is on the work list of the key, as long as it waits for its
outbound transaction. -/
theorem Sample.mem_work_list : ∃ cs,
    Journal.pendingCctxs Sample.world.store.restored "key" Sample.chainId = .ok cs ∧
      Sample.cctx ∈ cs := by
  obtain ⟨cs, hcs, hmem, -⟩ := Reachable.work_list_exact Sample.reachable "key" Sample.chainId
  exact ⟨cs, hcs, (hmem _).2 ⟨⟨_, Sample.stores⟩, .inl rfl, rfl, rfl⟩⟩

end Runs

end Settlement
