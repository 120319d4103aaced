import Settlement.Proofs.Queries

/-!
# The nonces that are issued

Nonces are reserved in four ways, by transitions that may be dropped afterwards: for an outbound
transaction, for the two kinds of reverts, and for a fund migration. The counter of a signing key
on a chain, the owners of its nonces, the set of those that are pending and the transactions
themselves are stored apart. They agree in every world that is reached.

Main statements: attempts carry exactly the nonces that were issued, each of them once
(`Settlement.Reachable.nonces_carried_once`), and those are pending that belong to attempts in
flight (`Settlement.Reachable.pending_nonces_exact`).
-/

namespace Settlement

variable {γ : Type}

/-- An attempt of a stored transaction carries a nonce of a signing key on a chain. The attempts
of a transaction are counted from zero. -/
def World.Carries (w : World γ) (x : Digest) (i : Nat) (key : String) (chainId : ChainId)
    (n : UInt64) : Prop :=
  ∃ c a, w.Stores x c ∧ c.attempts[i]? = some a ∧ a.signingKey = key ∧ a.chainId = chainId ∧
    a.nonce = some n

/-! ### Open tickets -/

/-- What it takes to have an open ticket. -/
theorem Cctx.openTicket?_eq_some_iff {c : Cctx} {t : Ticket} : c.openTicket? = some t ↔
    (c.status = .pendingOutbound ∨ c.status = .pendingRevert) ∧ c.current.ticket? = some t ∧
      c.current.isExecuted = false := by
  constructor
  · intro h
    obtain ⟨hticket, hstatus, hopen⟩ := eq_of_openTicket? h
    exact ⟨CctxStatus.awaitsOutbound_iff.1 hstatus, hticket, hopen⟩
  · rintro ⟨hstatus, hticket, hopen⟩
    rw [openTicket?_of_awaitsOutbound (CctxStatus.awaitsOutbound_iff.2 hstatus) hopen, hticket]

/-! ### Nonces and their owners -/

namespace World.Sound

variable {w : World γ} {x y : Digest} {i j : Nat} {key : String} {chainId : ChainId} {n : UInt64}

theorem carries_iff (h : w.Sound) : w.Carries x i key chainId n ↔
    ∃ c a, w.accounts.cctx x = some c ∧ c.attempts[i]? = some a ∧
      a.ticket? = some ⟨⟨key, chainId⟩, n⟩ := by
  simp only [Carries, h.stores_iff, Attempt.ticket?_eq_some_iff]

/-- The attempts of a transaction carry the nonces that it owns. -/
theorem exists_carries_iff (h : w.Sound) : (∃ i, w.Carries x i key chainId n) ↔
    w.accounts.owner ⟨⟨key, chainId⟩, n⟩ = some ⟨key, chainId, n, x⟩ := by
  refine Iff.trans ?_ (h.accounts.owner_iff ⟨⟨key, chainId⟩, n⟩ x).symm
  simp only [h.carries_iff, Cctx.tickets, List.mem_filterMap]
  constructor
  · rintro ⟨i, c, a, hc, ha, ht⟩
    exact ⟨c, hc, a, List.mem_of_getElem? ha, ht⟩
  · rintro ⟨c, hc, a, ha, ht⟩
    obtain ⟨i, hi⟩ := List.mem_iff_getElem?.1 ha
    exact ⟨i, c, a, hc, hi, ht⟩

/-- The owner that is stored for a nonce is the transaction that carries it. -/
theorem owner_eq_some_iff (h : w.Sound) {o : NonceOwner} :
    w.accounts.owner ⟨⟨key, chainId⟩, n⟩ = some o ↔
      ∃ x i, w.Carries x i key chainId n ∧ o = ⟨key, chainId, n, x⟩ := by
  constructor
  · intro ho
    have heq := h.accounts.owner_eq _ o ho
    obtain ⟨i, hi⟩ := h.exists_carries_iff.2 (heq ▸ ho)
    exact ⟨_, i, hi, heq⟩
  · rintro ⟨x, i, hi, rfl⟩
    exact h.exists_carries_iff.1 ⟨i, hi⟩

/-- **No nonce is carried twice.** -/
theorem slot_eq_of_carries (h : w.Sound) (hx : w.Carries x i key chainId n)
    (hy : w.Carries y j key chainId n) : x = y ∧ i = j := by
  have hindex : x = y := by
    have hxowner := h.exists_carries_iff.1 ⟨i, hx⟩
    have hyowner := h.exists_carries_iff.1 ⟨j, hy⟩
    exact congrArg NonceOwner.cctxIndex (Option.some.inj (hxowner.symm.trans hyowner))
  subst hindex
  obtain ⟨c, a, hc, ha, hat⟩ := h.carries_iff.1 hx
  obtain ⟨d, b, hd, hb, hbt⟩ := h.carries_iff.1 hy
  cases hc.symm.trans hd
  exact ⟨rfl, Cctx.slot_eq_of_ticket?_eq (h.accounts.nodup x c hc) ha hb hat hbt⟩

/-- **The nonces that are carried are those below the next one.** -/
theorem exists_carries_iff_lt (h : w.Sound) : (∃ x i, w.Carries x i key chainId n) ↔
    n < (w.accounts.nonces ⟨key, chainId⟩).next := by
  rw [← h.accounts.owner_isSome_iff ⟨⟨key, chainId⟩, n⟩, Option.isSome_iff_exists]
  simp only [h.owner_eq_some_iff]
  constructor
  · rintro ⟨x, i, hi⟩
    exact ⟨_, x, i, hi, rfl⟩
  · rintro ⟨_, x, i, hi, -⟩
    exact ⟨x, i, hi⟩

end World.Sound

section Runs

variable [Gateway γ] {service : Service} {w w' : World γ} {turns : List (Turn γ)} {key : String}
  {chainId : ChainId}

/-- **An attempt keeps its nonce.** -/
theorem Run.carries (hrun : Run service w turns w') (h : w.Sound) {x : Digest} {i : Nat}
    {n : UInt64} (hi : w.Carries x i key chainId n) : w'.Carries x i key chainId n := by
  obtain ⟨c, a, hc, ha, ht⟩ := h.carries_iff.1 hi
  obtain ⟨d, hd, hfollows⟩ := (hrun.extends h).cctx x c hc
  obtain ⟨b, hb, hab⟩ := hfollows.attempts i a ha
  exact (hrun.sound h).carries_iff.2 ⟨d, b, hd, hb, hab.ticket?_eq.trans ht⟩

/-- **Attempts carry exactly the nonces that were issued.** The nonces that the attempts of stored
transactions carry for a signing key and a chain are those below the next one of the nonce
record, or none if there is no record; each of them is carried by one attempt of one transaction.
An owner is stored for these nonces and no others, and it is that transaction. In every later
world the owners are the same, and every attempt has kept its nonce. -/
theorem Reachable.nonces_carried_once (h : Reachable service w) (key : String)
    (chainId : ChainId) :
    ∃ stored, Registry.nonceRecord? w.store.restored key chainId = .ok stored ∧
      (∀ n, (∃ x i, w.Carries x i key chainId n) ↔ n < (stored.map NonceRecord.next).getD 0) ∧
      (∀ n x y i j, w.Carries x i key chainId n → w.Carries y j key chainId n → x = y ∧ i = j) ∧
      (∀ n o, Registry.nonceOwner? w.store.restored key chainId n = .ok (some o) ↔
        ∃ x i, w.Carries x i key chainId n ∧ o = ⟨key, chainId, n, x⟩) ∧
      ∀ turns w', Run service w turns w' → ∀ n,
        (∀ o, Registry.nonceOwner? w.store.restored key chainId n = .ok (some o) →
          Registry.nonceOwner? w'.store.restored key chainId n = .ok (some o)) ∧
        ∀ x i, w.Carries x i key chainId n → w'.Carries x i key chainId n := by
  have hsound := h.sound
  have howner {w : World γ} (h : w.Sound) (n : UInt64) (o : NonceOwner) :
      Registry.nonceOwner? w.store.restored key chainId n = .ok (some o) ↔
        w.accounts.owner ⟨⟨key, chainId⟩, n⟩ = some o := by
    rw [h.nonceOwner?_eq ⟨⟨key, chainId⟩, n⟩, Except.ok.injEq]
  refine ⟨_, hsound.nonceRecord?_eq ⟨key, chainId⟩, fun n => ?_,
    fun n x y i j => hsound.slot_eq_of_carries, fun n o => ?_, fun turns w' hrun n => ⟨?_, ?_⟩⟩
  · rw [hsound.exists_carries_iff_lt, World.accounts, Ledger.accounts_nonces]
    cases w.store.ledger (.nonces key chainId) <;> rfl
  · rw [howner hsound, hsound.owner_eq_some_iff]
  · intro o ho
    rw [howner hsound] at ho
    exact (howner (hrun.sound hsound) n o).2 ((hrun.extends hsound).owner _ o ho)
  · exact fun x i => hrun.carries hsound

/-- The first nonce belongs to what was made of the deposit, and to its first attempt. -/
theorem Sample.nonce_of_deposit :
    Registry.nonceOwner? Sample.world.store.restored "key" Sample.chainId 0
      = .ok (some ⟨"key", Sample.chainId, 0, Sample.deposit.digest⟩) ∧
    ∀ x i, Sample.world.Carries x i "key" Sample.chainId 0 → x = Sample.deposit.digest ∧ i = 0 := by
  obtain ⟨_, -, -, honce, howner, -⟩ :=
    Reachable.nonces_carried_once Sample.reachable "key" Sample.chainId
  have hcarries : Sample.world.Carries Sample.deposit.digest 0 "key" Sample.chainId 0 :=
    ⟨Sample.cctx, Sample.cctx.outbound, Sample.stores, rfl, rfl, rfl, rfl⟩
  exact ⟨(howner 0 _).2 ⟨_, 0, hcarries, rfl⟩, fun x i hi => honce 0 _ _ _ _ hi hcarries⟩

/-! ### Pending nonces -/

/-- **Those nonces are pending that belong to attempts in flight**: a nonce of a signing key on a
chain is listed exactly if a stored transaction waits for the outcome of its outbound or its
revert, and its current attempt carries the nonce and is not executed. -/
theorem Reachable.pending_nonces_exact (h : Reachable service w) (key : String)
    (chainId : ChainId) :
    ∃ pending, Registry.pendingNonces w.store.restored key chainId = .ok pending ∧
      ∀ n, n ∈ pending.toList ↔ ∃ x c, w.Stores x c ∧
        (c.status = .pendingOutbound ∨ c.status = .pendingRevert) ∧
        c.current.signingKey = key ∧ c.current.chainId = chainId ∧ c.current.nonce = some n ∧
        c.current.isExecuted = false := by
  have hsound := h.sound
  refine ⟨_, hsound.pendingNonces_eq ⟨key, chainId⟩, fun n => ?_⟩
  have hpending := hsound.accounts.pending_iff ⟨⟨key, chainId⟩, n⟩
  rw [NonceSet.contains, List.contains_iff_mem] at hpending
  rw [hpending]
  simp only [hsound.stores_iff, Cctx.openTicket?_eq_some_iff, Attempt.ticket?_eq_some_iff,
    and_assoc]

/-- The nonce of the outbound transaction that the deposit waits for is pending. -/
theorem Sample.pending_of_deposit : ∃ pending,
    Registry.pendingNonces Sample.world.store.restored "key" Sample.chainId = .ok pending ∧
      0 ∈ pending.toList := by
  obtain ⟨pending, hpending, hmem⟩ :=
    Reachable.pending_nonces_exact Sample.reachable "key" Sample.chainId
  exact ⟨pending, hpending, (hmem 0).2
    ⟨_, _, Sample.stores, .inl rfl, rfl, rfl, rfl, rfl⟩⟩

end Runs

end Settlement
