import Settlement.Proofs.Accounts
import Settlement.Proofs.Ledger

/-!
# Accounts in the ledger

The accounts are a part of the ledger (`Settlement.Ledger.accounts`). Each operation of the
registry and of the journal on that part is one of the changes of accounts: entering a
transaction, marking an event, reserving and releasing a nonce. Everything else that is written
leaves the accounts as they are (`Settlement.Keeps.books`).

Ballots are not part of the accounts; that the operations here leave them alone is said besides.
-/

namespace Settlement

/-! ### The part of the ledger -/

/-- Whether a key is one of those under which accounts are kept. -/
def Key.IsAccount : Key → Prop
  | .cctx _ | .nonces _ _ | .nonceOwner _ _ _ | .finalizedInbound _ _ _ => True
  | _ => False

namespace Ledger

/-- The accounts in a ledger. -/
def accounts (l : Ledger) : Accounts where
  cctx x := l (.cctx x)
  nonces lane := (l (.nonces lane.signingKey lane.chainId)).getD
    (.fresh lane.signingKey lane.chainId)
  owner t := l (.nonceOwner t.lane.signingKey t.lane.chainId t.nonce)
  marked o := (l (.finalizedInbound o.chainId o.txHash o.eventIndex)).isSome

theorem accounts_nonces (l : Ledger) (lane : Lane) : l.accounts.nonces lane =
    (l (.nonces lane.signingKey lane.chainId)).getD (.fresh lane.signingKey lane.chainId) :=
  rfl

/-- The ballots in a ledger. -/
def ballots (l : Ledger) : Digest → Option Ballot := fun index => l (.ballot index)

theorem accounts_congr {l l' : Ledger} (h : ∀ k : Key, k.IsAccount → l' k.folded = l k.folded) :
    l'.accounts = l.accounts := by
  simp only [accounts]
  congr 1
  · exact funext fun x => h (.cctx x) trivial
  · exact funext fun lane => congrArg (Option.getD · _) (h (.nonces _ _) trivial)
  · exact funext fun t => h (.nonceOwner _ _ _) trivial
  · funext o
    have hkey := h (.finalizedInbound o.chainId o.txHash o.eventIndex) trivial
    rw [Key.folded, o.foldCase_txHash] at hkey
    exact congrArg Option.isSome hkey

/-- What is put under another key leaves the ballots as they are. -/
theorem ballots_set (l : Ledger) {k : Key} (v : k.Value) (hk : ∀ index, Key.ballot index ≠ k) :
    (l.set k v).ballots = l.ballots :=
  funext fun index => l.set_of_ne v (hk index)

/-- Entering a transaction. -/
theorem accounts_set_cctx (l : Ledger) (c : Cctx) :
    (l.set (.cctx c.index) c).accounts = l.accounts.file c := by
  simp only [accounts, Accounts.file]
  congr 1
  · funext x
    refine Eq.trans ?_ (Function.update_apply _ _ _ _).symm
    split
    · next h => subst h; exact l.set_self _ _
    · next h => exact l.set_of_ne _ fun heq => h (Key.cctx.inj heq)

/-- Marking an event. -/
theorem accounts_set_finalizedInbound (l : Ledger) (o : Origin) (f : FinalizedInbound) :
    (l.set (.finalizedInbound o.chainId o.txHash o.eventIndex) f).accounts
      = l.accounts.mark o := by
  simp only [accounts, Accounts.mark]
  congr 1
  · funext o'
    rw [Function.update_apply]
    split
    · next h => subst h; rw [l.set_self]; rfl
    · next h =>
      rw [l.set_of_ne]
      intro heq
      obtain ⟨hchain, hhash, hevent⟩ := Key.finalizedInbound.inj heq
      obtain ⟨_, _, _, _⟩ := o
      obtain ⟨_, _, _, _⟩ := o'
      simp_all

/-- Setting the nonces of a lane. -/
theorem accounts_set_nonces (l : Ledger) (lane : Lane) (r : NonceRecord) :
    (l.set (.nonces lane.signingKey lane.chainId) r).accounts
      = { l.accounts with nonces := Function.update l.accounts.nonces lane r } := by
  simp only [accounts]
  congr 1
  · funext lane'
    rw [Function.update_apply]
    split
    · next h => subst h; rw [l.set_self]; rfl
    · next h =>
      rw [l.set_of_ne]
      intro heq
      obtain ⟨hkey, hchain⟩ := Key.nonces.inj heq
      exact h (by cases lane; cases lane'; simp_all)

/-- Setting the owner of a ticket. -/
theorem accounts_set_nonceOwner (l : Ledger) (t : Ticket) (o : NonceOwner) :
    (l.set (.nonceOwner t.lane.signingKey t.lane.chainId t.nonce) o).accounts
      = { l.accounts with owner := Function.update l.accounts.owner t (some o) } := by
  simp only [accounts]
  congr 1
  · funext t'
    refine Eq.trans ?_ (Function.update_apply _ _ _ _).symm
    split
    · next h => subst h; exact l.set_self _ _
    · next h =>
      refine l.set_of_ne _ fun heq => h ?_
      obtain ⟨hkey, hchain, hnonce⟩ := Key.nonceOwner.inj heq
      obtain ⟨⟨_, _⟩, _⟩ := t
      obtain ⟨⟨_, _⟩, _⟩ := t'
      simp_all

end Ledger

/-! ### Books of a store -/

/-- Whether a key is one under which accounts or ballots are kept. -/
def Key.IsBooked : Key → Prop
  | .ballot _ => True
  | k => k.IsAccount

/-- The store keeps these accounts and these ballots. -/
def Books {σ : Type} [WritableStore σ] [LawfulStore σ] (s : σ) (a : Accounts)
    (ballots : Digest → Option Ballot) : Prop :=
  ∃ l, Records s l ∧ l.accounts = a ∧ l.ballots = ballots

section Books

variable {σ : Type} [WritableStore σ] [LawfulStore σ] {s s' : σ} {l : Ledger} {a : Accounts}
  {ballots : Digest → Option Ballot} {x : Digest} {lane : Lane}

theorem Records.books (h : Records s l) : Books s l.accounts l.ballots :=
  ⟨l, h, rfl, rfl⟩

/-- What is written elsewhere leaves the books as they are. -/
theorem Keeps.books (hkeeps : Keeps Key.IsBooked s s') (h : Books s a ballots) :
    Books s' a ballots := by
  obtain ⟨l, hl, rfl, rfl⟩ := h
  obtain ⟨l', hl', hsame⟩ := hkeeps l hl
  refine ⟨l', hl', Ledger.accounts_congr fun k hk => hsame k ?_, ?_⟩
  · cases k <;> trivial
  · exact funext fun index => hsame (.ballot index) trivial

/-! ### Transactions and events -/

namespace Journal

theorem eq_of_cctx? (h : Records s l) (hl : l.Legible) {stored : Option Cctx}
    (hstored : cctx? s x = .ok stored) : stored = l.accounts.cctx x := by
  exact getRecord_of_records h (.cctx x) (hl.fits (.cctx x))
    (storeError_lift_settlement_eq_ok_iff.1 hstored)

theorem eq_of_hasCctx (h : Books s a ballots) {found : Bool} (hfound : hasCctx s x = .ok found) :
    found = (a.cctx x).isSome := by
  obtain ⟨l, hl, rfl, -⟩ := h
  exact containsKey_of_records hl (.cctx x) (storeError_lift_settlement_eq_ok_iff.1 hfound)

theorem eq_of_isFinalized (h : Books s a ballots) {chainId : ChainId} {txHash : String}
    {eventIndex : UInt64} {found : Bool}
    (hfound : isFinalized s chainId txHash eventIndex = .ok found) :
    found = a.marked (.of chainId txHash eventIndex) := by
  obtain ⟨l, hl, rfl, -⟩ := h
  exact containsKey_of_records hl (.finalizedInbound chainId txHash eventIndex)
    (storeError_lift_settlement_eq_ok_iff.1 hfound)

theorem books_setCctx (h : Books s a ballots) {c : Cctx} (hset : setCctx s c = .ok s') :
    Books s' (a.file c) ballots := by
  obtain ⟨l, hl, rfl, rfl⟩ := h
  refine ⟨_, hl.put (.cctx c.index) (storeError_lift_settlement_eq_ok_iff.1 hset),
    l.accounts_set_cctx c, l.ballots_set _ ?_⟩
  rintro _ ⟨⟩

theorem books_setFinalized (h : Books s a ballots) {f : FinalizedInbound}
    (hset : setFinalized s f = .ok s') :
    Books s' (a.mark (.of f.chainId f.inboundHash f.eventIndex)) ballots := by
  obtain ⟨l, hl, rfl, rfl⟩ := h
  refine ⟨_, hl.put (.finalizedInbound f.chainId f.inboundHash f.eventIndex)
      (storeError_lift_settlement_eq_ok_iff.1 hset),
    l.accounts_set_finalizedInbound (.of f.chainId f.inboundHash f.eventIndex) f,
    l.ballots_set _ ?_⟩
  rintro _ ⟨⟩

end Journal

/-! ### Nonces -/

namespace Registry

theorem eq_of_nonceRecord? (h : Records s l) (hfits : Fits (l.accounts.nonces lane))
    {stored : Option NonceRecord}
    (hstored : nonceRecord? s lane.signingKey lane.chainId = .ok stored) :
    stored = l (.nonces lane.signingKey lane.chainId) := by
  refine getRecord_of_records h (.nonces lane.signingKey lane.chainId) (fun r hr => ?_)
    (storeError_lift_eq_ok_iff.1 hstored)
  have hr : l.accounts.nonces lane = r := congrArg (Option.getD · _) hr
  exact hr ▸ hfits

/-- The nonce that is reserved is the next one. -/
theorem books_reserveNonce (h : Books s a ballots) (hfits : Fits (a.nonces lane)) {n : UInt64}
    (hreserve : reserveNonce s lane.signingKey lane.chainId = .ok (n, s')) :
    n = (a.nonces lane).next ∧ Books s' { a with
      nonces := Function.update a.nonces lane (a.nonces lane).reserve.2 } ballots := by
  obtain ⟨l, hl, rfl, rfl⟩ := h
  simp only [reserveNonce, bind_eq_ok_iff, pure_eq_ok_iff, Prod.mk.injEq] at hreserve
  obtain ⟨stored, hstored, s₁, hput, rfl, rfl⟩ := hreserve
  obtain rfl := eq_of_nonceRecord? hl hfits hstored
  refine ⟨rfl, _, hl.put (.nonces lane.signingKey lane.chainId) (storeError_lift_eq_ok_iff.1 hput),
    l.accounts_set_nonces lane _, l.ballots_set _ ?_⟩
  rintro _ ⟨⟩

theorem books_setNonceOwner (h : Books s a ballots) (t : Ticket)
    (hset : setNonceOwner s t.lane.signingKey t.lane.chainId t.nonce x = .ok s') :
    Books s' { a with owner := Function.update a.owner t (some (t.ownedBy x)) } ballots := by
  obtain ⟨l, hl, rfl, rfl⟩ := h
  refine ⟨_, hl.put (.nonceOwner t.lane.signingKey t.lane.chainId t.nonce)
    (storeError_lift_eq_ok_iff.1 hset), l.accounts_set_nonceOwner t _, l.ballots_set _ ?_⟩
  rintro _ ⟨⟩

/-- A nonce that is released is not pending any more. If it was not pending, there was nothing
to do. -/
theorem books_releaseNonce (h : Books s a ballots) (hfits : Fits (a.nonces lane)) {n : UInt64}
    (hrelease : releaseNonce s lane.signingKey lane.chainId n = .ok s') :
    Books s' (a.retire ⟨lane, n⟩) ballots := by
  obtain ⟨l, hl, rfl, rfl⟩ := h
  simp only [releaseNonce, bind_eq_ok_iff] at hrelease
  obtain ⟨stored, hstored, hrelease⟩ := hrelease
  obtain rfl := eq_of_nonceRecord? hl hfits hstored
  have hnonces := l.accounts_nonces lane
  -- Where nothing is written, the nonce was not pending.
  have hidle (hn : (l.accounts.nonces lane).pending.contains n = false) :
      l.accounts.retire ⟨lane, n⟩ = l.accounts := by
    simp only [Accounts.retire, NonceSet.erase_of_not_contains hn, Function.update_eq_self]
  cases hfound : l (.nonces lane.signingKey lane.chainId) with
  | none =>
    rw [hfound] at hrelease hnonces
    cases hrelease
    exact ⟨l, hl, (hidle (by rw [hnonces]; rfl)).symm, rfl⟩
  | some r =>
    rw [hfound] at hrelease hnonces
    simp only at hrelease
    split at hrelease
    · simp at hrelease
    · next wasPending r' hr' =>
      rw [NonceRecord.release?] at hr'
      split at hr'
      · cases hr'
      · cases hr'
        rcases ite_eq_ok_iff.1 hrelease with ⟨hpending, hput⟩ | ⟨hpending, hsame⟩
        · refine ⟨_, hl.put (.nonces lane.signingKey lane.chainId)
            (storeError_lift_eq_ok_iff.1 hput), (l.accounts_set_nonces lane _).trans ?_,
            l.ballots_set _ ?_⟩
          · rw [Accounts.retire, hnonces]
            rfl
          · rintro _ ⟨⟩
        · cases hsame
          refine ⟨l, hl, (hidle ?_).symm, rfl⟩
          rw [hnonces]
          exact Bool.not_eq_true _ ▸ hpending

end Registry

/-- **The attempt in flight is given the next ticket of its lane.** -/
theorem Progress.books_assignNonce {p p' : Progress σ} (h : Books p.store a ballots)
    (hfits : Fits (a.nonces p.cctx.current.lane)) (hassign : p.assignNonce = .ok p') :
    p'.cctx = p.cctx.setNonce (some (a.nonces p.cctx.current.lane).next) ∧
      Books p'.store (a.issue p.cctx.current.lane p.cctx.index) ballots := by
  simp only [assignNonce, bind_eq_ok_iff, registryError_lift_eq_ok_iff, pure_eq_ok_iff] at hassign
  obtain ⟨⟨n, s₁⟩, hreserve, s₂, hset, rfl⟩ := hassign
  have hreserve : Registry.reserveNonce p.store p.cctx.current.lane.signingKey
      p.cctx.current.lane.chainId = .ok (n, s₁) := hreserve
  obtain ⟨rfl, h₁⟩ := Registry.books_reserveNonce h hfits hreserve
  exact ⟨rfl, Registry.books_setNonceOwner h₁ (a.nextTicket p.cctx.current.lane) hset⟩

end Books

/-! ### Room for nonces -/

namespace NonceRecord

variable {r : NonceRecord}

/-- With one nonce more, the lengths in a record are still words. -/
theorem fits_reserve (hkey : Fits r.signingKey) (hsize : r.pending.size + 1 < UInt64.size) :
    Fits r.reserve.2 :=
  ⟨hkey, trivial, trivial, Nat.lt_of_le_of_lt (NonceSet.length_insertWord_le _ _) hsize,
    fun _ _ => trivial⟩

/-- A record of less than a word of bytes has room for one nonce more. -/
theorem size_lt (h : (Record.encode r).length < UInt64.size) :
    r.pending.size + 1 < UInt64.size := by
  change (Layout.write r.signingKey ++ (Layout.write r.chainId ++ (Layout.write r.next
    ++ (Bytes.little 8 r.pending.toList.length ++ r.pending.toList.flatMap Layout.write)))).length
    + 1 < _ at h
  have hlen := length_le_flatMap r.pending.toList
  simp only [List.length_append, Bytes.length_little] at h
  rw [NonceSet.size]
  omega

end NonceRecord

section Room

variable {l : Ledger} {lane : Lane}

/-- The nonces of a lane can be read from a legible ledger. -/
theorem Ledger.Legible.fits_nonces (h : l.Legible) (hkey : Fits lane.signingKey) :
    Fits (l.accounts.nonces lane) := by
  rw [accounts_nonces]
  cases hr : l (.nonces lane.signingKey lane.chainId) with
  | none => exact ⟨hkey, trivial, trivial, (by decide : 0 < UInt64.size), by rintro _ ⟨⟩⟩
  | some r => exact h.fits (.nonces lane.signingKey lane.chainId) r hr

/-- So can they after one nonce more. -/
theorem Ledger.Legible.fits_nonces_issueOn (h : l.Legible) (hkey : Fits lane.signingKey)
    (x : Digest) (issued : Option Lane) : Fits ((l.accounts.issueOn x issued).nonces lane) := by
  cases issued with
  | none => exact h.fits_nonces hkey
  | some issued =>
    rw [Accounts.issueOn, Accounts.issue_nonces]
    split
    · next hlane =>
      subst hlane
      refine NonceRecord.fits_reserve (h.fits_nonces hkey).1 ?_
      rw [accounts_nonces]
      cases hr : l (.nonces lane.signingKey lane.chainId) with
      | none => exact (by decide : 1 < UInt64.size)
      | some r => exact NonceRecord.size_lt (h (.nonces lane.signingKey lane.chainId) r hr)
    · exact h.fits_nonces hkey

/-- The signing key of a stored transaction can be read. -/
theorem Ledger.Legible.fits_signingKey (h : l.Legible) {x : Digest} {c : Cctx}
    (hc : l.accounts.cctx x = some c) : Fits c.outbound.signingKey :=
  have hfits : Fits c := h.fits (.cctx x) c hc
  hfits.2.2.2.2.1.2.2.2.2.2.1

end Room

end Settlement
