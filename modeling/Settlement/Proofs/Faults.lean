import Settlement.Proofs.Inbound
import Settlement.Proofs.Intact
import Settlement.Proofs.Outbound

/-!
# What comes after the checks

A vote or a migration is checked before anything is written. What comes after the checks reads what
can be read, reserves a nonce that is there to be reserved, releases one that was issued, and goes
along an edge of the graph of states; the transaction passes the check before it is stored, because
it is well formed. None of that fails, unless the store does.

The vote that settles an attempt may give the next nonce of a lane to a revert before it releases
the nonce of the attempt, on the same lane perhaps. That this nonce still counts as issued then
needs that the next one is not the last that there is.

Main statements: a deposit (`Settlement.Journal.faults_deposit`) and the settlement of an attempt
(`Settlement.Journal.faults_settlement`) fail only as the store does.
-/

namespace Settlement

variable {σ γ : Type} [WritableStore σ] [LawfulStore σ] [Gateway γ] {F : StoreFault → Prop}
  {s : σ} {l : Ledger} {a : Accounts} {ballots : Digest → Option Ballot} {p : Progress σ}
  {config : SettlementConfig} {block : Block} {message : String}

section Faults

variable (hσ : FaultsWith F σ)

include hσ

/-! ### Nonces and marks -/

namespace Registry

theorem faults_nonceRecord? (h : Books s a ballots) {lane : Lane} (hfits : Fits (a.nonces lane)) :
    FailsWith (RegistryError.IsFault F) (nonceRecord? s lane.signingKey lane.chainId) := by
  obtain ⟨l, hl, rfl, rfl⟩ := h
  refine .storeError_lift (failsWith_getRecord_of_contents hσ
    (hl (.nonces lane.signingKey lane.chainId)) fun stored hstored => ?_)
  have hstored : l.accounts.nonces lane = stored := congrArg (Option.getD · _) hstored
  exact hstored ▸ hfits

omit hσ in
/-- An issued nonce has a record, which says so. -/
theorem exists_of_issued (h : Books s a ballots) {lane : Lane} {nonce : UInt64}
    (hfits : Fits (a.nonces lane)) (hissued : nonce < (a.nonces lane).next)
    {stored : Option NonceRecord}
    (hstored : nonceRecord? s lane.signingKey lane.chainId = .ok stored) :
    ∃ record, stored = some record ∧ nonce < record.next := by
  obtain ⟨l, hl, rfl, rfl⟩ := h
  obtain rfl := eq_of_nonceRecord? hl hfits hstored
  rw [l.accounts_nonces] at hissued
  cases hfound : l (.nonces lane.signingKey lane.chainId) with
  | none =>
    -- Without a record the first nonce is the next one.
    rw [hfound] at hissued
    exact absurd hissued (UInt64.not_lt.2 UInt64.zero_le)
  | some record =>
    rw [hfound] at hissued
    exact ⟨record, rfl, hissued⟩

/-- A nonce can be released if it was issued. -/
theorem faults_releaseNonce (h : Books s a ballots) {lane : Lane} {nonce : UInt64}
    (hfits : Fits (a.nonces lane)) (hissued : nonce < (a.nonces lane).next) :
    FailsWith (RegistryError.IsFault F)
      (releaseNonce s lane.signingKey lane.chainId nonce) := by
  refine (faults_nonceRecord? hσ h hfits).bind fun stored hstored => ?_
  obtain ⟨record, rfl, hlt⟩ := exists_of_issued h hfits hissued hstored
  dsimp only
  rw [NonceRecord.release?, if_neg (UInt64.not_le.2 hlt)]
  exact .ite (fun _ => .storeError_lift (hσ.writeAll (fun _ => id) s _)) fun _ => .ok _

/-- A mark of a migration has no lengths, so it can always be read. -/
theorem faults_fundMigration? (h : Books s a ballots) (chainId : ChainId) :
    FailsWith (RegistryError.IsFault F) (fundMigration? s chainId) := by
  obtain ⟨l, hl, -⟩ := h
  have hfits (migration : FundMigration) : Fits migration := ⟨trivial, trivial, trivial⟩
  exact .storeError_lift (failsWith_getRecord_of_contents hσ (hl (.fundMigration chainId))
    fun migration _ => hfits migration)

end Registry

/-! ### Steps -/

namespace Progress

omit [WritableStore σ] [LawfulStore σ] hσ in
theorem faults_advance {next : CctxStatus} (h : p.cctx.status.canBecome next = true) :
    FailsWith (SettlementError.IsFault F) (p.advance next message block) := by
  refine failsWith_advance fun hnot => ?_
  rw [h] at hnot
  cases hnot

omit [WritableStore σ] [LawfulStore σ] hσ in
theorem faults_abort (h : p.cctx.status.canBecome .aborted = true) :
    FailsWith (SettlementError.IsFault F) (p.abort message block) :=
  faults_advance (by rwa [Cctx.executeCurrent, Cctx.status_updateCurrent])

theorem faults_assignNonce (h : Books p.store a ballots)
    (hfits : Fits (a.nonces p.cctx.current.lane)) :
    FailsWith (SettlementError.IsFault F) p.assignNonce := by
  have hread := Registry.faults_nonceRecord? hσ h hfits
  exact failsWith_assignNonce hσ hread fun fault hfault => hfault

/-- A nonce is given without a change of state, which may be changed then. -/
theorem faults_send {next : CctxStatus} (h : Books p.store a ballots)
    (hfits : Fits (a.nonces p.cctx.current.lane)) (hnext : p.cctx.status.canBecome next = true) :
    FailsWith (SettlementError.IsFault F)
      (do let p ← p.assignNonce; p.advance next message block) := by
  refine (faults_assignNonce hσ h hfits).bind fun p₁ hassign => faults_advance ?_
  obtain ⟨nonce, hcctx⟩ := exists_nonce_of_assignNonce hassign
  rwa [hcctx, Cctx.setNonce, Cctx.status_updateCurrent]

omit [LawfulStore σ] in
theorem faults_save (h : p.cctx.Formed) : FailsWith (SettlementError.IsFault F) p.save := by
  refine failsWith_save hσ ?_ fun _ => id
  rw [h.validate]
  exact .ok ()

end Progress

namespace Journal

omit [LawfulStore σ] in
theorem faults_finish {receipt : VoteReceipt} (h : p.cctx.Formed) :
    FailsWith (SettlementError.IsFault F) (finish receipt p) :=
  (Progress.faults_save hσ h).bind_pure _

/-! ### Deposits -/

theorem faults_startRevert (h : Books p.store a ballots) (hblank : p.cctx.IsBlank)
    (hfits : ∀ chainId, Fits (a.nonces ⟨p.cctx.outbound.signingKey, chainId⟩)) :
    FailsWith (SettlementError.IsFault F) (startRevert config p message block) := by
  rw [startRevert]
  split
  · exact Progress.faults_abort (by rw [hblank.status_eq]; rfl)
  · next c hrevert =>
    obtain ⟨-, rfl⟩ := Cctx.eq_of_addRevert hrevert
    refine Progress.faults_send hσ h (hfits p.cctx.inbound.senderChain) ?_
    exact (congrArg (CctxStatus.canBecome · .pendingRevert) hblank.status_eq).trans rfl

theorem faults_settleDeposit {d : Destination} {answer : DepositAnswer}
    (h : Books p.store a ballots) (hblank : p.cctx.IsBlank)
    (hfits : ∀ chainId, Fits (a.nonces ⟨p.cctx.outbound.signingKey, chainId⟩)) :
    FailsWith (SettlementError.IsFault F) (settleDeposit config p d answer block) := by
  have hcurrent : p.cctx.current = p.cctx.outbound := Cctx.current_eq_outbound hblank.revert_eq
  cases answer with
  | ok receipt =>
    rw [settleDeposit]
    split
    · exact Progress.faults_advance
        ((congrArg (CctxStatus.canBecome · .outboundMined) hblank.status_eq).trans rfl)
    · exact Progress.faults_send hσ h (hcurrent ▸ hfits _) (by rw [hblank.status_eq]; rfl)
  | error e =>
    rw [settleDeposit]
    split
    · exact faults_startRevert hσ h hblank hfits
    · exact Progress.faults_abort (by rw [hblank.status_eq]; rfl)

/-- **Whatever the gateway answers, a deposit fails only as the store does.** -/
theorem faults_deposit {g : γ} (h : Books p.store a ballots) (hblank : p.cctx.IsBlank)
    (hfits : ∀ chainId, Fits (a.nonces ⟨p.cctx.outbound.signingKey, chainId⟩)) :
    FailsWith (SettlementError.IsFault F) (deposit config g p block).1 := by
  rw [deposit]
  split
  · exact Progress.faults_abort (by rw [hblank.status_eq]; rfl)
  · exact faults_settleDeposit hσ h hblank hfits

/-- **So does all that comes after a report is taken in.** -/
theorem faults_opened {g : γ} {m : InboundVote} {policy : StalePolicy} {receipt : VoteReceipt}
    (h : Records s l) (hl : l.Legible) (hballots : BallotsFiled l.ballots)
    (hintake : intake policy config s block m = .ok (.opened receipt p)) :
    FailsWith (SettlementError.IsFault F)
      ((deposit config g p block).1.bind (finish receipt)) := by
  obtain ⟨outcome, ballots, htaken, -, -, key, hkey, hcctx, -, hbooks⟩ :=
    taken_of_intake h hl hballots hintake
  have hopened : Opened l m key p.cctx := opened_ofInbound hkey hcctx
  have hcoin : p.cctx.inbound.coinType ≠ .cmd := hopened.coinType_eq ▸ htaken.coinType_ne
  have hfits := hopened.fits_nonces hl
  refine (faults_deposit hσ hbooks hopened.isBlank hfits).bind fun p' hdeposit => ?_
  obtain ⟨_, hstarts, -⟩ := starts_of_deposit hbooks hopened.isBlank hcoin hfits
    (Prod.ext hdeposit rfl : deposit config g p block = (.ok p', _))
  exact faults_finish hσ hstarts.formed

/-! ### Fund migrations -/

/-- **A transfer that has been checked can be sent, stored and marked.** -/
theorem faults_transfer {α : Type} {migration : FundMigration} {f : Progress σ → σ → α}
    (h : Books p.store a ballots) (hblank : p.cctx.IsBlank)
    (hfits : Fits (a.nonces p.cctx.outbound.lane)) (hmessage : message ≠ "") :
    FailsWith (SettlementError.IsFault F) (do
      let p ← p.assignNonce
      let p ← p.advance .pendingOutbound message block
      let p ← p.save
      let s ← Registry.setFundMigration p.store migration
      return f p s) := by
  have hcurrent : p.cctx.current = p.cctx.outbound := Cctx.current_eq_outbound hblank.revert_eq
  refine (Progress.faults_assignNonce hσ h (hcurrent ▸ hfits)).bind fun p₁ hassign => ?_
  refine (Progress.faults_advance ?_).bind fun p₂ hadvance => ?_
  · obtain ⟨nonce, hcctx⟩ := Progress.exists_nonce_of_assignNonce hassign
    rw [hcctx, Cctx.setNonce, Cctx.status_updateCurrent, hblank.status_eq]
    rfl
  have hstarts := (Progress.books_send h hblank hfits hassign hmessage hadvance).1
  refine (Progress.faults_save hσ hstarts.formed).bind fun p₃ _ => ?_
  exact .bind_pure (.registryError_lift (.storeError_lift (hσ.writeAll (fun _ => id) _ _))) _

end Journal

end Faults

/-! ### Attempts that are voted on -/

namespace Cctx

variable {c : Cctx}

/-- The transaction waits for the outcome of its first attempt, or for that of its revert. -/
def Waits (c : Cctx) : Prop :=
  c.status = .pendingOutbound ∧ c.isReverting = false ∨
    c.status = .pendingRevert ∧ c.isReverting = true

theorem Formed.waits (h : c.Formed) (hawaits : c.status.awaitsOutbound = true) : c.Waits := by
  have hstage := h.isAt
  rcases CctxStatus.awaitsOutbound_iff.1 hawaits with hstatus | hstatus
  · rw [hstatus] at hstage
    obtain ⟨hnone, -⟩ := hstage
    exact .inl ⟨hstatus, by rw [isReverting, hnone]; rfl⟩
  · rw [hstatus] at hstage
    obtain ⟨-, -, a, ha, -⟩ := hstage
    exact .inr ⟨hstatus, by rw [isReverting, ha]; rfl⟩

theorem Waits.updateCurrent (h : c.Waits) (f : Attempt → Attempt) :
    (c.updateCurrent f).Waits := by
  rw [Waits, c.status_updateCurrent, c.isReverting_updateCurrent]
  exact h

end Cctx

/-- The nonce of an attempt is an issued one, also after the nonce that a revert may get. -/
theorem Accounts.Sound.lt_next_of_nonce (h : a.Sound)
    (hroom : ∀ lane, (a.nonces lane).next.toNat + 1 < UInt64.size) {x y : Digest} {c : Cctx}
    {attempt : Attempt} {nonce : UInt64} (hc : a.cctx x = some c) (hmem : attempt ∈ c.attempts)
    (hnonce : attempt.nonce = some nonce) (lane : Option Lane) :
    nonce < ((a.issueOn y lane).nonces attempt.lane).next := by
  have hticket : attempt.ticket? = some ⟨attempt.lane, nonce⟩ := by
    rw [Attempt.ticket?, hnonce]
    rfl
  have howner := (h.owner_iff ⟨attempt.lane, nonce⟩ x).2
    ⟨c, hc, List.mem_filterMap.2 ⟨attempt, hmem, hticket⟩⟩
  have hlt := (h.owner_isSome_iff ⟨attempt.lane, nonce⟩).1 (by rw [howner]; rfl)
  exact (a.lt_next_issueOn y lane (fun lane _ => hroom lane) ⟨attempt.lane, nonce⟩).2 (.inr hlt)

namespace Journal

/-- What is observed of the attempt in flight leaves the key of the first one alone, which can be
read. -/
theorem fits_of_observe {m : OutboundVote} {c c₁ : Cctx} {verdict : BallotStatus} (hl : l.Legible)
    (hc : l.accounts.cctx m.cctxIndex = some c)
    (hopen : c.openTicket? = some ⟨⟨c.current.signingKey, m.chainId⟩, m.nonce⟩)
    (hobserve : (c.updateCurrent fun a => { a with ballotIndex := some m.digest }).observe m
      verdict = .ok c₁) : Fits c₁.outbound.signingKey := by
  have hkey : Fits c.outbound.signingKey := hl.fits_signingKey hc
  rw [(retains_of_observe (Cctx.eq_of_openTicket? hopen).2.2 hobserve).outbound.signingKey_eq]
  exact hkey

/-- **Once an attempt is settled, its nonce still counts as issued**, whatever was given to its
revert. -/
theorem issued_of_settle {m : OutboundVote} {c c₁ : Cctx} {ballot : Ballot} {effects : Effects}
    (hl : l.Legible) (hsound : l.accounts.Sound)
    (hroom : ∀ lane, (l.accounts.nonces lane).next.toNat + 1 < UInt64.size)
    (hc : l.accounts.cctx m.cctxIndex = some c)
    (hopen : c.openTicket? = some ⟨⟨c.current.signingKey, m.chainId⟩, m.nonce⟩)
    (h : Books s l.accounts ballots)
    (hobserve : (c.updateCurrent fun a => { a with ballotIndex := some m.digest }).observe m
      ballot.status = .ok c₁)
    (hsettle : settle config ⟨s, c₁, effects⟩ ballot block = .ok p) :
    ∃ b, Books p.store b ballots ∧ Fits (b.nonces c.current.lane) ∧
      ∀ nonce, c.current.nonce = some nonce → nonce < (b.nonces c.current.lane).next := by
  have hkey : Fits c.current.lane.signingKey := by
    rw [Attempt.lane, hsound.signingKey_eq _ _ hc _ c.current_mem_attempts]
    exact hl.fits_signingKey hc
  obtain ⟨lane, -, hsettled, -⟩ := settling_of_settle (p := ⟨s, c₁, _⟩) h
    (hl.fits_nonces (fits_of_observe hl hc hopen hobserve)) hsettle
  exact ⟨_, hsettled, hl.fits_nonces_issueOn hkey _ lane, fun nonce hnonce =>
    hsound.lt_next_of_nonce hroom hc c.current_mem_attempts hnonce lane⟩

section Settle

variable (hσ : FaultsWith F σ)

include hσ

/-- **The outcome of the attempt in flight can be settled**, whatever it is. -/
theorem faults_settle {ballot : Ballot} (h : Books p.store a ballots) (hwaits : p.cctx.Waits)
    (hfits : Fits (a.nonces ⟨p.cctx.outbound.signingKey, p.cctx.inbound.senderChain⟩))
    (hdecided : ballot.isFinalized = true) :
    FailsWith (SettlementError.IsFault F) (settle config p ballot block) := by
  rw [settle]
  cases hverdict : ballot.status with
  | pending =>
    rw [Ballot.isFinalized, hverdict] at hdecided
    cases hdecided
  | success =>
    have hexecuted : p.cctx.executeCurrent.Waits := hwaits.updateCurrent .execute
    simp only [settleSuccess]
    rcases hexecuted with ⟨hstatus, hreverting⟩ | ⟨hstatus, hreverting⟩
    · rw [if_neg (by simp [hreverting])]
      exact Progress.faults_advance (by rw [hstatus]; rfl)
    · rw [if_pos hreverting]
      exact Progress.faults_advance (by rw [hstatus]; rfl)
  | failure =>
    simp only [settleFailure]
    rcases hwaits with ⟨hstatus, hreverting⟩ | ⟨hstatus, -⟩
    · have habort (message : String) :
          FailsWith (SettlementError.IsFault F) (p.abort message block) :=
        Progress.faults_abort (by rw [hstatus]; rfl)
      rw [hstatus]
      dsimp only
      split
      · exact habort _
      · split
        · exact habort _
        · next c hrevert =>
          obtain ⟨-, rfl⟩ := Cctx.eq_of_addRevert hrevert
          exact Progress.faults_send hσ h hfits
            ((congrArg (CctxStatus.canBecome · .pendingRevert) hstatus).trans rfl)
    · rw [hstatus]
      exact Progress.faults_abort (by rw [hstatus]; rfl)

/-- The nonce of an attempt can be released if it was issued. -/
theorem faults_releaseAttempt {attempt : Attempt} (h : Books s a ballots)
    (hfits : Fits (a.nonces attempt.lane))
    (hissued : ∀ nonce, attempt.nonce = some nonce → nonce < (a.nonces attempt.lane).next) :
    FailsWith (SettlementError.IsFault F) (releaseAttempt s attempt) := by
  rw [releaseAttempt]
  split
  · exact .ok s
  · next nonce hnonce =>
    have hrelease := Registry.faults_releaseNonce hσ h hfits (hissued nonce hnonce)
    refine .bind (.registryError_lift hrelease) fun s' _ => ?_
    exact .storeError_lift_settlement (hσ.writeAll (fun _ => id) s' _)

theorem faults_clearMigration (h : Books s a ballots) (c : Cctx) :
    FailsWith (SettlementError.IsFault F) (clearMigration s c) := by
  refine .ite (fun _ => .ok s) fun _ => ?_
  refine .bind (.registryError_lift (Registry.faults_fundMigration? hσ h _)) fun stored _ => ?_
  split
  · exact .ok s
  · refine .ite (fun _ => ?_) fun _ => .ok s
    exact .registryError_lift (.storeError_lift (hσ.writeAll (fun _ => id) s _))

/-- **When the ballot is decided, only the store can fail**: the outcome is settled, the nonce
released, and the transaction is well formed. -/
theorem faults_settlement {m : OutboundVote} {c c₁ : Cctx} {ballot : Ballot} {effects : Effects}
    {receipt : VoteReceipt} (hl : l.Legible) (hsound : l.accounts.Sound)
    (hroom : ∀ lane, (l.accounts.nonces lane).next.toNat + 1 < UInt64.size)
    (hc : l.accounts.cctx m.cctxIndex = some c)
    (hopen : c.openTicket? = some ⟨⟨c.current.signingKey, m.chainId⟩, m.nonce⟩)
    (h : Books s l.accounts ballots) (hdecided : ballot.isFinalized = true)
    (hobserve : (c.updateCurrent fun a => { a with ballotIndex := some m.digest }).observe m
      ballot.status = .ok c₁) :
    FailsWith (SettlementError.IsFault F) (do
      let p ← settle config ⟨s, c₁, effects⟩ ballot block
      let s ← releaseAttempt p.store c.current
      let s ← clearMigration s p.cctx
      finish receipt { p with store := s }) := by
  have hformed : c.Formed := hsound.formed _ c hc
  have hwaits : c₁.Waits := by
    rw [(eq_of_observe hobserve).1]
    have hawaits := (Cctx.eq_of_openTicket? hopen).2.1
    exact ((hformed.waits hawaits).updateCurrent _).updateCurrent _
  have hlane : Fits (l.accounts.nonces ⟨c₁.outbound.signingKey, c₁.inbound.senderChain⟩) :=
    hl.fits_nonces (fits_of_observe hl hc hopen hobserve)
  refine (faults_settle (p := ⟨s, c₁, effects⟩) hσ h hwaits hlane hdecided).bind fun p hsettle => ?_
  obtain ⟨b, hsettled, hfits, hissued⟩ :=
    issued_of_settle hl hsound hroom hc hopen h hobserve hsettle
  refine (faults_releaseAttempt hσ hsettled hfits hissued).bind fun s₂ hrelease => ?_
  obtain ⟨_, hdone, hreleased⟩ := settled_of_decided hl hsound.toFiled hc hopen h hobserve hsettle
    hrelease
  exact (faults_clearMigration hσ hreleased p.cctx).bind fun s₃ _ =>
    faults_finish (p := { p with store := s₃ }) hσ (hdone.formed hformed)

end Settle

end Journal

end Settlement
