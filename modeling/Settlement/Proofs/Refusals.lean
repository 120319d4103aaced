import Settlement.Proofs.Intact

/-!
# Refusals

An error that is not internal is a refusal (`Settlement.CallError.isInternal`). On an intact store
the registry only refuses, whether it is asked or told something. So does the journal when it is
asked, and when a hash is reported to it.
-/

namespace Settlement

theorem Journal.isInternal_chainError {e : RegistryError} (h : e.isInternal = false) :
    (chainError e).isInternal = false := by
  cases e with
  | unsupportedChain chainId => rfl
  | _ => exact h

section Steps

variable {σ : Type} [WritableStore σ] [LawfulStore σ] {s : σ}

/-! ### The registry -/

namespace Registry

section Reads

variable (h : Intact s)

include h

theorem refuses_get (k : Key) : FailsWith (fun e : RegistryError => e.isInternal = false)
    (liftM (getRecord s k.bytes : Except StoreError (Option k.folded.Value)) :
      Except RegistryError (Option k.folded.Value)) :=
  .storeError_lift (h.failsWith_getRecord k)

theorem refuses_list (r : KeyRange) : FailsWith (fun e : RegistryError => e.isInternal = false)
    (liftM (scanRecords s r.bytes : Except StoreError (List r.Value)) :
      Except RegistryError (List r.Value)) :=
  .storeError_lift (h.failsWith_scanRecords r)

theorem refuses_observerSet : FailsWith (fun e => e.isInternal = false) (observerSet s) :=
  (refuses_get h .observerSet).bind_pure _

theorem refuses_switches : FailsWith (fun e => e.isInternal = false) (switches s) :=
  (refuses_get h .switches).bind_pure _

theorem refuses_pendingNonces {signingKey : String} {chainId : ChainId} :
    FailsWith (fun e => e.isInternal = false) (pendingNonces s signingKey chainId) :=
  (refuses_get h (.nonces signingKey chainId)).bind_pure _

theorem refuses_currentKey : FailsWith (fun e => e.isInternal = false) (currentKey s) := by
  refine .bind (refuses_get h .currentKey) fun key _ => ?_
  cases key with
  | none => exact .error rfl
  | some key => exact .ok key

theorem refuses_newerKey? : FailsWith (fun e => e.isInternal = false) (newerKey? s) :=
  (refuses_currentKey h).bind fun _ _ => .bind_pure (refuses_list h .keyHistory) _

theorem refuses_supportedChain {id : ChainId} :
    FailsWith (fun e => e.isInternal = false) (supportedChain s id) := by
  refine .bind (refuses_get h (.chain id)) fun chain _ => ?_
  cases chain with
  | none => exact .error rfl
  | some chain =>
    refine .bind (refuses_get h (.chainParams id)) fun params _ => ?_
    cases params with
    | none => exact .error rfl
    | some params => exact .ite (fun _ => .ok _) fun _ => .error rfl

end Reads

section Writes

omit [LawfulStore σ]

theorem refuses_write (s : σ) (writes : List Write) :
    FailsWith (fun e : RegistryError => e.isInternal = false)
      (liftM (writeAll s writes) : Except RegistryError σ) :=
  .storeError_lift ((FaultsWith.any σ).writeAll (fun _ _ => rfl) s writes)

theorem refuses_setChainParams {params : ChainParams} :
    FailsWith (fun e => e.isInternal = false) (setChainParams s params) :=
  .guard (fun _ => rfl) fun _ => refuses_write s _

end Writes

section Changes

variable (h : Intact s)

include h

theorem refuses_addObserver {id : ObserverId} :
    FailsWith (fun e => e.isInternal = false) (addObserver s id) := by
  refine (refuses_observerSet h).bind fun observers _ => ?_
  split
  · exact .error rfl
  · exact refuses_write s _

theorem refuses_replaceObserver {old new : ObserverId} :
    FailsWith (fun e => e.isInternal = false) (replaceObserver s old new) := by
  refine (refuses_observerSet h).bind fun observers _ => .guard (fun _ => rfl) fun _ => ?_
  split
  · exact .error rfl
  · exact refuses_write s _

theorem refuses_registerChain {chain : Chain} {params : ChainParams} :
    FailsWith (fun e => e.isInternal = false) (registerChain s chain params) := by
  refine .bind (refuses_get h (.chain chain.chainId)) fun stored _ => ?_
  refine .guard (fun _ => rfl) fun _ => ?_
  exact .bind (refuses_write s _) fun s' _ => refuses_setChainParams

theorem refuses_updateChainParams {params : ChainParams} :
    FailsWith (fun e => e.isInternal = false) (updateChainParams s params) := by
  refine .bind (refuses_get h (.chain params.chainId)) fun stored _ => ?_
  exact .guard (fun _ => rfl) fun _ => refuses_setChainParams

theorem refuses_registerKey {key : SigningKey} {makeCurrent : Bool} :
    FailsWith (fun e => e.isInternal = false) (registerKey s key makeCurrent) := by
  have happend : FailsWith (fun e => e.isInternal = false) (appendKey s key) :=
    .bind (refuses_list h .keyHistory) fun history _ =>
      .guard (fun _ => rfl) fun _ => refuses_write s _
  exact happend.bind fun s' _ => .ite (fun _ => refuses_write s' _) fun _ => .ok s'

theorem refuses_activateKey {pubkey : String} :
    FailsWith (fun e => e.isInternal = false) (activateKey s pubkey) := by
  refine .bind (refuses_list h .keyHistory) fun history _ => ?_
  split
  · exact .error rfl
  · exact refuses_write s _

/-- **A vote on a ballot is taken or refused.** -/
theorem refuses_castVote {policy : StalePolicy} {request : VoteRequest} {height : UInt64} :
    FailsWith (fun e => e.isInternal = false) (castVote policy s request height) := by
  refine (refuses_observerSet h).bind fun observers _ => .check (fun _ => rfl) fun _ => ?_
  refine (refuses_supportedChain h).bind fun chain _ => ?_
  refine .bind (refuses_get h (.ballot request.ballot)) fun stored _ => ?_
  refine .guard (fun _ => rfl) fun _ => .ite (fun _ => .ok _) fun _ => .bind ?_ fun recorded _ => ?_
  -- A ballot refuses a vote that is none, and a second vote.
  · exact .mapError_of_forall _ fun refusal => by cases refusal <;> rfl
  · exact .ite
      (fun _ => .bind (refuses_write s _) fun s' _ => .bind_pure (refuses_write s' _) _)
      fun _ => .bind (.ok s) fun s' _ => .bind_pure (refuses_write s' _) _

/-- While ballots are pruned others are read. What is left by then is intact. -/
theorem refuses_pruneEntries {maxHeight : UInt64} {keys : List Bytes} {pruned : Nat} :
    FailsWith (fun e => e.isInternal = false) (pruneEntries maxHeight keys pruned s) := by
  induction keys generalizing s pruned with
  | nil => exact .ok _
  | cons bs rest ih =>
    have hrest {t t' : σ} {bs : Bytes} (ht : Intact t)
        (hdelete : (liftM (deleteRecord t bs) : Except RegistryError σ) = .ok t') : Intact t' :=
      ht.delete (storeError_lift_eq_ok_iff.1 hdelete)
    rw [pruneEntries]
    split
    · exact ih h
    · next height index _ =>
      refine .ite (fun _ => .ok _) fun _ => ?_
      refine .bind (refuses_get h (.ballot index)) fun ballot _ => ?_
      split
      · exact .bind (refuses_write s _) fun s₁ h₁ => ih (hrest h h₁)
      · refine .ite (fun _ => ?_) fun _ => ih h
        refine .bind (refuses_write s _) fun s₁ h₁ => ?_
        exact .bind (refuses_write s₁ _) fun s₂ h₂ => ih (hrest (hrest h h₁) h₂)

theorem refuses_pruneBallots {maxHeight : UInt64} :
    FailsWith (fun e => e.isInternal = false) (pruneBallots s maxHeight) := by
  exact .bind (.mapError_of_forall _ fun _ => rfl) fun entries _ => refuses_pruneEntries h

end Changes

end Registry

/-! ### The journal -/

namespace Journal

variable (h : Intact s)

omit [LawfulStore σ] in
theorem refuses_exists (s : σ) (bs : Bytes) :
    FailsWith (fun e : SettlementError => e.isInternal = false)
      (liftM (containsKey s bs) : Except SettlementError Bool) :=
  .storeError_lift_settlement (failsWith_containsKey s bs)

include h

theorem refuses_get (k : Key) : FailsWith (fun e : SettlementError => e.isInternal = false)
    (liftM (getRecord s k.bytes : Except StoreError (Option k.folded.Value)) :
      Except SettlementError (Option k.folded.Value)) :=
  .storeError_lift_settlement (h.failsWith_getRecord k)

theorem refuses_list (r : KeyRange) : FailsWith (fun e : SettlementError => e.isInternal = false)
    (liftM (scanRecords s r.bytes : Except StoreError (List r.Value)) :
      Except SettlementError (List r.Value)) :=
  .storeError_lift_settlement (h.failsWith_scanRecords r)

theorem refuses_supportedChain {id : ChainId} :
    FailsWith (fun e => e.isInternal = false) (supportedChain s id) :=
  failsWith_supportedChain (Registry.refuses_supportedChain h) fun _ => isInternal_chainError

theorem refuses_externalChain {id : ChainId} :
    FailsWith (fun e => e.isInternal = false) (externalChain s id) :=
  failsWith_externalChain (Registry.refuses_supportedChain h) (fun _ => isInternal_chainError) rfl

theorem refuses_ensureObserver {id : ObserverId} :
    FailsWith (fun e => e.isInternal = false) (ensureObserver s id) :=
  .bind (.registryError_lift (Registry.refuses_observerSet h)) fun _ _ =>
    .ite (fun _ => .ok _) fun _ => .error rfl

/-! ### Work lists -/

theorem refuses_pendingCctx? {signingKey : String} {chainId : ChainId} {nonce : UInt64} :
    FailsWith (fun e => e.isInternal = false) (pendingCctx? s signingKey chainId nonce) := by
  refine .bind (.registryError_lift (Registry.refuses_get h (.nonceOwner _ _ _)))
    fun owner _ => ?_
  cases owner with
  | none => exact .ok _
  | some owner =>
    refine .bind (refuses_get h (.cctx owner.cctxIndex)) fun c _ => ?_
    cases c with
    | none => exact .ok _
    | some c => exact .ite (fun _ => .ok _) fun _ => .ok _

theorem refuses_pendingCctxsOf {signingKey : String} {chainId : ChainId} {nonces : List UInt64} :
    FailsWith (fun e => e.isInternal = false) (pendingCctxsOf s signingKey chainId nonces) := by
  induction nonces with
  | nil => exact .ok _
  | cons nonce rest ih => exact (refuses_pendingCctx? h).bind fun _ _ => .bind_pure ih _

theorem refuses_pendingCctxs {signingKey : String} {chainId : ChainId} :
    FailsWith (fun e => e.isInternal = false) (pendingCctxs s signingKey chainId) :=
  .bind (.registryError_lift (Registry.refuses_pendingNonces h)) fun _ _ =>
    refuses_pendingCctxsOf h

/-! ### Trackers -/

theorem refuses_ownsUnsettled {signingKey : String} {chainId : ChainId} {nonce : UInt64} :
    FailsWith (fun e => e.isInternal = false) (ownsUnsettled s signingKey chainId nonce) := by
  refine .bind (.registryError_lift (Registry.refuses_get h (.nonceOwner _ _ _)))
    fun owner _ => ?_
  cases owner with
  | none => exact .ok _
  | some owner =>
    refine .bind (refuses_get h (.cctx owner.cctxIndex)) fun c _ => ?_
    cases c with
    | none => exact .ok _
    | some c => exact .ok _

theorem refuses_findOwner {chainId : ChainId} {nonce : UInt64} {candidates : List String} :
    FailsWith (fun e => e.isInternal = false) (findOwner s chainId nonce candidates) := by
  induction candidates with
  | nil => exact .ok _
  | cons signingKey rest ih =>
    exact (refuses_ownsUnsettled h).bind fun _ _ => .ite (fun _ => .ok _) fun _ => ih

theorem refuses_addOutboundTracker {config : SettlementConfig} {m : OutboundHashReport} :
    FailsWith (fun e => e.isInternal = false) (addOutboundTracker config s m) := by
  have hcandidates : FailsWith (fun e => e.isInternal = false) (candidateKeys s m.signingKey) := by
    rw [candidateKeys.eq_def]
    split
    · exact .ok _
    · exact .bind_pure (.registryError_lift (Registry.refuses_list h .keyHistory)) _
  refine .guard (fun _ => rfl) fun _ => ?_
  refine (refuses_supportedChain h).bind fun chain _ => ?_
  refine (refuses_ensureObserver h).bind fun _ _ => hcandidates.bind fun candidates _ => ?_
  refine (refuses_findOwner h).bind fun owner _ => ?_
  split
  swap
  · exact .error rfl
  refine .bind (refuses_get h (.outboundTracker _ _ _)) fun stored _ => ?_
  refine .ite (fun _ => .ok _) fun _ => .guard (fun _ => rfl) fun _ => ?_
  exact .storeError_lift_settlement ((FaultsWith.any σ).writeAll (fun _ _ => rfl) s _)

theorem refuses_addInboundTracker {m : InboundHashReport} :
    FailsWith (fun e => e.isInternal = false) (addInboundTracker s m) := by
  refine .guard (fun _ => rfl) fun _ => ?_
  refine (refuses_supportedChain h).bind fun chain _ => ?_
  refine (refuses_ensureObserver h).bind fun _ _ => ?_
  exact .storeError_lift_settlement ((FaultsWith.any σ).writeAll (fun _ _ => rfl) s _)

end Journal

end Steps

end Settlement
