import Settlement.Journal.Tracking
import Settlement.Proofs.Footprint
import Settlement.Proofs.Recorder

/-!
# Transitions on different stores

A transition does the same on two stores if it reads the same there. A view of stores keeps what is
read under some keys and takes every write (`Settlement.Views`); a vote whose keys are among them
does the same on a store and on its view. A chain of steps is followed link by link, and only the
steps that read or write have to be named.

One view is that of a record of writes as a draft, which keeps everything that is read. So every
transition makes the same draft and gives the same result whether it runs on a draft or on a record
of its writes, and those that are no votes do so by definition.

The transitions of the registry come first, then those of the journal.
-/

namespace Settlement

/-! ### Views of stores -/

section Views

variable {σ τ α : Type} [WritableStore σ] [WritableStore τ] [Layout α] {P : Key → Prop}
  {view : σ → τ} {k : Key}

/-- Through a view, the same is read under the keys of some families, among them the settings, and
every batch is written. -/
structure Views (P : Key → Prop) (view : σ → τ) : Prop where
  settings : ∀ k : Key, k.IsGoverned → P k
  get_eq : ∀ (s : σ) (k : Key), P k →
    ReadableStore.get (view s) k.bytes = ReadableStore.get s k.bytes
  contains_eq : ∀ (s : σ) (k : Key), P k →
    ReadableStore.contains (view s) k.bytes = ReadableStore.contains s k.bytes
  write_eq : ∀ (s : σ) (batch : List Write),
    WritableStore.write (view s) batch = (WritableStore.write s batch).map view

namespace Views

variable (h : Views P view)

include h

theorem getRecord_eq (hk : P k) (s : σ) :
    (getRecord (view s) k.bytes : Except StoreError (Option α)) = getRecord s k.bytes := by
  rw [getRecord, getRecord, h.get_eq s k hk]

theorem containsKey_eq (hk : P k) (s : σ) :
    containsKey (view s) k.bytes = containsKey s k.bytes := by
  rw [containsKey, containsKey, h.contains_eq s k hk]

theorem mirrors_putRecord (key : Bytes) (a : α) (s : σ) :
    Mirrors view (putRecord s key a) (putRecord (view s) key a) :=
  .mapError (h.write_eq s _)

theorem mirrors_deleteRecord (key : Bytes) (s : σ) :
    Mirrors view (deleteRecord s key) (deleteRecord (view s) key) :=
  .mapError (h.write_eq s _)

end Views

/-- The draft of a record of writes shows everything. -/
theorem Recorder.views {b : Backend} : Views (fun _ => True) (draft : Recorder b → Draft) :=
  ⟨fun _ _ => trivial, fun _ _ _ => rfl, fun _ _ _ => rfl, fun _ _ => rfl⟩

end Views

variable {σ τ γ : Type} [WritableStore σ] [WritableStore τ] {P : Key → Prop} {view : σ → τ}
  {b : Backend}

/-! ### The registry -/

namespace Registry

section Governance

variable (r : Recorder b)

theorem mirrors_addObserver (id : ObserverId) :
    Mirrors Recorder.draft (addObserver r id) (addObserver r.draft id) := by
  refine .read rfl fun observers => ?_
  cases observers.add? id with
  | none => exact .error _
  | some observers => rfl

theorem mirrors_replaceObserver (old new : ObserverId) :
    Mirrors Recorder.draft (replaceObserver r old new) (replaceObserver r.draft old new) := by
  refine .read rfl fun observers => .ite (.error _) ?_
  cases observers.replace? old new with
  | none => exact .error _
  | some observers => rfl

theorem mirrors_setChainParams (params : ChainParams) :
    Mirrors Recorder.draft (setChainParams r params) (setChainParams r.draft params) :=
  .ite (.error _) rfl

theorem mirrors_registerChain (chain : Chain) (params : ChainParams) :
    Mirrors Recorder.draft (registerChain r chain params) (registerChain r.draft chain params) :=
  .read rfl fun _ => .ite (.error _) (.write rfl fun r => mirrors_setChainParams r params)

theorem mirrors_updateChainParams (params : ChainParams) :
    Mirrors Recorder.draft (updateChainParams r params) (updateChainParams r.draft params) :=
  .read rfl fun _ => .ite (.error _) (mirrors_setChainParams r params)

theorem mirrors_appendKey (key : SigningKey) :
    Mirrors Recorder.draft (appendKey r key) (appendKey r.draft key) :=
  .read rfl fun _ => .ite (.error _) rfl

theorem mirrors_registerKey (key : SigningKey) (makeCurrent : Bool) :
    Mirrors Recorder.draft (registerKey r key makeCurrent)
      (registerKey r.draft key makeCurrent) :=
  .write (mirrors_appendKey r key) fun _ => .ite rfl (.ok _)

theorem mirrors_activateKey (pubkey : String) :
    Mirrors Recorder.draft (activateKey r pubkey) (activateKey r.draft pubkey) := by
  refine .read rfl fun history => ?_
  cases history.find? (·.pubkey == pubkey) with
  | none => exact .error _
  | some key => rfl

end Governance

section Votes

variable (h : Views P view) (s : σ)

include h

theorem view_observerSet : observerSet (view s) = observerSet s := by
  rw [observerSet, observerSet, h.getRecord_eq (k := .observerSet) (h.settings _ trivial)]

theorem view_switches : switches (view s) = switches s := by
  rw [switches, switches, h.getRecord_eq (k := .switches) (h.settings _ trivial)]

theorem view_currentKey : currentKey (view s) = currentKey s := by
  rw [currentKey, currentKey, currentKey?, currentKey?,
    h.getRecord_eq (k := .currentKey) (h.settings _ trivial)]

theorem view_supportedChain (id : ChainId) : supportedChain (view s) id = supportedChain s id := by
  rw [supportedChain, supportedChain, chain?, chain?, chainParams?, chainParams?,
    h.getRecord_eq (k := .chain id) (h.settings _ trivial),
    h.getRecord_eq (k := .chainParams id) (h.settings _ trivial)]

theorem mirrors_castVote (policy : StalePolicy) (request : VoteRequest) (height : UInt64)
    (hballot : P (.ballot request.ballot)) :
    Mirrors (Prod.map id view) (castVote policy s request height)
      (castVote policy (view s) request height) := by
  refine .read (view_observerSet h s) fun observers => .ite ?_ (.error _)
  refine .read (view_supportedChain h s _) fun _ => .read ?_ fun _ =>
    .ite (.error _) (.ite (.ok _) ?_)
  · rw [ballot?, ballot?, h.getRecord_eq hballot]
  have hput (s : σ) (b : Ballot) : Mirrors view (setBallot s b) (setBallot (view s) b) :=
    .mapError (h.mirrors_putRecord _ b s)
  have hentry (height : UInt64) (index : Digest) :
      Mirrors view (addHeightEntry s height index) (addHeightEntry (view s) height index) :=
    .mapError (h.mirrors_putRecord _ index s)
  have hkeep : Mirrors view (.ok s : Except RegistryError σ) (.ok (view s)) := .ok s
  refine .read rfl fun ballot => .ite ?_ ?_
  · exact .bind (hentry _ _) fun s => .bind (hput s _) fun s => .ok _
  · exact .bind hkeep fun s => .bind (hput s _) fun s => .ok _

variable (signingKey : String) (chainId : ChainId) (hnonces : P (.nonces signingKey chainId))

include hnonces

theorem view_nonceRecord? :
    nonceRecord? (view s) signingKey chainId = nonceRecord? s signingKey chainId := by
  rw [nonceRecord?, nonceRecord?, h.getRecord_eq hnonces]

theorem mirrors_reserveNonce :
    Mirrors (Prod.map id view) (reserveNonce s signingKey chainId)
      (reserveNonce (view s) signingKey chainId) :=
  .read (view_nonceRecord? h s signingKey chainId hnonces) fun _ =>
    .bind (.mapError (h.mirrors_putRecord _ _ s)) fun _ => .ok _

theorem mirrors_releaseNonce (nonce : UInt64) :
    Mirrors view (releaseNonce s signingKey chainId nonce)
      (releaseNonce (view s) signingKey chainId nonce) := by
  refine .read (view_nonceRecord? h s signingKey chainId hnonces) fun stored => ?_
  cases stored with
  | none => exact .ok _
  | some record =>
    cases hreleased : record.release? nonce with
    | none => simp only [hreleased]; exact .error _
    | some released =>
      simp only [hreleased]
      exact .ite (.mapError (h.mirrors_putRecord _ _ s)) (.ok _)

end Votes

section Pruning

variable (r : Recorder b)

theorem mirrors_pruneEntries (maxHeight : UInt64) (keys : List Bytes) (pruned : Nat) :
    Mirrors Recorder.seen (pruneEntries maxHeight keys pruned r)
      (pruneEntries maxHeight keys pruned r.draft) := by
  induction keys generalizing pruned r with
  | nil => exact .ok _
  | cons key rest ih =>
    rw [pruneEntries, pruneEntries]
    cases heightEntry? key with
    | none => exact ih r pruned
    | some entry =>
      refine .ite (.ok _) (.read rfl fun stored => ?_)
      cases stored with
      | none => exact .write rfl fun r => ih r pruned
      | some ballot =>
        refine .ite ?_ (ih r pruned)
        exact .write rfl fun r => .write rfl fun r => ih r (pruned + 1)

theorem mirrors_pruneBallots (maxHeight : UInt64) :
    Mirrors Recorder.seen (pruneBallots r maxHeight) (pruneBallots r.draft maxHeight) :=
  .read rfl fun _ => mirrors_pruneEntries r maxHeight _ 0

end Pruning

end Registry

/-! ### Steps of the journal -/

/-- A transition on the view of its store. -/
def Progress.through (view : σ → τ) (p : Progress σ) : Progress τ :=
  ⟨view p.store, p.cctx, p.effects⟩

omit [WritableStore σ] [WritableStore τ] in
@[simp]
theorem Progress.through_cctx (view : σ → τ) (p : Progress σ) : (p.through view).cctx = p.cctx :=
  rfl

/-- The result of a transition with the draft of its writes. -/
def Recorder.outcome {α β : Type} (p : α × Recorder b × β) : α × Draft × β :=
  (p.1, p.2.1.draft, p.2.2)

/-- Whether a key is one under which a vote on an inbound transaction reads, beside the settings. -/
def InboundVote.Reads (m : InboundVote) (k : Key) : Prop :=
  k = .ballot m.digest ∨ k = .cctx m.digest ∨
    k = .finalizedInbound m.senderChain m.inboundHash m.eventIndex ∨
    ∃ signingKey, k = .nonces signingKey m.receiverChain ∨ k = .nonces signingKey m.senderChain

/-- Whether the mark of a chain names a transaction, as far as it can be read. -/
def Registry.isMarkedFor {σ : Type} [ReadableStore σ] (s : σ) (chainId : ChainId) (index : Digest) :
    Except RegistryError Bool :=
  (fundMigration? s chainId).map fun mark => mark.any fun f => f.cctxIndex = index

/-- Through a view it is seen how the attempt in flight of a transaction is settled: which nonces
its lanes have, and whether the mark of its chain names it. -/
structure Cctx.SeenThrough (P : Key → Prop) (view : σ → τ) (c : Cctx) : Prop where
  current : P (.nonces c.current.signingKey c.current.chainId)
  revert : P (.nonces c.revertLane.signingKey c.revertLane.chainId)
  marked : ∀ s : σ, Registry.isMarkedFor (view s) c.outbound.chainId c.index
    = Registry.isMarkedFor s c.outbound.chainId c.index

namespace Progress

variable (p : Progress σ) (message : String) (block : Block)

omit [WritableStore σ] [WritableStore τ] in
theorem mirrors_advance (view : σ → τ) (next : CctxStatus) :
    Mirrors (through view) (p.advance next message block)
      ((p.through view).advance next message block) :=
  .read rfl fun _ => .ok _

omit [WritableStore σ] [WritableStore τ] in
theorem mirrors_abort (view : σ → τ) :
    Mirrors (through view) (p.abort message block) ((p.through view).abort message block) :=
  mirrors_advance { p with cctx := p.cctx.executeCurrent } message block view .aborted

variable (h : Views P view)

include h

theorem mirrors_assignNonce
    (hlane : P (.nonces p.cctx.current.signingKey p.cctx.current.chainId)) :
    Mirrors (through view) p.assignNonce (p.through view).assignNonce :=
  .bind (.mapError (Registry.mirrors_reserveNonce h p.store _ _ hlane)) fun _ =>
    .bind (.mapError (.mapError (h.mirrors_putRecord _ _ _))) fun _ => .ok _

/-- A revert is started on the view as it is on the store. -/
theorem mirrors_revert {c : Cctx} {gasLimit : UInt64} (hrevert : p.cctx.addRevert gasLimit = .ok c)
    (hlane : P (.nonces p.cctx.revertLane.signingKey p.cctx.revertLane.chainId))
    (next : CctxStatus) :
    Mirrors (through view)
      (do let p ← { p with cctx := c }.assignNonce; p.advance next message block)
      (do let p ← { p.through view with cctx := c }.assignNonce; p.advance next message block) := by
  obtain ⟨-, rfl⟩ := Cctx.eq_of_addRevert hrevert
  exact .bind (mirrors_assignNonce { p with cctx := _ } h hlane) fun p =>
    p.mirrors_advance message block view next

theorem mirrors_save : Mirrors (through view) p.save (p.through view).save :=
  .read rfl fun _ => .bind (.mapError (h.mirrors_putRecord _ p.cctx p.store)) fun _ => .ok _

end Progress

namespace Journal

/-! ### Votes on inbound transactions -/

section Inbound

variable [Gateway γ] (config : SettlementConfig) (block : Block) (h : Views P view)

/-- What a vote has come to, on the view of its store. -/
def Intake.through (view : σ → τ) : Intake σ → Intake τ
  | .counted receipt s effects => .counted receipt (view s) effects
  | .opened receipt p => .opened receipt (p.through view)

include h

theorem view_externalChain (s : σ) (id : ChainId) :
    externalChain (view s) id = externalChain s id := by
  rw [externalChain, externalChain, supportedChain, supportedChain,
    Registry.view_supportedChain h s id]

theorem mirrors_intake (policy : StalePolicy) (s : σ) (m : InboundVote)
    (hreads : ∀ k, m.Reads k → P k) :
    Mirrors (Intake.through view) (intake policy config s block m)
      (intake policy config (view s) block m) := by
  have hswitches := congrArg (Except.mapError SettlementError.registry)
    (Registry.view_switches h s)
  have hcurrent := congrArg (Except.mapError SettlementError.registry)
    (Registry.view_currentKey h s)
  have hmark : isFinalized (view s) m.senderChain m.inboundHash m.eventIndex
      = isFinalized s m.senderChain m.inboundHash m.eventIndex := by
    rw [isFinalized, isFinalized, h.containsKey_eq (hreads _ (.inr (.inr (.inl rfl))))]
  have habsent (s : σ) : hasCctx (view s) m.digest = hasCctx s m.digest := by
    rw [hasCctx, hasCctx, h.containsKey_eq (hreads _ (.inr (.inl rfl)))]
  have hmarked (s : σ) (f : FinalizedInbound) :
      Mirrors view (setFinalized s f) (setFinalized (view s) f) :=
    .mapError (h.mirrors_putRecord _ f s)
  have hremoved (s : σ) : Mirrors view (removeInboundTracker s m.senderChain m.inboundHash)
      (removeInboundTracker (view s) m.senderChain m.inboundHash) :=
    .mapError (h.mirrors_deleteRecord _ s)
  refine .read rfl fun _ => .read hswitches fun _ => .ite ?_ (.error _)
  refine .read (view_externalChain h s _) fun _ => ?_
  refine .ite (.read (view_externalChain h s _) fun _ => ?_) ?_
  all_goals
    refine .read hcurrent fun key => .read hmark fun _ => .ite (.error _) ?_
    refine .bind (.mapError (Registry.mirrors_castVote h s policy _ block.height
      (hreads _ (.inl rfl)))) fun ⟨_, s⟩ => ?_
    exact .ite (.ok _) (.bind (hmarked s _) fun s => .bind (hremoved s) fun s =>
      .ite (.ok _) (.read (habsent s) fun _ => .ite (.error _) (.ok _)))

variable (p : Progress σ)

theorem mirrors_startRevert
    (hrevert : P (.nonces p.cctx.revertLane.signingKey p.cctx.revertLane.chainId))
    (message : String) :
    Mirrors (Progress.through view) (startRevert config p message block)
      (startRevert config (p.through view) message block) := by
  rw [startRevert, startRevert, Progress.through_cctx]
  cases hc : p.cctx.addRevert config.revertGasLimit with
  | error e => exact p.mirrors_abort _ block view
  | ok c => exact p.mirrors_revert message block h hc hrevert .pendingRevert

theorem mirrors_settleDeposit
    (hrevert : P (.nonces p.cctx.revertLane.signingKey p.cctx.revertLane.chainId))
    (hcurrent : P (.nonces p.cctx.current.signingKey p.cctx.current.chainId))
    (d : Destination) (answer : DepositAnswer) :
    Mirrors (Progress.through view) (settleDeposit config p d answer block)
      (settleDeposit config (p.through view) d answer block) := by
  cases answer with
  | ok receipt =>
    refine .ite (Progress.mirrors_advance { p with cctx := paidOnHost p.cctx d receipt block } _
      block view .outboundMined) ?_
    exact .bind (p.mirrors_assignNonce h hcurrent) fun p =>
      p.mirrors_advance _ block view .pendingOutbound
  | error e =>
    exact .ite (mirrors_startRevert config block h p hrevert _) (p.mirrors_abort _ block view)

/-- The gateway is asked the same, and answers the same. -/
theorem mirrors_deposit
    (hrevert : P (.nonces p.cctx.revertLane.signingKey p.cctx.revertLane.chainId))
    (hcurrent : P (.nonces p.cctx.current.signingKey p.cctx.current.chainId)) (g : γ) :
    Mirrors (Progress.through view) (deposit config g p block).1
        (deposit config g (p.through view) block).1 ∧
      (deposit config g (p.through view) block).2 = (deposit config g p block).2 := by
  rw [deposit, deposit, Progress.through_cctx]
  cases depositTarget config p.cctx with
  | error fault => exact ⟨p.mirrors_abort _ block view, rfl⟩
  | ok d => exact ⟨mirrors_settleDeposit config block h p hrevert hcurrent d _, rfl⟩

omit [Gateway γ] in
theorem mirrors_finish (receipt : VoteReceipt) :
    Mirrors (Prod.map id (Prod.map view id)) (finish receipt p)
      (finish receipt (p.through view)) :=
  .bind (p.mirrors_save h) fun _ => .ok _

theorem mirrors_voteInbound (policy : StalePolicy) (g : γ) (s : σ) (m : InboundVote)
    (hreads : ∀ k, m.Reads k → P k) :
    Mirrors (Prod.map id (Prod.map view id)) (voteInbound policy config g s block m).1
        (voteInbound policy config g (view s) block m).1 ∧
      (voteInbound policy config g (view s) block m).2
        = (voteInbound policy config g s block m).2 := by
  rw [voteInbound, voteInbound, mirrors_intake config block h policy s m hreads]
  cases hintake : intake policy config s block m with
  | error e => exact ⟨.error e, rfl⟩
  | ok taken =>
    cases taken with
    | counted receipt s effects => exact ⟨.ok _, rfl⟩
    | opened receipt p =>
      obtain ⟨key, outcome, s₁, hlinks⟩ := links_of_intake hintake
      cases hlinks.ends with
      | opened =>
      have hsender := hreads _ (.inr (.inr (.inr ⟨key.pubkey, .inr rfl⟩)))
      have hreceiver := hreads _ (.inr (.inr (.inr ⟨key.pubkey, .inl rfl⟩)))
      obtain ⟨hsettled, hgateway⟩ := mirrors_deposit config block h
        ⟨_, .ofInbound m m.digest key.pubkey block, _⟩ hsender hreceiver g
      exact ⟨.bind hsettled fun p => mirrors_finish h p _, hgateway⟩

end Inbound

/-! ### Votes on outbound transactions -/

section Outbound

variable (config : SettlementConfig) (block : Block) (h : Views P view)

omit [WritableStore σ] [WritableStore τ] in
theorem mirrors_settleSuccess (p : Progress σ) (view : σ → τ) :
    Mirrors (Progress.through view) (settleSuccess config p block)
      (settleSuccess config (p.through view) block) :=
  .ite (Progress.mirrors_advance ⟨_, _, _⟩ _ block view .reverted)
    (Progress.mirrors_advance ⟨_, _, _⟩ _ block view .outboundMined)

include h

theorem mirrors_settleFailure (p : Progress σ)
    (hrevert : P (.nonces p.cctx.revertLane.signingKey p.cctx.revertLane.chainId)) :
    Mirrors (Progress.through view) (settleFailure config p block)
      (settleFailure config (p.through view) block) := by
  rw [settleFailure, settleFailure, Progress.through_cctx]
  cases p.cctx.status with
  | pendingOutbound =>
    refine .ite (p.mirrors_abort _ block view) ?_
    cases hc : p.cctx.addRevert config.revertGasLimit with
    | error e => exact p.mirrors_abort _ block view
    | ok c => exact p.mirrors_revert _ block h hc hrevert .pendingRevert
  | pendingRevert => exact p.mirrors_abort _ block view
  | pendingInbound | outboundMined | reverted | aborted => exact .error _

theorem mirrors_settle (p : Progress σ) (ballot : Ballot)
    (hrevert : P (.nonces p.cctx.revertLane.signingKey p.cctx.revertLane.chainId)) :
    Mirrors (Progress.through view) (settle config p ballot block)
      (settle config (p.through view) ballot block) := by
  rw [settle, settle]
  cases ballot.status with
  | pending => exact .error _
  | success => exact mirrors_settleSuccess config block p view
  | failure => exact mirrors_settleFailure config block h p hrevert

theorem mirrors_releaseAttempt (s : σ) (a : Attempt)
    (hnonces : P (.nonces a.signingKey a.chainId)) :
    Mirrors view (releaseAttempt s a) (releaseAttempt (view s) a) := by
  rw [releaseAttempt, releaseAttempt]
  cases a.nonce with
  | none => exact .ok _
  | some nonce =>
    refine .bind (.mapError (Registry.mirrors_releaseNonce h s _ _ hnonces nonce)) fun s => ?_
    exact .mapError (h.mirrors_deleteRecord _ s)

omit h [WritableStore τ] in
/-- Whether a mark is cleared depends on whether it names the transaction. -/
theorem clearMigration_eq (s : σ) (c : Cctx) :
    clearMigration s c = if c.status.isTerminal = false then .ok s else do
      if ← Registry.isMarkedFor s c.outbound.chainId c.index then
        Registry.removeFundMigration s c.outbound.chainId
      else return s := by
  rw [clearMigration]
  refine ite_congr (by simp) (fun _ => rfl) fun _ => ?_
  rw [Registry.isMarkedFor]
  cases Registry.fundMigration? s c.outbound.chainId with
  | error e => rfl
  | ok stored =>
    cases stored with
    | none => rfl
    | some migration =>
      have hnamed : (Option.any (fun f => decide (f.cctxIndex = c.index)) (some migration) = true)
          = (migration.cctxIndex = c.index) := by simp
      exact ite_congr hnamed.symm (fun _ => rfl) fun _ => rfl

theorem mirrors_clearMigration (s : σ) (c : Cctx)
    (hmarked : Registry.isMarkedFor (view s) c.outbound.chainId c.index
      = Registry.isMarkedFor s c.outbound.chainId c.index) :
    Mirrors view (clearMigration s c) (clearMigration (view s) c) := by
  rw [clearMigration_eq, clearMigration_eq]
  refine .ite (.ok _) (.read (congrArg (Except.mapError SettlementError.registry) hmarked) fun _ =>
    .ite ?_ (.ok _))
  exact .mapError (.mapError (h.mirrors_deleteRecord _ s))

theorem mirrors_voteOutbound [LawfulStore σ] (policy : StalePolicy) (s : σ) (m : OutboundVote)
    (hballot : P (.ballot m.digest)) (hcctx : P (.cctx m.cctxIndex))
    (hstored : ∀ c, cctx? s m.cctxIndex = .ok (some c) → c.SeenThrough P view) :
    Mirrors (Prod.map id (Prod.map view id)) (voteOutbound policy config s block m)
      (voteOutbound policy config (view s) block m) := by
  have hcctx? : cctx? (view s) m.cctxIndex = cctx? s m.cctxIndex := by
    rw [cctx?, cctx?, h.getRecord_eq hcctx]
  refine .read rfl fun _ => .read_of_eq hcctx? fun stored hfound => ?_
  cases stored with
  | none => exact .error _
  | some c =>
    have hseen := hstored c hfound
    refine .read rfl fun _ => .bind (.mapError (Registry.mirrors_castVote h s policy _ block.height
      hballot)) fun ⟨outcome, s⟩ => .ite (.ok _) ?_
    refine .read_of_eq rfl fun c₁ hobserve => ?_
    obtain ⟨hindex, hlane, hrevert⟩ := lanes_of_observe hobserve
    refine .bind_of_eq (mirrors_settle config block h ⟨s, c₁, _⟩ _ (hrevert ▸ hseen.revert))
      fun p hsettle => ?_
    have hwrites := writes_settle hsettle
    refine .bind (mirrors_releaseAttempt h p.store c.current hseen.current) fun s => ?_
    refine .bind (mirrors_clearMigration h s p.cctx ?_) fun s =>
      mirrors_finish h { p with store := s } _
    have hown : p.cctx.index = c.index := hwrites.index_eq.trans hindex
    have hchain : p.cctx.outbound.chainId = c.outbound.chainId :=
      congrArg Lane.chainId (hwrites.lane_eq.trans hlane)
    rw [hown, hchain]
    exact hseen.marked s

end Outbound

/-! ### Fund migrations and trackers -/

section Others

variable (config : SettlementConfig) (r : Recorder b)

theorem mirrors_migrateFunds (block : Block) (chainId : ChainId) (amount : U256) :
    Mirrors Recorder.outcome (migrateFunds config r block chainId amount)
      (migrateFunds config r.draft block chainId amount) := by
  refine .read rfl fun _ => .ite ?_ (.error _)
  refine .read rfl fun _ => .ite (.error _) ?_
  refine .read rfl fun _ => .ite (.error _) ?_
  refine .read rfl fun current => .read rfl fun newer => ?_
  cases newer with
  | none => exact .error _
  | some newer =>
    refine .read rfl fun _ => .ite (.error _) (.read rfl fun _ => .ite (.error _) ?_)
    refine .bind (Progress.mirrors_assignNonce ⟨r, _, _⟩ Recorder.views trivial) fun p => ?_
    refine .bind (p.mirrors_advance _ block Recorder.draft .pendingOutbound) fun p => ?_
    exact .bind (p.mirrors_save Recorder.views) fun p => .write rfl fun r => .ok _

theorem findOwner_draft (chainId : ChainId) (nonce : UInt64) (keys : List String) :
    findOwner r.draft chainId nonce keys = findOwner r chainId nonce keys := by
  induction keys with
  | nil => rfl
  | cons key rest ih => rw [findOwner, findOwner, ih]; rfl

theorem mirrors_addOutboundTracker (m : OutboundHashReport) :
    Mirrors Recorder.draft (addOutboundTracker config r m)
      (addOutboundTracker config r.draft m) := by
  refine .ite (.error _) (.read rfl fun _ => .read rfl fun _ => .read rfl fun candidates => ?_)
  refine .read (findOwner_draft r m.chainId m.nonce candidates) fun owner => ?_
  cases owner with
  | none => exact .error _
  | some key => exact .read rfl fun _ => .ite (.ok _) (.ite (.error _) rfl)

theorem mirrors_addInboundTracker (m : InboundHashReport) :
    Mirrors Recorder.draft (addInboundTracker r m) (addInboundTracker r.draft m) :=
  .ite (.error _) (.read rfl fun _ => .read rfl fun _ => rfl)

end Others

end Journal

end Settlement
