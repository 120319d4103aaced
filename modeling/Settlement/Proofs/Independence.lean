import Settlement.Proofs.Atomicity
import Settlement.Proofs.Migrations

/-!
# What votes depend on

A vote on a transaction is about one ballot, one transaction and the chains of this transaction
(`Settlement.TransactionVote.Concerns`). It writes under their keys only, and apart from the
settings it reads under no others. There is one exception: when the revert of a transaction is
settled, the mark of its first chain is looked at, though this chain is no longer involved. But no
mark names a transaction with a revert, so it makes no difference what the mark is.

So a vote does the same on every store that shows it the same (`Settlement.TransactionVote.Shown`):
it is answered in the same way, the same is published, and the same writes are made.

Main statements: what a vote writes (`Settlement.TransactionVote.Shown.touches`), and that nothing
else matters to it (`Settlement.TransactionVote.Shown.execute`).
-/

namespace Settlement

variable {σ γ : Type}

/-! ### Gateways that answer by a function -/

namespace Gateway

variable [Gateway γ] {g g' : γ} {f : DepositRequest → DepositAnswer}

/-- The gateway after some requests, one after the other. -/
def after (g : γ) (requests : List DepositRequest) : γ :=
  requests.foldl (fun g r => (deposit g r).2) g

/-- Whatever was requested before, the answer is a function of the request. -/
def Answers (g : γ) (f : DepositRequest → DepositAnswer) : Prop :=
  ∀ requests r, (deposit (after g requests) r).1 = f r

theorem Answers.after (h : Answers g f) (requests : List DepositRequest) :
    Answers (after g requests) f := by
  intro later r
  rw [Gateway.after, Gateway.after, ← List.foldl_append]
  exact h (requests ++ later) r

end Gateway

/-- A gateway with nothing laid down succeeds always. -/
theorem ScriptedGateway.answers {g : ScriptedGateway} (h : g.script = []) :
    Gateway.Answers g fun r => .ok (defaultReceipt r) := by
  have hdeposit (g : ScriptedGateway) (h : g.script = []) (r : DepositRequest) :
      Gateway.deposit g r = (.ok (defaultReceipt r), ⟨[], g.requests ++ [r]⟩) := by
    simp only [Gateway.deposit, h]
  intro requests r
  induction requests generalizing g with
  | nil => exact congrArg Prod.fst (hdeposit g h r)
  | cons r' rest ih => exact ih (congrArg (·.2.script) (hdeposit g h r'))

namespace Journal

variable [Gateway γ] [WritableStore σ] (policy : StalePolicy) (config : SettlementConfig) (s : σ)
  (block : Block) (m : InboundVote) (p : Progress σ) {g g' : γ} {f : DepositRequest → DepositAnswer}

/-- Only the answer of the gateway matters. -/
theorem deposit_congr (h : Gateway.Answers g f) (h' : Gateway.Answers g' f) :
    (deposit config g' p block).1 = (deposit config g p block).1 := by
  rw [deposit, deposit]
  cases depositTarget config p.cctx with
  | error fault => rfl
  | ok d =>
    have hanswer (r : DepositRequest) : (Gateway.deposit g' r).1 = (Gateway.deposit g r).1 :=
      (h' [] r).trans (h [] r).symm
    exact congrArg (settleDeposit config p d · block) (hanswer _)

theorem voteInbound_congr (h : Gateway.Answers g f) (h' : Gateway.Answers g' f) :
    (voteInbound policy config g' s block m).1 = (voteInbound policy config g s block m).1 := by
  rw [voteInbound, voteInbound]
  cases intake policy config s block m with
  | error e => rfl
  | ok taken =>
    cases taken with
    | counted receipt s effects => rfl
    | opened receipt p =>
      exact congrArg (· >>= fun p => finish receipt p) (deposit_congr config block p h h')

/-- A vote leaves the gateway after some requests. -/
theorem exists_after_voteInbound (g : γ) :
    ∃ requests, (voteInbound policy config g s block m).2 = Gateway.after g requests := by
  rw [voteInbound]
  cases intake policy config s block m with
  | error e => exact ⟨[], rfl⟩
  | ok taken =>
    cases taken with
    | counted receipt s effects => exact ⟨[], rfl⟩
    | opened receipt p =>
      change ∃ requests, (deposit config g p block).2 = _
      rw [deposit]
      cases depositTarget config p.cctx with
      | error fault => exact ⟨[], rfl⟩
      | ok d => exact ⟨[_], rfl⟩

end Journal

/-! ### Marks that are looked at -/

namespace Registry

variable {τ : Type} [ReadableStore σ] [ReadableStore τ] {s : σ} {t : τ} {chainId : ChainId}
  {index : Digest}

theorem isMarkedFor_congr (h : ReadableStore.get t (Key.fundMigration chainId).bytes
      = ReadableStore.get s (Key.fundMigration chainId).bytes) :
    isMarkedFor t chainId index = isMarkedFor s chainId index := by
  rw [isMarkedFor, isMarkedFor, fundMigration?, fundMigration?, getRecord, getRecord, h]

/-- If the mark of a chain does not name the transaction, all that can go wrong is that it cannot be
read. -/
theorem isMarkedFor_of_unnamed {b : Backend} {marks : ChainId → Option FundMigration}
    (h : Marks b marks) (hunnamed : ∀ f, marks chainId = some f → f.cctxIndex ≠ index) :
    isMarkedFor b chainId index =
      ((b.checkReadable (Key.fundMigration chainId).bytes).mapError (.store ∘ .store)).map
        fun _ => false := by
  cases hcheck : b.checkReadable (Key.fundMigration chainId).bytes with
  | error fault =>
    have hget : ReadableStore.get b (Key.fundMigration chainId).bytes = .error fault :=
      congrArg (Except.map _) hcheck
    rw [isMarkedFor, fundMigration?, getRecord, hget]
    rfl
  | ok =>
    have hget : ReadableStore.get b (Key.fundMigration chainId).bytes
        = .ok (contents b (Key.fundMigration chainId).bytes) := congrArg (Except.map _) hcheck
    rw [isMarkedFor, fundMigration?, getRecord_eq_of_contents (h chainId)
      (fun migration _ => (⟨trivial, trivial, trivial⟩ : Fits migration)) hget]
    cases hmark : marks chainId with
    | none => rfl
    | some f => exact congrArg Except.ok (decide_eq_false (hunnamed f hmark))

/-- The mark is looked at in what has been written, or else in the store underneath. -/
theorem isMarkedFor_rebase {b b' : Backend}
    (h : isMarkedFor b' chainId index = isMarkedFor b chainId index) (r : Recorder b) :
    isMarkedFor (r.rebase b') chainId index = isMarkedFor r chainId index := by
  have hget := r.get_eq_match (Key.fundMigration chainId).bytes
  have hget' := (r.rebase b').get_eq_match (Key.fundMigration chainId).bytes
  rw [r.pending_rebase] at hget'
  cases hfound : r.draft.pending.find? (Key.fundMigration chainId).bytes with
  | some value =>
    rw [hfound] at hget hget'
    exact isMarkedFor_congr (hget'.trans hget.symm)
  | none =>
    rw [hfound] at hget hget'
    rw [isMarkedFor_congr hget', isMarkedFor_congr hget, h]

end Registry

/-! ### Calls on another store -/

/-- The store with some writes made, one after the other. -/
def Backend.written (b : Backend) (writes : List Write) : Backend :=
  { b with entries := applyAll b.entries writes }

/-- What is published depends on the pool only in whether it refuses. -/
theorem World.events_release {pool pool' : StabilityPool}
    (h : pool'.isFailing = pool.isFailing) (effects : Effects) :
    (release pool' effects).1 = (release pool effects).1 := by
  rw [release, release, h]
  split <;> rfl

/-- **A handler that makes the same of two stores, with the same writes, has the same reply on
them**, if they take writes alike. -/
theorem Service.execute_of_mirrors [Gateway γ] (service : Service) {w w' : World γ} {c : Call}
    (h : Mirrors (Prod.map id (Prod.map (Recorder.rebase w'.store) id))
      (service.handle w.gateway (Recorder.start w.store) c).1
      (service.handle w'.gateway (Recorder.start w'.store) c).1)
    (hrejects : w'.store.rejectsWrites = w.store.rejectsWrites)
    (hpool : w'.pool.isFailing = w.pool.isFailing) :
    (service.execute w' c).answer = (service.execute w c).answer ∧
      (service.execute w' c).events = (service.execute w c).events ∧
      ∃ writes, (service.execute w c).world.store = w.store.written writes ∧
        (service.execute w' c).world.store = w'.store.written writes := by
  have hresult := (service.mirrors_handle w.gateway (Recorder.start w.store) c).1
  have hresult' := (service.mirrors_handle w'.gateway (Recorder.start w'.store) c).1
  rw [Recorder.draft_start] at hresult hresult'
  rw [execute_eq, execute_eq, World.conclude, World.conclude, hresult', h, hresult]
  cases (service.handle w.gateway (Recorder.start w.store) c).1 with
  | error e => exact ⟨rfl, rfl, [], rfl, rfl⟩
  | ok result =>
    obtain ⟨answer, r, effects⟩ := result
    have hdirty : (r.rebase w'.store).draft.isDirty = r.draft.isDirty := by
      rw [Overlay.isDirty, Overlay.isDirty, r.pending_rebase]
    simp only [Except.map, Recorder.outcome, Prod.map, id, Recorder.commit_eq, hdirty, hrejects]
    by_cases hfails : r.draft.isDirty = true ∧ w.store.rejectsWrites = true
    · simp only [hfails, and_self, if_true]
      exact ⟨trivial, trivial, [], rfl, rfl⟩
    · simp only [hfails, if_false]
      refine ⟨trivial, World.events_release hpool effects, r.writes, rfl, ?_⟩
      rw [← hrejects]
      rfl

/-! ### Votes on transactions -/

/-- A vote on a transaction, with the block in which it is cast. -/
inductive TransactionVote where
  | inbound (block : Block) (message : InboundVote)
  | outbound (block : Block) (message : OutboundVote)

namespace TransactionVote

/-- The call by which a vote is cast. -/
def call : TransactionVote → Call
  | .inbound block m => .voteInbound block m
  | .outbound block m => .voteOutbound block m

/-- The index of the ballot. -/
def ballot : TransactionVote → Digest
  | .inbound _ m => m.digest
  | .outbound _ m => m.digest

/-- The index of the transaction. -/
def cctx : TransactionVote → Digest
  | .inbound _ m => m.digest
  | .outbound _ m => m.cctxIndex

/-- Whether a chain is involved: the sender and the receiver chain of an inbound transaction, and
the sender chain and the chain of the attempt in flight of one that is stored. -/
def Involves (w : World γ) : TransactionVote → ChainId → Prop
  | .inbound _ m, chainId => chainId = m.senderChain ∨ chainId = m.receiverChain
  | .outbound _ m, chainId => ∃ c, w.Stores m.cctxIndex c ∧
    (chainId = c.inbound.senderChain ∨ chainId = c.current.chainId)

/-- Whether a key is about the ballot, the transaction or an involved chain of a vote. -/
def Concerns (w : World γ) (v : TransactionVote) : Key → Prop
  | .ballot index | .ballotByHeight _ index => index = v.ballot
  | .cctx index => index = v.cctx
  | .nonces _ chainId | .nonceOwner _ chainId _ | .fundMigration chainId
  | .outboundTracker _ chainId _ | .inboundTracker chainId _ | .finalizedInbound chainId _ _ =>
    v.Involves w chainId
  | .observerSet | .chain _ | .chainParams _ | .switches | .currentKey | .keyHistory _ _ => False

variable {w w' : World γ} {v v' : TransactionVote} {k : Key}

@[simp]
theorem concerns_folded : v.Concerns w k.folded ↔ v.Concerns w k := by
  cases k <;> exact Iff.rfl

/-- Keys with the same bytes concern the same votes. -/
theorem concerns_iff_of_bytes_eq {j : Key} (h : j.bytes = k.bytes) :
    v.Concerns w j ↔ v.Concerns w k := by
  rw [← concerns_folded, Key.bytes_eq_iff.1 h, concerns_folded]

theorem Concerns.not_isGoverned (h : v.Concerns w k) : ¬k.IsGoverned := by
  cases k <;> first | exact id | exact h.elim

theorem concerns_of_isReservedUnder {lane : Lane} (hlane : v.Involves w lane.chainId)
    (h : lane.IsReservedUnder k) : v.Concerns w k := by
  rcases h with rfl | ⟨nonce, rfl⟩ <;> exact hlane

theorem concerns_of_isReleasedUnder {a : Attempt} (hchain : v.Involves w a.chainId)
    (h : a.IsReleasedUnder k) : v.Concerns w k := by
  rcases h with rfl | ⟨nonce, -, rfl⟩ <;> exact hchain

/-! ### What is seen of a world -/

/-- What is seen of a world when a vote is cast on it. -/
def Sees (w : World γ) (v : TransactionVote) (k : Key) : Prop :=
  k.IsGoverned ∨ v.Concerns w k

/-- A store shows a vote the same as the world: it fails alike, and it holds what is seen of the
world. All its marks of fund migrations are marks of the world. -/
structure Shown (w : World γ) (v : TransactionVote) (b : Backend) : Prop where
  rejectsWrites_eq : b.rejectsWrites = w.store.rejectsWrites
  unreadable_eq : b.unreadable = w.store.unreadable
  contents_eq : ∀ k, v.Sees w k → contents b k.bytes = contents w.store k.bytes
  exists_marks : ∃ marks, Marks b marks ∧
    ∀ chainId f, marks chainId = some f → w.migrations chainId = some f

/-- A world shows a vote itself. -/
theorem Shown.self (h : w.Sound) : v.Shown w w.store :=
  ⟨rfl, rfl, fun _ _ => rfl, _, h.records.marks, fun _ _ => id⟩

namespace Shown

section Read

variable {b : Backend} (hshown : v.Shown w b)

include hshown

theorem checkReadable_eq (key : Bytes) : b.checkReadable key = w.store.checkReadable key := by
  rw [Backend.checkReadable, Backend.checkReadable, hshown.unreadable_eq]

theorem get_eq (hk : v.Sees w k) :
    ReadableStore.get b k.bytes = ReadableStore.get w.store k.bytes := by
  have hheld : b.entries.find? k.bytes = w.store.entries.find? k.bytes := hshown.contents_eq k hk
  change (b.checkReadable k.bytes).map _ = (w.store.checkReadable k.bytes).map _
  rw [hshown.checkReadable_eq, hheld]

theorem contains_eq (hk : v.Sees w k) :
    ReadableStore.contains b k.bytes = ReadableStore.contains w.store k.bytes := by
  have hheld : b.entries.find? k.bytes = w.store.entries.find? k.bytes := hshown.contents_eq k hk
  change (b.checkReadable k.bytes).map _ = (w.store.checkReadable k.bytes).map _
  rw [hshown.checkReadable_eq, hheld]

/-- **The same writes over the two stores show the vote the same.** -/
theorem views : Views (v.Sees w) (Recorder.rebase b : Recorder w.store → Recorder b) where
  settings _ := .inl
  get_eq r k hk := by
    rw [Recorder.get_eq_match, Recorder.get_eq_match, r.pending_rebase, hshown.get_eq hk]
  contains_eq r k hk := by
    rw [Recorder.contains_eq_match, Recorder.contains_eq_match, r.pending_rebase,
      hshown.contains_eq hk]
  write_eq _ _ := rfl

/-- What is read is what is stored in the world. -/
theorem eq_of_getRecord (h : w.Sound) (hk : v.Sees w k) {value : Option k.folded.Value}
    (hget : getRecord (.fresh b : Draft) k.bytes = .ok value) : value = w.store.ledger k.folded :=
  getRecord_of_contents ((hshown.contents_eq k hk).trans (h.records k)) (h.legible.fits k) hget

/-- The ballot of the vote is filed under its index. -/
theorem index_of_ballot? (h : w.Sound) {x : Ballot}
    (hget : Registry.ballot? (.fresh b : Draft) v.ballot = .ok (some x)) : x.index = v.ballot := by
  have hstored := hshown.eq_of_getRecord h (k := .ballot v.ballot) (.inr rfl)
    (storeError_lift_eq_ok_iff.1 hget)
  exact h.ballotsFiled _ x hstored.symm

/-- The transaction of the vote is stored in the world. -/
theorem cctx_of_cctx? (h : w.Sound) {c : Cctx}
    (hget : Journal.cctx? (.fresh b : Draft) v.cctx = .ok (some c)) :
    w.accounts.cctx v.cctx = some c :=
  (hshown.eq_of_getRecord h (k := .cctx v.cctx) (.inr rfl)
    (storeError_lift_settlement_eq_ok_iff.1 hget)).symm

/-- **Whether a mark names the transaction is the same on both stores.** If the chain of the mark is
involved, then the mark is. Otherwise the transaction has a revert, and no mark names it. -/
theorem isMarkedFor_eq (h : w.Sound) (hmigrating : w.accounts.Migrating w.migrations) {c : Cctx}
    (hc : w.accounts.cctx v.cctx = some c) (hinvolves : v.Involves w c.current.chainId) :
    Registry.isMarkedFor b c.outbound.chainId c.index
      = Registry.isMarkedFor w.store c.outbound.chainId c.index := by
  by_cases hinvolved : v.Involves w c.outbound.chainId
  · exact Registry.isMarkedFor_congr (hshown.get_eq (k := .fundMigration _) (.inr hinvolved))
  have hunnamed (f : FundMigration) (hf : w.migrations c.outbound.chainId = some f) :
      f.cctxIndex ≠ c.index := by
    intro hnamed
    have hcurrent := hmigrating.current_eq_of_named hf
      (hnamed.trans (h.accounts.index_eq _ c hc)) hc
    exact hinvolved (hcurrent ▸ hinvolves)
  obtain ⟨marks, hmarks, hfewer⟩ := hshown.exists_marks
  rw [Registry.isMarkedFor_of_unnamed hmarks fun f hf => hunnamed f (hfewer _ f hf),
    Registry.isMarkedFor_of_unnamed h.records.marks hunnamed, hshown.checkReadable_eq]

end Read

/-! ### What a vote does -/

section Execute

variable {b : Backend} (service : Service)

/-- **On both stores the handler of the vote makes the same of it**, with the same writes. -/
theorem mirrors_handle [Gateway γ] {g g' : γ} {f : DepositRequest → DepositAnswer}
    (hshown : v.Shown w b) (h : w.Sound) (hmigrating : w.accounts.Migrating w.migrations)
    (hg : Gateway.Answers g f) (hg' : Gateway.Answers g' f) :
    Mirrors (Prod.map id (Prod.map (Recorder.rebase b) id))
      (service.handle g (Recorder.start w.store) v.call).1
      (service.handle g' (Recorder.start b) v.call).1 := by
  cases v with
  | inbound block m =>
    have hreads (k : Key) (hk : m.Reads k) : (inbound block m).Sees w k := by
      rcases hk with rfl | rfl | rfl | ⟨signingKey, rfl | rfl⟩
      · exact .inr rfl
      · exact .inr rfl
      · exact .inr (.inl rfl)
      · exact .inr (.inr rfl)
      · exact .inr (.inl rfl)
    have hvote := (Journal.mirrors_voteInbound service.settlement block hshown.views
      service.observers.stalePolicy g (Recorder.start w.store) m hreads).1
    rw [← Journal.voteInbound_congr _ _ (Recorder.rebase b _) block m hg hg'] at hvote
    exact .mapError (.map hvote fun _ => rfl)
  | outbound block m =>
    have hseen (c : Cctx)
        (hget : Journal.cctx? (Recorder.start w.store) m.cctxIndex = .ok (some c)) :
        c.SeenThrough ((outbound block m).Sees w)
          (Recorder.rebase b : Recorder w.store → Recorder b) := by
      have hc : w.accounts.cctx m.cctxIndex = some c :=
        (Journal.eq_of_cctx? (h.records.congr rfl) h.legible hget).symm
      have hstores : w.Stores m.cctxIndex c := h.stores_iff.2 hc
      have hinvolves : (outbound block m).Involves w c.current.chainId := ⟨c, hstores, .inr rfl⟩
      exact ⟨.inr hinvolves, .inr ⟨c, hstores, .inl rfl⟩,
        Registry.isMarkedFor_rebase (hshown.isMarkedFor_eq h hmigrating hc hinvolves)⟩
    exact .mapError (.map (Journal.mirrors_voteOutbound service.settlement block hshown.views
      service.observers.stalePolicy _ m (.inr rfl) (.inr rfl) hseen) fun _ => rfl)

/-- The writes of a vote on an inbound transaction. -/
theorem touches_voteInbound [Gateway γ] {g g' : γ} {block : Block} {m : InboundVote}
    {receipt : VoteReceipt} {draft : Draft} {effects : Effects}
    (hshown : (inbound block m).Shown w b) (h : w.Sound)
    (hvote : Journal.voteInbound service.observers.stalePolicy service.settlement g
      (.fresh b : Draft) block m = (.ok (receipt, draft, effects), g')) :
    Touches ((inbound block m).Concerns w) (.fresh b : Draft) draft := by
  obtain ⟨outcome, s₁, hcast, -, hends⟩ := Journal.links_of_voteInbound hvote
  have hindex := Registry.index_of_castVote (fun x => hshown.index_of_ballot? h) hcast
  have hfiled : Touches ((inbound block m).Concerns w) (.fresh b : Draft) s₁ :=
    (Registry.touches_castVote hcast).mono fun k hk => by
      rcases hk with rfl | ⟨-, rfl⟩ <;> exact hindex
  rcases hends with ⟨-, rfl⟩ | ⟨-, signingKey, s₂, s₃, hmarked, hremoved, hopened⟩
  · exact hfiled
  have hsender : (inbound block m).Involves w m.senderChain := .inl rfl
  have hreceiver : (inbound block m).Involves w m.receiverChain := .inr rfl
  refine hfiled.trans (((Journal.touches_marked hmarked hremoved).mono fun k hk => ?_).trans
    (hopened.mono fun k hk => ?_))
  · rcases hk with rfl | rfl <;> exact hsender
  · rcases hk with rfl | hreserved | hreserved
    · rfl
    · exact concerns_of_isReservedUnder hreceiver hreserved
    · exact concerns_of_isReservedUnder hsender hreserved

/-- The writes of a vote on an outbound transaction. -/
theorem touches_voteOutbound {block : Block} {m : OutboundVote} {receipt : VoteReceipt}
    {draft : Draft} {effects : Effects} (hshown : (outbound block m).Shown w b) (h : w.Sound)
    (hmigrating : w.accounts.Migrating w.migrations)
    (hvote : Journal.voteOutbound service.observers.stalePolicy service.settlement
      (.fresh b : Draft) block m = .ok (receipt, draft, effects)) :
    Touches ((outbound block m).Concerns w) (.fresh b : Draft) draft := by
  obtain ⟨c, outcome, s₁, hget, hcast, hsettled⟩ := Journal.touches_settled_of_voteOutbound hvote
  have hc : w.accounts.cctx m.cctxIndex = some c := hshown.cctx_of_cctx? h hget
  have hstores : w.Stores m.cctxIndex c := h.stores_iff.2 hc
  have hindex := Registry.index_of_castVote (fun x => hshown.index_of_ballot? h) hcast
  have hsender : (outbound block m).Involves w c.inbound.senderChain := ⟨c, hstores, .inl rfl⟩
  have hcurrent : (outbound block m).Involves w c.current.chainId := ⟨c, hstores, .inr rfl⟩
  refine ((Registry.touches_castVote hcast).mono fun k hk => ?_).trans
    (hsettled.mono fun k hk => ?_)
  · rcases hk with rfl | ⟨-, rfl⟩ <;> exact hindex
  · rcases hk with rfl | hreserved | hreleased | ⟨hnamed, rfl⟩
    · exact h.accounts.index_eq _ c hc
    · exact concerns_of_isReservedUnder hsender hreserved
    · exact concerns_of_isReleasedUnder hcurrent hreleased
    · obtain ⟨marks, hmarks, hfewer⟩ := hshown.exists_marks
      have hmarks : Marks (.fresh b : Draft) marks := hmarks.congr (Overlay.contents_fresh b)
      obtain ⟨f, hf, hindex⟩ := hmarks.exists_of_markNames hnamed
      have hcurrent_eq := hmigrating.current_eq_of_named (hfewer _ f hf)
        (hindex.trans (h.accounts.index_eq _ c hc)) hc
      exact hcurrent_eq ▸ hcurrent

/-- **A vote writes under the keys that concern it only**, wherever it is shown the same. -/
theorem touches [Gateway γ] (hshown : v.Shown w w'.store) (h : w.Sound)
    (hmigrating : w.accounts.Migrating w.migrations) :
    Touches (v.Concerns w) w'.store (service.execute w' v.call).world.store := by
  cases v with
  | inbound block m =>
    refine World.touches_runSettlement fun answer draft effects hrun => ?_
    obtain ⟨⟨receipt, draft', effects'⟩, hvote, heq⟩ := map_eq_ok_iff.1 hrun
    cases heq
    exact touches_voteInbound service hshown h (Prod.ext hvote rfl)
  | outbound block m =>
    refine World.touches_runSettlement fun answer draft effects hrun => ?_
    obtain ⟨⟨receipt, draft', effects'⟩, hvote, heq⟩ := map_eq_ok_iff.1 hrun
    cases heq
    exact touches_voteOutbound service hshown h hmigrating hvote

/-- **A vote has the same reply wherever it is shown the same**, and makes the same writes. -/
theorem execute [Gateway γ] {f : DepositRequest → DepositAnswer} (hshown : v.Shown w w'.store)
    (h : w.Sound) (hmigrating : w.accounts.Migrating w.migrations)
    (hg : Gateway.Answers w.gateway f)
    (hg' : Gateway.Answers w'.gateway f) (hpool : w'.pool.isFailing = w.pool.isFailing) :
    (service.execute w' v.call).answer = (service.execute w v.call).answer ∧
      (service.execute w' v.call).events = (service.execute w v.call).events ∧
      ∃ writes, (service.execute w v.call).world.store = w.store.written writes ∧
        (service.execute w' v.call).world.store = w'.store.written writes :=
  service.execute_of_mirrors (hshown.mirrors_handle service h hmigrating hg hg')
    hshown.rejectsWrites_eq hpool

end Execute

end Shown

end TransactionVote

end Settlement
