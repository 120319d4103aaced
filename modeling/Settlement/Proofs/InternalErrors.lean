import Settlement.Proofs.Digests
import Settlement.Proofs.Faults
import Settlement.Proofs.Listings
import Settlement.Proofs.Refusals

/-!
# Internal errors

An internal error says that the program has broken a rule of its own. A vote that ran into one would
be refused for ever, since it fails in the same way when it is cast again. In a world that is
reached from an empty store there is none: its store is intact (`Settlement.Run.intact`) and its
accounts are in order, so that every call is accepted or refused
(`Settlement.World.Sound.refuses_execute`).

That a transaction exists already is an error of its own. A migration may be refused for it, if the
same one has been made at the same height. A report may not, as long as no two digests collide: what
has the digest of a report comes from the same event, and the event is looked for before.

Main statement: `Settlement.Run.no_internal_errors`.
-/

namespace Settlement

/-! ### Votes and migrations -/

namespace Journal

section Votes

variable {σ γ : Type} [WritableStore σ] [LawfulStore σ] [Gateway γ] {s t : σ} {l : Ledger}
  {policy : StalePolicy} {config : SettlementConfig} {block : Block}

/-- An error with which a report is refused. If it says that the transaction exists, then it does,
without its event being marked. -/
structure RefusesReport (a : Accounts) (m : InboundVote) (e : SettlementError) : Prop where
  isInternal_eq : e.isInternal = false
  taken : ∀ x, e = .cctxExists x → a.marked m.origin = false ∧ ∃ c, a.cctx m.digest = some c

/-- An error that does not say so has only to be none that is internal. -/
theorem RefusesReport.of_ne {a : Accounts} {m : InboundVote} {e : SettlementError}
    (h : e.isInternal = false) (hne : ∀ x, e ≠ .cctxExists x) : RefusesReport a m e :=
  ⟨h, fun x he => absurd he (hne x)⟩

section Reports

variable {m : InboundVote} (hintact : Intact s) (h : Records s l) (hl : l.Legible)
  (hballots : BallotsFiled l.ballots)

include hintact h hl hballots

/-- Of the checks of a report only the last one is about its transaction. -/
theorem refuses_intake :
    FailsWith (RefusesReport l.accounts m) (intake policy config s block m) := by
  have hregistry {α : Type} {x : Except RegistryError α}
      (hx : FailsWith (fun e => e.isInternal = false) x) :
      FailsWith (RefusesReport l.accounts m) (liftM x : Except SettlementError α) :=
    .registryError_lift (hx.mono fun _ he => .of_ne he (by simp))
  have hchain (id : ChainId) : FailsWith (RefusesReport l.accounts m) (externalChain s id) :=
    failsWith_externalChain (Registry.refuses_supportedChain hintact)
      (fun e he => .of_ne (isInternal_chainError he) (by cases e <;> simp [chainError]))
      (.of_ne rfl (by simp))
  have hexists (s : σ) (bs : Bytes) :
      FailsWith (RefusesReport l.accounts m) (liftM (containsKey s bs)) :=
    .storeError_lift_settlement
      ((failsWith_containsKey s bs).mono fun _ he => .of_ne he (by simp))
  have hwrite (s : σ) (writes : List Write) :
      FailsWith (RefusesReport l.accounts m) (liftM (writeAll s writes)) :=
    .storeError_lift_settlement
      ((FaultsWith.any σ).writeAll (fun _ _ => .of_ne rfl (by simp)) s writes)
  have hvalid : FailsWith (RefusesReport l.accounts m) m.validate := by
    rw [InboundVote.validate]
    split
    · exact .error (.of_ne rfl (by simp))
    · exact .ok ()
  refine hvalid.bind fun _ _ => (hregistry (Registry.refuses_switches hintact)).bind
    fun switches _ => .check (fun _ => .of_ne rfl (by simp)) fun _ => ?_
  refine (hchain m.senderChain).bind fun _ _ => .when (fun _ => hchain m.receiverChain) ?_
  refine (hregistry (Registry.refuses_currentKey hintact)).bind fun key _ => ?_
  refine (hexists s _).bind fun found hfound =>
    .guard (fun _ => .of_ne rfl (by simp)) fun hnot_found => ?_
  refine (hregistry (Registry.refuses_castVote hintact)).bind fun result hcast => ?_
  obtain ⟨outcome, s₁⟩ := result
  refine .ite (fun _ => .ok _) fun _ => ?_
  refine (hwrite s₁ _).bind fun s₂ hmark => (hwrite s₂ _).bind fun s₃ htracker => ?_
  refine .ite (fun _ => .ok _) fun _ => (hexists s₃ _).bind fun taken htaken =>
    .guard (fun hsome => ⟨rfl, fun _ _ => ⟨?_, ?_⟩⟩) fun _ => .ok _
  · rw [InboundVote.origin, ← eq_of_isFinalized h.books hfound]
    exact Bool.not_eq_true _ ▸ hnot_found
  -- Nothing of what the deciding vote writes before that is a transaction.
  · obtain ⟨ballots, -, hbooks⟩ :=
      Registry.voted_of_castVote h hl hballots (registryError_lift_eq_ok_iff.1 hcast)
    have hbooks₃ := books_marked hbooks hmark htracker
    have hfound : taken = (l.accounts.cctx m.digest).isSome := eq_of_hasCctx hbooks₃ htaken
    exact Option.isSome_iff_exists.1 (hfound ▸ hsome)

/-- **A report is taken or refused**, whatever the gateway answers. -/
theorem refuses_voteInbound {g : γ} :
    FailsWith (RefusesReport l.accounts m) (voteInbound policy config g s block m).1 := by
  rw [voteInbound]
  split
  · next e hintake => exact .error (refuses_intake hintact h hl hballots e hintake)
  · exact .ok _
  · next receipt p hintake =>
    refine (faults_opened (.any σ) h hl hballots hintake).mono fun e he => ⟨he.isInternal_eq, ?_⟩
    rintro x rfl
    exact he.elim

end Reports

/-- A vote on an outbound transaction has come to the release of the nonce of an attempt: it has
decided its ballot, and the attempt is settled on a store. -/
inductive Releases (policy : StalePolicy) (config : SettlementConfig) (s : σ) (block : Block)
    (m : OutboundVote) : σ → Attempt → Prop
  | intro {c c₁ : Cctx} {outcome : Registry.VoteOutcome} {s₁ : σ} {p : Progress σ}
      (hvalid : m.validate = .ok ()) (hstored : cctx? s m.cctxIndex = .ok (some c))
      (hcheck : checkAttempt c m = .ok ())
      (hcast : Registry.castVote policy s m.request block.height = .ok (outcome, s₁))
      (hfinalized : outcome.finalized = true)
      (hobserve : (c.updateCurrent fun a => { a with ballotIndex := some m.digest }).observe m
        outcome.ballot.status = .ok c₁)
      (hsettle : settle config
        ⟨s₁, c₁, ballotEvents outcome.isNew m.digest .outbound m.chainId, none⟩ outcome.ballot block
          = .ok p) :
      Releases policy config s block m p.store c.current

omit [LawfulStore σ] in
/-- The release is all that is left of the vote then, but for what comes after it. -/
theorem Releases.voteOutbound_eq {m : OutboundVote} {attempt : Attempt}
    (h : Releases policy config s block m t attempt) :
    ∃ (p : Progress σ) (receipt : VoteReceipt), p.store = t ∧
      voteOutbound policy config s block m = (do
        let s ← releaseAttempt t attempt
        let s ← clearMigration s p.cctx
        finish receipt { p with store := s }) := by
  cases h with
  | @intro c c₁ outcome s₁ p hvalid hstored hcheck hcast hfinalized hobserve hsettle =>
    refine ⟨p, _, rfl, bind_eq hvalid (bind_eq hstored (bind_eq hcheck
      (bind_eq (registryError_lift_eq_ok_iff.2 hcast) ((if_neg ?_).trans
        (bind_eq hobserve (bind_eq hsettle rfl))))))⟩
    simp [hfinalized]

omit [LawfulStore σ] in
/-- Every vote that is accepted and has decided its ballot has come to a release. -/
theorem exists_releases {m : OutboundVote} {receipt : VoteReceipt} {effects : Effects}
    (hvote : voteOutbound policy config s block m = .ok (receipt, t, effects))
    (hfinalized : receipt.finalized = true) :
    ∃ u attempt, Releases policy config s block m u attempt := by
  obtain ⟨_, hvalid, -⟩ := bind_eq_ok_iff.1 hvote
  obtain ⟨c, outcome, s₁, hstored, hcheck, hcast, hends⟩ := links_of_voteOutbound hvote
  rcases hends with ⟨hpending, -, htells, -⟩ |
    ⟨hdecided, c₁, p, _, _, _, hobserve, hsettle, -⟩
  · rw [htells.finalized_eq, hpending] at hfinalized
    cases hfinalized
  · exact ⟨_, _, .intro hvalid hstored hcheck hcast hdecided hobserve hsettle⟩

section Outcomes

variable {m : OutboundVote} (h : Records s l) (hl : l.Legible)
  (hballots : BallotsFiled l.ballots) (hsound : l.accounts.Sound)
  (hroom : ∀ x c, l.accounts.cctx x = some c →
    ∀ lane, (l.accounts.nonces lane).next.toNat + 1 < UInt64.size)

include h hl hballots hsound hroom

/-- **A vote on an outcome is taken or refused**, whatever the outcome is. -/
theorem refuses_voteOutbound (hintact : Intact s) :
    FailsWith (fun e => e.isInternal = false) (voteOutbound policy config s block m) := by
  have hvalid : FailsWith (fun e => e.isInternal = false) m.validate := by
    rw [OutboundVote.validate]
    split
    · exact .error rfl
    · exact .ok ()
  refine hvalid.bind fun _ _ => .bind (refuses_get hintact (.cctx m.cctxIndex))
    fun stored hstored => ?_
  cases stored with
  | none => exact .error rfl
  | some c =>
  have hattempt : FailsWith (fun e => e.isInternal = false) (checkAttempt c m) :=
    .ite (fun _ => .error rfl) fun _ => .ite (fun _ => .error rfl) fun _ =>
      .ite (fun _ => .error rfl) fun _ => .ok ()
  refine hattempt.bind fun _ hcheck => ?_
  refine .bind (.registryError_lift (Registry.refuses_castVote hintact)) fun result hcast => ?_
  obtain ⟨outcome, s₁⟩ := result
  refine .ite (fun _ => .ok _) fun hfinalized => ?_
  have hc : l.accounts.cctx m.cctxIndex = some c := (eq_of_cctx? h hl hstored).symm
  obtain ⟨ballots, hvoted, hbooks⟩ :=
    Registry.voted_of_castVote h hl hballots (registryError_lift_eq_ok_iff.1 hcast)
  obtain ⟨-, -, hdecided⟩ := hvoted.decides (by simpa using hfinalized)
  have hvalue : FailsWith (fun e => e.isInternal = false)
      ((c.updateCurrent fun a => { a with ballotIndex := some m.digest }).observe m
        outcome.ballot.status) :=
    .ite (fun _ => .error rfl) fun _ => .ok _
  refine hvalue.bind fun c₁ hobserve => ?_
  exact (faults_settlement (.any σ) hl hsound (hroom _ c hc) hc (openTicket?_of_checkAttempt hcheck)
    hbooks hdecided hobserve).mono fun _ => SettlementError.IsFault.isInternal_eq

/-- **A nonce is released only if it has a record**, in which it counts as issued. -/
theorem Releases.exists_record {attempt : Attempt}
    (hreleases : Releases policy config s block m t attempt) {stored : Option NonceRecord}
    (hread : Registry.nonceRecord? t attempt.signingKey attempt.chainId = .ok stored) :
    ∃ record nonce, stored = some record ∧ attempt.nonce = some nonce ∧ nonce < record.next := by
  cases hreleases with
  | @intro c c₁ outcome s₁ p hvalid hstored hcheck hcast hfinalized hobserve hsettle =>
    have hc : l.accounts.cctx m.cctxIndex = some c := (eq_of_cctx? h hl hstored).symm
    have hopen := openTicket?_of_checkAttempt hcheck
    obtain ⟨nonce, hnonce, -⟩ := Option.map_eq_some_iff.1 (Cctx.eq_of_openTicket? hopen).1
    obtain ⟨ballots, -, hbooks⟩ := Registry.voted_of_castVote h hl hballots hcast
    obtain ⟨b, hsettled, hfits, hissued⟩ :=
      issued_of_settle hl hsound (hroom _ c hc) hc hopen hbooks hobserve hsettle
    obtain ⟨record, hrecord, hlt⟩ :=
      Registry.exists_of_issued hsettled hfits (hissued nonce hnonce) hread
    exact ⟨record, nonce, hrecord, hnonce, hlt⟩

end Outcomes

/-- **A migration is made or refused.** -/
theorem refuses_migrateFunds {chainId : ChainId} {amount : U256} (hintact : Intact s)
    (h : Records s l) (hl : l.Legible) :
    FailsWith (fun e => e.isInternal = false) (migrateFunds config s block chainId amount) := by
  refine .bind (.registryError_lift (Registry.refuses_switches hintact)) fun switches _ =>
    .check (fun _ => rfl) fun _ => ?_
  refine (refuses_externalChain hintact).bind fun chain _ => .guard (fun _ => rfl) fun _ => ?_
  refine .bind (.registryError_lift (Registry.refuses_get hintact (.fundMigration chainId)))
    fun stored _ => .guard (fun _ => rfl) fun _ => ?_
  refine .bind (.registryError_lift (Registry.refuses_currentKey hintact))
    fun current hcurrent => ?_
  refine .bind (.registryError_lift (Registry.refuses_newerKey? hintact)) fun newer _ => ?_
  split
  swap
  · exact .error rfl
  refine .bind (.registryError_lift (Registry.refuses_pendingNonces hintact)) fun pending _ =>
    .guard (fun _ => rfl) fun _ => ?_
  refine .bind (refuses_exists s _) fun found _ => .guard (fun _ => rfl) fun _ => ?_
  have hkey : Fits current.pubkey :=
    fits_of_currentKey hl (eq_of_currentKey h hl (registryError_lift_eq_ok_iff.1 hcurrent))
  exact (faults_transfer (p := ⟨s, migrationCctx config chain _ amount current _ _ block, .none⟩)
    (.any σ) h.books (Cctx.isBlank_migrationCctx ..) (hl.fits_nonces hkey)
    (by simp)).mono fun _ => SettlementError.IsFault.isInternal_eq

end Votes

end Journal

/-! ### Calls and queries -/

section Runs

variable {γ : Type} [Gateway γ] {service : Service} {w w₀ : World γ} {turns : List (Turn γ)}

namespace World

omit [Gateway γ] in
/-- A transition of the registry that only refuses is a call that does. -/
theorem refuses_quiet {op : Draft → Except RegistryError Draft}
    (h : FailsWith (fun e => e.isInternal = false) (op (.fresh w.store))) :
    FailsWith (fun e => e.isInternal = false) (w.runRegistry fun s => quiet (op s)).answer :=
  failsWith_runRegistry (h.map _) fun _ => rfl

namespace Sound

variable (h : w.Sound) (hintact : Intact w.store)

include h hintact

/-- **A report is accepted or refused**, and for a transaction that exists only if it does. -/
theorem refuses_voteInbound (block : Block) (m : InboundVote) :
    FailsWith (fun e => ∃ e', e = .settlement e' ∧ Journal.RefusesReport w.accounts m e')
      (service.execute w (.voteInbound block m)).answer := by
  have hfresh : Intact (Overlay.fresh w.store : Draft) := hintact.congr (Overlay.contents_fresh _)
  refine failsWith_runSettlement (((Journal.refuses_voteInbound hfresh h.records.fresh h.legible
    h.ballotsFiled).mono ?_).map _) ?_
  · intro e he
    exact ⟨e, rfl, he⟩
  · intro fault
    exact ⟨_, rfl, .of_ne rfl (by simp)⟩

/-- **Every call is accepted or refused.** -/
theorem refuses_execute (call : Call) :
    FailsWith (fun e => e.isInternal = false) (service.execute w call).answer := by
  have hfresh : Intact (Overlay.fresh w.store : Draft) := hintact.congr (Overlay.contents_fresh _)
  cases call with
  | castVote request block =>
    exact failsWith_runRegistry ((Registry.refuses_castVote hfresh).map _) fun _ => rfl
  | setObserverSet ids => exact refuses_quiet (Registry.refuses_write _ _)
  | addObserver id => exact refuses_quiet (Registry.refuses_addObserver hfresh)
  | replaceObserver old new => exact refuses_quiet (Registry.refuses_replaceObserver hfresh)
  | registerChain chain params =>
    rw [Service.execute, Service.registerChain]
    split
    · exact .error rfl
    · exact refuses_quiet (Registry.refuses_registerChain hfresh)
  | updateChainParams params => exact refuses_quiet (Registry.refuses_updateChainParams hfresh)
  | setSwitches switches => exact refuses_quiet (Registry.refuses_write _ _)
  | registerKey key makeCurrent => exact refuses_quiet (Registry.refuses_registerKey hfresh)
  | activateKey pubkey => exact refuses_quiet (Registry.refuses_activateKey hfresh)
  | pruneBallots height =>
    rw [Service.execute, Service.pruneBallots]
    split
    · exact .ok _
    · exact failsWith_runRegistry ((Registry.refuses_pruneBallots hfresh).map _) fun _ => rfl
  | voteInbound block m =>
    refine (h.refuses_voteInbound hintact block m).mono ?_
    rintro _ ⟨e, rfl, he⟩
    exact he.isInternal_eq
  | voteOutbound block m =>
    exact failsWith_runSettlement ((Journal.refuses_voteOutbound h.records.fresh h.legible
      h.ballotsFiled h.accounts (fun x c => h.room) hfresh).map _) fun _ => rfl
  | migrateFunds block chainId amount =>
    exact failsWith_runSettlement
      ((Journal.refuses_migrateFunds hfresh h.records.fresh h.legible).map _) fun _ => rfl
  | addOutboundTracker report =>
    exact failsWith_runSettlement ((Journal.refuses_addOutboundTracker hfresh).map _) fun _ => rfl
  | addInboundTracker report =>
    exact failsWith_runSettlement ((Journal.refuses_addInboundTracker hfresh).map _) fun _ => rfl

end Sound

end World

/-- **Every query on an intact store is answered or refused.** -/
theorem Intact.refuses_query {b : Backend} (h : Intact b) (q : Query) :
    FailsWith (fun e => e.isInternal = false) (q.run b) := by
  cases q with
  | ballot index => exact (Registry.refuses_get h (.ballot index)).mapError fun _ => id
  | observerSet => exact (Registry.refuses_observerSet h).mapError fun _ => id
  | chainParams chainId =>
    exact (Registry.refuses_get h (.chainParams chainId)).mapError fun _ => id
  | currentKey => exact (Registry.refuses_get h .currentKey).mapError fun _ => id
  | pendingNonces => exact (Registry.refuses_pendingNonces h).mapError fun _ => id
  | fundMigration chainId =>
    exact (Registry.refuses_get h (.fundMigration chainId)).mapError fun _ => id
  | cctx index => exact (Journal.refuses_get h (.cctx index)).mapError fun _ => id
  | cctxs => exact (Journal.refuses_list h .cctxs).mapError fun _ => id
  | pendingCctxs => exact (Journal.refuses_pendingCctxs h).mapError fun _ => id
  | outboundTracker signingKey chainId nonce =>
    exact (Journal.refuses_get h (.outboundTracker signingKey chainId nonce)).mapError fun _ => id
  | outboundTrackers signingKey chainId =>
    exact (Journal.refuses_list h (.outboundTrackers signingKey chainId)).mapError fun _ => id
  | inboundTrackers chainId =>
    exact (Journal.refuses_list h (.inboundTrackers chainId)).mapError fun _ => id
  | isFinalized => exact (Journal.refuses_exists _ _).mapError fun _ => id

/-- **All that an intact store holds decodes for whoever reads it**, by its key or in a listing. -/
theorem Intact.decodes {b : Backend} (h : Intact b) {bs held : Bytes}
    (hheld : b.entries.find? bs = some held) :
    (∃ k : Key, k.bytes = bs) ∧
    (∀ k : Key, k.bytes = bs → ∃ v : k.Value, Record.decode held = .ok v) ∧
    ∀ r : KeyRange, r.bytes <+: bs → ∃ v : r.Value, Record.decode held = .ok v := by
  refine ⟨?_, ?_, fun r hr => ?_⟩
  · obtain ⟨-, k, -, hk, -⟩ := h bs held hheld
    exact ⟨k, hk⟩
  · rintro k rfl
    obtain ⟨v, rfl, hfits⟩ := h.exists_encode hheld
    have hdecode := Record.decode_encode hfits
    cases k <;> exact ⟨v, hdecode⟩
  · obtain ⟨v, rfl, hfits⟩ := h.exists_encode_of_range hr hheld
    exact ⟨v, Record.decode_encode hfits⟩

/-- **Internal errors do not occur.** In a run from an empty store no call and no query fails with
one: no state changes but along the graph of states, no revert is put in the place of another, every
transaction satisfies the invariants when it is stored, every nonce that is released was issued, and
every record can be read. A report is never refused because its transaction exists, as long as no
two digests of what was hashed in the run and of the report itself collide. That there is no record
of a nonce that is released does not occur either: a vote that decides its ballot comes to the
release, which is what is left of it then, and the record is there. All that is stored is under the
bytes of a key, and decodes as what every reader expects, be it asked for by its key or listed. -/
theorem Run.no_internal_errors (hrun : Run service w₀ turns w)
    (hempty : w₀.store.entries = .empty) :
    (∀ call e, (service.execute w call).answer = .error e → e.isInternal = false) ∧
    (∀ q e, Query.run w.store q = .error e → e.isInternal = false) ∧
    (∀ m : InboundVote, CollisionFree ((m.preimage :: preimagesIn turns).map Preimage.bytes) →
      m.preimage.bytes.length < UInt64.size → ∀ block x,
      (service.execute w (.voteInbound block m)).answer
        ≠ .error (.settlement (.cctxExists x))) ∧
    (∀ block m,
      (∀ receipt s' effects,
        Journal.voteOutbound service.observers.stalePolicy service.settlement
          (Overlay.fresh w.store : Draft) block m = .ok (receipt, s', effects) →
        receipt.finalized = true →
        ∃ draft attempt, Journal.Releases service.observers.stalePolicy service.settlement
          (Overlay.fresh w.store : Draft) block m draft attempt) ∧
      ∀ draft attempt,
        Journal.Releases service.observers.stalePolicy service.settlement
          (Overlay.fresh w.store : Draft) block m draft attempt →
        (∃ (p : Progress Draft) (receipt : VoteReceipt), p.store = draft ∧
          Journal.voteOutbound service.observers.stalePolicy service.settlement
            (Overlay.fresh w.store : Draft) block m = (do
              let s ← Journal.releaseAttempt draft attempt
              let s ← Journal.clearMigration s p.cctx
              Journal.finish receipt { p with store := s })) ∧
        ∀ stored, Registry.nonceRecord? draft attempt.signingKey attempt.chainId = .ok stored →
          ∃ record nonce, stored = some record ∧ attempt.nonce = some nonce ∧
            nonce < record.next) ∧
    ∀ bs held, w.store.entries.find? bs = some held →
      (∃ k : Key, k.bytes = bs) ∧
      (∀ k : Key, k.bytes = bs → ∃ v : k.Value, Record.decode held = .ok v) ∧
      ∀ r : KeyRange, r.bytes <+: bs → ∃ v : r.Value, Record.decode held = .ok v := by
  have hsound := hrun.sound (World.sound_of_entries_eq_empty hempty)
  have hintact := hrun.intact (World.intact_of_entries_eq_empty hempty)
  refine ⟨hsound.refuses_execute hintact, hintact.refuses_query, ?_, ?_, fun _ _ => hintact.decodes⟩
  · intro m hfree hlength block x hanswer
    obtain ⟨_, ⟨⟩, he⟩ := hsound.refuses_voteInbound hintact block m _ hanswer
    obtain ⟨hmarked, c, hc⟩ := he.taken x rfl
    rw [hrun.absent_of_unmarked hempty hfree hlength hmarked] at hc
    cases hc
  · refine fun block m => ⟨fun receipt s' effects => Journal.exists_releases, ?_⟩
    refine fun draft attempt hreleases => ⟨hreleases.voteOutbound_eq, fun stored hread => ?_⟩
    exact hreleases.exists_record hsound.records.fresh hsound.legible hsound.ballotsFiled
      hsound.accounts (fun x c => hsound.room) hread

end Runs

namespace Sample

/-- Another event of the transaction in which the deposit was made. -/
def laterDeposit : InboundVote :=
  { deposit with eventIndex := 1 }

/-- **After the deposit every call is accepted or refused.** A report of another event of the same
transaction cannot find its transaction there. The vote on a failed outcome comes to the release of
a nonce, which has its record, and the transaction of the deposit can be read. -/
theorem no_internal_errors_of_world :
    (∀ call e, (service.execute world call).answer = .error e → e.isInternal = false) ∧
    (∀ block x, (service.execute world (.voteInbound block laterDeposit)).answer
      ≠ .error (.settlement (.cctxExists x))) ∧
    (∃ draft attempt, Journal.Releases service.observers.stalePolicy service.settlement
        (Overlay.fresh world.store : Draft) ⟨2, 2⟩ failure draft attempt ∧
      ∀ stored, Registry.nonceRecord? draft attempt.signingKey attempt.chainId = .ok stored →
        ∃ record nonce, stored = some record ∧ attempt.nonce = some nonce ∧
          nonce < record.next) ∧
    ∃ held, world.store.entries.find? (Key.cctx deposit.digest).bytes = some held ∧
      ∃ c : Cctx, Record.decode held = .ok c := by
  have hevaluated :
      CollisionFree ((laterDeposit.preimage :: preimagesIn (service.turnsOf start calls)).map
        Preimage.bytes) ∧
      laterDeposit.preimage.bytes.length < UInt64.size ∧
      (Journal.voteOutbound service.observers.stalePolicy service.settlement
        (Overlay.fresh world.store : Draft) ⟨2, 2⟩ failure).map (·.1.finalized) = .ok true ∧
      (world.store.entries.find? (Key.cctx deposit.digest).bytes).isSome = true := by
    decide +kernel
  obtain ⟨hfree, hlength, hanswer, hstored⟩ := hevaluated
  obtain ⟨hcalls, -, hreports, hvotes, hdecodes⟩ := Run.no_internal_errors run rfl
  obtain ⟨hcomes, hhas⟩ := hvotes ⟨2, 2⟩ failure
  obtain ⟨⟨receipt, s', effects⟩, hvote, hfinalized⟩ := map_eq_ok_iff.1 hanswer
  obtain ⟨draft, attempt, hreleases⟩ := hcomes receipt s' effects hvote hfinalized
  obtain ⟨-, hrecord⟩ := hhas draft attempt hreleases
  obtain ⟨held, hheld⟩ := Option.isSome_iff_exists.1 hstored
  exact ⟨hcalls, hreports laterDeposit hfree hlength, ⟨draft, attempt, hreleases, hrecord⟩,
    held, hheld, (hdecodes _ held hheld).2.1 (.cctx deposit.digest) rfl⟩

end Sample

end Settlement
