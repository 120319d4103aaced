import Settlement.Proofs.Listings

/-!
# What governance enacts

Governance has eight calls, and what they make of the ledger is said here once
(`Settlement.Ledger.Enacts`): the observers are exchanged for others, a chain that is not registered
is entered with its parameters, the parameters of a registered chain are replaced, the switches are
set, a key is added to the history whose public key is not in it, or a key of the history is made
the current one. A call that needs two writes makes both or is refused, and no other call writes any
of this.

So whatever these changes preserve holds in every world that is reached
(`Settlement.Run.of_enacts`).
-/

namespace Settlement

variable {σ γ : Type}

/-! ### Changes -/

/-- How one observer set comes after another. -/
inductive ObserverSet.Succeeds (s : ObserverSet) : ObserverSet → Prop
  | ofList (ids : List ObserverId) : Succeeds s (.ofList ids)
  | add {s' : ObserverSet} {id : ObserverId} (h : s.add? id = some s') : Succeeds s s'
  | replace {s' : ObserverSet} {old new : ObserverId} (h : s.replace? old new = some s') :
      Succeeds s s'

/-- Whether the threshold is a percentage of at least one. -/
def ChainParams.IsProper (params : ChainParams) : Prop :=
  0 < params.thresholdPercent.toNat ∧ params.thresholdPercent.toNat ≤ 100

/-- The key under which a signing key is kept in the history. -/
abbrev SigningKey.historyKey (key : SigningKey) : Key :=
  .keyHistory key.keygenHeight key.pubkey

namespace Ledger

/-- A key is in the history. -/
def Recalls (l : Ledger) (key : SigningKey) : Prop :=
  ∃ height pubkey, l (.keyHistory height pubkey) = some key

/-- Governance leads from the first ledger to the second. -/
inductive Enacts (l : Ledger) : Ledger → Prop
  /-- Nothing has changed of what governance decides. -/
  | keep {l' : Ledger} (h : ∀ k : Key, k.IsAdministered → l' k.folded = l k.folded) : Enacts l l'
  | observers {observers : ObserverSet} (h : l.observers.Succeeds observers) :
      Enacts l (l.set .observerSet observers)
  /-- A chain is registered with its own parameters. -/
  | register {chain : Chain} {params : ChainParams} (habsent : l (.chain chain.chainId) = none)
      (hchain : params.chainId = chain.chainId) (hproper : params.IsProper) :
      Enacts l ((l.set (.chain chain.chainId) chain).set (.chainParams params.chainId) params)
  /-- A registered chain gets other parameters. -/
  | update {params : ChainParams} (hregistered : (l (.chain params.chainId)).isSome)
      (hproper : params.IsProper) : Enacts l (l.set (.chainParams params.chainId) params)
  | switch (switches : Switches) : Enacts l (l.set .switches switches)
  /-- A key enters the history. -/
  | append {key : SigningKey} (hnew : ∀ other, l.Recalls other → other.pubkey ≠ key.pubkey) :
      Enacts l (l.set key.historyKey key)
  /-- A key enters the history and becomes the current one. -/
  | appoint {key : SigningKey} (hnew : ∀ other, l.Recalls other → other.pubkey ≠ key.pubkey) :
      Enacts l ((l.set key.historyKey key).set .currentKey key)
  /-- A key of the history becomes the current one. -/
  | activate {key : SigningKey} (hkey : l.Recalls key) : Enacts l (l.set .currentKey key)

theorem Enacts.refl (l : Ledger) : l.Enacts l :=
  .keep fun _ _ => rfl

end Ledger

/-! ### Operations -/

/-- The store records a ledger to which governance leads from this one. -/
def Enacted [WritableStore σ] [LawfulStore σ] (l : Ledger) (s : σ) : Prop :=
  ∃ l', Records s l' ∧ l.Enacts l'

namespace Registry

variable [WritableStore σ] [LawfulStore σ] {s s' : σ} {l : Ledger}

theorem enacted_setObserverSet (h : Records s l) {observers : ObserverSet}
    (hsucceeds : l.observers.Succeeds observers) (hset : setObserverSet s observers = .ok s') :
    Enacted l s' :=
  ⟨_, h.put .observerSet (storeError_lift_eq_ok_iff.1 hset), .observers hsucceeds⟩

theorem enacted_addObserver (h : Records s l) (hl : l.Legible) {id : ObserverId}
    (hadd : addObserver s id = .ok s') : Enacted l s' := by
  obtain ⟨observers, hobservers, hadd⟩ := bind_eq_ok_iff.1 hadd
  obtain rfl := eq_of_observerSet h hl hobservers
  split at hadd
  · simp at hadd
  · next observers hnew => exact enacted_setObserverSet h (.add hnew) hadd

theorem enacted_replaceObserver (h : Records s l) (hl : l.Legible) {old new : ObserverId}
    (hreplace : replaceObserver s old new = .ok s') : Enacted l s' := by
  obtain ⟨observers, hobservers, hreplace⟩ := bind_eq_ok_iff.1 hreplace
  obtain rfl := eq_of_observerSet h hl hobservers
  obtain ⟨-, hreplace⟩ := guard_eq_ok_iff.1 hreplace
  simp only at hreplace
  split at hreplace
  · simp at hreplace
  · next observers hexchanged => exact enacted_setObserverSet h (.replace hexchanged) hreplace

/-- **Parameters are stored only if their threshold is a percentage.** -/
theorem records_setChainParams (h : Records s l) {params : ChainParams}
    (hset : setChainParams s params = .ok s') :
    params.IsProper ∧ Records s' (l.set (.chainParams params.chainId) params) := by
  obtain ⟨hvalid, hset⟩ := guard_eq_ok_iff.1 hset
  obtain ⟨hzero, hhundred⟩ := not_or.1 hvalid
  refine ⟨⟨Nat.pos_of_ne_zero fun heq => hzero (UInt8.toNat_inj.1 heq), ?_⟩,
    h.put (.chainParams params.chainId) (storeError_lift_eq_ok_iff.1 hset)⟩
  exact Nat.not_lt.1 fun hlt => hhundred (UInt8.lt_iff_toNat_lt.2 hlt)

theorem eq_of_chain? (h : Records s l) (hl : l.Legible) {id : ChainId} {stored : Option Chain}
    (hstored : chain? s id = .ok stored) : stored = l (.chain id) :=
  getRecord_of_records h (.chain id) (hl.fits _) (storeError_lift_eq_ok_iff.1 hstored)

theorem enacted_registerChain (h : Records s l) (hl : l.Legible) {chain : Chain}
    {params : ChainParams} (hchain : params.chainId = chain.chainId)
    (hregister : registerChain s chain params = .ok s') : Enacted l s' := by
  obtain ⟨stored, hstored, hregister⟩ := bind_eq_ok_iff.1 hregister
  obtain rfl := eq_of_chain? h hl hstored
  obtain ⟨habsent, hregister⟩ := guard_eq_ok_iff.1 hregister
  obtain ⟨s₁, hset, hparams⟩ := bind_eq_ok_iff.1 hregister
  have h₁ := h.put (.chain chain.chainId) (storeError_lift_eq_ok_iff.1 hset)
  obtain ⟨hproper, h₂⟩ := records_setChainParams h₁ hparams
  exact ⟨_, h₂, .register (Option.not_isSome_iff_eq_none.1 habsent) hchain hproper⟩

theorem enacted_updateChainParams (h : Records s l) (hl : l.Legible) {params : ChainParams}
    (hupdate : updateChainParams s params = .ok s') : Enacted l s' := by
  obtain ⟨stored, hstored, hupdate⟩ := bind_eq_ok_iff.1 hupdate
  obtain rfl := eq_of_chain? h hl hstored
  obtain ⟨hregistered, hupdate⟩ := guard_eq_ok_iff.1 hupdate
  obtain ⟨hproper, h'⟩ := records_setChainParams h hupdate
  exact ⟨_, h', .update (Option.isSome_iff_ne_none.2 (by simpa using hregistered)) hproper⟩

theorem enacted_setSwitches (h : Records s l) {switches : Switches}
    (hset : setSwitches s switches = .ok s') : Enacted l s' :=
  ⟨_, h.put .switches (storeError_lift_eq_ok_iff.1 hset), .switch switches⟩

/-- The history that is read has the keys that are in it. -/
theorem mem_of_keyHistory (hintact : Intact s) (h : Records s l) (hl : l.Legible)
    {history : List SigningKey} (hhistory : keyHistory s = .ok history) (key : SigningKey) :
    key ∈ history ↔ l.Recalls key := by
  obtain ⟨rows, hrows, rfl⟩ :=
    hintact.exists_rows (r := .keyHistory) (storeError_lift_eq_ok_iff.1 hhistory)
  exact mem_keyHistory_iff h hl hrows key

theorem enacted_registerKey (hintact : Intact s) (h : Records s l) (hl : l.Legible)
    {key : SigningKey} {makeCurrent : Bool} (hregister : registerKey s key makeCurrent = .ok s') :
    Enacted l s' := by
  obtain ⟨s₁, hkey, hregister⟩ := bind_eq_ok_iff.1 hregister
  obtain ⟨history, hhistory, hkey⟩ := bind_eq_ok_iff.1 hkey
  obtain ⟨habsent, hkey⟩ := guard_eq_ok_iff.1 hkey
  have hnew (other : SigningKey) (hother : l.Recalls other) : other.pubkey ≠ key.pubkey := by
    intro heq
    refine habsent (List.any_eq_true.2 ⟨other, ?_, beq_iff_eq.2 heq⟩)
    exact (mem_of_keyHistory hintact h hl hhistory other).2 hother
  have h₁ := h.put key.historyKey (storeError_lift_eq_ok_iff.1 hkey)
  rcases ite_eq_ok_iff.1 hregister with ⟨-, hregister⟩ | ⟨-, hregister⟩
  · exact ⟨_, h₁.put .currentKey (storeError_lift_eq_ok_iff.1 hregister), .appoint hnew⟩
  · cases hregister
    exact ⟨_, h₁, .append hnew⟩

theorem enacted_activateKey (hintact : Intact s) (h : Records s l) (hl : l.Legible)
    {pubkey : String} (hactivate : activateKey s pubkey = .ok s') : Enacted l s' := by
  obtain ⟨history, hhistory, hactivate⟩ := bind_eq_ok_iff.1 hactivate
  split at hactivate
  · simp at hactivate
  · next key hfound =>
    have hkey := (mem_of_keyHistory hintact h hl hhistory key).1 (List.mem_of_find?_eq_some hfound)
    exact ⟨_, h.put .currentKey (storeError_lift_eq_ok_iff.1 hactivate), .activate hkey⟩

end Registry

/-! ### Calls and runs -/

section Runs

variable {service : Service} {w w₀ : World γ} {l : Ledger}

theorem World.enacted_quiet {op : Draft → Except RegistryError Draft} (h : Records w.store l)
    (hop : ∀ draft, op (.fresh w.store) = .ok draft → Enacted l draft) :
    Enacted l (w.runRegistry fun s => World.quiet (op s)).world.store := by
  rcases w.runRegistry_cases _ with ⟨e, hreply⟩ | ⟨answer, draft, b, hok, hreply, hcontents⟩
  · rw [hreply]
    exact ⟨l, h, .refl l⟩
  · obtain ⟨draft', hdraft, heq⟩ := map_eq_ok_iff.1 hok
    cases heq
    obtain ⟨l', hl', henacts⟩ := hop draft hdraft
    rw [hreply]
    exact ⟨l', hl'.congr hcontents, henacts⟩

variable [Gateway γ]

/-- **What any call makes of what governance decides.** -/
theorem Service.enacted_execute (service : Service) (hintact : Intact w.store)
    (h : Records w.store l) (hl : l.Legible) (c : Call) :
    Enacted l (service.execute w c).world.store := by
  cases hc : c.isGovernance with
  | false =>
    obtain ⟨l', hl', hsame⟩ := service.keeps_administered w hc l h
    exact ⟨l', hl', .keep hsame⟩
  | true =>
    have hfresh := h.fresh
    have hintact : Intact (Overlay.fresh w.store : Draft) :=
      hintact.congr (Overlay.contents_fresh _)
    cases c with
    | setObserverSet ids =>
      exact World.enacted_quiet h fun _ => Registry.enacted_setObserverSet hfresh (.ofList ids)
    | addObserver id =>
      exact World.enacted_quiet h fun _ => Registry.enacted_addObserver hfresh hl
    | replaceObserver old new =>
      exact World.enacted_quiet h fun _ => Registry.enacted_replaceObserver hfresh hl
    | registerChain chain params =>
      rw [execute, registerChain]
      split
      · exact ⟨l, h, .refl l⟩
      · next hchain =>
        exact World.enacted_quiet h fun _ =>
          Registry.enacted_registerChain hfresh hl (not_not.1 hchain)
    | updateChainParams params =>
      exact World.enacted_quiet h fun _ => Registry.enacted_updateChainParams hfresh hl
    | setSwitches switches =>
      exact World.enacted_quiet h fun _ => Registry.enacted_setSwitches hfresh
    | registerKey key makeCurrent =>
      exact World.enacted_quiet h fun _ => Registry.enacted_registerKey hintact hfresh hl
    | activateKey pubkey =>
      exact World.enacted_quiet h fun _ => Registry.enacted_activateKey hintact hfresh hl
    | castVote | pruneBallots | voteInbound | voteOutbound | migrateFunds
    | addOutboundTracker | addInboundTracker => cases hc

/-- **What every change of governance preserves is preserved by a run.** -/
theorem Run.of_enacts {turns : List (Turn γ)} {P : Ledger → Prop}
    (hstep : ∀ l l', P l → l.Enacts l' → P l') (hrun : Run service w₀ turns w) (h₀ : w₀.Sound)
    (hintact : Intact w₀.store) (hP : P w₀.store.ledger) : P w.store.ledger := by
  refine hrun.ledger_induction (fun l l' hsame hl => ?_) (fun w c hw hintact hl => ?_) h₀ hintact hP
  · exact hstep l l' hl (.keep fun k _ => hsame k)
  · obtain ⟨l', hl', henacts⟩ := service.enacted_execute hintact hw.records hw.legible c
    exact ⟨l', hl', hstep _ _ hl henacts⟩

/-- What every change of governance preserves holds in every world that is reached. -/
theorem Reachable.of_enacts {P : Ledger → Prop} (hstep : ∀ l l', P l → l.Enacts l' → P l')
    (h : Reachable service w) (hP : P .empty) : P w.store.ledger := by
  obtain ⟨w₀, turns, hempty, hrun⟩ := h
  refine hrun.of_enacts hstep (World.sound_of_entries_eq_empty hempty)
    (World.intact_of_entries_eq_empty hempty) ?_
  rw [World.ledger_eq_empty hempty]
  exact hP

end Runs

end Settlement
