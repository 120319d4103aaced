import Settlement.Proofs.Calls

/-!
# Settings

The settings are what governance decides about votes and transactions: the observers, the chains
with their parameters, the switches and the current signing key. Of all calls only those of
governance write settings (`Settlement.Service.keeps_governed`). What a vote is checked against can
therefore not change between two votes unless governance has changed it.
-/

namespace Settlement

/-! ### Calls -/

/-- Whether a call is one of governance: about observers, chains, switches or signing keys. -/
def Call.isGovernance : Call → Bool
  | .setObserverSet _ | .addObserver _ | .replaceObserver _ _ | .registerChain _ _
  | .updateChainParams _ | .setSwitches _ | .registerKey _ _ | .activateKey _ => true
  | _ => false

/-- Whether a call is about transactions: a vote with a message, or a migration. -/
def Call.isTransaction : Call → Bool
  | .voteInbound _ _ | .voteOutbound _ _ | .migrateFunds _ _ _ => true
  | _ => false

section Transactions

variable {γ : Type} [Gateway γ] (service : Service) (w : World γ) {c : Call}

/-- **A call that is not about transactions leaves the accounts alone**, -/
theorem Service.accounts_eq (hc : c.isTransaction = false) :
    (service.execute w c).world.store.ledger.accounts = w.store.ledger.accounts := by
  refine Ledger.accounts_congr fun k hk => (service.touches w c).ledger_eq fun hwrites => ?_
  cases c with
  | voteInbound | voteOutbound | migrateFunds => cases hc
  | castVote | pruneBallots | addOutboundTracker | addInboundTracker | setObserverSet
  | addObserver | replaceObserver | registerChain | updateChainParams | setSwitches | registerKey
  | activateKey => cases k <;> first | exact hk | exact hwrites

/-- and the marks of fund migrations. -/
theorem Service.migrations_eq (hc : c.isTransaction = false) :
    (service.execute w c).world.store.ledger.migrations = w.store.ledger.migrations := by
  refine funext fun chainId =>
    (service.touches w c).ledger_eq (k := .fundMigration chainId) fun hwrites => ?_
  cases c with
  | voteInbound | voteOutbound | migrateFunds => cases hc
  | castVote | pruneBallots | addOutboundTracker | addInboundTracker | setObserverSet
  | addObserver | replaceObserver | registerChain | updateChainParams | setSwitches | registerKey
  | activateKey => exact hwrites

end Transactions

/-- What is kept is held under the same bytes. -/
theorem Keeps.contents_eq {σ : Type} [WritableStore σ] [LawfulStore σ] {s s' : σ} {P : Key → Prop}
    (h : Keeps P s s') {l : Ledger} (hl : Records s l) {k : Key} (hk : P k) :
    contents s' k.bytes = contents s k.bytes := by
  obtain ⟨l', hl', hsame⟩ := h l hl
  rw [hl' k, hl k, hsame k hk]

/-- **Only governance changes the settings and the history of keys.** -/
theorem Service.keeps_administered {γ : Type} [Gateway γ] (service : Service) (w : World γ)
    {c : Call} (hc : c.isGovernance = false) :
    Keeps Key.IsAdministered w.store (service.execute w c).world.store := by
  refine (service.touches w c).keeps fun k hk hwrites => ?_
  cases c with
  | setObserverSet | addObserver | replaceObserver | registerChain | updateChainParams
  | setSwitches | registerKey | activateKey => cases hc
  | castVote | pruneBallots | voteInbound | addOutboundTracker | addInboundTracker =>
    cases k <;> first | exact hk | exact hwrites
  | voteOutbound => cases k <;> first | exact hk | exact hwrites.elim id (Or.elim · id id)
  | migrateFunds => cases k <;> first | exact hk | exact hwrites.elim id id

/-- Only governance changes the settings. -/
theorem Service.keeps_governed {γ : Type} [Gateway γ] (service : Service) (w : World γ) {c : Call}
    (hc : c.isGovernance = false) :
    Keeps Key.IsGoverned w.store (service.execute w c).world.store :=
  (service.keeps_administered w hc).mono fun _ hk => hk.isAdministered

end Settlement
