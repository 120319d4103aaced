import Settlement.Proofs.Failure
import Settlement.Proofs.Queries
import Settlement.Proofs.Settings

/-!
# Fund migrations in flight

A migration is entered under the digest of what it moves, and its chain is marked with this index
in the same transition. The mark keeps a second migration of the chain from starting. It is taken
away by the vote that settles the transaction which it names, on success and on failure alike: a
migration has one attempt and is never reverted, so it has ended then.

Many other transactions may be settled on the chain meanwhile, and the signing key may change.
Neither makes a difference: only the transaction that the mark names is looked for, whatever key it
is signed with.

The invariant of a run is that the marks name the migrations in flight, and that no migration has a
revert (`Settlement.Accounts.Migrating`).

Main statement: `Settlement.Reachable.migration_marks`.
-/

namespace Settlement

/-- The transaction moves funds on a chain to another key, and its outcome is awaited. -/
structure Cctx.MovesFunds (c : Cctx) (chainId : ChainId) : Prop where
  coinType_eq : c.inbound.coinType = .cmd
  chainId_eq : c.outbound.chainId = chainId
  status_eq : c.status = .pendingOutbound

/-! ### Marks and migrations -/

namespace Accounts

/-- The marks name the migrations in flight, each on its chain, and no migration has a revert. -/
structure Migrating (a : Accounts) (marks : ChainId → Option FundMigration) : Prop where
  exists_cctx : ∀ chainId f, marks chainId = some f →
    f.chainId = chainId ∧ ∃ c, a.cctx f.cctxIndex = some c ∧ c.MovesFunds chainId
  named : ∀ x c chainId, a.cctx x = some c → c.MovesFunds chainId →
    ∃ f, marks chainId = some f ∧ f.cctxIndex = x
  revert_eq : ∀ x c, a.cctx x = some c → c.inbound.coinType = .cmd → c.revert = none

theorem migrating_empty : empty.Migrating fun _ => none :=
  ⟨fun _ _ => nofun, fun _ _ _ => nofun, fun _ _ => nofun⟩

namespace Migrating

variable {a : Accounts} {marks : ChainId → Option FundMigration} {c d : Cctx}
  {chainId : ChainId} {lane : Option Lane} {closed : Option Ticket}

/-- What a mark names is in its first attempt. -/
theorem current_eq_of_named (h : a.Migrating marks) {f : FundMigration} {x : Digest}
    (hf : marks chainId = some f) (hx : f.cctxIndex = x) (hc : a.cctx x = some c) :
    c.current = c.outbound := by
  obtain ⟨-, d, hd, hmoves⟩ := h.exists_cctx chainId f hf
  rw [hx, hc] at hd
  cases hd
  exact Cctx.current_eq_outbound (h.revert_eq x c hc hmoves.coinType_eq)

theorem mark (h : a.Migrating marks) (o : Origin) : (a.mark o).Migrating marks :=
  ⟨h.exists_cctx, h.named, h.revert_eq⟩

/-! ### Transactions that are no migrations -/

/-- What is no migration may be entered under an index that is not that of one. -/
theorem renew (h : a.Migrating marks) (hcoin : c.inbound.coinType ≠ .cmd)
    (hold : ∀ d, a.cctx c.index = some d → d.inbound.coinType ≠ .cmd) :
    (a.renew c lane closed).Migrating marks where
  exists_cctx chainId f hf := by
    obtain ⟨hchain, d, hd, hmoves⟩ := h.exists_cctx chainId f hf
    have hne : f.cctxIndex ≠ c.index := fun heq => hold d (heq ▸ hd) hmoves.coinType_eq
    exact ⟨hchain, d, by rw [Renews.renew_cctx, if_neg hne, hd], hmoves⟩
  named x d chainId hd hmoves := by
    obtain ⟨-, rfl⟩ | ⟨-, hd⟩ := Renews.eq_or_of_renew hd
    · exact absurd hmoves.coinType_eq hcoin
    · exact h.named x d chainId hd hmoves
  revert_eq x d hd hcmd := by
    obtain ⟨-, rfl⟩ | ⟨-, hd⟩ := Renews.eq_or_of_renew hd
    · exact absurd hcmd hcoin
    · exact h.revert_eq x d hd hcmd

/-- No mark names a transaction that is no migration. -/
theorem clear_eq (h : a.Migrating marks)
    (hold : ∀ d, a.cctx c.index = some d → d.inbound.coinType ≠ .cmd) :
    c.clear marks = marks := by
  refine if_neg fun ⟨_, hnamed⟩ => ?_
  obtain ⟨f, hf, hindex⟩ := Option.map_eq_some_iff.1 hnamed
  obtain ⟨-, d, hd, hmoves⟩ := h.exists_cctx _ f hf
  exact hold d (hindex ▸ hd) hmoves.coinType_eq

/-! ### Migrations -/

/-- **A migration is opened on a chain that is not marked**, and marks it. -/
theorem start (h : a.Migrating marks) {f : FundMigration} (hunmarked : marks chainId = none)
    (habsent : a.cctx c.index = none) (hmoves : c.MovesFunds chainId) (hrevert : c.revert = none)
    (hchain : f.chainId = chainId) (hindex : f.cctxIndex = c.index) :
    (a.renew c lane closed).Migrating (Function.update marks chainId (some f)) where
  exists_cctx chainId' g hg := by
    rw [Function.update_apply] at hg
    split at hg
    · next heq =>
      cases hg
      exact ⟨hchain.trans heq.symm, c, by rw [Renews.renew_cctx, if_pos hindex], heq ▸ hmoves⟩
    · obtain ⟨hchain', d, hd, hmoves'⟩ := h.exists_cctx chainId' g hg
      refine ⟨hchain', d, ?_, hmoves'⟩
      rw [Renews.renew_cctx, if_neg, hd]
      intro heq
      rw [heq, habsent] at hd
      cases hd
  named x d chainId' hd hmoves' := by
    obtain ⟨hx, rfl⟩ | ⟨-, hd⟩ := Renews.eq_or_of_renew hd
    · obtain rfl := hmoves.chainId_eq.symm.trans hmoves'.chainId_eq
      exact ⟨f, Function.update_self .., hindex.trans hx.symm⟩
    · obtain ⟨g, hg, hgx⟩ := h.named x d chainId' hd hmoves'
      refine ⟨g, ?_, hgx⟩
      rw [Function.update_of_ne, hg]
      rintro rfl
      rw [hunmarked] at hg
      cases hg
  revert_eq x d hd hcmd := by
    obtain ⟨-, rfl⟩ | ⟨-, hd⟩ := Renews.eq_or_of_renew hd
    · exact hrevert
    · exact h.revert_eq x d hd hcmd

/-- **A migration that has ended takes its mark with it**, and no other mark. -/
theorem finish (h : a.Migrating marks) (hc : a.cctx d.index = some c)
    (hmoves : c.MovesFunds chainId) (hchain : d.outbound.chainId = chainId)
    (hterminal : d.status.isTerminal = true) (hrevert : d.revert = none) :
    (a.renew d lane closed).Migrating (d.clear marks) := by
  obtain ⟨f, hf, hindex⟩ := h.named _ c chainId hc hmoves
  have hclear : d.clear marks = Function.update marks chainId none := by
    rw [← hchain] at hf ⊢
    exact if_pos ⟨hterminal, by rw [hf, Option.map_some, hindex]⟩
  rw [hclear]
  refine ⟨fun chainId' g hg => ?_, fun x e chainId' he hmoves' => ?_, fun x e he hcmd => ?_⟩
  · rw [Function.update_apply] at hg
    split at hg
    · cases hg
    · next hne =>
      obtain ⟨hchain', e, he, hmoves'⟩ := h.exists_cctx chainId' g hg
      refine ⟨hchain', e, ?_, hmoves'⟩
      rw [Renews.renew_cctx, if_neg, he]
      intro heq
      rw [heq, hc] at he
      cases he
      exact hne (hmoves'.chainId_eq.symm.trans hmoves.chainId_eq)
  · obtain ⟨-, rfl⟩ | ⟨hx, he⟩ := Renews.eq_or_of_renew he
    -- What has ended waits for nothing.
    · rw [hmoves'.status_eq] at hterminal
      cases hterminal
    · obtain ⟨g, hg, hgx⟩ := h.named x e chainId' he hmoves'
      refine ⟨g, ?_, hgx⟩
      rw [Function.update_of_ne, hg]
      rintro rfl
      rw [hf] at hg
      cases hg
      exact hx (hgx.symm.trans hindex)
  · obtain ⟨-, rfl⟩ | ⟨-, he⟩ := Renews.eq_or_of_renew he
    · exact hrevert
    · exact h.revert_eq x e he hcmd

end Migrating

/-! ### Votes -/

variable {a b : Accounts} {marks : ChainId → Option FundMigration}

/-- A vote on an inbound transaction opens no migration. -/
theorem Reported.migrating {current : Option SigningKey} {m : InboundVote}
    {outcome : Registry.VoteOutcome} (h : a.Reported current m outcome b)
    (hcoin : m.coinType ≠ .cmd) (hmigrating : a.Migrating marks) : b.Migrating marks := by
  cases h with
  | pending => exact hmigrating
  | refuted => exact hmigrating.mark _
  | opened _ _ _ hcoinType _ _ hopens =>
    exact (hmigrating.mark _).renew (hcoinType ▸ hcoin)
      fun d hd => absurd rfl (hopens.index_ne hd)

end Accounts

/-- A migration that waits for a vote waits for its first attempt. -/
theorem Cctx.Formed.movesFunds {c : Cctx} (h : c.Formed) (hcmd : c.inbound.coinType = .cmd)
    (hawaits : c.status.awaitsOutbound = true) : c.MovesFunds c.outbound.chainId := by
  rcases CctxStatus.awaitsOutbound_iff.1 hawaits with hstatus | hstatus
  · exact ⟨hcmd, rfl, hstatus⟩
  · have hstage := h.isAt
    rw [hstatus] at hstage
    exact absurd hcmd hstage.1

/-- **A decided ballot leaves the marks with the migrations in flight.** -/
theorem Journal.OutboundSettled.migrating {a : Accounts} {marks : ChainId → Option FundMigration}
    {m : OutboundVote} {c d : Cctx} {lane : Option Lane} {closed : Option Ticket} {ballot : Ballot}
    (h : OutboundSettled a m c d lane ballot) (hmigrating : a.Migrating marks)
    (hc : a.cctx d.index = some c) (hformed : c.Formed)
    (hawaits : c.status.awaitsOutbound = true) :
    (a.renew d lane closed).Migrating (d.clear marks) := by
  have hinbound := h.settles.inbound_eq
  by_cases hcmd : c.inbound.coinType = .cmd
  · have hrevert := hmigrating.revert_eq _ c hc hcmd
    have hstage := (h.formed hformed).isAt
    -- A migration is not reverted, so there is one attempt, and it is the end.
    have hne : d.status ≠ .pendingRevert := by
      intro hstatus
      rw [hstatus] at hstage
      exact hstage.1 (hinbound ▸ hcmd)
    have hnone : d.revert = none := by
      have hreverting := h.reverts.resolve_left hne
      rw [Cctx.isReverting, Cctx.isReverting, hrevert] at hreverting
      exact Option.not_isSome_iff_eq_none.1 (by rw [hreverting]; decide)
    have hterminal : d.status.isTerminal = true := by
      have hleads := h.leadsTo
      cases hverdict : ballot.status with
      | pending => rw [hverdict] at hleads; cases hleads
      | success =>
        rw [hverdict] at hleads
        rcases hleads with hstatus | hstatus <;> rw [hstatus] <;> rfl
      | failure =>
        rw [hverdict] at hleads
        rw [hleads.resolve_left hne]
        rfl
    exact hmigrating.finish hc (hformed.movesFunds hcmd hawaits) h.movesOn.outbound.chainId_eq
      hterminal hnone
  · have hother : ∀ e, a.cctx d.index = some e → e.inbound.coinType ≠ .cmd := by
      intro e he
      rw [hc] at he
      cases he
      exact hcmd
    rw [hmigrating.clear_eq hother]
    exact hmigrating.renew (hinbound ▸ hcmd) hother

/-! ### Calls -/

section Runs

variable {γ : Type}

/-- The marks of fund migrations that are stored in a world. -/
def World.migrations (w : World γ) : ChainId → Option FundMigration :=
  w.store.ledger.migrations

variable [Gateway γ] {service : Service} {w : World γ}

/-- **Every call leaves the marks with the migrations in flight.** -/
theorem World.Sound.migrating (h : w.Sound) (hmigrating : w.accounts.Migrating w.migrations)
    {call : Call} (hstore : (service.execute w call).world.store.Addressable) :
    (service.execute w call).world.accounts.Migrating
      (service.execute w call).world.migrations := by
  cases call with
  | voteInbound block m =>
    obtain ⟨e, gateway, hrefused⟩ | ⟨receipt, outcome, a, ballots, -, htaken, -, hreported, -,
      hbooks⟩ := Service.voteInbound_cases service h.records h.legible h.ballotsFiled block m
    · rw [hrefused]
      exact hmigrating
    have haccounts := (hbooks.ledger hstore).2.1
    have hmarks := (service.touches w (.voteInbound block m)).marks (fun _ => id) h.records.marks
    rw [World.accounts, World.migrations, haccounts, hmarks.ledger]
    exact hreported.migrating htaken.coinType_ne hmigrating
  | voteOutbound block m =>
    obtain ⟨e, hrefused⟩ | ⟨receipt, c, outcome, ballots, -, htaken, -, hpending, hdecided⟩ :=
      Service.voteOutbound_cases service h.records h.legible h.ballotsFiled h.accounts.toFiled
        block m
    · rw [hrefused]
      exact hmigrating
    cases hfinalized : outcome.finalized with
    | false =>
      obtain ⟨hbooks, hmarks⟩ := hpending hfinalized
      rw [World.accounts, World.migrations, (hbooks.ledger hstore).2.1, hmarks.ledger]
      exact hmigrating
    | true =>
      obtain ⟨d, lane, hsettled, hbooks, hmarks⟩ := hdecided hfinalized
      rw [World.accounts, World.migrations, (hbooks.ledger hstore).2.1, hmarks.ledger]
      have hindex : d.index = m.cctxIndex :=
        hsettled.settles.index_eq.trans (h.accounts.index_eq _ _ htaken.cctx_eq)
      exact hsettled.migrating hmigrating (hindex ▸ htaken.cctx_eq)
        (h.accounts.formed _ c htaken.cctx_eq) (Cctx.eq_of_openTicket? htaken.openTicket?_eq).2.1
  | migrateFunds block chainId amount =>
    obtain ⟨e, hrefused⟩ | ⟨index, current, newer, c, lane, -, -, htaken, hbooks, hmarks⟩ :=
      Service.migrateFunds_cases service h.records h.legible block chainId amount
    · rw [hrefused]
      exact hmigrating
    rw [World.accounts, World.migrations, (hbooks.ledger hstore).2.1, hmarks.ledger]
    exact Accounts.Migrating.start hmigrating htaken.unmarked htaken.opens.absent
      ⟨htaken.coinType_eq, htaken.chainId_eq, htaken.status_eq⟩ htaken.revert_eq rfl
      htaken.index_eq.symm
  | castVote | pruneBallots | addOutboundTracker | addInboundTracker | setObserverSet
  | addObserver | replaceObserver | registerChain | updateChainParams | setSwitches | registerKey
  | activateKey =>
    rw [World.accounts, World.migrations, service.accounts_eq w rfl, service.migrations_eq w rfl]
    exact hmigrating

/-- **In every reachable world the marks name the migrations in flight.** -/
theorem Reachable.migrating (h : Reachable service w) :
    w.accounts.Migrating w.migrations := by
  obtain ⟨w₀, turns, hempty, hrun⟩ := h
  have h₀ := World.sound_of_entries_eq_empty hempty
  induction hrun with
  | start =>
    rw [World.accounts, World.migrations, World.ledger_eq_empty hempty]
    exact Accounts.migrating_empty
  | @call turns w hrun call hstore ih => exact (hrun.sound h₀).migrating ih hstore
  | outside _ hentries ih =>
    rw [World.accounts, World.migrations, World.ledger_eq_of_entries_eq hentries]
    exact ih

end Runs

/-! ### Refusals -/

namespace Journal

section Refusals

variable {σ : Type} [WritableStore σ] {s : σ} {config : SettlementConfig} {block : Block}
  {chainId : ChainId} {amount : U256}

/-- If an error says that a migration is in progress, then on this chain, and the chain is
marked. -/
def TellsOfMark {σ : Type} [ReadableStore σ] (s : σ) (chainId : ChainId)
    (e : SettlementError) : Prop :=
  ∀ id, e = .migrationInProgress id →
    id = chainId ∧ ∃ f, Registry.fundMigration? s chainId = .ok (some f)

/-- An error that does not say so tells nothing. -/
theorem TellsOfMark.of_ne {σ : Type} [ReadableStore σ] {s : σ} {e : SettlementError}
    (h : ∀ id, e ≠ .migrationInProgress id) : TellsOfMark s chainId e :=
  fun id he => absurd he (h id)

end Refusals

end Journal

section Runs

variable {γ : Type} [Gateway γ] {service : Service} {w : World γ}

namespace World.Sound

variable (h : w.Sound) {block : Block} {chainId : ChainId} {amount : U256}

include h

omit [Gateway γ] in
theorem fundMigration?_eq (chainId : ChainId) :
    Registry.fundMigration? w.store.restored chainId = .ok (w.migrations chainId) :=
  storeError_lift_eq_ok_iff.2
    (getRecord_restored h.records h.legible (.fundMigration chainId))

end World.Sound

end Runs

/-! ### Funds that are moved -/

namespace Sample

/-- A newer key is registered, and the funds of the chain are moved to it. -/
def movingCalls : List Call := [
  .setObserverSet [observer],
  .registerChain ⟨chainId, "external", .evm⟩ (.ofThreshold chainId 50),
  .registerKey ⟨"key", 1, 1⟩ true,
  .registerKey ⟨"newer key", 2, 2⟩ false,
  .migrateFunds ⟨3, 3⟩ chainId (.ofNat 100)]

/-- The index of the transfer. -/
def movingIndex : Digest :=
  (Journal.migrationPreimage chainId (.ofNat 100) ⟨"key", 1, 1⟩ ⟨"newer key", 2, 2⟩ 3).digest

end Sample

end Settlement
