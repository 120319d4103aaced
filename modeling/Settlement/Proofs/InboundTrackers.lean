import Settlement.Proofs.InternalErrors
import Settlement.Proofs.Listings

/-!
# Inbound trackers

An inbound tracker says that an external transaction was seen whose outcome is awaited. There are
two kinds of news about such a transaction (`Settlement.InboundNews`): a report, which enters its
tracker, and a deciding vote on one of its events, which marks the event and removes the tracker.
What is stored follows the last of the news: a tracker is listed as long as nothing has been heard
of its transaction since the report (`Settlement.Service.Stands`).

A report is not checked against the marks. So a tracker that was entered before the deciding vote is
gone after it, but one that is reported after the vote stays
(`Settlement.Sample.listed_after_deposit`), and that is the only way in which a transaction with a
marked event comes to be awaited.

Main statement: `Settlement.Run.inbound_trackers_listed`.
-/

namespace Settlement

variable {σ γ : Type}

/-! ### News of external transactions -/

/-- An external transaction, up to the case of its hash: the hash is in small letters. -/
structure ExternalTx where
  chainId : ChainId
  txHash : String
  foldCase_txHash : foldCase txHash = txHash

namespace ExternalTx

instance : DecidableEq ExternalTx := fun x y =>
  decidable_of_iff (x.chainId = y.chainId ∧ x.txHash = y.txHash) (by cases x; cases y; simp)

/-- The external transaction with a hash on a chain. -/
def of (chainId : ChainId) (txHash : String) : ExternalTx :=
  ⟨chainId, foldCase txHash, foldCase_foldCase txHash⟩

/-- The key of its tracker. -/
def key (x : ExternalTx) : Key :=
  .inboundTracker x.chainId x.txHash

@[simp]
theorem folded_key (x : ExternalTx) : x.key.folded = x.key :=
  congrArg (Key.inboundTracker x.chainId) x.foldCase_txHash

theorem key_injective : Function.Injective key := by
  rintro ⟨chainId, txHash, hfold⟩ ⟨chainId', txHash', hfold'⟩ h
  obtain ⟨rfl, rfl⟩ := Key.inboundTracker.inj h
  rfl

end ExternalTx

/-- The external transaction in which an event is found. -/
def Origin.tx (o : Origin) : ExternalTx :=
  ⟨o.chainId, o.txHash, o.foldCase_txHash⟩

/-- The key of the mark of an event. -/
def Origin.key (o : Origin) : Key :=
  .finalizedInbound o.chainId o.txHash o.eventIndex

@[simp]
theorem Origin.folded_key (o : Origin) : o.key.folded = o.key := by
  rw [key, Key.folded, o.foldCase_txHash]

theorem Origin.key_injective : Function.Injective Origin.key := by
  rintro ⟨chainId, txHash, eventIndex, hfold⟩ ⟨chainId', txHash', eventIndex', hfold'⟩ h
  obtain ⟨rfl, rfl, rfl⟩ := Key.finalizedInbound.inj h
  rfl

/-- The tracker that a report enters. -/
def InboundHashReport.tracker (m : InboundHashReport) : InboundTracker :=
  ⟨m.chainId, m.txHash, m.coinType, m.creator.account⟩

/-- What may become known about an external transaction. -/
inductive InboundNews where
  /-- The transaction was seen. -/
  | reported (m : InboundHashReport)
  /-- One of its events has been voted on, and this was the deciding vote. -/
  | finalized (m : InboundVote)
  deriving DecidableEq

namespace InboundNews

/-- The external transaction that the news are about. -/
def tx : InboundNews → ExternalTx
  | .reported m => .of m.chainId m.txHash
  | .finalized m => m.origin.tx

/-- The tracker that there is after the news. -/
def tracker? : InboundNews → Option InboundTracker
  | .reported m => some m.tracker
  | .finalized _ => none

end InboundNews

/-- The news that a turn brings: those of an accepted report, or of a deciding vote. -/
def Service.inboundNews? [Gateway γ] (service : Service) (t : Turn γ) : Option InboundNews :=
  match t.call, (service.execute t.world t.call).answer with
  | .addInboundTracker m, .ok _ => some (.reported m)
  | .voteInbound _ m, .ok (.receipt receipt) =>
    if receipt.finalized then some (.finalized m) else none
  | _, _ => none

/-- A report stands as long as there are no other news of its transaction. -/
def Service.Stands [Gateway γ] (service : Service) (turns : List (Turn γ)) (t : Turn γ)
    (m : InboundHashReport) : Prop :=
  ∃ before after, turns = before ++ t :: after ∧
    service.inboundNews? t = some (.reported m) ∧
    ∀ t' ∈ after, ∀ news, service.inboundNews? t' = some news →
      news.tx ≠ .of m.chainId m.txHash

/-! ### Writes -/

/-- Whether a key is one of an external transaction: of its tracker, or of the mark of an event. -/
def Key.IsExternal : Key → Prop
  | .inboundTracker _ _ | .finalizedInbound _ _ _ => True
  | _ => False

namespace Key

variable {k : Key}

theorem IsPoll.not_isExternal (h : k.IsPoll) : ¬k.IsExternal := by
  cases k <;> first | exact id | exact h.elim

theorem IsEntered.not_isExternal (h : k.IsEntered) : ¬k.IsExternal := by
  cases k <;> first | exact id | exact h.elim

end Key

namespace Journal

variable [WritableStore σ] [LawfulStore σ] {s s' : σ}

/-- The tracker of a transaction is gone once it is removed. -/
theorem contents_removeInboundTracker {chainId : ChainId} {txHash : String}
    (h : removeInboundTracker s chainId txHash = .ok s') :
    contents s' (Key.inboundTracker chainId txHash).bytes = none := by
  rw [contents_deleteRecord (storeError_lift_settlement_eq_ok_iff.1 h)]
  exact Function.update_self ..

end Journal

/-! ### One call -/

/-- The trackers of external transactions that are stored in a world. -/
def World.awaited (w : World γ) (x : ExternalTx) : Option InboundTracker :=
  w.store.ledger x.key

/-- What news make of the trackers and the marks: they enter or remove the tracker of their own
transaction, and a deciding vote marks its event. -/
structure World.Hears (w : World γ) (news : Option InboundNews) (w' : World γ) : Prop where
  awaited_eq : ∀ x, (∀ n, news = some n → n.tx ≠ x) → w'.awaited x = w.awaited x
  tracker_eq : ∀ n, news = some n → w'.awaited n.tx = n.tracker?
  marked : ∀ o, w'.accounts.marked o = true →
    w.accounts.marked o = true ∨ ∃ m, news = some (.finalized m) ∧ m.origin = o

namespace World

variable {w w' : World γ} {W : Key → Prop}

theorem awaited_eq_of_entries_eq (h : w'.store.entries = w.store.entries) :
    w'.awaited = w.awaited :=
  funext fun x => congrFun (ledger_eq_of_entries_eq h) x.key

/-- A tracker whose key is not written is as it was. -/
theorem awaited_of_touches {b : Backend} (h : Touches W w.store b) {x : ExternalTx}
    (hx : ¬W x.key) : b.ledger x.key = w.awaited x := by
  have heq := h.ledger_eq (k := x.key) (by rwa [x.folded_key])
  rwa [x.folded_key] at heq

/-- A mark whose key is not written is as it was. -/
theorem marked_of_touches {b : Backend} (h : Touches W w.store b) {o : Origin} (ho : ¬W o.key) :
    b.ledger.accounts.marked o = w.accounts.marked o := by
  have heq := h.ledger_eq (k := o.key) (by rwa [o.folded_key])
  rw [o.folded_key] at heq
  exact congrArg Option.isSome heq

/-- Where no key of an external transaction is written there are no news. -/
theorem hears_none (h : Touches (fun k => ¬k.IsExternal) w.store w'.store) : w.Hears none w' where
  awaited_eq x _ := awaited_of_touches h fun hother => hother trivial
  tracker_eq := by rintro _ ⟨⟩
  marked o ho := by
    left
    rw [← ho]
    exact (marked_of_touches h fun hother => hother trivial).symm

/-- **A report enters the tracker of its transaction**, whatever is marked. -/
theorem Sound.hears_of_report {draft : Draft} {m : InboundHashReport} (h : w.Sound)
    (hreport : Journal.addInboundTracker (.fresh w.store : Draft) m = .ok draft)
    (hb : w'.store.Addressable) (hcontents : contents w'.store = contents draft) :
    w.Hears (some (.reported m)) w' := by
  have htouches := (Journal.touches_addInboundTracker hreport).congr (t := w.store)
    (Overlay.contents_fresh w.store).symm hcontents
  have hput := storeError_lift_settlement_eq_ok_iff.1 (Journal.set_of_addInboundTracker hreport)
  have hledger := ((h.records.fresh.put (.inboundTracker m.chainId m.txHash) hput).congr
    hcontents).ledger_eq hb
  have hheld (x : ExternalTx) : w'.awaited x = (w.store.ledger.set
      (Key.inboundTracker m.chainId m.txHash).folded m.tracker) x.key := by
    have heq := hledger x.key
    rwa [x.folded_key] at heq
  refine ⟨fun x hx => ?_, ?_, fun o ho => ?_⟩
  · rw [hheld x]
    refine Ledger.set_of_ne _ _ fun hkey => hx _ rfl ?_
    exact ExternalTx.key_injective hkey.symm
  · rintro _ ⟨⟩
    rw [hheld]
    exact Ledger.set_self ..
  · left
    rw [← ho]
    exact (marked_of_touches htouches id).symm

/-- **A deciding vote removes the tracker of its transaction** and marks its event; any other vote
is about ballots. -/
theorem hears_of_vote [Gateway γ] {draft : Draft} {policy : StalePolicy}
    {config : SettlementConfig} {g : γ} {block : Block} {m : InboundVote} {receipt : VoteReceipt}
    {effects : Effects}
    (hvote : (Journal.voteInbound policy config g (.fresh w.store : Draft) block m).1
      = .ok (receipt, draft, effects))
    (hcontents : contents w'.store = contents draft) :
    w.Hears (if receipt.finalized then some (.finalized m) else none) w' := by
  have hfresh := (Overlay.contents_fresh w.store).symm
  obtain ⟨outcome, s₁, hcast, hfinalized, hends⟩ :=
    Journal.links_of_voteInbound (Prod.ext hvote rfl)
  have hcast := (Registry.touches_castVote hcast).mono fun _ hk => hk.isPoll
  rw [hfinalized]
  rcases hends with ⟨hpending, rfl⟩ | ⟨hdecided, signingKey, s₂, s₃, hmarked, hremoved, hopened⟩
  · rw [hpending]
    exact hears_none ((hcast.mono fun k => Key.IsPoll.not_isExternal).congr hfresh hcontents)
  · rw [hdecided]
    have hnone := Journal.contents_removeInboundTracker hremoved
    have htouches : Touches (fun k => ¬k.IsExternal ∨ m.IsMarkedUnder k) w.store w'.store := by
      refine Touches.congr (((hcast.mono ?_).trans
        ((Journal.touches_marked hmarked hremoved).mono ?_)).trans (hopened.mono ?_))
        hfresh hcontents
      · exact fun k hk => .inl hk.not_isExternal
      · exact fun k => .inr
      · exact fun k hk => .inl hk.isEntered.not_isExternal
    have hkept := hopened.contents_eq (k := .inboundTracker m.senderChain m.inboundHash)
      fun hk => hk.isEntered
    rw [← hkept, ← hcontents] at hnone
    refine ⟨fun x hx => awaited_of_touches htouches ?_, ?_, fun o ho => ?_⟩
    · rintro (hother | hkey | hkey)
      · exact hother trivial
      · cases hkey
      · exact hx _ rfl (ExternalTx.key_injective hkey.symm)
    · rintro _ ⟨⟩
      have hkey : m.origin.tx.key = (Key.inboundTracker m.senderChain m.inboundHash).folded := rfl
      rw [← Key.bytes_folded, ← hkey] at hnone
      exact congrArg (Option.bind · _) hnone
    · by_cases heq : m.origin = o
      · exact .inr ⟨m, rfl, heq⟩
      left
      rw [← ho]
      refine (marked_of_touches htouches ?_).symm
      rintro (hother | hkey | hkey)
      · exact hother trivial
      · exact heq (Origin.key_injective hkey.symm)
      · cases hkey

end World

section Calls

variable [Gateway γ] {service : Service} {w : World γ} {call : Call}

/-- **Only reports and votes on inbound transactions are about external transactions.** -/
theorem Service.touches_of_internal (hreport : ∀ m, call ≠ .addInboundTracker m)
    (hvote : ∀ block m, call ≠ .voteInbound block m) :
    Touches (fun k => ¬k.IsExternal) w.store (service.execute w call).world.store := by
  cases call with
  | addInboundTracker m => exact absurd rfl (hreport m)
  | voteInbound block m => exact absurd rfl (hvote block m)
  | voteOutbound block m =>
    refine World.touches_runSettlement fun answer draft effects hrun => ?_
    obtain ⟨⟨receipt, draft', effects'⟩, hvoted, heq⟩ := map_eq_ok_iff.1 hrun
    cases heq
    refine (Journal.touches_voteOutbound hvoted).mono fun k hk hexternal => ?_
    rcases hk with (hpoll | hentered) | htracker | hmark
    · exact hpoll.not_isExternal hexternal
    · exact hentered.not_isExternal hexternal
    · cases k <;> first | exact htracker | exact hexternal
    · cases k <;> first | exact hmark | exact hexternal
  | migrateFunds block chainId amount =>
    refine World.touches_runSettlement fun answer draft effects hrun => ?_
    obtain ⟨⟨index, draft', effects'⟩, hmigrate, heq⟩ := map_eq_ok_iff.1 hrun
    cases heq
    refine (Journal.touches_migrateFunds hmigrate).mono fun k hk hexternal => ?_
    rcases hk with hentered | hmark
    · exact hentered.not_isExternal hexternal
    · cases k <;> first | exact hmark | exact hexternal
  | castVote | pruneBallots | addOutboundTracker | setObserverSet | addObserver | replaceObserver
  | registerChain | updateChainParams | setSwitches | registerKey | activateKey =>
    refine (service.touches w _).mono fun k hk hexternal => ?_
    cases k <;> first | exact hexternal | exact hk

/-- **What any call makes of the trackers and the marks is told by its news.** -/
theorem World.Sound.hears (h : w.Sound)
    (hstore : (service.execute w call).world.store.Addressable) :
    w.Hears (service.inboundNews? ⟨w, call⟩) (service.execute w call).world := by
  by_cases hreport : ∃ m, call = .addInboundTracker m
  · obtain ⟨m, rfl⟩ := hreport
    obtain ⟨e, g, hrefused⟩ | ⟨answer, draft, effects, g, b, hhandled, hcontents, hreply⟩ :=
      service.committed_cases w (.addInboundTracker m)
    · simp only [Service.inboundNews?, hrefused]
      exact hears_none (.refl _)
    · obtain ⟨draft', hadd, heq⟩ := Handled.exists_of_ok hhandled
      cases heq
      simp only [Service.inboundNews?, hreply] at hstore ⊢
      exact h.hears_of_report hadd hstore hcontents
  by_cases hvote : ∃ block m, call = .voteInbound block m
  · obtain ⟨block, m, rfl⟩ := hvote
    obtain ⟨e, g, hrefused⟩ | ⟨answer, draft, effects, g, b, hhandled, hcontents, hreply⟩ :=
      service.committed_cases w (.voteInbound block m)
    · simp only [Service.inboundNews?, hrefused]
      exact hears_none (.refl _)
    · obtain ⟨⟨receipt, draft', effects'⟩, hvoted, heq⟩ := Handled.exists_of_ok hhandled
      cases heq
      simp only [Service.inboundNews?, hreply]
      exact hears_of_vote hvoted hcontents
  · rw [not_exists] at hreport
    simp only [not_exists] at hvote
    have hnone : service.inboundNews? ⟨w, call⟩ = none := by
      rw [Service.inboundNews?]
      split
      · next heq _ => exact absurd heq (hreport _)
      · next heq _ => exact absurd heq (hvote _ _)
      · rfl
    rw [hnone]
    exact hears_none (Service.touches_of_internal hreport hvote)

end Calls

/-! ### All calls -/

section Runs

variable [Gateway γ] {service : Service} {w w₀ : World γ} {turns before after : List (Turn γ)}
  {t : Turn γ}

omit [Gateway γ] in
/-- A place in a list with one more turn is the new one, or a place in the old list. -/
theorem exists_of_append_cons_eq {last : Turn γ} (h : turns ++ [last] = before ++ t :: after) :
    (after = [] ∧ t = last) ∨ ∃ rest, after = rest ++ [last] ∧ turns = before ++ t :: rest := by
  rcases List.eq_nil_or_concat after with rfl | ⟨rest, last', rfl⟩
  · obtain ⟨-, heq⟩ := List.append_inj' h rfl
    exact .inl ⟨rfl, (List.cons.inj heq).1.symm⟩
  · rw [List.concat_eq_append, ← List.cons_append, ← List.append_assoc] at h
    obtain ⟨hturns, heq⟩ := List.append_inj' h rfl
    cases heq
    exact .inr ⟨rest, List.concat_eq_append .., hturns⟩

/-- **The last of the news of a transaction tell its tracker**, and its events are those that were
marked once they had been heard. -/
theorem Run.awaited_eq (hrun : Run service w₀ turns w) (h₀ : w₀.Sound) {news : InboundNews}
    (hturns : turns = before ++ t :: after) (hnews : service.inboundNews? t = some news)
    (hquiet : ∀ t' ∈ after, ∀ n, service.inboundNews? t' = some n → n.tx ≠ news.tx) :
    w.awaited news.tx = news.tracker? ∧ ∀ o : Origin, o.tx = news.tx → w.accounts.marked o = true →
      (service.execute t.world t.call).world.accounts.marked o = true := by
  induction hrun generalizing after with
  | start => simp at hturns
  | @call turns w hrun c hstore ih =>
    have hhears := (hrun.sound h₀).hears hstore
    rcases exists_of_append_cons_eq hturns with ⟨rfl, rfl⟩ | ⟨rest, rfl, hrest⟩
    · exact ⟨hhears.tracker_eq _ hnews, fun _ _ => id⟩
    obtain ⟨hawaited, hmarked⟩ := ih hrest fun t' ht' => hquiet t' (List.mem_append_left _ ht')
    have hother := hquiet ⟨w, c⟩ (List.mem_append_right _ (List.mem_singleton_self _))
    refine ⟨(hhears.awaited_eq _ hother).trans hawaited, fun o ho hafter => hmarked o ho ?_⟩
    rcases hhears.marked o hafter with hbefore | ⟨m, hm, rfl⟩
    · exact hbefore
    · exact absurd ho (hother _ hm)
  | outside _ hentries ih =>
    rw [World.awaited_eq_of_entries_eq hentries, World.accounts_eq_of_entries_eq hentries]
    exact ih hturns hquiet

/-- **What is awaited has been in the news.** -/
theorem Run.exists_news (hrun : Run service w₀ turns w) (hempty : w₀.store.entries = .empty)
    {x : ExternalTx} {r : InboundTracker} (hr : w.awaited x = some r) :
    ∃ before t after news, turns = before ++ t :: after ∧ service.inboundNews? t = some news ∧
      news.tx = x ∧ ∀ t' ∈ after, ∀ n, service.inboundNews? t' = some n → n.tx ≠ x := by
  have h₀ := World.sound_of_entries_eq_empty hempty
  induction hrun with
  | start =>
    rw [World.awaited, World.ledger_eq_empty hempty] at hr
    cases hr
  | @call turns w hrun c hstore ih =>
    have hhears := (hrun.sound h₀).hears hstore
    by_cases hnews : ∃ n, service.inboundNews? ⟨w, c⟩ = some n ∧ n.tx = x
    · obtain ⟨n, hn, hx⟩ := hnews
      exact ⟨turns, ⟨w, c⟩, [], n, rfl, hn, hx, List.forall_mem_nil _⟩
    have hother : ∀ n, service.inboundNews? ⟨w, c⟩ = some n → n.tx ≠ x := fun n hn hx =>
      hnews ⟨n, hn, hx⟩
    rw [hhears.awaited_eq x hother] at hr
    obtain ⟨before, t, after, news, rfl, hn, hx, hquiet⟩ := ih hr
    refine ⟨before, t, after ++ [⟨w, c⟩], news, List.append_assoc .., hn, hx, ?_⟩
    exact List.forall_mem_append.2 ⟨hquiet, List.forall_mem_singleton.2 hother⟩
  | outside _ hentries ih =>
    rw [World.awaited_eq_of_entries_eq hentries] at hr
    exact ih hr

/-- **A tracker is stored exactly as long as its report stands.** -/
theorem Run.awaited_iff (hrun : Run service w₀ turns w) (hempty : w₀.store.entries = .empty)
    {x : ExternalTx} {r : InboundTracker} :
    w.awaited x = some r ↔
      ∃ t m, service.Stands turns t m ∧ .of m.chainId m.txHash = x ∧ m.tracker = r := by
  have h₀ := World.sound_of_entries_eq_empty hempty
  constructor
  · intro hr
    obtain ⟨before, t, after, news, hturns, hnews, rfl, hquiet⟩ := hrun.exists_news hempty hr
    have htracker := (hrun.awaited_eq h₀ hturns hnews hquiet).1.symm.trans hr
    cases news with
    | reported m =>
      exact ⟨t, m, ⟨before, after, hturns, hnews, hquiet⟩, rfl, Option.some.inj htracker⟩
    | finalized m => cases htracker
  · rintro ⟨t, m, ⟨before, after, hturns, hnews, hquiet⟩, rfl, rfl⟩
    exact (hrun.awaited_eq h₀ hturns hnews hquiet).1

/-- A report marks no event, so that what is marked while it stands was marked when it was made. -/
theorem Run.marked_of_stands (hrun : Run service w₀ turns w) (h₀ : w₀.Sound)
    {m : InboundHashReport} (hstands : service.Stands turns t m) :
    t.world.Sound ∧ ∀ o : Origin, o.tx = .of m.chainId m.txHash →
      w.accounts.marked o = true → t.world.accounts.marked o = true := by
  obtain ⟨before, after, rfl, hnews, hquiet⟩ := hstands
  have hturn := hrun.forall_turns h₀ (P := fun t => t.world.Sound ∧
    (service.execute t.world t.call).world.store.Addressable) (fun _ _ hw hstore => ⟨hw, hstore⟩) t
    (List.mem_append_right _ List.mem_cons_self)
  refine ⟨hturn.1, fun o ho hmarked => ?_⟩
  have hafter := (hrun.awaited_eq h₀ rfl hnews hquiet).2 o ho hmarked
  rcases (hturn.1.hears hturn.2).marked o hafter with hbefore | ⟨m', hm', -⟩
  · exact hbefore
  · rw [hnews] at hm'
    cases hm'

/-- **Inbound trackers are listed as long as their reports stand.** In a world to which calls on an
empty store lead, the inbound trackers of a chain are those of the reports that were accepted and
after which nothing was heard of their transaction, up to the case of its hash: neither another
report nor the deciding vote on one of its events. So a tracker is gone after the deciding vote, and
comes back only with a later report; and an event of a transaction with a tracker is marked only if
it was marked already when the tracker was reported. -/
theorem Run.inbound_trackers_listed (hrun : Run service w₀ turns w)
    (hempty : w₀.store.entries = .empty) (chainId : ChainId) :
    ∃ trackers, Journal.inboundTrackers w.store.restored chainId = .ok trackers ∧
      (∀ r, r ∈ trackers ↔
        ∃ t m, service.Stands turns t m ∧ m.chainId = chainId ∧ m.tracker = r) ∧
      ∀ t m, service.Stands turns t m → m.chainId = chainId → ∀ eventIndex,
        Journal.isFinalized w.store.restored chainId m.txHash eventIndex = .ok true →
        Journal.isFinalized t.world.store.restored chainId m.txHash eventIndex = .ok true := by
  have h₀ := World.sound_of_entries_eq_empty hempty
  have hsound := hrun.sound h₀
  have hintact := hrun.intact (World.intact_of_entries_eq_empty hempty)
  obtain ⟨rows, hrows, -, hlisted⟩ := hintact.scanRecords_restored (.inboundTrackers chainId)
  refine ⟨_, storeError_lift_settlement_eq_ok_iff.2 hlisted, fun r => ?_, ?_⟩
  · rw [Journal.mem_inboundTrackers_iff hsound.records hsound.legible hrows]
    constructor
    · rintro ⟨txHash, htracker⟩
      obtain ⟨t, m, hstands, htx, rfl⟩ :=
        (hrun.awaited_iff hempty (x := .of chainId txHash)).1 htracker
      exact ⟨t, m, hstands, congrArg ExternalTx.chainId htx, rfl⟩
    · rintro ⟨t, m, hstands, rfl, rfl⟩
      have htracker := (hrun.awaited_iff hempty (x := .of m.chainId m.txHash)).2
        ⟨t, m, hstands, rfl, rfl⟩
      exact ⟨m.txHash, htracker⟩
  · rintro t m hstands rfl eventIndex hfinalized
    obtain ⟨hturn, hmarked⟩ := hrun.marked_of_stands h₀ hstands
    rw [hsound.isFinalized_eq] at hfinalized
    rw [hturn.isFinalized_eq]
    exact congrArg Except.ok (hmarked _ rfl (Except.ok.inj hfinalized))

end Runs

/-! ### A late report -/

namespace Sample

/-- The deposit is reported after it was voted on, with its hash in small letters. -/
def lateReport : InboundHashReport where
  creator := observer
  chainId := chainId
  txHash := "0xab"
  coinType := .gas

/-- The world after that. -/
def lateWorld : World ScriptedGateway :=
  (service.execute world (.addInboundTracker lateReport)).world

theorem evaluation_of_lateReport :
    lateWorld.store.Addressable ∧
      service.inboundNews? ⟨world, .addInboundTracker lateReport⟩ = some (.reported lateReport) ∧
      Journal.inboundTrackers lateWorld.store.restored chainId = .ok [lateReport.tracker] ∧
      Journal.isFinalized lateWorld.store.restored chainId "0xab" 0 = .ok true := by
  decide +kernel

theorem run_lateReport : Run service start
    (service.turnsOf start calls ++ [⟨world, .addInboundTracker lateReport⟩]) lateWorld :=
  run.call _ evaluation_of_lateReport.1

/-- The report stands, so its tracker is listed. -/
theorem lateReport_listed : ∃ trackers,
    Journal.inboundTrackers lateWorld.store.restored chainId = .ok trackers ∧
      lateReport.tracker ∈ trackers := by
  obtain ⟨trackers, hlisted, htrackers, -⟩ :=
    Run.inbound_trackers_listed run_lateReport rfl chainId
  refine ⟨trackers, hlisted, (htrackers _).2 ⟨⟨world, .addInboundTracker lateReport⟩, lateReport,
    ⟨_, [], rfl, evaluation_of_lateReport.2.1, List.forall_mem_nil _⟩, rfl, rfl⟩⟩

/-- **A transaction with a marked event is awaited** when it is reported after the vote. -/
theorem listed_after_deposit : ∃ w : World ScriptedGateway, Reachable service w ∧
    Journal.inboundTrackers w.store.restored chainId = .ok [lateReport.tracker] ∧
    Journal.isFinalized w.store.restored chainId lateReport.txHash 0 = .ok true :=
  ⟨lateWorld, ⟨start, _, rfl, run_lateReport⟩, evaluation_of_lateReport.2.2⟩

end Sample

end Settlement
