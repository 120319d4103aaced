import Mathlib.Data.List.Chain
import Settlement.Proofs.NonceIssuance
import Settlement.Proofs.Releases
import Settlement.Proofs.SettledHistory

/-!
# The event stream

Signers and indexers act on what is published and never read what is stored. All that they have to
know of transactions is in the stream of events, though: every change of a state is told once and in
order, every nonce that was given away is told once, and for every transaction it is told what has
opened it. Nothing is told that was not committed.

In one call there are news of one transaction at most, and then this transaction is entered anew
(`Settlement.World.Sound.news`). The stream tells the state after the call if it has told the state
before (`Settlement.Accounts.Told`).

Main statement: `Settlement.Run.event_stream_exact`.
-/

namespace Settlement

variable {γ : Type}

/-! ### What is read off events -/

/-- A change of state, as it is told. -/
structure StatusChange where
  before : CctxStatus
  after : CctxStatus
  message : String
  deriving DecidableEq

namespace Event

/-- The change of state of a transaction. -/
def changeOf? (x : Digest) : Event → Option StatusChange
  | .statusChanged y before after message =>
    if y = x then some ⟨before, after, message⟩ else none
  | _ => none

/-- The nonce that was reserved, and to whom it belongs. -/
def reservation? : Event → Option NonceOwner
  | .nonceReserved x signingKey chainId nonce => some ⟨signingKey, chainId, nonce, x⟩
  | _ => none

/-- The chain and the hash of the deposit for which a transaction was opened. -/
def finalizationOf? (x : Digest) : Event → Option (ChainId × String)
  | .inboundFinalized y chainId txHash => if y = x then some (chainId, txHash) else none
  | _ => none

/-- The chain and the amount of the fund migration for which a transaction was opened. -/
def migrationOf? (x : Digest) : Event → Option (ChainId × U256)
  | .migrationStarted y chainId amount => if y = x then some (chainId, amount) else none
  | _ => none

/-- Whether the event is about the state of a transaction or a nonce of it. -/
def isNews : Event → Bool
  | .statusChanged .. | .nonceReserved .. => true
  | _ => false

/-- Whether the event tells what has opened a transaction. -/
def isOpening : Event → Bool
  | .inboundFinalized .. | .migrationStarted .. => true
  | _ => false

end Event

/-- The changes lead from the first state to the one in which the transaction is: each of them goes
on where the one before has come to, and the last one gives the reason for the state. -/
structure Cctx.ToldBy (c : Cctx) (changes : List StatusChange) : Prop where
  start : changes.head?.map StatusChange.before = some .pendingInbound
  chain : changes.IsChain fun e f => e.after = f.before
  last : changes.getLast?.map (fun e => (e.after, e.message)) = some (c.status, c.report.message)

/-- What has opened a transaction, among the calls and among the events: nothing yet, a report whose
deposit is told of once, or a fund migration that is told of once. -/
inductive OpenedBy (x : Digest) :
    List Call → List (ChainId × String) → List (ChainId × U256) → Prop
  | never : OpenedBy x [] [] []
  | report {block : Block} {m : InboundVote} (hindex : m.digest = x) :
      OpenedBy x [.voteInbound block m] [(m.senderChain, m.inboundHash)] []
  | migration {block : Block} {chainId : ChainId} {amount : U256} :
      OpenedBy x [.migrateFunds block chainId amount] [] [(chainId, amount)]

namespace Event

variable {α : Type} {f : Event → Option α} {x : Digest} {c : Cctx} {s : CctxStatus}

/-- What is read off events of a kind is not in other events. -/
theorem filterMap_of_filter {kind : Event → Bool} (hf : ∀ e, kind e = false → f e = none)
    (events : List Event) : events.filterMap f = (events.filter kind).filterMap f := by
  rw [List.filterMap_filter]
  refine List.filterMap_congr fun e _ => ?_
  cases hkind : kind e with
  | true => exact (if_pos rfl).symm
  | false => exact hf e hkind

theorem changeOf?_eq_none {e : Event} (h : e.isNews = false) : changeOf? x e = none := by
  cases e with
  | statusChanged => cases h
  | _ => rfl

theorem reservation?_eq_none {e : Event} (h : e.isNews = false) : reservation? e = none := by
  cases e with
  | nonceReserved => cases h
  | _ => rfl

theorem finalizationOf?_eq_none {e : Event} (h : e.isOpening = false) :
    finalizationOf? x e = none := by
  cases e with
  | inboundFinalized => cases h
  | _ => rfl

theorem migrationOf?_eq_none {e : Event} (h : e.isOpening = false) : migrationOf? x e = none := by
  cases e with
  | migrationStarted => cases h
  | _ => rfl

/-- In the news of a transaction is one change of its state, -/
theorem changes_news : (c.news s).filterMap (changeOf? x) =
    if c.index = x then [⟨s, c.status, c.report.message⟩] else [] := by
  rw [Cctx.news]
  by_cases hx : c.index = x
  · rw [if_pos hx]
    cases c.openTicket? <;> simp [List.filterMap_cons, changeOf?, hx]
  · rw [if_neg hx]
    cases c.openTicket? <;> simp [changeOf?, hx]

/-- and the nonce that it waits with. -/
theorem reservations_news : (c.news s).filterMap reservation? =
    (c.openTicket?.map fun t => t.ownedBy c.index).toList := by
  rw [Cctx.news]
  cases c.openTicket? <;> rfl

theorem filter_isNews_news : (c.news s).filter isNews = c.news s := by
  rw [Cctx.news]
  cases c.openTicket? <;> rfl

theorem filter_isOpening_news : (c.news s).filter isOpening = [] := by
  rw [Cctx.news]
  cases c.openTicket? <;> rfl

end Event

/-! ### One call -/

section Calls

variable [Gateway γ] {service : Service} {w : World γ} {call : Call}

/-- A kind of events that are about transactions, and neither about ballots nor about the pool. -/
structure Event.AboutTransactions (kind : Event → Bool) : Prop where
  ballotCreated : ∀ x o chainId, kind (.ballotCreated x o chainId) = false
  poolFunded : ∀ x chainId amount, kind (.poolFunded x chainId amount) = false
  poolFundingFailed : ∀ x chainId reason, kind (.poolFundingFailed x chainId reason) = false

namespace Event.AboutTransactions

variable {kind : Event → Bool}

theorem isNews : AboutTransactions Event.isNews :=
  ⟨fun _ _ _ => rfl, fun _ _ _ => rfl, fun _ _ _ => rfl⟩

theorem isOpening : AboutTransactions Event.isOpening :=
  ⟨fun _ _ _ => rfl, fun _ _ _ => rfl, fun _ _ _ => rfl⟩

theorem filter_release (h : AboutTransactions kind) (pool : StabilityPool) (effects : Effects) :
    (World.release pool effects).1.filter kind = effects.events.filter kind := by
  rw [World.release]
  split
  · rfl
  · rw [List.filter_append, List.filter_singleton]
    split
    · rw [h.poolFundingFailed]
      exact List.append_nil _
    · rw [h.poolFunded]
      exact List.append_nil _

theorem filter_quiet (h : AboutTransactions kind) {events : List Event}
    (hquiet : ∀ e ∈ events, ∃ x o chainId, e = .ballotCreated x o chainId) :
    events.filter kind = [] := by
  refine List.filter_eq_nil_iff.2 fun e he => ?_
  obtain ⟨x, o, chainId, rfl⟩ := hquiet e he
  rw [h.ballotCreated]
  exact Bool.false_ne_true

theorem filter_ballotEvents (h : AboutTransactions kind) {isNew : Bool} {ballot : Digest}
    {observation : Observation} {chainId : ChainId} :
    (Journal.ballotEvents isNew ballot observation chainId).filter kind = [] :=
  h.filter_quiet fun _ => Journal.eq_of_mem_ballotEvents

end Event.AboutTransactions

/-- **In a call there are no news, or there are those of one transaction**, which is entered anew
then. -/
theorem World.Sound.news (h : w.Sound)
    (hstore : (service.execute w call).world.store.Addressable) :
    ((service.execute w call).world.accounts.cctx = w.accounts.cctx ∧
      (service.execute w call).world.accounts.owner = w.accounts.owner ∧
      (service.execute w call).events.filter Event.isNews = []) ∨
    ∃ c lane closed, w.accounts.Renews c lane closed ∧
      (service.execute w call).world.accounts.cctx = (w.accounts.renew c lane closed).cctx ∧
      (service.execute w call).world.accounts.owner = (w.accounts.renew c lane closed).owner ∧
      (service.execute w call).events.filter Event.isNews
        = c.news ((w.statusOf c.index).getD .pendingInbound) := by
  obtain ⟨effects, hdelivers, hevents, -⟩ := h.delivers hstore
  have hkind := Event.AboutTransactions.isNews
  rw [hevents, hkind.filter_release]
  generalize (service.execute w call).world.accounts = b at hdelivers
  cases hdelivers with
  | quiet hcctx howner hquiet => exact .inl ⟨hcctx, howner, hkind.filter_quiet hquiet⟩
  | report hcoin henters =>
    refine .inr ⟨_, _, _, henters.opens.renews, Accounts.Renews.renew_mark_cctx ..,
      Accounts.Renews.renew_mark_owner .., ?_⟩
    rw [World.statusOf, World.accounts, henters.opens.absent, List.filter_append,
      hkind.filter_ballotEvents, List.filter_cons_of_neg Bool.false_ne_true,
      Event.filter_isNews_news]
    rfl
  | migration hcurrent hnewer htaken =>
    refine .inr ⟨_, _, _, htaken.opens.renews, rfl, rfl, ?_⟩
    rw [World.statusOf, World.accounts, htaken.opens.absent, List.filter_append,
      Event.filter_isNews_news]
    exact List.append_nil _
  | @settlement block m isNew c d lane ballot hcctx hopen hsettled =>
    have hindex : c.index = m.cctxIndex := h.accounts.index_eq _ _ hcctx
    have hstatus : w.statusOf d.index = some c.status := by
      rw [hsettled.settles.index_eq, hindex]
      exact congrArg (Option.map Cctx.status) hcctx
    rw [← hindex] at hcctx
    refine .inr ⟨_, _, _, .of_settles hcctx hopen hsettled.settles, rfl, rfl, ?_⟩
    rw [hstatus, List.filter_append, hkind.filter_ballotEvents, Event.filter_isNews_news]
    rfl

end Calls

/-! ### What has been told -/

namespace Cctx.ToldBy

variable {c d : Cctx} {changes : List StatusChange}

/-- The first change of a transaction. -/
theorem first (d : Cctx) : d.ToldBy [⟨.pendingInbound, d.status, d.report.message⟩] :=
  ⟨rfl, List.isChain_singleton _, rfl⟩

/-- One more change, from the state that was told last. -/
theorem append (h : c.ToldBy changes) (d : Cctx) :
    d.ToldBy (changes ++ [⟨c.status, d.status, d.report.message⟩]) := by
  obtain ⟨e, he, heq⟩ := Option.map_eq_some_iff.1 h.last
  have hne : changes ≠ [] := by
    rintro rfl
    cases he
  refine ⟨?_, ?_, by simp⟩
  · rw [List.head?_append_of_ne_nil _ hne]
    exact h.start
  · refine List.isChain_append.2 ⟨h.chain, List.isChain_singleton _, fun e' he' f hf => ?_⟩
    obtain rfl : e = e' := Option.some.inj (he.symm.trans he')
    obtain rfl := Option.some.inj hf
    exact congrArg Prod.fst heq

end Cctx.ToldBy

theorem Ticket.ownedBy_eq_iff {t u : Ticket} {x y : Digest} :
    t.ownedBy x = u.ownedBy y ↔ t = u ∧ x = y := by
  obtain ⟨⟨key, chainId⟩, nonce⟩ := t
  obtain ⟨⟨key', chainId'⟩, nonce'⟩ := u
  simp only [ownedBy, NonceOwner.mk.injEq, Ticket.mk.injEq, Lane.mk.injEq, and_assoc]

namespace Accounts

/-- The events tell the states of all transactions and the owners of all tickets. -/
structure Told (a : Accounts) (events : List Event) : Prop where
  changes : ∀ x c, a.cctx x = some c → c.ToldBy (events.filterMap (Event.changeOf? x))
  silent : ∀ x, a.cctx x = none → events.filterMap (Event.changeOf? x) = []
  nodup : (events.filterMap Event.reservation?).Nodup
  mem_iff : ∀ t x, t.ownedBy x ∈ events.filterMap Event.reservation? ↔
    a.owner t = some (t.ownedBy x)

variable {a b : Accounts} {events new : List Event} {c : Cctx} {s : CctxStatus}
  {lane : Option Lane} {closed : Option Ticket}

theorem told_empty : empty.Told [] where
  changes _ _ := nofun
  silent _ _ := rfl
  nodup := List.nodup_nil
  mem_iff _ _ := iff_of_false List.not_mem_nil nofun

/-- Without news there is nothing to tell. -/
theorem Told.quiet (h : a.Told events) (hcctx : b.cctx = a.cctx) (howner : b.owner = a.owner)
    (hnews : new.filter Event.isNews = []) : b.Told (events ++ new) := by
  have hchanges (x : Digest) : new.filterMap (Event.changeOf? x) = [] := by
    rw [Event.filterMap_of_filter fun _ => Event.changeOf?_eq_none, hnews, List.filterMap_nil]
  have hreservations : new.filterMap Event.reservation? = [] := by
    rw [Event.filterMap_of_filter fun _ => Event.reservation?_eq_none, hnews, List.filterMap_nil]
  refine ⟨?_, ?_, ?_, ?_⟩
  · simpa only [List.filterMap_append, hchanges, List.append_nil, hcctx] using h.changes
  · simpa only [List.filterMap_append, hchanges, List.append_nil, hcctx] using h.silent
  · simpa only [List.filterMap_append, hreservations, List.append_nil] using h.nodup
  · simpa only [List.filterMap_append, hreservations, List.append_nil, howner] using h.mem_iff

/-- The owners of all tickets have been told after a call that issues a ticket, if the owner of this
ticket is told in the call and those of all others have been told before. -/
theorem Told.reservations_append (h : a.Told events) (hnumbered : a.Numbered)
    (howner : b.owner = (a.renew c lane closed).owner)
    (hnew : new.filterMap Event.reservation?
      = ((lane.map a.nextTicket).map fun t => t.ownedBy c.index).toList) :
    ((events ++ new).filterMap Event.reservation?).Nodup ∧
    ∀ t x, t.ownedBy x ∈ (events ++ new).filterMap Event.reservation? ↔
      b.owner t = some (t.ownedBy x) := by
  rw [List.filterMap_append, hnew, howner]
  refine ⟨?_, fun t x => ?_⟩
  · -- The ticket that is issued had no owner, so it was not told of before.
    refine List.nodup_append.2 ⟨h.nodup, by cases lane <;> simp, fun o ho o' ho' heq => ?_⟩
    obtain ⟨t, ht, rfl⟩ := Option.map_eq_some_iff.1 (Option.mem_toList.1 ho')
    rw [heq, h.mem_iff, hnumbered.owner_of_issued ht] at ho
    cases ho
  · have hissued : ((lane.map a.nextTicket).map fun u => u.ownedBy c.index) = some (t.ownedBy x) ↔
        lane.map a.nextTicket = some t ∧ c.index = x := by
      rw [Option.map_eq_some_iff]
      constructor
      · rintro ⟨u, hu, heq⟩
        obtain ⟨rfl, hx⟩ := Ticket.ownedBy_eq_iff.1 heq
        exact ⟨hu, hx⟩
      · rintro ⟨ht, rfl⟩
        exact ⟨t, ht, rfl⟩
    rw [List.mem_append, h.mem_iff, Option.mem_toList, Renews.renew_owner, hissued]
    split
    · next ht =>
      rw [hnumbered.owner_of_issued ht, or_iff_right nofun, and_iff_right ht, Option.some.injEq,
        Ticket.ownedBy_eq_iff, and_iff_right rfl]
    · next ht => exact or_iff_left fun hx => ht hx.1

/-- **The news of a transaction tell what becomes of it**, if its states and tickets have been told
before. -/
theorem Told.renew (h : a.Told events) (hnumbered : a.Numbered) (hr : a.Renews c lane closed)
    (hcctx : b.cctx = (a.renew c lane closed).cctx)
    (howner : b.owner = (a.renew c lane closed).owner)
    (hnews : new.filter Event.isNews
      = c.news (((a.cctx c.index).map Cctx.status).getD .pendingInbound)) :
    b.Told (events ++ new) := by
  have hchanges (x : Digest) : new.filterMap (Event.changeOf? x) = if c.index = x then
      [⟨((a.cctx c.index).map Cctx.status).getD .pendingInbound, c.status, c.report.message⟩]
      else [] := by
    rw [Event.filterMap_of_filter fun _ => Event.changeOf?_eq_none, hnews, Event.changes_news]
  have hreservations : new.filterMap Event.reservation?
      = ((lane.map a.nextTicket).map fun t => t.ownedBy c.index).toList := by
    rw [Event.filterMap_of_filter fun _ => Event.reservation?_eq_none, hnews,
      Event.reservations_news, hr.openTicket?_eq]
  obtain ⟨hnodup, hmem⟩ := h.reservations_append hnumbered howner hreservations
  refine ⟨fun x d hd => ?_, fun x hx => ?_, hnodup, hmem⟩
  · rw [List.filterMap_append, hchanges]
    rw [hcctx] at hd
    obtain ⟨hx, rfl⟩ | ⟨hx, hd⟩ := Renews.eq_or_of_renew hd
    · rw [if_pos hx.symm, hx]
      cases hold : a.cctx c.index with
      | none =>
        rw [h.silent _ hold]
        exact .first c
      | some e => exact (h.changes _ e hold).append c
    · rw [if_neg fun heq => hx heq.symm, List.append_nil]
      exact h.changes x d hd
  · rw [List.filterMap_append, hchanges]
    rw [hcctx, Renews.renew_cctx] at hx
    split at hx
    · cases hx
    · next hne =>
      rw [if_neg fun heq => hne heq.symm, List.append_nil]
      exact h.silent x hx

end Accounts

/-! ### What has opened a transaction -/

namespace OpenedBy

variable {x : Digest}

theorem of_report (block : Block) (m : InboundVote) :
    OpenedBy x (if decide (m.digest = x) then [.voteInbound block m] else [])
      ([.inboundFinalized m.digest m.senderChain m.inboundHash].filterMap (Event.finalizationOf? x))
      ([.inboundFinalized m.digest m.senderChain m.inboundHash].filterMap
        (Event.migrationOf? x)) := by
  simp only [List.filterMap_cons, List.filterMap_nil, Event.finalizationOf?, Event.migrationOf?,
    decide_eq_true_eq]
  by_cases hx : m.digest = x
  · rw [if_pos hx, if_pos hx]
    exact .report hx
  · rw [if_neg hx, if_neg hx]
    exact .never

theorem of_migration {index : Digest} (block : Block) (chainId : ChainId) (amount : U256) :
    OpenedBy x (if decide (index = x) then [.migrateFunds block chainId amount] else [])
      ([.migrationStarted index chainId amount].filterMap (Event.finalizationOf? x))
      ([.migrationStarted index chainId amount].filterMap (Event.migrationOf? x)) := by
  simp only [List.filterMap_cons, List.filterMap_nil, Event.finalizationOf?, Event.migrationOf?,
    decide_eq_true_eq]
  by_cases hx : index = x
  · rw [if_pos hx, if_pos hx]
    exact .migration
  · rw [if_neg hx, if_neg hx]
    exact .never

/-- Without a call that has opened it, no event tells of that. -/
theorem eq_nil {finalizations : List (ChainId × String)} {migrations : List (ChainId × U256)}
    (h : OpenedBy x [] finalizations migrations) : finalizations = [] ∧ migrations = [] := by
  cases h
  exact ⟨rfl, rfl⟩

end OpenedBy

section Openings

variable [Gateway γ] (service : Service) (x : Digest)

/-- Whether a transaction is stored after the call of a turn that was not stored before. -/
def Service.creates (t : Turn γ) : Bool :=
  (t.world.accounts.cctx x).isNone &&
    ((service.execute t.world t.call).world.accounts.cctx x).isSome

/-- The calls after which a transaction is stored that was not stored before. -/
def Service.creators (turns : List (Turn γ)) : List Call :=
  (turns.filter (service.creates x)).map Turn.call

/-- The events that are published, in their order. -/
def Service.published (turns : List (Turn γ)) : List Event :=
  turns.flatMap fun t => (service.execute t.world t.call).events

variable {service x} {w : World γ} {call : Call} {turns : List (Turn γ)}

@[simp]
theorem Service.creators_concat : service.creators x (turns ++ [⟨w, call⟩]) =
    service.creators x turns ++ if service.creates x ⟨w, call⟩ then [call] else [] := by
  rw [creators, List.filter_append, List.map_append, List.filter_singleton]
  cases service.creates x ⟨w, call⟩ <;> rfl

@[simp]
theorem Service.published_concat : service.published (turns ++ [⟨w, call⟩]) =
    service.published turns ++ (service.execute w call).events := by
  rw [published, List.flatMap_append, List.flatMap_singleton]
  rfl

/-- A call creates nothing under an index under which nothing changes. -/
theorem Service.creates_eq_false
    (hsame : (service.execute w call).world.accounts.cctx x = w.accounts.cctx x) :
    service.creates x ⟨w, call⟩ = false := by
  rw [creates, hsame]
  cases w.accounts.cctx x <;> rfl

/-- A call that opens a transaction creates this one and no other. -/
theorem Service.creates_of_opens {c : Cctx} {lane : Option Lane}
    (hopens : w.accounts.Opens c lane)
    (hcctx : (service.execute w call).world.accounts.cctx = (w.accounts.renew c lane none).cctx) :
    service.creates x ⟨w, call⟩ = decide (c.index = x) := by
  rw [creates, hcctx, Accounts.Renews.renew_cctx]
  by_cases hx : c.index = x
  · subst hx
    rw [hopens.absent, if_pos rfl, decide_eq_true rfl]
    rfl
  · rw [if_neg fun heq => hx heq.symm, decide_eq_false hx]
    cases w.accounts.cctx x <;> rfl

/-- **A call that creates a transaction tells what has opened it, and no other call does.** -/
theorem World.Sound.openedBy (h : w.Sound)
    (hstore : (service.execute w call).world.store.Addressable) :
    OpenedBy x (if service.creates x ⟨w, call⟩ then [call] else [])
      ((service.execute w call).events.filterMap (Event.finalizationOf? x))
      ((service.execute w call).events.filterMap (Event.migrationOf? x)) := by
  obtain ⟨effects, hdelivers, hevents, -⟩ := h.delivers hstore
  have hkind := Event.AboutTransactions.isOpening
  rw [Event.filterMap_of_filter fun _ => Event.finalizationOf?_eq_none,
    Event.filterMap_of_filter (f := Event.migrationOf? x) fun _ => Event.migrationOf?_eq_none,
    hevents, hkind.filter_release]
  generalize hafter : (service.execute w call).world.accounts = b at hdelivers
  cases hdelivers with
  | quiet hcctx howner hquiet =>
    rw [hkind.filter_quiet hquiet, Service.creates_eq_false (hafter ▸ congrFun hcctx x)]
    exact .never
  | @report block m isNew key c lane hcoin henters =>
    rw [Service.creates_of_opens henters.opens (hafter ▸ Accounts.Renews.renew_mark_cctx ..),
      henters.index_eq, List.filter_append, hkind.filter_ballotEvents,
      List.filter_cons_of_pos rfl, Event.filter_isOpening_news]
    exact .of_report block m
  | @migration block chainId amount index current newer c lane hcurrent hnewer htaken =>
    rw [Service.creates_of_opens htaken.opens (hafter ▸ rfl), htaken.index_eq, List.filter_append,
      Event.filter_isOpening_news, List.filter_cons_of_pos rfl, List.filter_nil]
    exact .of_migration block chainId amount
  | @settlement block m isNew c d lane ballot hcctx hopen hsettled =>
    rw [List.filter_append, hkind.filter_ballotEvents, Event.filter_isOpening_news]
    have hindex : d.index = m.cctxIndex :=
      hsettled.settles.index_eq.trans (h.accounts.index_eq _ _ hcctx)
    have hcreates : service.creates x ⟨w, .voteOutbound block m⟩ = false := by
      by_cases hx : x = d.index
      · rw [Service.creates, World.accounts, hx, hindex, hcctx]
        rfl
      · refine Service.creates_eq_false ?_
        rw [hafter, Accounts.Renews.renew_cctx, if_neg hx]
        rfl
    rw [hcreates]
    exact .never

end Openings

/-! ### All calls -/

section Runs

variable [Gateway γ] {service : Service} {w w₀ : World γ} {turns : List (Turn γ)}

/-- What was stored before a call of a run is stored after the run. -/
theorem Run.extends_of_mem (hrun : Run service w₀ turns w) (h₀ : w₀.Sound) {t : Turn γ}
    (ht : t ∈ turns) : t.world.accounts.Extends w.accounts := by
  induction hrun with
  | start => cases ht
  | call hrun c hstore ih =>
    have hsound := hrun.sound h₀
    have hlast := hsound.accounts.extends_of_step (hsound.execute hstore).2
    rcases List.mem_append.1 ht with ht | ht
    · exact (ih ht).trans hlast
    · obtain rfl := List.mem_singleton.1 ht
      exact hlast
  | outside _ hentries ih =>
    rw [World.accounts_eq_of_entries_eq hentries]
    exact ih ht

/-- **What is published in a run tells what is stored after it.** -/
theorem Run.published_told (hrun : Run service w₀ turns w) (hempty : w₀.store.entries = .empty) :
    w.accounts.Told (service.published turns) := by
  have h₀ := World.sound_of_entries_eq_empty hempty
  induction hrun with
  | start =>
    rw [World.accounts, World.ledger_eq_empty hempty]
    exact Accounts.told_empty
  | call hrun c hstore ih =>
    have hsound := hrun.sound h₀
    rw [Service.published_concat]
    obtain ⟨hcctx, howner, hnews⟩ | ⟨d, lane, closed, hrenews, hcctx, howner, hnews⟩ :=
      hsound.news hstore
    · exact ih.quiet hcctx howner hnews
    · exact ih.renew hsound.accounts.toNumbered hrenews hcctx howner hnews
  | outside _ hentries ih =>
    rw [World.accounts_eq_of_entries_eq hentries]
    exact ih

/-- **Every transaction is created once, and it is told once what has opened it.** -/
theorem Run.openedBy (hrun : Run service w₀ turns w) (hempty : w₀.store.entries = .empty)
    (x : Digest) : OpenedBy x (service.creators x turns)
        ((service.published turns).filterMap (Event.finalizationOf? x))
        ((service.published turns).filterMap (Event.migrationOf? x)) ∧
      (service.creators x turns = [] ↔ w.accounts.cctx x = none) := by
  have h₀ := World.sound_of_entries_eq_empty hempty
  induction hrun with
  | start =>
    rw [World.accounts, World.ledger_eq_empty hempty]
    exact ⟨.never, iff_of_true rfl rfl⟩
  | @call turns w hrun c hstore ih =>
    obtain ⟨hbefore, hnone⟩ := ih
    have hsound := hrun.sound h₀
    have hnew := hsound.openedBy (x := x) hstore
    rw [Service.creators_concat, Service.published_concat, List.filterMap_append,
      List.filterMap_append]
    cases hfound : w.accounts.cctx x with
    | none =>
      -- Nothing was told before, so all that is told is told now.
      rw [hnone.2 hfound] at hbefore ⊢
      obtain ⟨hfinalizations, hmigrations⟩ := hbefore.eq_nil
      rw [hfinalizations, hmigrations]
      refine ⟨hnew, ?_⟩
      rw [Service.creates, hfound]
      cases (service.execute w c).world.accounts.cctx x <;> simp
    | some d =>
      -- The transaction is there, so that nothing can open it once more.
      have hcreates : service.creates x ⟨w, c⟩ = false := by
        rw [Service.creates, hfound]
        rfl
      rw [hcreates] at hnew ⊢
      obtain ⟨hfinalizations, hmigrations⟩ := hnew.eq_nil
      obtain ⟨e, he, -⟩ :=
        (hsound.accounts.extends_of_step (hsound.execute hstore).2).cctx x d hfound
      rw [hfinalizations, hmigrations, if_neg Bool.false_ne_true, List.append_nil, List.append_nil,
        List.append_nil, hnone, hfound, he]
      exact ⟨hbefore, iff_of_false (Option.some_ne_none d) (Option.some_ne_none e)⟩
  | outside _ hentries ih =>
    rw [World.accounts_eq_of_entries_eq hentries]
    exact ih

/-- **The stream of events tells what is stored, no more and no less.** In a run from an empty
store, whether its calls are refused or not:

What is stored before a call stays stored. The changes of state that are published of a stored
transaction lead from the state before all others to the state that is stored, each of them going on
where the one before has come to, and the last one gives the reason that is stored. Of other
transactions no change is published.

The nonces whose reservation is published are those that have an owner in the store, and those that
attempts of stored transactions carry. None of them is published twice.

Every stored transaction was created by one call. If that is a report of a deposit, it is published
once that the deposit is final, and no fund migration for the transaction; if it is a fund
migration, it is published once that it has started, and no deposit. Of other transactions neither
is published. -/
theorem Run.event_stream_exact (hrun : Run service w₀ turns w)
    (hempty : w₀.store.entries = .empty) :
    (∀ t ∈ turns, ∀ x c, t.world.Stores x c → ∃ d, w.Stores x d) ∧
    (∀ x c, w.Stores x c →
      c.ToldBy ((service.published turns).filterMap (Event.changeOf? x))) ∧
    (∀ x, (∀ c, ¬w.Stores x c) →
      (service.published turns).filterMap (Event.changeOf? x) = []) ∧
    ((service.published turns).filterMap Event.reservation?).Nodup ∧
    (∀ key chainId n o, Registry.nonceOwner? w.store.restored key chainId n = .ok (some o) ↔
      o ∈ (service.published turns).filterMap Event.reservation? ∧
        o.signingKey = key ∧ o.chainId = chainId ∧ o.nonce = n) ∧
    (∀ x key chainId n, (∃ i, w.Carries x i key chainId n) ↔
      ⟨key, chainId, n, x⟩ ∈ (service.published turns).filterMap Event.reservation?) ∧
    ∀ x, OpenedBy x (service.creators x turns)
        ((service.published turns).filterMap (Event.finalizationOf? x))
        ((service.published turns).filterMap (Event.migrationOf? x)) ∧
      (service.creators x turns = [] ↔ ∀ c, ¬w.Stores x c) := by
  have h₀ := World.sound_of_entries_eq_empty hempty
  have hsound := hrun.sound h₀
  have htold := hrun.published_told hempty
  have habsent (x : Digest) : (∀ c, ¬w.Stores x c) ↔ w.accounts.cctx x = none := by
    simp only [hsound.stores_iff, Option.eq_none_iff_forall_ne_some, ne_eq]
  refine ⟨fun t ht x c hc => ?_, fun x c hc => htold.changes x c (hsound.stores_iff.1 hc),
    fun x hx => htold.silent x ((habsent x).1 hx), htold.nodup, fun key chainId n o => ?_,
    fun x key chainId n => ?_, fun x => ?_⟩
  · have hbefore := hrun.forall_turns h₀ (P := fun t => t.world.Sound) (fun _ _ h _ => h) t ht
    obtain ⟨d, hd, -⟩ := (hrun.extends_of_mem h₀ ht).cctx x c (hbefore.stores_iff.1 hc)
    exact ⟨d, hsound.stores_iff.2 hd⟩
  · rw [hsound.nonceOwner?_eq ⟨⟨key, chainId⟩, n⟩, Except.ok.injEq]
    constructor
    · intro ho
      have heq := hsound.accounts.owner_eq _ o ho
      rw [heq] at ho ⊢
      exact ⟨(htold.mem_iff _ _).2 ho, rfl, rfl, rfl⟩
    · rintro ⟨ho, rfl, rfl, rfl⟩
      exact (htold.mem_iff ⟨⟨o.signingKey, o.chainId⟩, o.nonce⟩ o.cctxIndex).1 ho
  · rw [hsound.exists_carries_iff]
    exact (htold.mem_iff ⟨⟨key, chainId⟩, n⟩ x).symm
  · obtain ⟨hopened, hnone⟩ := hrun.openedBy hempty x
    exact ⟨hopened, hnone.trans (habsent x).symm⟩

end Runs

/-! ### A deposit that is sent back -/

namespace Sample

/-- The turns up to the failure of the deposit. -/
def failureTurns : List (Turn ScriptedGateway) :=
  service.turnsOf start calls ++ [⟨world, .voteOutbound ⟨2, 2⟩ failure⟩]

/-- Who follows the events knows that the deposit is sent back, and with which nonce. -/
theorem stream_of_failure : ∃ d,
    (service.execute world (.voteOutbound ⟨2, 2⟩ failure)).world.Stores deposit.digest d ∧
      d.ToldBy [⟨.pendingInbound, .pendingOutbound, "awaiting outbound"⟩,
        ⟨.pendingOutbound, .pendingRevert, "outbound failed, revert pending"⟩] ∧
      ∃ i, (service.execute world (.voteOutbound ⟨2, 2⟩ failure)).world.Carries deposit.digest i
        "key" chainId 1 := by
  have hevaluated :
      (service.execute world (.voteOutbound ⟨2, 2⟩ failure)).world.store.Addressable ∧
      (service.published failureTurns).filterMap (Event.changeOf? deposit.digest)
        = [⟨.pendingInbound, .pendingOutbound, "awaiting outbound"⟩,
          ⟨.pendingOutbound, .pendingRevert, "outbound failed, revert pending"⟩] ∧
      ⟨"key", chainId, 1, deposit.digest⟩
        ∈ (service.published failureTurns).filterMap Event.reservation? := by decide +kernel
  obtain ⟨hstore, hchanges, hreserved⟩ := hevaluated
  obtain ⟨hkept, htold, -, -, -, hcarries, -⟩ := Run.event_stream_exact (run.call _ hstore) rfl
  obtain ⟨d, hd⟩ := hkept ⟨world, .voteOutbound ⟨2, 2⟩ failure⟩
    (List.mem_append_right _ (List.mem_singleton_self _)) _ _ stores
  exact ⟨d, hd, hchanges ▸ htold _ d hd, (hcarries _ _ _ _).2 hreserved⟩

end Sample

end Settlement
