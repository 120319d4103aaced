import Settlement.Proofs.Reporting

/-!
# An honest quorum gets through

When all observers report the same, each of them once and in any order, then nothing may stand in
their way: the first reports are counted, the one that completes the quorum opens the transaction or
settles the attempt, whatever the gateway answers and however the attempt has ended, and only those
who come later are refused. This is so in every world that is reached from an empty store, if the
store works from then on.

Main statement: `Settlement.Reachable.honest_quorum`.
-/

namespace Settlement

/-- The reply to the report of a deposit, when so many observers have submitted it. -/
structure Reply.ToDeposit {γ : Type} (reply : Reply γ) (m : InboundVote) (quorum count : Nat) :
    Prop where
  /-- The first votes are counted. -/
  counted : count < quorum → ∃ receipt,
    reply.answer = .ok (.receipt receipt) ∧ receipt.finalized = false
  /-- The vote that completes the quorum opens the transaction. -/
  opened : count = quorum → ∃ receipt c, reply.answer = .ok (.receipt receipt) ∧
    receipt.finalized = true ∧ receipt.cctxIndex = some m.digest ∧ reply.world.Stores m.digest c
  /-- The others come too late. -/
  late : quorum < count →
    reply.answer = .error (.settlement (.inboundFinalized m.senderChain m.inboundHash))

/-- The reply to the report of an outcome, when so many observers have submitted it. -/
structure Reply.ToOutcome {γ : Type} (reply : Reply γ) (m : OutboundVote) (c : Cctx)
    (quorum count : Nat) : Prop where
  /-- The first votes are counted. -/
  counted : count < quorum → ∃ receipt,
    reply.answer = .ok (.receipt receipt) ∧ receipt.finalized = false
  /-- The vote that completes the quorum settles the attempt. -/
  settled : ¬m.Mismatches c → count = quorum → ∃ receipt d,
    reply.answer = .ok (.receipt receipt) ∧ receipt.finalized = true ∧
    reply.world.OutcomeApplied m c d
  /-- The others come too late: another attempt is in flight, or none. -/
  late : ¬m.Mismatches c → quorum < count →
    (∃ nonce, reply.answer = .error (.settlement (.nonceMismatch nonce m.nonce))) ∨
    ∃ chainId, reply.answer = .error (.settlement (.chainMismatch chainId m.chainId))
  /-- Of a success with another value there is never a quorum. -/
  refused : m.Mismatches c → quorum ≤ count →
    reply.answer = .error (.settlement (.valueMismatch c.current.amount m.valueReceived))

section Orders

variable {γ : Type} [Gateway γ] {service : Service} {w : World γ} {observers : ObserverSet}
  {percent : UInt8} {order earlier later : List (ObserverId × Block)} {s : ObserverId × Block}

omit [Gateway γ] in
/-- Everyone who submits a report is an observer, and has not submitted it before. -/
theorem mem_members_of_perm (hnodup : observers.members.Nodup)
    (hperm : (order.map Prod.fst).Perm observers.members) (horder : order = earlier ++ s :: later) :
    s.1 ∈ observers.members ∧ s.1 ∉ earlier.map Prod.fst := by
  rw [horder, List.map_append, List.map_cons] at hperm
  constructor
  · exact hperm.mem_iff.1 (List.mem_append_right _ List.mem_cons_self)
  · intro hearlier
    exact (List.nodup_append.1 (hperm.nodup_iff.2 hnodup)).2.2 s.1 hearlier s.1
      List.mem_cons_self rfl

variable (hw : Reachable service w) (hworks : w.store.Works)
  (hobservers : Registry.observerSet w.store = .ok observers)
  (hnamed : ∀ o ∈ observers.members, o.account ≠ "")
  (hperm : (order.map Prod.fst).Perm observers.members)

include hw hworks hobservers

/-- No observer is a member twice. -/
theorem Reachable.nodup_members : observers.members.Nodup := by
  have hnodup := hw.constituted.nodup
  have heq : w.store.ledger.observers = observers :=
    (World.Continues.refl hw hworks).observers_eq hobservers
  rwa [heq] at hnodup

/-- There are enough observers for a quorum. -/
theorem Reachable.quorum_le_length (hsome : observers.members ≠ []) {id : ChainId}
    (hperm : (order.map Prod.fst).Perm observers.members)
    (hserved : Registry.ServedAt w.store percent id) :
    observers.quorum percent ≤ order.length := by
  have hlength : order.length = observers.size := by
    rw [← List.length_map (f := Prod.fst), hperm.length_eq, ObserverSet.size]
  have heq : w.store.ledger.observers = observers :=
    (World.Continues.refl hw hworks).observers_eq hobservers
  obtain ⟨chain, params, hchain, rfl⟩ := hserved
  have hparams := Registry.eq_of_supportedChain hw.sound.records hw.sound.legible hchain
  have hle := hw.constituted.quorum_le_size hparams
    (by rw [heq]; exact List.length_pos_of_ne_nil hsome)
  rwa [hlength, ← heq]

include hnamed hperm

/-! ### A deposit that all observers report -/

section Deposit

variable {m : InboundVote} (hvalid : m.validate = .ok ())
  (hadmits : Journal.Admits service.settlement w.store m)
  (hserved : Registry.ServedAt w.store percent m.senderChain)
  (hstart : w.DepositReported m (observers.quorum percent) [])
  (hstores : ∀ t ∈ service.turnsOf w (order.map m.submission),
    (service.execute t.world t.call).world.store.Addressable)

include hvalid hadmits hserved hstart hstores

/-- **However many observers have reported the deposit**, their votes gather or they were a
quorum. -/
theorem Reachable.deposit_reported (horder : order = earlier ++ later) :
    w.Continues service (service.after w (earlier.map m.submission)) ∧
      (service.after w (earlier.map m.submission)).DepositReported m (observers.quorum percent)
        (earlier.map Prod.fst) := by
  refine service.after_induction (P := fun earlier w' => w.Continues service w' ∧
    w'.DepositReported m (observers.quorum percent) (earlier.map Prod.fst)) hstores
    ⟨.refl hw hworks, hstart⟩ ?_ horder
  rintro earlier s later w' horder ⟨h, hreported⟩ hstore
  obtain ⟨hmember, hnew⟩ := mem_members_of_perm (hw.nodup_members hworks hobservers) hperm horder
  have hvalid' := InboundVote.validate_submittedBy hvalid (hnamed s.1 hmember)
  refine ⟨h.execute rfl hstore, ?_⟩
  rw [List.map_append]
  rcases hreported with ⟨hfew, hmarked, habsent, hballot⟩ | ⟨henough, hmarked⟩
  · obtain ⟨receipt, -, -, -, hreported⟩ := h.deposit_counted s hvalid' hadmits hobservers hserved
      hmember hnew hmarked habsent hballot hstore
    exact hreported
  · obtain ⟨-, hsame⟩ := h.deposit_late s hvalid' hadmits hmarked
    rw [hsame]
    refine .decided ?_ hmarked
    rw [List.length_append]
    exact Nat.le_add_right_of_le henough

/-- **The next report is counted, opens the transaction, or comes too late**, as there are fewer,
just as many or more reports with it than a quorum. -/
theorem Reachable.deposit_next (horder : order = earlier ++ s :: later) :
    (service.execute (service.after w (earlier.map m.submission)) (m.submission s)).ToDeposit m
      (observers.quorum percent) (earlier.length + 1) := by
  obtain ⟨h, hreported⟩ := hw.deposit_reported hworks hobservers hnamed hperm hvalid hadmits hserved
    hstart hstores horder
  have hstore := Service.addressable_of_eq_append hstores horder
  obtain ⟨hmember, hnew⟩ := mem_members_of_perm (hw.nodup_members hworks hobservers) hperm horder
  have hvalid' := InboundVote.validate_submittedBy hvalid (hnamed s.1 hmember)
  have hlength : (earlier.map Prod.fst).length = earlier.length := List.length_map _
  rcases hreported with ⟨hfew, hmarked, habsent, hballot⟩ | ⟨henough, hmarked⟩
  · obtain ⟨receipt, hanswer, hfinalized, hopens, -⟩ := h.deposit_counted s hvalid' hadmits
      hobservers hserved hmember hnew hmarked habsent hballot hstore
    rw [hlength] at hfew hfinalized
    refine ⟨fun hfewer => ⟨receipt, hanswer, ?_⟩, fun heq => ?_, fun hmore => by omega⟩
    · rw [hfinalized]
      exact decide_eq_false (Nat.not_le.2 hfewer)
    · have hdecided : receipt.finalized = true :=
        hfinalized.trans (decide_eq_true (Nat.le_of_eq heq.symm))
      obtain ⟨hindex, c, hc⟩ := hopens hdecided
      exact ⟨receipt, c, hanswer, hdecided, hindex, hc⟩
  · rw [hlength] at henough
    refine ⟨fun hfewer => by omega, fun heq => by omega, fun _ => ?_⟩
    exact (h.deposit_late s hvalid' hadmits hmarked).1

end Deposit

/-! ### An outcome that all observers report -/

section Outcome

variable {m : OutboundVote} {c : Cctx} (hhash : m.hash ≠ "")
  (hcheck : Journal.checkAttempt c m = .ok ())
  (hserved : Registry.ServedAt w.store percent m.chainId)
  (hstart : w.OutcomeReported m c (observers.quorum percent) [])
  (hstores : ∀ t ∈ service.turnsOf w (order.map m.submission),
    (service.execute t.world t.call).world.store.Addressable)

include hhash hcheck hserved hstart hstores

/-- **However many observers have reported the outcome**, their votes gather, or they were a quorum
and the attempt is settled, or the quorum was refused. -/
theorem Reachable.outcome_reported (horder : order = earlier ++ later) :
    w.Continues service (service.after w (earlier.map m.submission)) ∧
      (service.after w (earlier.map m.submission)).OutcomeReported m c (observers.quorum percent)
        (earlier.map Prod.fst) := by
  refine service.after_induction (P := fun earlier w' => w.Continues service w' ∧
    w'.OutcomeReported m c (observers.quorum percent) (earlier.map Prod.fst)) hstores
    ⟨.refl hw hworks, hstart⟩ ?_ horder
  rintro earlier s later w' horder ⟨h, hreported⟩ hstore
  obtain ⟨hmember, hnew⟩ := mem_members_of_perm (hw.nodup_members hworks hobservers) hperm horder
  have hvalid : (m.submittedBy s.1).validate = .ok () :=
    OutboundVote.validate_submittedBy hhash (hnamed s.1 hmember)
  have hlength : (earlier.map Prod.fst ++ [s.1]).length = (earlier.map Prod.fst).length + 1 :=
    List.length_append
  refine ⟨h.execute rfl hstore, ?_⟩
  rw [List.map_append]
  rcases hreported with ⟨hfew, hc, hballot⟩ | ⟨henough, hmismatch, hc, hcounted, hshort, hballot⟩
    | ⟨henough, hmatch, hsettled⟩
  · by_cases hstop : observers.quorum percent ≤ (earlier.map Prod.fst).length + 1 ∧ m.Mismatches c
    · obtain ⟨henough, hmismatch⟩ := hstop
      obtain ⟨haccounts, hballots⟩ := Service.books_eq_of_error
        (h.outcome_refused s hvalid hobservers hserved hmember hnew hc hcheck hballot hmismatch
          henough)
      exact .refused (hlength ▸ henough) hmismatch (haccounts ▸ hc) (List.subset_append_left _ _)
        (by omega) (hballots ▸ hballot)
    · obtain ⟨receipt, -, -, -, hreported⟩ := h.outcome_counted s hvalid hobservers hserved hmember
        hnew hc hcheck hballot (fun henough hmismatch => hstop ⟨henough, hmismatch⟩) hstore
      exact hreported
  · obtain ⟨haccounts, hballots⟩ := Service.books_eq_of_error
      (h.outcome_refused s hvalid hobservers hserved hmember (fun hmem => hnew (hcounted hmem)) hc
        hcheck hballot hmismatch (Nat.le_of_eq hshort.symm))
    exact .refused (hlength ▸ Nat.le_add_right_of_le henough) hmismatch (haccounts ▸ hc)
      (fun _ hmem => List.mem_append_left _ (hcounted hmem)) hshort (hballots ▸ hballot)
  · obtain ⟨e, hrefused⟩ : ∃ e, (service.execute w' (m.submission s)).answer = .error e := by
      rcases h.outcome_late s hvalid hsettled with ⟨nonce, hlate⟩ | ⟨id, hlate⟩
      · exact ⟨_, hlate⟩
      · exact ⟨_, hlate⟩
    obtain ⟨haccounts, -⟩ := Service.books_eq_of_error hrefused
    exact .decided (hlength ▸ Nat.le_add_right_of_le henough) hmatch (haccounts ▸ hsettled)

/-- **The next report is counted, settles the attempt, or comes too late**, in the same way. If its
value is another one, then it is refused instead of settling the attempt. -/
theorem Reachable.outcome_next (horder : order = earlier ++ s :: later) :
    (service.execute (service.after w (earlier.map m.submission)) (m.submission s)).ToOutcome m c
      (observers.quorum percent) (earlier.length + 1) := by
  obtain ⟨h, hreported⟩ := hw.outcome_reported hworks hobservers hnamed hperm hhash hcheck hserved
    hstart hstores horder
  have hstore := Service.addressable_of_eq_append hstores horder
  obtain ⟨hmember, hnew⟩ := mem_members_of_perm (hw.nodup_members hworks hobservers) hperm horder
  have hvalid : (m.submittedBy s.1).validate = .ok () :=
    OutboundVote.validate_submittedBy hhash (hnamed s.1 hmember)
  have hlength : (earlier.map Prod.fst).length = earlier.length := List.length_map _
  rcases hreported with ⟨hfew, hc, hballot⟩ | ⟨henough, hmismatch, hc, hcounted, hshort, hballot⟩
    | ⟨henough, hmatch, hsettled⟩
  · rw [hlength] at hfew
    have htaken (hmatch : observers.quorum percent ≤ earlier.length + 1 → ¬m.Mismatches c) :=
      h.outcome_counted s hvalid hobservers hserved hmember hnew hc hcheck hballot
        (by rwa [hlength]) hstore
    rw [hlength] at htaken
    refine ⟨fun hfewer => ?_, fun hmatch heq => ?_, fun _ hmore => by omega,
      fun hmismatch henough => ?_⟩
    · obtain ⟨receipt, hanswer, hfinalized, -⟩ := htaken fun henough => by omega
      rw [decide_eq_false (Nat.not_le.2 hfewer)] at hfinalized
      exact ⟨receipt, hanswer, hfinalized⟩
    · obtain ⟨receipt, hanswer, hfinalized, happlied, -⟩ := htaken fun _ => hmatch
      rw [decide_eq_true (Nat.le_of_eq heq.symm)] at hfinalized
      obtain ⟨d, hd⟩ := happlied hfinalized
      exact ⟨receipt, d, hanswer, hfinalized, hd⟩
    · rw [← hlength] at henough
      exact h.outcome_refused s hvalid hobservers hserved hmember hnew hc hcheck hballot hmismatch
        henough
  · rw [hlength] at henough
    refine ⟨fun hfewer => by omega, fun hmatch => absurd hmismatch hmatch,
      fun hmatch => absurd hmismatch hmatch, fun _ _ => ?_⟩
    exact h.outcome_refused s hvalid hobservers hserved hmember (fun hmem => hnew (hcounted hmem))
      hc hcheck hballot hmismatch (Nat.le_of_eq hshort.symm)
  · rw [hlength] at henough
    refine ⟨fun hfewer => by omega, fun _ heq => by omega, fun _ _ => ?_,
      fun hmismatch => absurd hmismatch hmatch⟩
    exact h.outcome_late s hvalid hsettled

end Outcome

end Orders

/-- **An honest quorum always gets through.** In every world that is reached from an empty store, on
a store that works from then on, all observers submit the same report, each of them once and in any
order. A report of a deposit that the settings admit is counted until it has a quorum on the chain
of the sender, opens its transaction then, whatever the gateway answers, and is refused from then
on. A report of the outcome of an attempt in flight is counted until it has a quorum on the chain of
the attempt, settles the attempt then, and is refused from then on; if it is that the attempt has
succeeded with another value, then it is refused as soon as it would have a quorum. -/
theorem Reachable.honest_quorum {γ : Type} [Gateway γ] {service : Service} {w : World γ}
    {observers : ObserverSet} {order : List (ObserverId × Block)} (hw : Reachable service w)
    (hworks : w.store.Works) (hobservers : Registry.observerSet w.store = .ok observers)
    (hsome : observers.members ≠ []) (hnamed : ∀ o ∈ observers.members, o.account ≠ "")
    (hperm : (order.map Prod.fst).Perm observers.members) (percent : UInt8) :
    (∀ m : InboundVote, m.validate = .ok () → Journal.Admits service.settlement w.store m →
      Registry.ServedAt w.store percent m.senderChain →
      Journal.isFinalized w.store m.senderChain m.inboundHash m.eventIndex = .ok false →
      Registry.ballot? w.store m.digest = .ok none → Journal.cctx? w.store m.digest = .ok none →
      (∀ t ∈ service.turnsOf w (order.map m.submission),
        (service.execute t.world t.call).world.store.Addressable) →
      observers.quorum percent ≤ order.length ∧
        ∀ earlier s later, order = earlier ++ s :: later →
          (service.execute (service.after w (earlier.map m.submission)) (m.submission s)).ToDeposit
            m (observers.quorum percent) (earlier.length + 1)) ∧
    ∀ (m : OutboundVote) (c : Cctx), w.Stores m.cctxIndex c →
      c.status = .pendingOutbound ∨ c.status = .pendingRevert → c.current.chainId = m.chainId →
      c.current.nonce = some m.nonce → m.hash ≠ "" →
      Registry.ServedAt w.store percent m.chainId → Registry.ballot? w.store m.digest = .ok none →
      (∀ t ∈ service.turnsOf w (order.map m.submission),
        (service.execute t.world t.call).world.store.Addressable) →
      observers.quorum percent ≤ order.length ∧
        ∀ earlier s later, order = earlier ++ s :: later →
          (service.execute (service.after w (earlier.map m.submission)) (m.submission s)).ToOutcome
            m c (observers.quorum percent) (earlier.length + 1) := by
  have hsound := hw.sound
  have hpos := observers.quorum_pos percent
  have hballot {index : Digest} (habsent : Registry.ballot? w.store index = .ok none) :
      w.ballots index = none := by
    have heq := hsound.ballot?_eq index
    rw [hworks.restored_eq, habsent] at heq
    exact (Except.ok.inj heq).symm
  constructor
  · intro m hvalid hadmits hserved hfound hnone habsent hstores
    have hmarked : w.accounts.marked m.origin = false := by
      have heq := hsound.isFinalized_eq m.senderChain m.inboundHash m.eventIndex
      rw [hworks.restored_eq, hfound] at heq
      exact (Except.ok.inj heq).symm
    have hfree : w.accounts.cctx m.digest = none := by
      have heq := hsound.cctx?_eq m.digest
      rw [hworks.restored_eq, habsent] at heq
      exact (Except.ok.inj heq).symm
    have hstart : w.DepositReported m (observers.quorum percent) [] :=
      .gathering hpos hmarked hfree (hballot hnone ▸ .absent)
    refine ⟨hw.quorum_le_length hworks hobservers hsome hperm hserved, ?_⟩
    intro earlier s later horder
    exact hw.deposit_next hworks hobservers hnamed hperm hvalid hadmits hserved hstart hstores
      horder
  · intro m c hc hstatus hchain hnonce hhash hserved hnone hstores
    rw [hsound.stores_iff] at hc
    have hcheck : Journal.checkAttempt c m = .ok () := Journal.checkAttempt_eq_ok
      (hsound.accounts.formed _ _ hc) (CctxStatus.awaitsOutbound_iff.2 hstatus) hchain hnonce
    have hstart : w.OutcomeReported m c (observers.quorum percent) [] :=
      .gathering hpos hc (hballot hnone ▸ .absent)
    refine ⟨hw.quorum_le_length hworks hobservers hsome hperm hserved, ?_⟩
    intro earlier s later horder
    exact hw.outcome_next hworks hobservers hnamed hperm hhash hcheck hserved hstart hstores horder

/-! ### Three observers -/

namespace Sample

/-- Two of three observers have to agree. -/
def trioCalls : List Call := [
  .setObserverSet [⟨"a"⟩, ⟨"b"⟩, ⟨"c"⟩],
  .registerChain ⟨chainId, "external", .evm⟩ (.ofThreshold chainId 50),
  .registerKey ⟨"key", 1, 1⟩ true]

/-- The world in which nothing is reported yet. -/
def trio : World ScriptedGateway :=
  service.after start trioCalls

/-- All of them, in another order. -/
def trioOrder : List (ObserverId × Block) :=
  [(⟨"b"⟩, ⟨1, 1⟩), (⟨"c"⟩, ⟨2, 2⟩), (⟨"a"⟩, ⟨3, 3⟩)]

/-- The world in which all of them have reported the deposit. -/
def trioReported : World ScriptedGateway :=
  service.after trio (trioOrder.map deposit.submission)

/-- What was made of the deposit by the second of them. -/
def trioCctx : Cctx :=
  { (Cctx.ofInbound (deposit.submittedBy ⟨"c"⟩) deposit.digest "key" ⟨2, 2⟩).setNonce (some 0) with
    report := ⟨.pendingOutbound, "awaiting outbound", 2, 2⟩ }

/-- What governance has set up, and that nothing is reported yet, is evaluated once. -/
theorem evaluation_of_trio :
    (∀ t ∈ service.turnsOf start trioCalls,
      (service.execute t.world t.call).world.store.Addressable) ∧
    (trio.store.rejectsWrites = false ∧ trio.store.unreadable = none) ∧
    Registry.observerSet trio.store = .ok ⟨[⟨"a"⟩, ⟨"b"⟩, ⟨"c"⟩]⟩ ∧
    Registry.supportedChain trio.store chainId
      = .ok (⟨chainId, "external", .evm⟩, .ofThreshold chainId 50) ∧
    Journal.externalChain trio.store chainId = .ok ⟨chainId, "external", .evm⟩ ∧
    Registry.switches trio.store = .ok .initial ∧
    Registry.currentKey trio.store = .ok ⟨"key", 1, 1⟩ ∧
    Journal.isFinalized trio.store chainId "0xAB" 0 = .ok false ∧
    Registry.ballot? trio.store deposit.digest = .ok none ∧
    Journal.cctx? trio.store deposit.digest = .ok none := by
  decide +kernel

/-- So is what the reports of the deposit have left. -/
theorem evaluation_of_trioReported :
    (∀ t ∈ service.turnsOf trio (trioOrder.map deposit.submission),
      (service.execute t.world t.call).world.store.Addressable) ∧
    (∀ t ∈ service.turnsOf trioReported (trioOrder.map failure.submission),
      (service.execute t.world t.call).world.store.Addressable) ∧
    (trioReported.store.rejectsWrites = false ∧ trioReported.store.unreadable = none) ∧
    Registry.observerSet trioReported.store = .ok ⟨[⟨"a"⟩, ⟨"b"⟩, ⟨"c"⟩]⟩ ∧
    Registry.supportedChain trioReported.store chainId
      = .ok (⟨chainId, "external", .evm⟩, .ofThreshold chainId 50) ∧
    Registry.ballot? trioReported.store failure.digest = .ok none ∧
    trioReported.accounts.cctx deposit.digest = some trioCctx := by
  decide +kernel

theorem run_trio : Run service start (service.turnsOf start trioCalls) trio :=
  Run.start.calls trioCalls evaluation_of_trio.1

/-- **Two of three observers are enough**, for the deposit and for its first attempt: the first
report of the deposit is counted, the third one comes too late, and the second report that the
attempt has failed sends the deposit back. -/
theorem quorum_of_trio :
    (∃ receipt, (service.execute trio (deposit.submission (⟨"b"⟩, ⟨1, 1⟩))).answer
      = .ok (.receipt receipt) ∧ receipt.finalized = false) ∧
    (service.execute (service.after trio ((trioOrder.take 2).map deposit.submission))
      (deposit.submission (⟨"a"⟩, ⟨3, 3⟩))).answer
      = .error (.settlement (.inboundFinalized chainId "0xAB")) ∧
    ∃ receipt d, (service.execute (service.after trioReported
        ((trioOrder.take 1).map failure.submission)) (failure.submission (⟨"c"⟩, ⟨2, 2⟩))).answer
        = .ok (.receipt receipt) ∧ receipt.finalized = true ∧
      (service.execute (service.after trioReported ((trioOrder.take 1).map failure.submission))
        (failure.submission (⟨"c"⟩, ⟨2, 2⟩))).world.OutcomeApplied failure trioCctx d := by
  obtain ⟨-, ⟨haccepts, hreadable⟩, hobservers, hchain, hexternal, hswitches, hkey, hunmarked,
    hunvoted, habsent⟩ := evaluation_of_trio
  obtain ⟨hdeposits, hfailures, ⟨haccepts', hreadable'⟩, hobservers', hchain', hballot, hcctx⟩ :=
    evaluation_of_trioReported
  have hnamed : ∀ o ∈ [⟨"a"⟩, ⟨"b"⟩, (⟨"c"⟩ : ObserverId)], o.account ≠ "" := by decide
  have hperm : (trioOrder.map Prod.fst).Perm [⟨"a"⟩, ⟨"b"⟩, (⟨"c"⟩ : ObserverId)] := by decide
  have hadmits : Journal.Admits service.settlement trio.store deposit :=
    ⟨⟨_, hswitches, rfl⟩, ⟨_, hexternal⟩, fun _ => ⟨_, hexternal⟩, _, hkey⟩
  have hreported : Reachable service trioReported := ⟨start, _, rfl, run_trio.calls _ hdeposits⟩
  have hmatch : ¬failure.Mismatches trioCctx := fun h => absurd h.1 (by decide)
  obtain ⟨hinbound, -⟩ := Reachable.honest_quorum ⟨start, _, rfl, run_trio⟩ ⟨haccepts, hreadable⟩
    hobservers (by decide) hnamed hperm 50
  obtain ⟨-, houtbound⟩ := Reachable.honest_quorum hreported ⟨haccepts', hreadable'⟩ hobservers'
    (by decide) hnamed hperm 50
  obtain ⟨-, hdeposited⟩ := hinbound deposit rfl hadmits ⟨_, _, hchain, rfl⟩ hunmarked hunvoted
    habsent hdeposits
  obtain ⟨-, hfailed⟩ := houtbound failure trioCctx (hreported.sound.stores_iff.2 hcctx) (.inl rfl)
    rfl rfl (by decide) ⟨_, _, hchain', rfl⟩ hballot hfailures
  have hfirst := (hdeposited [] _ _ rfl).counted (by decide)
  rw [List.map_nil, Service.after] at hfirst
  exact ⟨hfirst, (hdeposited (trioOrder.take 2) _ [] rfl).late (by decide),
    (hfailed (trioOrder.take 1) _ _ rfl).settled hmatch rfl⟩

end Sample

end Settlement
