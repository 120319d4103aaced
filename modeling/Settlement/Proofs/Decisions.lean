import Settlement.Proofs.SettledOnce

/-!
# Decisions and what is made of them

A ballot can be voted on in two ways. A vote that comes with a message decides the ballot of the
message and applies the decision in the same call. A vote that is cast alone names a ballot by its
index and has nothing to apply: if it is the one that decides the ballot of a message, then no
later vote on the message decides it again, and the decision is never applied
(`Settlement.Sample.decisions_not_applied`).

There is no other way to lose a decision. The invariant of a run says so of every decided ballot,
by the call that has decided it (`Settlement.Applied`). To read this for a given message, no
other message of the run may have the same digest. What is hashed of two messages differs
whenever one is about an inbound and the other about an outbound transaction, or they are about
different attempts.

Main statement: `Settlement.Run.decisions_applied`.
-/

namespace Settlement

variable {γ : Type}

/-! ### What is hashed of messages -/

/-- No two of the byte strings have the same digest. -/
def CollisionFree (hashed : List Bytes) : Prop :=
  ∀ x ∈ hashed, ∀ y ∈ hashed, Digest.of x = Digest.of y → x = y

instance : DecidablePred CollisionFree :=
  fun hashed => inferInstanceAs (Decidable (∀ x ∈ hashed, ∀ y ∈ hashed, _))

/-- A hashed byte string starts with the length of its domain name. -/
theorem Preimage.length_domain_eq {p q : Preimage} (h : p.bytes = q.bytes) :
    Bytes.big 8 (Bytes.ofText p.domain).length = Bytes.big 8 (Bytes.ofText q.domain).length := by
  simp only [bytes, Field.encode, Bytes.ofSizedText, List.append_assoc] at h
  exact (List.append_inj h (by rw [Bytes.length_big, Bytes.length_big])).1

/-- Domain names of different lengths tell apart what is hashed. -/
theorem Preimage.bytes_ne {p q : Preimage} (d e : String) (hp : p.domain = d) (hq : q.domain = e)
    (h : Bytes.big 8 (Bytes.ofText d).length ≠ Bytes.big 8 (Bytes.ofText e).length) :
    p.bytes ≠ q.bytes := by
  subst hp hq
  exact fun hbytes => h (length_domain_eq hbytes)

/-- Reports of inbound and of outbound transactions are told apart by their domain names. -/
theorem InboundVote.bytes_ne (m : InboundVote) (n : OutboundVote) :
    m.preimage.bytes ≠ n.preimage.bytes :=
  Preimage.bytes_ne "xc/vote-inbound" "xc/vote-outbound" rfl rfl (by decide)

/-- **Reports of which the same is hashed are about the same attempt.** The transaction stands
in front of everything that has no fixed width, the chain and the nonce stand behind it. -/
theorem OutboundVote.attempt_eq_of_bytes_eq {m n : OutboundVote}
    (h : m.preimage.bytes = n.preimage.bytes) : m.attempt = n.attempt := by
  have hparts (m : OutboundVote) : ∃ middle, m.preimage.bytes
      = ((Field.text "xc/vote-outbound").encode ++ (Field.bytes m.cctxIndex.bytes).encode)
        ++ (middle ++ (m.chainId.bytes ++ (Bytes.ofWord m.nonce
          ++ Bytes.ofWord m.coinType.number))) :=
    ⟨[.text m.hash, .word m.height, .word m.gasUsed, .amount m.gasPrice,
      .word m.effectiveGasLimit, .amount m.valueReceived].flatMap Field.encode,
      by simp [preimage, Preimage.bytes, Field.encode]⟩
  obtain ⟨middle, hm⟩ := hparts m
  obtain ⟨middle', hn⟩ := hparts n
  rw [hm, hn] at h
  obtain ⟨hfront, hrest⟩ := List.append_inj h (by
    simp [Field.encode, m.cctxIndex.length_bytes, n.cctxIndex.length_bytes])
  have hback := (List.append_inj' hrest (by simp)).2
  obtain ⟨hchain, hback⟩ := List.append_inj hback (by simp)
  have hnonce := (List.append_inj hback (by simp)).1
  have hindex := (List.append_inj' (List.append_cancel_left hfront) (by
    rw [m.cctxIndex.length_bytes, n.cctxIndex.length_bytes])).2
  rw [attempt, attempt, Digest.ext hindex, ChainId.bytes_injective hchain,
    Bytes.ofWord_injective hnonce]

/-! ### Who has decided a ballot -/

/-- What is hashed of the message that is voted on, if the vote comes with one. -/
def Call.hashed? : Call → Option Bytes
  | .voteInbound _ m => some m.preimage.bytes
  | .voteOutbound _ m => some m.preimage.bytes
  | _ => none

/-- The call is a vote without a message. -/
def Call.isAlone : Call → Bool
  | .castVote _ _ => true
  | _ => false

/-- What is hashed of the messages in some turns. -/
def hashedIn (turns : List (Turn γ)) : List Bytes :=
  turns.filterMap (·.call.hashed?)

namespace Service

section Deciders

variable [Gateway γ] (service : Service)

/-- The ballot that is decided in a turn, if there is one. -/
def decided (t : Turn γ) : Option Digest :=
  decidedBy t.call (service.execute t.world t.call).answer

/-- The call that was the last to decide a ballot in some turns. -/
def decider? (turns : List (Turn γ)) (index : Digest) : Option Call :=
  (turns.filter fun t => service.decided t = some index).getLast?.map Turn.call

/-- The ballot was decided by a vote without a message. -/
def decidedAlone (turns : List (Turn γ)) (index : Digest) : Bool :=
  (service.decider? turns index).any Call.isAlone

theorem decider?_concat (turns : List (Turn γ)) (t : Turn γ) (index : Digest) :
    service.decider? (turns ++ [t]) index =
      if service.decided t = some index then some t.call else service.decider? turns index := by
  rw [decider?, List.filter_append, List.filter_cons, List.filter_nil]
  by_cases h : service.decided t = some index
  · rw [if_pos h, if_pos (decide_eq_true h), List.getLast?_concat]
    rfl
  · rw [if_neg h, if_neg (by simpa using h), List.append_nil]
    rfl

variable {service} {turns : List (Turn γ)} {index : Digest} {c : Call}

theorem decidedAlone_of_decider? (h : service.decider? turns index = some c)
    (halone : c.isAlone = true) : service.decidedAlone turns index = true := by
  rw [decidedAlone, h]
  exact halone

theorem hashed_mem_of_decider? (h : service.decider? turns index = some c) {bs : Bytes}
    (hbs : c.hashed? = some bs) : bs ∈ hashedIn turns := by
  obtain ⟨t, ht, rfl⟩ := Option.map_eq_some_iff.1 h
  exact List.mem_filterMap.2 ⟨t, (List.mem_filter.1 (List.mem_of_getLast? ht)).1, hbs⟩

/-- A ballot that was decided with a message is that of no other message. -/
theorem hashed_eq_of_decider? {p : Preimage} (hfree : CollisionFree (p.bytes :: hashedIn turns))
    (h : service.decider? turns p.digest = some c) {q : Preimage}
    (hq : c.hashed? = some q.bytes) (hdigest : q.digest = p.digest) : q.bytes = p.bytes :=
  hfree _ (List.mem_cons_of_mem _ (hashed_mem_of_decider? h hq)) _ List.mem_cons_self hdigest

end Deciders

/-- A ballot is decided by a vote without a message, or by one on the message that has its
index. -/
theorem cases_of_decidedBy {c : Call} {answer : Except CallError Answer} {index : Digest}
    (h : decidedBy c answer = some index) :
    c.isAlone = true ∨
      (∃ block m receipt, c = .voteInbound block m ∧ answer = .ok (.receipt receipt) ∧
        receipt.finalized = true ∧ m.digest = index) ∨
      ∃ block m, c = .voteOutbound block m ∧ settledBy c answer = some m ∧ m.digest = index := by
  rw [decidedBy.eq_def] at h
  split at h
  · exact .inl rfl
  · obtain ⟨hfinalized, heq⟩ := Option.ite_none_right_eq_some.1 h
    exact .inr (.inl ⟨_, _, _, rfl, rfl, hfinalized, Option.some.inj heq⟩)
  · obtain ⟨hfinalized, heq⟩ := Option.ite_none_right_eq_some.1 h
    exact .inr (.inr ⟨_, _, rfl, if_pos hfinalized, Option.some.inj heq⟩)
  · cases h

end Service

/-! ### Decisions that are applied -/

/-- What has been made of the decision on a ballot, by the call that has decided it. -/
inductive Applied (a : Accounts) (settled : List OutboundVote) (index : Digest) (b : Ballot) :
    Call → Prop
  /-- A vote without a message applies nothing. -/
  | alone {c : Call} (h : c.isAlone = true) : Applied a settled index b c
  /-- The transaction that was found to be right has been opened. -/
  | inbound {block : Block} {m : InboundVote} (hindex : m.digest = index)
      (hopened : b.status = .success → ∃ c, a.cctx index = some c) :
      Applied a settled index b (.voteInbound block m)
  /-- The attempt has been settled. -/
  | outbound {block : Block} {m : OutboundVote} (hindex : m.digest = index)
      (hsettled : m ∈ settled) : Applied a settled index b (.voteOutbound block m)

theorem Applied.mono {a a' : Accounts} {settled settled' : List OutboundVote} {index : Digest}
    {b : Ballot} {c : Call} (h : Applied a settled index b c) (ha : a.Extends a')
    (hsettled : settled ⊆ settled') : Applied a' settled' index b c := by
  cases h with
  | alone halone => exact .alone halone
  | inbound hindex hopened =>
    refine .inbound hindex fun hsuccess => ?_
    obtain ⟨c, hc⟩ := hopened hsuccess
    obtain ⟨d, hd, -⟩ := ha.cctx _ c hc
    exact ⟨d, hd⟩
  | outbound hindex hm => exact .outbound hindex (hsettled hm)

section Runs

variable [Gateway γ] {service : Service} {w w₀ : World γ} {turns : List (Turn γ)}

/-- **A call that decides a ballot with a message applies the decision.** -/
theorem World.Sound.applied (h : w.Sound) {c : Call}
    (hstore : (service.execute w c).world.store.Addressable) {index : Digest} {b : Ballot}
    (hdecided : service.decided ⟨w, c⟩ = some index)
    (hb : (service.execute w c).world.ballots index = some b) :
    Applied (service.execute w c).world.accounts
      (Service.settledBy c (service.execute w c).answer).toList index b c := by
  obtain halone | ⟨block, m, receipt, rfl, hanswer, hfinalized, rfl⟩ |
    ⟨block, m, rfl, hsettled, rfl⟩ := Service.cases_of_decidedBy hdecided
  · exact .alone halone
  · refine .inbound rfl fun hsuccess => ?_
    obtain ⟨e, gateway, hrefused⟩ | ⟨receipt', outcome, a, ballots, hanswer', htaken, htells,
      hreported, -, hbooks⟩ := Service.voteInbound_cases service h.records h.legible h.ballotsFiled
        block m
    · rw [hrefused] at hanswer
      cases hanswer
    cases hanswer.symm.trans hanswer'
    have houtcome : outcome.finalized = true := htells.finalized_eq.symm.trans hfinalized
    obtain ⟨-, rfl, rfl⟩ := hbooks.ledger hstore
    -- The ballot that is stored is the one that the vote has come to.
    obtain ⟨-, hstored, -⟩ := htaken.voted.decides houtcome
    cases hb.symm.trans hstored
    exact hreported.exists_cctx houtcome hsuccess
  · rw [hsettled]
    exact .outbound rfl (List.mem_singleton_self m)

/-- **Every decided ballot was decided by a call of the run, which applied the decision unless it
was a vote without a message.** -/
theorem Run.applied (hrun : Run service w₀ turns w) (hempty : w₀.store.entries = .empty)
    {index : Digest} {b : Ballot} (hb : w.ballots index = some b)
    (hfinalized : b.isFinalized = true) :
    ∃ c, service.decider? turns index = some c ∧
      Applied w.accounts (service.settlements turns) index b c := by
  have h₀ := World.sound_of_entries_eq_empty hempty
  induction hrun with
  | start =>
    rw [World.ballots, World.ledger_eq_empty hempty] at hb
    cases hb
  | @call turns w hrun c hstore ih =>
    have hsound := hrun.sound h₀
    rw [Service.decider?_concat, Service.settlements_concat]
    by_cases hdecided : service.decided ⟨w, c⟩ = some index
    · rw [if_pos hdecided]
      exact ⟨c, rfl, (hsound.applied hstore hdecided hb).mono (.refl _)
        (List.subset_append_right _ _)⟩
    · rw [if_neg hdecided]
      -- The ballot was decided before, and the call has left it alone.
      have hbefore := (hsound.ballotsFollow hstore index b hb hfinalized).resolve_left hdecided
      obtain ⟨d, hd, happlied⟩ := ih hbefore
      exact ⟨d, hd, happlied.mono
        (hsound.accounts.extends_of_step (hsound.execute hstore).2) (List.subset_append_left _ _)⟩
  | @outside turns w w' hrun hentries ih =>
    have hledger := World.ledger_eq_of_entries_eq hentries
    rw [World.ballots, hledger] at hb
    rw [World.accounts_eq_of_entries_eq hentries]
    exact ih hb

/-- **A decision is applied unless a vote without a message has made it.** In a world that is
reached from an empty store, by messages of which no two have the same digest: if the ballot of
an inbound message has succeeded, then the transaction is stored under its index. If the ballot
of an outbound message is decided, then the attempt that it names is executed. In both cases the
exception is a ballot that was last decided by a vote that was cast alone. -/
theorem Run.decisions_applied (hrun : Run service w₀ turns w) (hempty : w₀.store.entries = .empty) :
    (∀ m : InboundVote, CollisionFree (m.preimage.bytes :: hashedIn turns) → ∀ b,
      Registry.ballot? w.store.restored m.digest = .ok (some b) → b.status = .success →
      (∃ c, w.Stores m.digest c) ∨ service.decidedAlone turns m.digest = true) ∧
    ∀ m : OutboundVote, CollisionFree (m.preimage.bytes :: hashedIn turns) → ∀ b,
      Registry.ballot? w.store.restored m.digest = .ok (some b) → b.isFinalized = true →
      (∀ c a, w.Stores m.cctxIndex c → a ∈ c.attempts → a.chainId = m.chainId →
        a.nonce = some m.nonce → a.isExecuted = true) ∨
      service.decidedAlone turns m.digest = true := by
  have hsound := hrun.sound (World.sound_of_entries_eq_empty hempty)
  simp only [hsound.ballot?_eq, hsound.stores_iff, Except.ok.injEq]
  refine ⟨fun m hfree b hb hsuccess => ?_, fun m hfree b hb hfinalized => ?_⟩
  · have hfinalized : b.isFinalized = true := by rw [Ballot.isFinalized, hsuccess]; rfl
    obtain ⟨c, hc, happlied⟩ := hrun.applied hempty hb hfinalized
    cases happlied with
    | alone halone => exact .inr (Service.decidedAlone_of_decider? hc halone)
    | inbound _ hopened => exact .inl (hopened hsuccess)
    | @outbound _ n hindex =>
      exact absurd (Service.hashed_eq_of_decider? hfree hc rfl hindex).symm (m.bytes_ne n)
  · obtain ⟨c, hc, happlied⟩ := hrun.applied hempty hb hfinalized
    cases happlied with
    | alone halone => exact .inr (Service.decidedAlone_of_decider? hc halone)
    | @inbound _ n hindex =>
      exact absurd (Service.hashed_eq_of_decider? hfree hc rfl hindex) (n.bytes_ne m)
    | @outbound _ n hindex hn =>
      -- The message that has settled an attempt is about the one that is asked for.
      have hattempt : n.attempt = m.attempt :=
        OutboundVote.attempt_eq_of_bytes_eq (Service.hashed_eq_of_decider? hfree hc rfl hindex)
      exact .inl fun d e hd he hchain hnonce => (hrun.settled hempty).isExecuted hsound.accounts
        (List.mem_map.2 ⟨n, hn, hattempt⟩) hd he hchain hnonce

end Runs

/-! ### A deposit that fails, and votes without messages -/

namespace Sample

/-- The deposit is reported, and then the failure of its attempt. -/
def settledCalls : List Call :=
  calls ++ [.voteOutbound ⟨2, 2⟩ failure]

/-- Both decisions are applied: the transaction is stored, and its first attempt is executed. -/
theorem decisions_of_deposit_applied :
    (∃ c, (service.after start settledCalls).Stores deposit.digest c) ∧
      ∀ c a, (service.after start settledCalls).Stores deposit.digest c → a ∈ c.attempts →
        a.chainId = chainId → a.nonce = some 0 → a.isExecuted = true := by
  -- The calls are evaluated once for all that is to be known of them.
  have hevaluated :
      (∀ t ∈ service.turnsOf start settledCalls,
        (service.execute t.world t.call).world.store.Addressable) ∧
      ((service.after start settledCalls).ballots deposit.digest).map Ballot.status
        = some .success ∧
      ((service.after start settledCalls).ballots failure.digest).map Ballot.status
        = some .failure ∧
      CollisionFree (deposit.preimage.bytes :: hashedIn (service.turnsOf start settledCalls)) ∧
      CollisionFree (failure.preimage.bytes :: hashedIn (service.turnsOf start settledCalls)) ∧
      service.decidedAlone (service.turnsOf start settledCalls) deposit.digest = false ∧
      service.decidedAlone (service.turnsOf start settledCalls) failure.digest = false := by
    decide +kernel
  obtain ⟨hstores, hright, hfailed, hfree, hfree', halone, halone'⟩ := hevaluated
  have hrun := Run.start.calls settledCalls hstores
  have hsound := hrun.sound (World.sound_of_entries_eq_empty rfl)
  obtain ⟨b, hb, hsuccess⟩ := Option.map_eq_some_iff.1 hright
  obtain ⟨b', hb', hfailure⟩ := Option.map_eq_some_iff.1 hfailed
  have happlied := Run.decisions_applied hrun rfl
  constructor
  · exact (happlied.1 deposit hfree b (by rw [hsound.ballot?_eq, hb]) hsuccess).resolve_right
      (Bool.eq_false_iff.1 halone)
  · exact (happlied.2 failure hfree' b' (by rw [hsound.ballot?_eq, hb'])
      (by rw [Ballot.isFinalized, hfailure]; rfl)).resolve_right (Bool.eq_false_iff.1 halone')

/-- A deposit that nobody reports. -/
def unreported : InboundVote :=
  { deposit with inboundHash := "0xEF" }

/-- After the deposit, the only observer votes without a message: for the one that is not
reported, and against the attempt in flight. -/
def aloneCalls : List Call :=
  calls ++ [
    .castVote ⟨unreported.digest, .inbound, chainId, observer, .yes⟩ ⟨2, 2⟩,
    .castVote ⟨failure.digest, .outbound, chainId, observer, .no⟩ ⟨2, 2⟩]

/-- **Two decisions are not applied**: the deposit was found to be right but no transaction is
stored for it, and the attempt was found to have failed but is still in flight. -/
theorem decisions_not_applied : ∃ turns w, Run service start turns w ∧
    CollisionFree (unreported.preimage.bytes :: failure.preimage.bytes :: hashedIn turns) ∧
    (∃ b, Registry.ballot? w.store.restored unreported.digest = .ok (some b) ∧
      b.status = .success ∧ ¬∃ c, w.Stores unreported.digest c) ∧
    ∃ b c a, Registry.ballot? w.store.restored failure.digest = .ok (some b) ∧
      b.isFinalized = true ∧ w.Stores failure.cctxIndex c ∧ a ∈ c.attempts ∧
      a.chainId = failure.chainId ∧ a.nonce = some failure.nonce ∧ a.isExecuted = false := by
  have hevaluated :
      (∀ t ∈ service.turnsOf start aloneCalls,
        (service.execute t.world t.call).world.store.Addressable) ∧
      CollisionFree (unreported.preimage.bytes :: failure.preimage.bytes ::
        hashedIn (service.turnsOf start aloneCalls)) ∧
      ((service.after start aloneCalls).ballots unreported.digest).map Ballot.status
        = some .success ∧
      ((service.after start aloneCalls).ballots failure.digest).map Ballot.status
        = some .failure ∧
      (service.after start aloneCalls).accounts.cctx unreported.digest = none ∧
      (service.after start aloneCalls).accounts.cctx failure.cctxIndex = some cctx := by
    decide +kernel
  obtain ⟨hstores, hfree, hright, hfailed, hmissing, hcctx⟩ := hevaluated
  have hrun := Run.start.calls aloneCalls hstores
  have hsound := hrun.sound (World.sound_of_entries_eq_empty rfl)
  obtain ⟨b, hb, hsuccess⟩ := Option.map_eq_some_iff.1 hright
  obtain ⟨b', hb', hfailure⟩ := Option.map_eq_some_iff.1 hfailed
  refine ⟨_, _, hrun, hfree, ⟨b, by rw [hsound.ballot?_eq, hb], hsuccess, fun hstored => ?_⟩,
    b', cctx, cctx.outbound, by rw [hsound.ballot?_eq, hb'], ?_, hsound.stores_iff.2 hcctx,
    List.mem_cons_self, rfl, rfl, rfl⟩
  · obtain ⟨c, hc⟩ := hstored
    rw [hsound.stores_iff, hmissing] at hc
    cases hc
  · rw [Ballot.isFinalized, hfailure]
    rfl

end Sample

end Settlement
