import Settlement.Proofs.Removals

/-!
# What a vote does

A vote that is accepted comes from an observer who has not voted on the ballot. Either the ballot
was decided before, and nothing changes, or the vote is recorded on it and may decide it
(`Settlement.Registry.Voted`). What is read and written on the way is said once
(`Settlement.Registry.links_of_castVote`): nothing else is written than the ballot and, if the vote
has opened it, its height entry. So a vote by itself leaves the accounts alone
(`Settlement.Registry.voted_of_castVote`).

Ballots are kept under their own index; votes and pruning preserve that.
-/

namespace Settlement

/-- The observers in a ledger. -/
def Ledger.observers (l : Ledger) : ObserverSet :=
  (l .observerSet).getD .empty

/-! ### The finalization rule -/

namespace Ballot

variable {b : Ballot} {quorum outstanding : Nat} {policy : StalePolicy} {height : UInt64}

/-- What the votes decide is never that the ballot is pending. -/
theorem isFinalized_of_verdict? {status : BallotStatus}
    (h : b.verdict? quorum outstanding policy = some status) : status.isFinalized = true := by
  rw [verdict?] at h
  split at h
  · cases h; rfl
  · split at h
    · cases h; rfl
    · split at h
      · cases h; rfl
      · cases h

@[simp]
theorem index_evaluate : (b.evaluate quorum outstanding policy height).2.index = b.index := by
  rw [evaluate]
  split
  · rfl
  · split <;> rfl

@[simp]
theorem creationHeight_evaluate :
    (b.evaluate quorum outstanding policy height).2.creationHeight = b.creationHeight := by
  rw [evaluate]
  split
  · rfl
  · split <;> rfl

/-- **A pending ballot stays as it is as long as the votes decide nothing**, and otherwise it gets
the state that they decide and the height. -/
theorem eq_of_evaluate {after : Ballot} {finalized : Bool} (hpending : b.isFinalized = false)
    (h : b.evaluate quorum outstanding policy height = (finalized, after)) :
    finalized = false ∧ b.verdict? quorum outstanding policy = none ∧ after = b ∨
      finalized = true ∧ ∃ status, b.verdict? quorum outstanding policy = some status ∧
        after = { b with status := status, finalizedHeight := some height } := by
  rw [evaluate, hpending, if_neg Bool.false_ne_true] at h
  split at h
  · next hnone =>
    cases h
    exact .inl ⟨rfl, hnone, rfl⟩
  · next status hsome =>
    cases h
    exact .inr ⟨rfl, status, hsome, rfl⟩

/-- An entry does not decide a ballot by itself. -/
theorem isFinalized_of_recorded {recorded : Ballot} {votes : List CastVote}
    (hpending : b.isFinalized = false) (hrecorded : recorded = { b with votes := votes }) :
    recorded.isFinalized = false := by
  rw [hrecorded]
  exact hpending

/-- The rule leaves the votes, and a pending ballot gets the state that they decide. -/
theorem decided_of_evaluate {after : Ballot} {finalized : Bool} (hpending : b.isFinalized = false)
    (h : b.evaluate quorum outstanding policy height = (finalized, after)) :
    after.votes = b.votes ∧ finalized = after.isFinalized ∧
      after.status = (b.verdict? quorum outstanding policy).getD .pending := by
  obtain ⟨rfl, hnone, rfl⟩ | ⟨rfl, status, hsome, rfl⟩ := eq_of_evaluate hpending h
  · rw [hnone]
    exact ⟨rfl, hpending.symm, bne_eq_false_iff_eq.1 hpending⟩
  · rw [hsome]
    exact ⟨rfl, (isFinalized_of_verdict? hsome).symm, rfl⟩

/-! ### Voters -/

/-- Those who have voted, in the order of their votes. -/
def voters (b : Ballot) : List ObserverId :=
  b.votes.map CastVote.voter

/-- Those who have cast a given vote, in the order of their votes. -/
def votersFor (b : Ballot) (vote : Vote) : List ObserverId :=
  (b.votes.filter (·.vote = vote)).map CastVote.voter

theorem length_votersFor (vote : Vote) : (b.votersFor vote).length = b.count vote := by
  rw [votersFor, List.length_map, count, List.countP_eq_length_filter]

theorem votersFor_sublist (vote : Vote) : (b.votersFor vote).Sublist b.voters :=
  List.filter_sublist.map _

/-- An account without a vote is not among the voters, if every entry is a vote. -/
theorem notMem_voters {voter : ObserverId} (hvotes : ∀ v ∈ b.votes, v.vote ≠ .absent)
    (h : b.hasVoted voter = false) : voter ∉ b.voters := by
  intro hmem
  obtain ⟨v, hv, hvoter⟩ := List.mem_map.1 hmem
  have habsent : b.voteOf voter = .absent := bne_eq_false_iff_eq.1 h
  rw [voteOf] at habsent
  split at habsent
  · next found hfound => exact hvotes found (List.mem_of_find?_eq_some hfound) habsent
  · next hnone => exact List.find?_eq_none.1 hnone v hv (decide_eq_true hvoter)

/-- A vote is recorded if it is one, and its voter has none. -/
theorem record_eq {voter : ObserverId} {vote : Vote} (hvote : vote ≠ .absent)
    (hnot_voted : b.hasVoted voter = false) :
    b.record voter vote = .ok { b with votes := b.votes ++ [⟨voter, vote⟩] } := by
  rw [record, if_neg hvote, if_neg (by simp [hnot_voted])]

theorem hasVoted_of_notMem_voters {voter : ObserverId} (h : voter ∉ b.voters) :
    b.hasVoted voter = false := by
  have hnone : b.votes.find? (·.voter = voter) = none := by
    refine List.find?_eq_none.2 fun v hv hvoter => h ?_
    exact List.mem_map.2 ⟨v, hv, of_decide_eq_true hvoter⟩
  rw [hasVoted, voteOf, hnone]
  rfl

end Ballot

/-! ### Casting a vote -/

/-- Ballots are kept under their own index. -/
def BallotsFiled (ballots : Digest → Option Ballot) : Prop :=
  ∀ index b, ballots index = some b → b.index = index

/-- Every ballot that is decided afterwards was there before as it is, but for the one that was
decided in between, if there is one. -/
def BallotsFollow (decided : Option Digest) (before after : Digest → Option Ballot) : Prop :=
  ∀ index b, after index = some b → b.isFinalized = true →
    decided = some index ∨ before index = some b

theorem BallotsFollow.refl (decided : Option Digest) (ballots : Digest → Option Ballot) :
    BallotsFollow decided ballots ballots :=
  fun _ _ hb _ => .inr hb

namespace Registry

/-- The entry on the ballot if the vote is counted. -/
def VoteRequest.entry (request : VoteRequest) : CastVote :=
  ⟨request.voter, request.vote⟩

/-- The voter of a request may vote on a ballot: as an observer who has not voted on it. -/
structure VoteRequest.MayVote (request : VoteRequest) (l : Ledger) (b : Ballot) : Prop where
  isObserver : l.observers.contains request.voter = true
  not_voted : b.hasVoted request.voter = false

/-- The quorum for a request: that of the current observers on the chain which the request
names. -/
def VoteRequest.HasQuorum (request : VoteRequest) (l : Ledger) (quorum : Nat) : Prop :=
  ∃ params, l (.chainParams request.chainId) = some params ∧
    quorum = l.observers.quorum params.thresholdPercent

/-- What an accepted vote on the ballots of a ledger has come to, and which ballots there are
after it. -/
inductive Voted (policy : StalePolicy) (l : Ledger) (request : VoteRequest) (height : UInt64) :
    VoteOutcome → (Digest → Option Ballot) → Prop
  /-- The ballot was decided before. -/
  | late {b : Ballot} (hstored : l.ballots request.ballot = some b)
      (hfinalized : b.isFinalized = true) (hmay : request.MayVote l b) :
      Voted policy l request height ⟨false, false, b⟩ l.ballots
  /-- The vote is recorded on the ballot, after the others. -/
  | counted {before recorded after : Ballot} {quorum outstanding : Nat} {finalized : Bool}
      (hbefore : before = (l.ballots request.ballot).getD
        (.fresh request.ballot request.chainId request.observation height))
      (hpending : before.isFinalized = false)
      (hrecorded : recorded = { before with
        votes := before.votes ++ [⟨request.voter, request.vote⟩] })
      (hevaluate : recorded.evaluate quorum outstanding policy height = (finalized, after))
      (hmay : request.MayVote l before) (hvote : request.vote ≠ .absent)
      (hquorum : request.HasQuorum l quorum)
      (houtstanding : outstanding = l.observers.size - recorded.countOf l.observers) :
      Voted policy l request height
        ⟨finalized, (l.ballots request.ballot).isNone, after⟩
        (Function.update l.ballots request.ballot (some after))

namespace Voted

variable {policy : StalePolicy} {l : Ledger} {request : VoteRequest} {height : UInt64}
  {outcome : VoteOutcome} {ballots : Digest → Option Ballot}

/-- The ballot after a vote has the index that was voted on. -/
theorem index_eq_of_evaluate {before recorded after : Ballot} {quorum outstanding : Nat}
    {finalized : Bool} {stored : Option Ballot}
    (hfiled : ∀ b, stored = some b → b.index = request.ballot)
    (hbefore : before
      = stored.getD (.fresh request.ballot request.chainId request.observation height))
    (hrecorded : recorded = { before with
      votes := before.votes ++ [⟨request.voter, request.vote⟩] })
    (hevaluate : recorded.evaluate quorum outstanding policy height = (finalized, after)) :
    after.index = request.ballot := by
  have hindex : before.index = request.ballot := by
    rw [hbefore]
    cases stored with
    | none => rfl
    | some b => exact hfiled b rfl
  have hafter := congrArg (·.2.index) hevaluate
  simp only [Ballot.index_evaluate, hrecorded] at hafter
  rw [← hafter, hindex]

/-- The voter is an observer. -/
theorem isObserver (h : Voted policy l request height outcome ballots) :
    l.observers.contains request.voter = true := by
  cases h with
  | late _ _ hmay => exact hmay.isObserver
  | counted _ _ _ _ hmay => exact hmay.isObserver

/-- The voter has not voted on the ballot before. -/
theorem not_voted (h : Voted policy l request height outcome ballots) {b : Ballot}
    (hb : l.ballots request.ballot = some b) : b.hasVoted request.voter = false := by
  cases h with
  | late hstored _ hmay =>
    cases hstored.symm.trans hb
    exact hmay.not_voted
  | counted hbefore _ _ _ hmay =>
    rw [hb, Option.getD_some] at hbefore
    exact hbefore ▸ hmay.not_voted

/-- **A vote that decides a ballot finds it pending or not there**, and leaves it decided. -/
theorem decides (h : Voted policy l request height outcome ballots)
    (hfinalized : outcome.finalized = true) :
    (∀ b, l.ballots request.ballot = some b → b.status = .pending) ∧
      ballots request.ballot = some outcome.ballot ∧ outcome.ballot.isFinalized = true := by
  cases h with
  | late => cases hfinalized
  | counted hbefore hpending hrecorded hevaluate =>
    obtain rfl : _ = true := hfinalized
    refine ⟨fun b hb => ?_, Function.update_self .., ?_⟩
    · rw [hb, Option.getD_some] at hbefore
      subst hbefore
      exact bne_eq_false_iff_eq.1 hpending
    · have hrecorded' := Ballot.isFinalized_of_recorded hpending hrecorded
      obtain ⟨-, hdecided, -⟩ := Ballot.decided_of_evaluate hrecorded' hevaluate
      exact hdecided.symm

/-- A ballot is new if there was none before. -/
theorem isNew_eq (h : Voted policy l request height outcome ballots) :
    outcome.isNew = (l.ballots request.ballot).isNone := by
  cases h with
  | late hstored =>
    rw [hstored]
    rfl
  | counted => rfl

/-- The ballot that is answered is the one that is stored. -/
theorem stored_eq (h : Voted policy l request height outcome ballots) :
    ballots request.ballot = some outcome.ballot := by
  cases h with
  | late hstored => exact hstored
  | counted => exact Function.update_self ..

theorem filed (h : Voted policy l request height outcome ballots)
    (hfiled : BallotsFiled l.ballots) : BallotsFiled ballots := by
  cases h with
  | late => exact hfiled
  | counted hbefore hpending hrecorded hevaluate =>
    intro index b hb
    rw [Function.update_apply] at hb
    split at hb
    · next h =>
      cases hb
      rw [h]
      exact index_eq_of_evaluate (hfiled _) hbefore hrecorded hevaluate
    · exact hfiled index b hb

/-- **A vote decides no other ballot than its own**, and that one only if it says so. -/
theorem follow (h : Voted policy l request height outcome ballots) :
    BallotsFollow (if outcome.finalized then some request.ballot else none) l.ballots ballots := by
  cases h with
  | late => exact .refl _ _
  | @counted _ _ _ _ _ finalized _ hpending hrecorded hevaluate =>
    intro index b hb hb'
    rw [Function.update_apply] at hb
    split at hb
    · next h =>
      cases hb
      have hrecorded' := Ballot.isFinalized_of_recorded hpending hrecorded
      obtain ⟨-, hfinalized, -⟩ := Ballot.decided_of_evaluate hrecorded' hevaluate
      have hdecided : finalized = true := hfinalized.trans hb'
      exact .inl (by rw [h, if_pos hdecided])
    · exact .inr hb

end Voted

theorem eq_of_record {b recorded : Ballot} {voter : ObserverId} {vote : Vote}
    (h : b.record voter vote = .ok recorded) :
    vote ≠ .absent ∧ recorded = { b with votes := b.votes ++ [⟨voter, vote⟩] } := by
  rw [Ballot.record] at h
  split at h
  · cases h
  · next hvote =>
    split at h
    · cases h
    · cases h
      exact ⟨hvote, rfl⟩

/-! ### The links of a vote -/

section Links

variable {σ : Type} [WritableStore σ] {s s' : σ} {policy : StalePolicy} {request : VoteRequest}
  {height : UInt64} {outcome : VoteOutcome} {observers : ObserverSet} {params : ChainParams}
  {before after : Ballot} {finalized : Bool}

/-- The ballot with the vote of a request, after the others. -/
def VoteRequest.enter (request : VoteRequest) (b : Ballot) : Ballot :=
  { b with votes := b.votes ++ [request.entry] }

/-- The vote of a request is entered on a pending ballot, and the votes are evaluated. -/
structure VoteRequest.Counts (request : VoteRequest) (policy : StalePolicy) (height : UInt64)
    (observers : ObserverSet) (params : ChainParams) (before : Ballot) (finalized : Bool)
    (after : Ballot) : Prop where
  pending : before.isFinalized = false
  vote_ne : request.vote ≠ .absent
  evaluate_eq : (request.enter before).evaluate (observers.quorum params.thresholdPercent)
    (observers.size - (request.enter before).countOf observers) policy height = (finalized, after)

/-- A vote leaves the index of its ballot, -/
theorem VoteRequest.Counts.index_eq
    (h : request.Counts policy height observers params before finalized after) :
    after.index = before.index := by
  have hafter := congrArg (·.2.index) h.evaluate_eq
  simp only [Ballot.index_evaluate] at hafter
  exact hafter.symm

/-- and the height at which it was created. -/
theorem VoteRequest.Counts.creationHeight_eq
    (h : request.Counts policy height observers params before finalized after) :
    after.creationHeight = before.creationHeight := by
  have hafter := congrArg (·.2.creationHeight) h.evaluate_eq
  simp only [Ballot.creationHeight_evaluate] at hafter
  exact hafter.symm

/-- How a vote ends that is accepted. -/
inductive CastEnds (policy : StalePolicy) (s : σ) (request : VoteRequest) (height : UInt64)
    (observers : ObserverSet) (params : ChainParams) : Option Ballot → VoteOutcome → σ → Prop
  /-- The ballot was decided before. -/
  | late {b : Ballot} (hdecided : b.isFinalized = true)
      (hnot_voted : b.hasVoted request.voter = false) :
      CastEnds policy s request height observers params (some b) ⟨false, false, b⟩ s
  /-- The vote is the first one on its ballot, which is entered under its height. -/
  | opened {after : Ballot} {finalized : Bool} {s₁ s' : σ}
      (hcounts : request.Counts policy height observers params
        (.fresh request.ballot request.chainId request.observation height) finalized after)
      (hentry : addHeightEntry s height after.index = .ok s₁)
      (hset : setBallot s₁ after = .ok s') :
      CastEnds policy s request height observers params none ⟨finalized, true, after⟩ s'
  /-- The vote is entered on a ballot that is there. -/
  | counted {b after : Ballot} {finalized : Bool} {s' : σ}
      (hcounts : request.Counts policy height observers params b finalized after)
      (hnot_voted : b.hasVoted request.voter = false) (hset : setBallot s after = .ok s') :
      CastEnds policy s request height observers params (some b) ⟨finalized, false, after⟩ s'

/-- The links of a vote: what is read of the settings, and the ballot. -/
structure CastLinks (policy : StalePolicy) (s : σ) (request : VoteRequest) (height : UInt64)
    (observers : ObserverSet) (chain : Chain) (params : ChainParams) (stored : Option Ballot)
    (outcome : VoteOutcome) (s' : σ) : Prop where
  observers_eq : observerSet s = .ok observers
  isObserver : observers.contains request.voter = true
  chain_eq : supportedChain s request.chainId = .ok (chain, params)
  stored_eq : ballot? s request.ballot = .ok stored
  ends : CastEnds policy s request height observers params stored outcome s'

/-- **A vote that is accepted is late, opens its ballot, or is entered on it.** -/
theorem links_of_castVote (h : castVote policy s request height = .ok (outcome, s')) :
    ∃ observers chain params stored,
      CastLinks policy s request height observers chain params stored outcome s' := by
  obtain ⟨observers, hobservers, h⟩ := bind_eq_ok_iff.1 h
  obtain ⟨hmember, h⟩ := unless_eq_ok_iff.1 h
  obtain ⟨⟨chain, params⟩, hchain, h⟩ := bind_eq_ok_iff.1 h
  obtain ⟨stored, hstored, h⟩ := bind_eq_ok_iff.1 h
  obtain ⟨hnot_voted, h⟩ := guard_eq_ok_iff.1 h
  rw [Bool.not_eq_true] at hnot_voted
  refine ⟨observers, chain, params, stored, hobservers, hmember, hchain, hstored, ?_⟩
  generalize hbefore : stored.getD _ = before at hnot_voted h
  rcases ite_eq_ok_iff.1 h with ⟨hdecided, hlate⟩ | ⟨hpending, hcounted⟩
  · cases hlate
    cases stored with
    -- A fresh ballot is not decided.
    | none =>
      rw [← hbefore] at hdecided
      cases hdecided
    | some b =>
      obtain rfl : b = before := hbefore
      exact .late hdecided hnot_voted
  obtain ⟨recorded, hrecord, hstore⟩ := bind_eq_ok_iff.1 hcounted
  obtain ⟨hvote, hrecorded⟩ := eq_of_record (mapError_eq_ok_iff.1 hrecord)
  cases hevaluate : recorded.evaluate (observers.quorum params.thresholdPercent)
    (observers.size - recorded.countOf observers) policy height with
  | mk finalized after =>
  simp only [hevaluate] at hstore
  obtain rfl : recorded = request.enter before := hrecorded
  have hcounts : request.Counts policy height observers params before finalized after :=
    ⟨Bool.not_eq_true _ ▸ hpending, hvote, hevaluate⟩
  cases stored with
  | none =>
    obtain rfl : _ = before := hbefore
    obtain ⟨s₁, hentry, hset⟩ := bind_eq_ok_iff.1 hstore
    obtain ⟨s₂, hset, hreturn⟩ := bind_eq_ok_iff.1 hset
    cases hreturn
    exact .opened hcounts hentry hset
  | some b =>
    obtain rfl : b = before := hbefore
    obtain ⟨s₁, hsame, hset⟩ := bind_eq_ok_iff.1 hstore
    obtain rfl := pure_eq_ok_iff.1 hsame
    obtain ⟨s₂, hset, hreturn⟩ := bind_eq_ok_iff.1 hset
    cases hreturn
    exact .counted hcounts hnot_voted hset

/-- **A vote is on the ballot that it names**, if this is filed under its own index. -/
theorem index_of_castVote
    (hfiled : ∀ b, ballot? s request.ballot = .ok (some b) → b.index = request.ballot)
    (hvote : castVote policy s request height = .ok (outcome, s')) :
    outcome.ballot.index = request.ballot := by
  obtain ⟨observers, chain, params, stored, hlinks⟩ := links_of_castVote hvote
  have hstored := hlinks.stored_eq
  cases hlinks.ends with
  | late => exact hfiled _ hstored
  | opened hcounts => exact hcounts.index_eq
  | counted hcounts => exact hcounts.index_eq.trans (hfiled _ hstored)

end Links

section CastVote

variable {σ : Type} [WritableStore σ] [LawfulStore σ] {s s' : σ} {l : Ledger}
  {policy : StalePolicy} {request : VoteRequest} {height : UInt64} {outcome : VoteOutcome}
  {ballots : Digest → Option Ballot}

theorem eq_of_observerSet (h : Records s l) (hl : l.Legible) {observers : ObserverSet}
    (hobservers : observerSet s = .ok observers) : observers = l.observers := by
  obtain ⟨stored, hstored, hobservers⟩ := bind_eq_ok_iff.1 hobservers
  obtain rfl := getRecord_of_records h .observerSet (hl.fits .observerSet)
    (storeError_lift_eq_ok_iff.1 hstored)
  exact (pure_eq_ok_iff.1 hobservers).symm

theorem eq_of_ballot? (h : Records s l) (hl : l.Legible) {index : Digest} {stored : Option Ballot}
    (hstored : ballot? s index = .ok stored) : stored = l.ballots index :=
  getRecord_of_records h (.ballot index) (hl.fits (.ballot index))
    (storeError_lift_eq_ok_iff.1 hstored)

/-- The parameters of a chain that is served are stored. -/
theorem eq_of_supportedChain (h : Records s l) (hl : l.Legible) {id : ChainId} {chain : Chain}
    {params : ChainParams} (hchain : supportedChain s id = .ok (chain, params)) :
    l (.chainParams id) = some params := by
  obtain ⟨found, -, hchain⟩ := bind_eq_ok_iff.1 hchain
  split at hchain
  swap
  · simp at hchain
  obtain ⟨stored, hstored, hchain⟩ := bind_eq_ok_iff.1 hchain
  have heq : stored = l (.chainParams id) :=
    getRecord_of_records h (.chainParams id) (hl.fits (.chainParams id))
      (storeError_lift_eq_ok_iff.1 hstored)
  split at hchain
  swap
  · simp at hchain
  rcases ite_eq_ok_iff.1 hchain with ⟨-, hchain⟩ | ⟨-, hchain⟩
  · cases hchain
    exact heq.symm
  · simp at hchain

theorem keeps_addHeightEntry {index : Digest} (h : addHeightEntry s height index = .ok s') :
    Keeps Key.IsBooked s s' :=
  keeps_booked_put (.ballotByHeight height index) id (storeError_lift_eq_ok_iff.1 h)

theorem books_setBallot {a : Accounts} (h : Books s a ballots) {b : Ballot}
    (hset : setBallot s b = .ok s') : Books s' a (Function.update ballots b.index (some b)) := by
  obtain ⟨l, hl, rfl, rfl⟩ := h
  refine ⟨_, hl.put (.ballot b.index) (storeError_lift_eq_ok_iff.1 hset), ?_, ?_⟩
  · refine Ledger.accounts_congr fun k hk => l.set_of_ne _ fun heq => ?_
    rw [← Key.isAccount_folded, heq] at hk
    exact hk
  · funext index
    refine Eq.trans ?_ (Function.update_apply _ _ _ _).symm
    split
    · next h => subst h; exact l.set_self _ _
    · next h => exact l.set_of_ne _ fun heq => h (Key.ballot.inj heq)

/-- A vote that is counted on the ballot of a ledger, or on a fresh one, ends as the rule says. -/
theorem VoteRequest.Counts.voted {params : ChainParams} {before after : Ballot} {finalized : Bool}
    (hcounts : request.Counts policy height l.observers params before finalized after)
    (hbefore : before = (l.ballots request.ballot).getD
      (.fresh request.ballot request.chainId request.observation height))
    (hmay : request.MayVote l before) (hparams : l (.chainParams request.chainId) = some params)
    (hindex : after.index = request.ballot) :
    Voted policy l request height ⟨finalized, (l.ballots request.ballot).isNone, after⟩
      (Function.update l.ballots after.index (some after)) := by
  rw [hindex]
  exact .counted hbefore hcounts.pending rfl hcounts.evaluate_eq hmay hcounts.vote_ne
    ⟨params, hparams, rfl⟩ rfl

/-- **An accepted vote changes the ballot at most**, as the rule says. -/
theorem voted_of_castVote (h : Records s l) (hl : l.Legible) (hfiled : BallotsFiled l.ballots)
    (hvote : castVote policy s request height = .ok (outcome, s')) :
    ∃ ballots, Voted policy l request height outcome ballots ∧ Books s' l.accounts ballots := by
  obtain ⟨observers, chain, params, stored, hlinks⟩ := links_of_castVote hvote
  obtain rfl := eq_of_observerSet h hl hlinks.observers_eq
  have hparams := eq_of_supportedChain h hl hlinks.chain_eq
  have hstored := eq_of_ballot? h hl hlinks.stored_eq
  cases hlinks.ends with
  | late hdecided hnot_voted =>
    exact ⟨l.ballots, .late hstored.symm hdecided ⟨hlinks.isObserver, hnot_voted⟩, h.books⟩
  | opened hcounts hentry hset =>
    have hvoted := hcounts.voted (by rw [← hstored]; rfl) ⟨hlinks.isObserver, rfl⟩ hparams
      hcounts.index_eq
    rw [← hstored] at hvoted
    exact ⟨_, hvoted, books_setBallot ((keeps_addHeightEntry hentry).books h.books) hset⟩
  | @counted b _ _ _ hcounts hnot_voted hset =>
    have hvoted := hcounts.voted (by rw [← hstored]; rfl) ⟨hlinks.isObserver, hnot_voted⟩ hparams
      (hcounts.index_eq.trans (hfiled _ b hstored.symm))
    rw [← hstored] at hvoted
    exact ⟨_, hvoted, books_setBallot h.books hset⟩

end CastVote

end Registry

end Settlement
