import Settlement.Proofs.Queries

/-!
# The life of a ballot

A ballot is created by the first vote that is accepted on it. From then on it is what the accepted
votes have made of it: the votes up to the deciding one are counted, each with an entry at the end
of the list, and those that come later change nothing (`Settlement.BallotHistory`). One call adds
one vote to the history at most, and a run is told call by call (`Settlement.Run.told`).

The history starts anew when a ballot is pruned. A turn that leaves a stored ballot in the store
spares it (`Settlement.Service.Spares`); every stored ballot has been spared in all turns since it
was last not there (`Settlement.Run.exists_since`).

Main statement: `Settlement.Run.ballot_lifecycle`.
-/

namespace Settlement

variable {γ : Type}

/-! ### The votes on a ballot -/

namespace Service

variable [Gateway γ] (service : Service)

/-- The vote that is accepted in a turn, if there is one. -/
def accepted? (t : Turn γ) : Option AcceptedVote :=
  acceptedVote? t.world.observers t.call (service.execute t.world t.call).answer

/-- The votes that are accepted on a ballot in some turns. -/
def votesOn (index : Digest) (turns : List (Turn γ)) : List AcceptedVote :=
  (turns.filterMap service.accepted?).filter (·.request.ballot = index)

/-- If a turn finds a ballot in the store, then it leaves one there. -/
def Spares (index : Digest) (t : Turn γ) : Prop :=
  (t.world.ballots index).isSome → ((service.execute t.world t.call).world.ballots index).isSome

instance (index : Digest) (t : Turn γ) : Decidable (service.Spares index t) :=
  inferInstanceAs (Decidable (_ → _))

theorem votesOn_append (index : Digest) (turns turns' : List (Turn γ)) :
    service.votesOn index (turns ++ turns')
      = service.votesOn index turns ++ service.votesOn index turns' := by
  rw [votesOn, List.filterMap_append, List.filter_append]
  rfl

theorem votesOn_concat (index : Digest) (turns : List (Turn γ)) (t : Turn γ) :
    service.votesOn index (turns ++ [t]) = service.votesOn index turns
      ++ ((service.accepted? t).filter (·.request.ballot = index)).toList := by
  rw [votesOn_append]
  refine congrArg (service.votesOn index turns ++ ·) ?_
  cases haccepted : service.accepted? t with
  | none => simp [votesOn, haccepted]
  | some v =>
    by_cases hv : v.request.ballot = index
    · simp [votesOn, haccepted, hv, Option.filter]
    · simp [votesOn, haccepted, hv, Option.filter]

end Service

/-! ### Histories -/

/-- The entry of a vote that is counted. -/
def AcceptedVote.entry (v : AcceptedVote) : CastVote :=
  v.request.entry

/-- The entries of a ballot are those of some votes. -/
structure EntriesOf (votes : List CastVote) (counted : List AcceptedVote) : Prop where
  eq_map : votes = counted.map AcceptedVote.entry
  nodup : (votes.map CastVote.voter).Nodup
  yes_or_no : ∀ v ∈ votes, v.vote = .yes ∨ v.vote = .no

/-- The first of some votes has created a ballot, and none of the others. -/
def Ballot.OpenedBy (b : Ballot) (votes : List AcceptedVote) : Prop :=
  ∃ first rest, votes = first :: rest ∧ first.isNew = true ∧ (∀ v ∈ rest, v.isNew = false) ∧
    b.chainId = first.request.chainId ∧ b.observation = first.request.observation ∧
    b.creationHeight = first.height

/-- How far a ballot has come with the votes that were counted and those that came late. -/
inductive Ballot.EndedBy (b : Ballot) (counted late : List AcceptedVote) : Prop
  /-- No vote has decided the ballot. -/
  | pending (hstatus : b.status = .pending) (hheight : b.finalizedHeight = none)
      (hlate : late = []) (hcounted : ∀ v ∈ counted, v.finalized = false)
  /-- The last vote that was counted has decided the ballot, and it alone. -/
  | decided {before : List AcceptedVote} {last : AcceptedVote} (hstatus : b.status ≠ .pending)
      (hcounted : counted = before ++ [last]) (hlast : last.finalized = true)
      (hheight : b.finalizedHeight = some last.height)
      (hothers : ∀ v ∈ before ++ late, v.finalized = false)

/-- The history of a ballot: the votes that were counted, and those that came late. -/
structure BallotHistory (index : Digest) (counted late : List AcceptedVote) (b : Ballot) :
    Prop where
  index_eq : b.index = index
  entries : EntriesOf b.votes counted
  isObserver : ∀ v ∈ counted ++ late, v.observers.contains v.request.voter = true
  opened : b.OpenedBy (counted ++ late)
  ended : b.EndedBy counted late

theorem EntriesOf.ne_absent {votes : List CastVote} {counted : List AcceptedVote}
    (h : EntriesOf votes counted) : ∀ v ∈ votes, v.vote ≠ .absent := by
  intro v hv habsent
  rcases h.yes_or_no v hv with hyes | hno
  · rw [hyes] at habsent
    cases habsent
  · rw [hno] at habsent
    cases habsent

/-- A vote is entered behind the others, if its voter is not among them. -/
theorem EntriesOf.concat {b : Ballot} {counted : List AcceptedVote} {v : AcceptedVote}
    (h : EntriesOf b.votes counted) (hvote : v.request.vote ≠ .absent)
    (hnot_voted : b.hasVoted v.request.voter = false) :
    EntriesOf (b.votes ++ [v.entry]) (counted ++ [v]) := by
  have hfresh : v.request.voter ∉ b.voters := b.notMem_voters h.ne_absent hnot_voted
  refine ⟨by rw [h.eq_map, List.map_append]; rfl, ?_, ?_⟩
  · rw [List.map_append]
    refine h.nodup.append (List.nodup_singleton _) ?_
    exact List.disjoint_singleton.2 hfresh
  · refine List.forall_mem_append.2 ⟨h.yes_or_no, List.forall_mem_singleton.2 ?_⟩
    have hentry : v.entry.vote = v.request.vote := rfl
    rw [hentry]
    cases hcast : v.request.vote with
    | yes => exact .inl rfl
    | no => exact .inr rfl
    | absent => exact absurd hcast hvote

theorem Ballot.OpenedBy.concat {b b' : Ballot} {votes : List AcceptedVote} {v : AcceptedVote}
    (h : b.OpenedBy votes) (hnew : v.isNew = false) (hchain : b'.chainId = b.chainId)
    (hobservation : b'.observation = b.observation)
    (hheight : b'.creationHeight = b.creationHeight) : b'.OpenedBy (votes ++ [v]) := by
  obtain ⟨first, rest, rfl, hfirst, hrest, hchain', hobservation', hheight'⟩ := h
  have hrest' : ∀ u ∈ rest ++ [v], u.isNew = false :=
    List.forall_mem_append.2 ⟨hrest, List.forall_mem_singleton.2 hnew⟩
  exact ⟨first, rest ++ [v], rfl, hfirst, hrest', hchain.trans hchain',
    hobservation.trans hobservation', hheight.trans hheight'⟩

/-- **The rule decides a ballot with the vote that is entered last**, or leaves it pending. -/
theorem Ballot.EndedBy.concat {b recorded after : Ballot} {counted : List AcceptedVote}
    {v : AcceptedVote} {quorum outstanding : Nat} {policy : StalePolicy}
    (h : b.EndedBy counted []) (hpending : b.isFinalized = false)
    (hrecorded : recorded = { b with votes := b.votes ++ [v.entry] })
    (hevaluate : recorded.evaluate quorum outstanding policy v.height = (v.finalized, after)) :
    after.EndedBy (counted ++ [v]) [] := by
  have hrecorded' := Ballot.isFinalized_of_recorded hpending hrecorded
  cases h with
  | decided hstatus => exact absurd (bne_eq_false_iff_eq.1 hpending) hstatus
  | pending hstatus hheight _ hcounted =>
    obtain ⟨hfinalized, -, hafter⟩ | ⟨hfinalized, status, hverdict, hafter⟩ :=
      Ballot.eq_of_evaluate hrecorded' hevaluate
    · have hcounted' : ∀ u ∈ counted ++ [v], u.finalized = false :=
        List.forall_mem_append.2 ⟨hcounted, List.forall_mem_singleton.2 hfinalized⟩
      rw [hafter, hrecorded]
      exact .pending hstatus hheight rfl hcounted'
    · have hdecided : status.isFinalized = true := Ballot.isFinalized_of_verdict? hverdict
      rw [hafter, hrecorded]
      refine .decided (fun hstatus => ?_) rfl hfinalized rfl (by rwa [List.append_nil])
      rw [show status = .pending from hstatus] at hdecided
      cases hdecided

/-! ### The ballot after one more vote -/

/-- Between two moments of its life a ballot only gets more votes, and nothing is changed once it is
decided. -/
structure Ballot.GrowsTo (b b' : Ballot) : Prop where
  index_eq : b'.index = b.index
  chainId_eq : b'.chainId = b.chainId
  observation_eq : b'.observation = b.observation
  creationHeight_eq : b'.creationHeight = b.creationHeight
  votes_prefix : b.votes <+: b'.votes
  eq_of_decided : b.status ≠ .pending → b' = b

theorem Ballot.GrowsTo.refl (b : Ballot) : b.GrowsTo b :=
  ⟨rfl, rfl, rfl, rfl, List.prefix_refl _, fun _ => rfl⟩

theorem Ballot.GrowsTo.trans {b b' b'' : Ballot} (h : b.GrowsTo b') (h' : b'.GrowsTo b'') :
    b.GrowsTo b'' := by
  refine ⟨h'.index_eq.trans h.index_eq, h'.chainId_eq.trans h.chainId_eq,
    h'.observation_eq.trans h.observation_eq, h'.creationHeight_eq.trans h.creationHeight_eq,
    h.votes_prefix.trans h'.votes_prefix, fun hstatus => ?_⟩
  obtain rfl : b' = b := h.eq_of_decided hstatus
  exact h'.eq_of_decided hstatus

/-- A vote that is recorded on a pending ballot adds its entry, and no more than that if it decides
nothing. -/
theorem Ballot.GrowsTo.of_evaluate {b recorded after : Ballot} {entry : CastVote}
    {quorum outstanding : Nat} {policy : StalePolicy} {height : UInt64} {finalized : Bool}
    (hpending : b.isFinalized = false)
    (hrecorded : recorded = { b with votes := b.votes ++ [entry] })
    (hevaluate : recorded.evaluate quorum outstanding policy height = (finalized, after)) :
    b.GrowsTo after ∧ after.votes = b.votes ++ [entry] := by
  have hrecorded' := Ballot.isFinalized_of_recorded hpending hrecorded
  have hstatus (hne : b.status ≠ .pending) : after = b :=
    absurd (bne_eq_false_iff_eq.1 hpending) hne
  have hafter : ∃ status finalizedHeight,
      after = { recorded with status := status, finalizedHeight := finalizedHeight } := by
    obtain ⟨-, -, rfl⟩ | ⟨-, status, -, rfl⟩ := Ballot.eq_of_evaluate hrecorded' hevaluate
    · exact ⟨_, _, rfl⟩
    · exact ⟨_, _, rfl⟩
  obtain ⟨status, finalizedHeight, hafter⟩ := hafter
  rw [hrecorded] at hafter
  subst hafter
  exact ⟨⟨rfl, rfl, rfl, rfl, List.prefix_append _ _, hstatus⟩, rfl⟩

namespace BallotHistory

variable {index : Digest} {counted late : List AcceptedVote} {b : Ballot} {v : AcceptedVote}

/-- As long as the ballot is pending, no vote is late. -/
theorem late_eq_nil (h : BallotHistory index counted late b) (hpending : b.isFinalized = false) :
    late = [] := by
  cases h.ended with
  | pending _ _ hlate => exact hlate
  | decided hstatus => exact absurd (bne_eq_false_iff_eq.1 hpending) hstatus

/-- **A late vote leaves the ballot as it is.** -/
theorem concat_late (h : BallotHistory index counted late b) (hdecided : b.isFinalized = true)
    (hobserver : v.observers.contains v.request.voter = true) (hnew : v.isNew = false)
    (hfinalized : v.finalized = false) : BallotHistory index counted (late ++ [v]) b := by
  refine ⟨h.index_eq, h.entries, ?_, ?_, ?_⟩
  · rw [← List.append_assoc]
    exact List.forall_mem_append.2 ⟨h.isObserver, List.forall_mem_singleton.2 hobserver⟩
  · rw [← List.append_assoc]
    exact h.opened.concat hnew rfl rfl rfl
  · cases h.ended with
    | pending hstatus =>
      rw [Ballot.isFinalized, hstatus] at hdecided
      cases hdecided
    | decided hstatus hcounted hlast hheight hothers =>
      refine .decided hstatus hcounted hlast hheight ?_
      rw [← List.append_assoc]
      exact List.forall_mem_append.2 ⟨hothers, List.forall_mem_singleton.2 hfinalized⟩

/-- **A counted vote is entered behind the others**, and may decide the ballot. -/
theorem concat_counted {recorded after : Ballot} {quorum outstanding : Nat} {policy : StalePolicy}
    (h : BallotHistory index counted [] b) (hpending : b.isFinalized = false)
    (hobserver : v.observers.contains v.request.voter = true) (hnew : v.isNew = false)
    (hvote : v.request.vote ≠ .absent) (hnot_voted : b.hasVoted v.request.voter = false)
    (hrecorded : recorded = { b with votes := b.votes ++ [v.entry] })
    (hevaluate : recorded.evaluate quorum outstanding policy v.height = (v.finalized, after)) :
    BallotHistory index (counted ++ [v]) [] after := by
  obtain ⟨hgrows, hvotes⟩ := Ballot.GrowsTo.of_evaluate hpending hrecorded hevaluate
  have hobservers := h.isObserver
  have hopened := h.opened
  rw [List.append_nil] at hobservers hopened
  refine ⟨hgrows.index_eq.trans h.index_eq, ?_, ?_, ?_,
    h.ended.concat hpending hrecorded hevaluate⟩
  · rw [hvotes]
    exact h.entries.concat hvote hnot_voted
  · rw [List.append_nil]
    exact List.forall_mem_append.2 ⟨hobservers, List.forall_mem_singleton.2 hobserver⟩
  · rw [List.append_nil]
    exact hopened.concat hnew hgrows.chainId_eq hgrows.observation_eq hgrows.creationHeight_eq

/-- **The first vote creates the ballot**, and may decide it at once. -/
theorem first {recorded after : Ballot} {quorum outstanding : Nat} {policy : StalePolicy}
    (hb : b = .fresh index v.request.chainId v.request.observation v.height)
    (hobserver : v.observers.contains v.request.voter = true) (hnew : v.isNew = true)
    (hvote : v.request.vote ≠ .absent)
    (hrecorded : recorded = { b with votes := b.votes ++ [v.entry] })
    (hevaluate : recorded.evaluate quorum outstanding policy v.height = (v.finalized, after)) :
    BallotHistory index [v] [] after := by
  have hpending : b.isFinalized = false := by
    rw [hb]
    rfl
  have hentries : EntriesOf b.votes [] := by
    rw [hb]
    exact ⟨rfl, List.nodup_nil, by rintro _ ⟨⟩⟩
  have hended : b.EndedBy [] [] := by
    rw [hb]
    exact .pending rfl rfl rfl (by rintro _ ⟨⟩)
  have hnot_voted : b.hasVoted v.request.voter = false := by
    rw [hb]
    rfl
  obtain ⟨hgrows, hvotes⟩ := Ballot.GrowsTo.of_evaluate hpending hrecorded hevaluate
  refine ⟨hgrows.index_eq.trans (by rw [hb]; rfl), ?_, ?_, ?_,
    hended.concat hpending hrecorded hevaluate⟩
  · rw [hvotes]
    exact hentries.concat hvote hnot_voted
  · exact List.forall_mem_singleton.2 hobserver
  · refine ⟨v, [], rfl, hnew, by rintro _ ⟨⟩, hgrows.chainId_eq.trans (by rw [hb]; rfl),
      hgrows.observation_eq.trans (by rw [hb]; rfl),
      hgrows.creationHeight_eq.trans (by rw [hb]; rfl)⟩

end BallotHistory

/-- What the votes that were accepted on a ballot have made of it: nothing without a vote, and
otherwise a ballot with a history. -/
inductive BallotTold (index : Digest) : List AcceptedVote → Option Ballot → Prop
  | absent : BallotTold index [] none
  | stored {counted late : List AcceptedVote} {b : Ballot}
      (h : BallotHistory index counted late b) : BallotTold index (counted ++ late) (some b)

/-! ### One call -/

section Step

variable {policy : StalePolicy} {l : Ledger} {ballots : Digest → Option Ballot} {index : Digest}
  {b : Ballot}

theorem Registry.Voted.eq_of_ne {request : VoteRequest} {height : UInt64} {outcome : VoteOutcome}
    (h : Voted policy l request height outcome ballots) (hne : request.ballot ≠ index) :
    ballots index = l.ballots index := by
  cases h with
  | late => rfl
  | counted => exact Function.update_of_ne hne.symm _ _

/-- A vote lets every stored ballot grow. -/
theorem Registry.Voted.growsTo {request : VoteRequest} {height : UInt64} {outcome : VoteOutcome}
    (h : Voted policy l request height outcome ballots) (hb : l.ballots index = some b) :
    ∃ b', ballots index = some b' ∧ b.GrowsTo b' := by
  by_cases hindex : request.ballot = index
  swap
  · exact ⟨b, (h.eq_of_ne hindex).trans hb, .refl b⟩
  subst hindex
  cases h with
  | late => exact ⟨b, hb, .refl b⟩
  | counted hbefore hpending hrecorded hevaluate =>
    rw [hb, Option.getD_some] at hbefore
    subst hbefore
    exact ⟨_, Function.update_self .., (Ballot.GrowsTo.of_evaluate hpending hrecorded hevaluate).1⟩

/-- **A call lets every stored ballot grow, or prunes it.** -/
theorem Polled.growsTo {c : Call} {answer : Except CallError Answer}
    (h : Polled policy l c answer ballots) (hb : l.ballots index = some b) :
    (∃ b', ballots index = some b' ∧ b.GrowsTo b') ∨
      (∃ height, c = .pruneBallots height) ∧ ballots index = none := by
  cases h with
  | kept => exact .inl ⟨b, hb, .refl b⟩
  | voted _ _ _ hvoted => exact .inl (hvoted.growsTo hb)
  | @pruned height _ hcall hfewer =>
    cases hafter : ballots index with
    | none => exact .inr ⟨⟨height, hcall⟩, rfl⟩
    | some b' =>
      obtain rfl : b = b' := Option.some.inj (hb.symm.trans (hfewer index b' hafter))
      exact .inl ⟨b, rfl, .refl b⟩

/-- **An accepted vote is told by one step of the history.** -/
theorem BallotTold.concat {votes : List AcceptedVote} {v : AcceptedVote}
    {outcome : Registry.VoteOutcome} (h : BallotTold index votes (l.ballots index))
    (hindex : v.request.ballot = index) (hobservers : v.observers = l.observers)
    (hnew : v.isNew = outcome.isNew) (hfinalized : v.finalized = outcome.finalized)
    (hvoted : Registry.Voted policy l v.request v.height outcome ballots) :
    BallotTold index (votes ++ [v]) (ballots index) := by
  subst hindex
  cases hvoted with
  | late hstored hdecided hmay =>
    rw [hstored] at h ⊢
    cases h with
    | stored h =>
      rw [List.append_assoc]
      exact .stored (h.concat_late hdecided (hobservers ▸ hmay.isObserver) hnew hfinalized)
  | @counted before recorded after _ _ finalized hbefore hpending hrecorded hevaluate hmay hvote =>
    have hobserver : v.observers.contains v.request.voter = true := hobservers ▸ hmay.isObserver
    obtain rfl : v.finalized = finalized := hfinalized
    rw [Function.update_self]
    generalize hstored : l.ballots v.request.ballot = stored at h hbefore hnew
    cases h with
    | absent =>
      have hhistory : BallotHistory v.request.ballot [v] [] after :=
        .first hbefore hobserver hnew hvote hrecorded hevaluate
      rw [List.nil_append, ← List.append_nil [v]]
      exact .stored hhistory
    | @stored counted late b h =>
      obtain rfl : before = b := hbefore
      obtain rfl : late = [] := h.late_eq_nil hpending
      have hhistory : BallotHistory v.request.ballot (counted ++ [v]) [] after :=
        h.concat_counted hpending hobserver hnew hvote hmay.not_voted hrecorded hevaluate
      rw [List.append_nil, ← List.append_nil (counted ++ [v])]
      exact .stored hhistory

end Step

section Runs

variable [Gateway γ] {service : Service} {w w' w₀ : World γ} {turns turns' : List (Turn γ)}
  {index : Digest} {b : Ballot}

/-- **A call that spares a ballot adds at most its own vote to the history.** -/
theorem World.Sound.told (h : w.Sound) {c : Call} {votes : List AcceptedVote}
    (hstore : (service.execute w c).world.store.Addressable)
    (htold : BallotTold index votes (w.ballots index)) (hspared : service.Spares index ⟨w, c⟩) :
    BallotTold index
      (votes ++ ((service.accepted? ⟨w, c⟩).filter (·.request.ballot = index)).toList)
      ((service.execute w c).world.ballots index) := by
  have hpolled := h.polled hstore
  have hstays : (w.ballots index).isSome →
      ((service.execute w c).world.ballots index).isSome := hspared
  rw [Service.accepted?]
  generalize (service.execute w c).world.ballots = ballots at hpolled hstays ⊢
  cases hpolled with
  | kept hnone =>
    have hrefused : acceptedVote? w.observers c _ = none := hnone
    rw [hrefused, Option.filter_none, Option.toList_none, List.append_nil]
    exact htold
  | @voted v outcome _ haccepted hnew hfinalized hvoted =>
    have hobservers : v.observers = w.observers := observers_of_acceptedVote? haccepted
    have haccepted' : acceptedVote? w.observers c _ = some v := haccepted
    rw [haccepted']
    by_cases hindex : v.request.ballot = index
    · rw [Option.filter_some, if_pos (decide_eq_true hindex), Option.toList_some]
      exact htold.concat hindex hobservers hnew hfinalized hvoted
    · rw [Option.filter_some, if_neg (by simpa using hindex), Option.toList_none, List.append_nil,
        hvoted.eq_of_ne hindex]
      exact htold
  | @pruned height _ hcall hfewer =>
    subst hcall
    change BallotTold index (votes ++ []) _
    rw [List.append_nil]
    -- What is still there after pruning is as it was.
    cases hafter : ballots index with
    | some b =>
      have hbefore : w.ballots index = some b := hfewer index b hafter
      rwa [hbefore] at htold
    | none =>
      rw [hafter] at hstays
      have hbefore : w.ballots index = none :=
        Option.not_isSome_iff_eq_none.1 fun hsome => absurd (hstays hsome) (by simp)
      rwa [hbefore] at htold

/-- Only pruning does not spare a ballot. -/
theorem World.Sound.spares (h : w.Sound) {c : Call}
    (hstore : (service.execute w c).world.store.Addressable)
    (hc : ∀ height, c ≠ .pruneBallots height) : service.Spares index ⟨w, c⟩ := by
  intro hsome
  obtain ⟨b, hb⟩ := Option.isSome_iff_exists.1 hsome
  obtain ⟨b', hb', -⟩ | ⟨⟨height, hcall⟩, -⟩ := (h.polled hstore).growsTo hb
  · exact Option.isSome_iff_exists.2 ⟨b', hb'⟩
  · exact absurd hcall (hc height)

/-- **In a run that spares a ballot which was not there, the accepted votes tell what has become of
it.** -/
theorem Run.told (hrun : Run service w₀ turns w) (h₀ : w₀.Sound)
    (habsent : w₀.ballots index = none) (hspared : ∀ t ∈ turns, service.Spares index t) :
    BallotTold index (service.votesOn index turns) (w.ballots index) := by
  induction hrun with
  | start =>
    rw [habsent]
    exact .absent
  | @call turns w hrun c hstore ih =>
    have hbefore := ih fun t ht => hspared t (List.mem_append_left _ ht)
    rw [Service.votesOn_concat]
    exact (hrun.sound h₀).told hstore hbefore
      (hspared _ (List.mem_append_right _ (List.mem_singleton_self _)))
  | outside _ hentries ih =>
    rw [World.ballots, World.ledger_eq_of_entries_eq hentries]
    exact ih hspared

/-- **In a run that spares a stored ballot, the ballot grows.** -/
theorem Run.growsTo (hrun : Run service w turns w') (h : w.Sound)
    (hb : w.ballots index = some b) (hspared : ∀ t ∈ turns, service.Spares index t) :
    ∃ b', w'.ballots index = some b' ∧ b.GrowsTo b' := by
  induction hrun with
  | start => exact ⟨b, hb, .refl b⟩
  | @call turns w' hrun c hstore ih =>
    obtain ⟨b', hb', hgrows⟩ := ih fun t ht => hspared t (List.mem_append_left _ ht)
    obtain ⟨b'', hb'', hgrows'⟩ | ⟨-, hnone⟩ := ((hrun.sound h).polled hstore).growsTo hb'
    · exact ⟨b'', hb'', hgrows.trans hgrows'⟩
    · have hsome : ((service.execute w' c).world.ballots index).isSome :=
        hspared ⟨w', c⟩ (List.mem_append_right _ (List.mem_singleton_self _))
          (Option.isSome_iff_exists.2 ⟨b', hb'⟩)
      rw [hnone] at hsome
      cases hsome
  | outside _ hentries ih =>
    rw [World.ballots, World.ledger_eq_of_entries_eq hentries]
    exact ih hspared

/-- **Every ballot has been spared since it was last not there.** -/
theorem Run.exists_since (hrun : Run service w₀ turns w) (hempty : w₀.store.entries = .empty)
    (index : Digest) : ∃ earlier since w₁, turns = earlier ++ since ∧
      Run service w₀ earlier w₁ ∧ Run service w₁ since w ∧ w₁.ballots index = none ∧
      ∀ t ∈ since, service.Spares index t := by
  induction hrun with
  | start =>
    refine ⟨[], [], w₀, rfl, .start, .start, ?_, by rintro _ ⟨⟩⟩
    rw [World.ballots, World.ledger_eq_empty hempty]
    rfl
  | @call turns w hrun c hstore ih =>
    by_cases hspared : service.Spares index ⟨w, c⟩
    · obtain ⟨earlier, since, w₁, rfl, hearlier, hsince, habsent, hall⟩ := ih
      exact ⟨earlier, since ++ [⟨w, c⟩], w₁, List.append_assoc .., hearlier,
        hsince.call c hstore, habsent,
        List.forall_mem_append.2 ⟨hall, List.forall_mem_singleton.2 hspared⟩⟩
    · -- The ballot is pruned here, and is told anew from now on.
      refine ⟨_, [], _, (List.append_nil _).symm, hrun.call c hstore, .start, ?_, by rintro _ ⟨⟩⟩
      rw [Service.Spares, Classical.not_imp] at hspared
      exact Option.not_isSome_iff_eq_none.1 hspared.2
  | outside hrun hentries ih =>
    obtain ⟨earlier, since, w₁, hturns, hearlier, hsince, habsent, hall⟩ := ih
    exact ⟨earlier, since, w₁, hturns, hearlier, hsince.outside hentries, habsent, hall⟩

/-- **The life of a ballot.** In a run from a reachable world without the ballot, as long as the
ballot is not pruned: without an accepted vote on it there is none, and otherwise the ballot is as
its history tells. The history has every vote that was accepted on it: those that were counted are
its entries, by different observers of the moment, in their order, and none of them is lost; the
first of them has created the ballot, and if the ballot is decided, then the last of them has
decided it, at the height of the ballot. From then on the ballot stays as it is, and before that it
only gets more entries. Nothing but pruning removes it. -/
theorem Run.ballot_lifecycle (hreachable : Reachable service w₀) (hrun : Run service w₀ turns w)
    (habsent : Registry.ballot? w₀.store.restored index = .ok none)
    (hspared : ∀ t ∈ turns, service.Spares index t) :
    (Registry.ballot? w.store.restored index = .ok none ∧ service.votesOn index turns = [] ∨
      ∃ b counted late, Registry.ballot? w.store.restored index = .ok (some b) ∧
        service.votesOn index turns = counted ++ late ∧ BallotHistory index counted late b ∧
        ∀ turns' w', Run service w turns' w' → (∀ t ∈ turns', service.Spares index t) →
          ∃ b', Registry.ballot? w'.store.restored index = .ok (some b') ∧ b.GrowsTo b') ∧
    ∀ c, (service.execute w c).world.store.Addressable → (∀ height, c ≠ .pruneBallots height) →
      service.Spares index ⟨w, c⟩ := by
  have h₀ := hreachable.sound
  have hsound := hrun.sound h₀
  rw [h₀.ballot?_eq, Except.ok.injEq] at habsent
  refine ⟨?_, fun c hstore hc => hsound.spares hstore hc⟩
  have htold := hrun.told h₀ habsent hspared
  rw [hsound.ballot?_eq]
  generalize hvotes : service.votesOn index turns = votes at htold ⊢
  generalize hstored : w.ballots index = stored at htold ⊢
  cases htold with
  | absent => exact .inl ⟨rfl, rfl⟩
  | @stored counted late b hhistory =>
    refine .inr ⟨b, counted, late, rfl, rfl, hhistory, fun turns' w' hrun' hspared' => ?_⟩
    obtain ⟨b', hb', hgrows⟩ := hrun'.growsTo hsound hstored hspared'
    exact ⟨b', by rw [(hrun'.sound hsound).ballot?_eq, hb'], hgrows⟩

end Runs

/-! ### A ballot with a late vote -/

namespace Sample

/-- A ballot that is voted on without messages. -/
def poll : Digest :=
  ⟨List.replicate 32 0, rfl⟩

/-- A vote on the ballot that names a chain. -/
def pollVote (chainId : ChainId) (voter : String) (vote : Vote) (height : UInt64) : Call :=
  .castVote ⟨poll, .inbound, chainId, ⟨voter⟩, vote⟩ ⟨height, height⟩

/-- Three observers vote, the third of them decides the ballot, and the successor of the second
comes too late. -/
def pollCalls : List Call := [
  .setObserverSet [⟨"a"⟩, ⟨"b"⟩, ⟨"c"⟩],
  .registerChain ⟨chainId, "external", .evm⟩ (.ofThreshold chainId 50),
  pollVote chainId "a" .yes 1,
  pollVote chainId "b" .no 2,
  pollVote chainId "c" .yes 3,
  .replaceObserver ⟨"b"⟩ ⟨"d"⟩,
  pollVote chainId "d" .no 4]

/-- The three votes are the entries of the ballot, and the fourth is late. -/
theorem history_of_poll : ∃ b counted late,
    Registry.ballot? (service.after start pollCalls).store.restored poll = .ok (some b) ∧
    BallotHistory poll counted late b ∧ b.status = .success ∧ b.finalizedHeight = some 3 ∧
    counted.map (·.request.voter) = [⟨"a"⟩, ⟨"b"⟩, ⟨"c"⟩] ∧
    late.map (·.request.voter) = [⟨"d"⟩] := by
  have hevaluated :
      (∀ t ∈ service.turnsOf start pollCalls,
        (service.execute t.world t.call).world.store.Addressable) ∧
      (∀ t ∈ service.turnsOf start pollCalls, service.Spares poll t) ∧
      ((service.after start pollCalls).ballots poll).map
        (fun b => (b.status, b.finalizedHeight, b.voters))
        = some (.success, some 3, [⟨"a"⟩, ⟨"b"⟩, ⟨"c"⟩]) ∧
      (service.votesOn poll (service.turnsOf start pollCalls)).map (·.request.voter)
        = [⟨"a"⟩, ⟨"b"⟩, ⟨"c"⟩] ++ [⟨"d"⟩] := by
    decide +kernel
  obtain ⟨hstores, hspared, hfound, hvotes⟩ := hevaluated
  have hrun := Run.start.calls pollCalls hstores
  have hsound := hrun.sound (World.sound_of_entries_eq_empty rfl)
  have hreachable : Reachable service start := ⟨start, [], rfl, .start⟩
  obtain ⟨b, hb, hviews⟩ := Option.map_eq_some_iff.1 hfound
  obtain ⟨hstatus, hheight, hvoters⟩ : b.status = .success ∧ b.finalizedHeight = some 3 ∧
      b.voters = [⟨"a"⟩, ⟨"b"⟩, ⟨"c"⟩] := by simpa using hviews
  have hstored : Registry.ballot? (service.after start pollCalls).store.restored poll
      = .ok (some b) := by rw [hsound.ballot?_eq, hb]
  have habsent : Registry.ballot? start.store.restored poll = .ok none := rfl
  obtain ⟨hlife, -⟩ := Run.ballot_lifecycle hreachable hrun habsent hspared
  obtain ⟨hnone, -⟩ | ⟨b', counted, late, hb', hsplit, hhistory, -⟩ := hlife
  · cases hnone.symm.trans hstored
  cases hb'.symm.trans hstored
  have hcounted : counted.map (·.request.voter) = [⟨"a"⟩, ⟨"b"⟩, ⟨"c"⟩] := by
    rw [← hvoters, Ballot.voters, hhistory.entries.eq_map, List.map_map]
    rfl
  refine ⟨b, counted, late, hstored, hhistory, hstatus, hheight, hcounted, ?_⟩
  rw [List.nil_append] at hsplit
  rw [hsplit, List.map_append, hcounted] at hvotes
  exact List.append_cancel_left hvotes

end Sample

end Settlement
