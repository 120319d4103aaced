import Settlement.Proofs.BallotHistory
import Settlement.Proofs.Completion

/-!
# The order of votes

When a ballot is decided, it stays as it is, so that what comes of some votes could depend on the
order in which they are cast. It does not, unless both sides have a quorum: what the rule decides
for some of the votes it decides for all of them (`Settlement.Registry.verdictOf_append`), and for
all of them it depends on numbers only. With a threshold above one half only one side can have a
quorum.

On a store that works every vote is taken, by what it finds under a few keys
(`Settlement.Registry.exists_castVote`), so that all of this can be said of a whole sequence of
votes.

Main statement: `Settlement.Registry.castVotes_perm`.
-/

namespace Settlement

namespace Registry

/-! ### The rule for a list of votes -/

/-- How many of some votes are for a side. -/
def countFor (vote : Vote) (requests : List VoteRequest) : Nat :=
  requests.countP (·.vote = vote)

/-- The state that some votes decide among all observers, if they do. -/
def verdictOf (policy : StalePolicy) (quorum total : Nat) (requests : List VoteRequest) :
    Option BallotStatus :=
  let outstanding := total - requests.length
  if quorum ≤ countFor .yes requests then some .success
  else if quorum ≤ countFor .no requests then some .failure
  else if policy = .closeAsFailure ∧ countFor .yes requests + outstanding < quorum ∧
      countFor .no requests + outstanding < quorum then some .failure
  else none

/-- The state of a ballot with some votes on it. -/
def statusOf (policy : StalePolicy) (quorum total : Nat) (requests : List VoteRequest) :
    BallotStatus :=
  (verdictOf policy quorum total requests).getD .pending

/-- What some votes come to: the state of their ballot, and nothing without a vote. -/
def finalOf (policy : StalePolicy) (quorum total : Nat) (requests : List VoteRequest) :
    Option BallotStatus :=
  if requests = [] then none else some (statusOf policy quorum total requests)

section Rule

variable {policy : StalePolicy} {quorum total : Nat} {requests cast rest : List VoteRequest}

theorem countFor_append (vote : Vote) (cast rest : List VoteRequest) :
    countFor vote (cast ++ rest) = countFor vote cast + countFor vote rest :=
  List.countP_append

theorem countFor_le_length (vote : Vote) (requests : List VoteRequest) :
    countFor vote requests ≤ requests.length :=
  List.countP_le_length

/-- No vote is for both sides. -/
theorem countFor_add_le (requests : List VoteRequest) :
    countFor .yes requests + countFor .no requests ≤ requests.length := by
  induction requests with
  | nil => exact Nat.le_refl 0
  | cons r rest ih =>
    have hcons (vote : Vote) : countFor vote (r :: rest)
        = countFor vote rest + if r.vote = vote then 1 else 0 := by
      rw [countFor, List.countP_cons]
      simp only [decide_eq_true_eq]
      rfl
    rw [hcons, hcons, List.length_cons]
    cases r.vote with
    | yes => simp; omega
    | no => simp; omega
    | absent => simp; omega

theorem countFor_perm {requests' : List VoteRequest} (h : requests.Perm requests') (vote : Vote) :
    countFor vote requests = countFor vote requests' :=
  h.countP_eq _

/-- The rule goes by numbers only. -/
theorem finalOf_perm {requests' : List VoteRequest} (h : requests.Perm requests') :
    finalOf policy quorum total requests = finalOf policy quorum total requests' := by
  have hverdict : verdictOf policy quorum total requests
      = verdictOf policy quorum total requests' := by
    rw [verdictOf, verdictOf, countFor_perm h, countFor_perm h, h.length_eq]
  have hnil : requests = [] ↔ requests' = [] := by
    rw [← List.length_eq_zero_iff, h.length_eq, List.length_eq_zero_iff]
  simp only [finalOf, statusOf, hverdict, hnil]

/-- **What is decided by some votes is decided by more of them as well**, as long as only one side
has a quorum in the end. -/
theorem verdictOf_append {status : BallotStatus} (htotal : (cast ++ rest).length ≤ total)
    (hsides : ¬(quorum ≤ countFor .yes (cast ++ rest) ∧ quorum ≤ countFor .no (cast ++ rest)))
    (h : verdictOf policy quorum total cast = some status) :
    verdictOf policy quorum total (cast ++ rest) = some status := by
  have hyes := countFor_append .yes cast rest
  have hno := countFor_append .no cast rest
  have hyes' := countFor_le_length .yes rest
  have hno' := countFor_le_length .no rest
  have hlength : (cast ++ rest).length = cast.length + rest.length := List.length_append
  rw [verdictOf] at h
  split at h
  · cases h
    rw [verdictOf, if_pos (by omega)]
  · split at h
    · cases h
      rw [verdictOf, if_neg (by omega), if_pos (by omega)]
    · split at h
      · next hstale =>
        -- What is still to come cannot bring a side to the quorum, and so it has not.
        obtain ⟨hpolicy, hstale⟩ := hstale
        cases h
        rw [verdictOf, if_neg (by omega), if_neg (by omega), if_pos ⟨hpolicy, by omega⟩]
      · cases h

theorem finalOf_eq_none_iff : finalOf policy quorum total requests = none ↔ requests = [] := by
  simp [finalOf]

/-- A ballot has succeeded with a quorum of votes in favour. -/
theorem finalOf_eq_success_iff (hquorum : 0 < quorum) :
    finalOf policy quorum total requests = some .success ↔ quorum ≤ countFor .yes requests := by
  by_cases hnil : requests = []
  · subst hnil
    exact iff_of_false (by simp [finalOf]) (Nat.not_le.2 hquorum)
  · rw [finalOf, if_neg hnil, Option.some.injEq, statusOf, verdictOf]
    split
    · next hyes => exact iff_of_true rfl hyes
    · next hyes =>
      refine iff_of_false (fun hsuccess => ?_) hyes
      split at hsuccess
      · cases hsuccess
      · split at hsuccess
        · cases hsuccess
        · cases hsuccess

/-- A ballot has failed with a quorum of votes against it, or if it is stale and closed. -/
theorem finalOf_eq_failure_iff (hne : requests ≠ []) :
    finalOf policy quorum total requests = some .failure ↔
      ¬quorum ≤ countFor .yes requests ∧ (quorum ≤ countFor .no requests ∨
        policy = .closeAsFailure ∧
          countFor .yes requests + (total - requests.length) < quorum ∧
          countFor .no requests + (total - requests.length) < quorum) := by
  rw [finalOf, if_neg hne, Option.some.injEq, statusOf, verdictOf]
  split
  · next hyes => simp [hyes]
  · next hyes =>
    split
    · next hno => simp [hyes, hno]
    · next hno =>
      split
      · next hstale => simp [hyes, hstale]
      · next hstale => simp [hyes, hno, hstale]

end Rule

/-! ### Votes of different observers -/

/-- Votes on one ballot by different observers, each of them for a side. -/
structure DistinctVotes (observers : ObserverSet) (index : Digest) (requests : List VoteRequest) :
    Prop where
  ballot_eq : ∀ r ∈ requests, r.ballot = index
  yes_or_no : ∀ r ∈ requests, r.vote = .yes ∨ r.vote = .no
  isObserver : ∀ r ∈ requests, observers.contains r.voter = true
  nodup : (requests.map VoteRequest.voter).Nodup

namespace DistinctVotes

variable {observers : ObserverSet} {index : Digest} {requests cast rest : List VoteRequest}

theorem perm {requests' : List VoteRequest} (h : DistinctVotes observers index requests)
    (hperm : requests'.Perm requests) : DistinctVotes observers index requests' := by
  refine ⟨fun r hr => h.ballot_eq r (hperm.mem_iff.1 hr),
    fun r hr => h.yes_or_no r (hperm.mem_iff.1 hr),
    fun r hr => h.isObserver r (hperm.mem_iff.1 hr), ?_⟩
  exact (hperm.map _).nodup_iff.2 h.nodup

theorem of_append (h : DistinctVotes observers index (cast ++ rest)) :
    DistinctVotes observers index cast := by
  refine ⟨fun r hr => h.ballot_eq r (List.mem_append_left _ hr),
    fun r hr => h.yes_or_no r (List.mem_append_left _ hr),
    fun r hr => h.isObserver r (List.mem_append_left _ hr), ?_⟩
  have hnodup := h.nodup
  rw [List.map_append] at hnodup
  exact hnodup.of_append_left

/-- The last of the voters has not voted before. -/
theorem notMem_of_concat {r : VoteRequest} (h : DistinctVotes observers index (cast ++ [r])) :
    r.voter ∉ cast.map VoteRequest.voter := by
  have hnodup := h.nodup
  rw [List.map_append, List.nodup_append] at hnodup
  exact fun hmem => hnodup.2.2 _ hmem _ (List.mem_singleton_self _) rfl

theorem ne_absent (h : DistinctVotes observers index requests) {r : VoteRequest}
    (hr : r ∈ requests) : r.vote ≠ .absent := by
  rcases h.yes_or_no r hr with hyes | hno
  · simp [hyes]
  · simp [hno]

/-- There are no more votes than observers. -/
theorem length_le (h : DistinctVotes observers index requests) :
    requests.length ≤ observers.size := by
  have hsubset : requests.map VoteRequest.voter ⊆ observers.members := by
    intro voter hvoter
    obtain ⟨r, hr, rfl⟩ := List.mem_map.1 hvoter
    exact List.contains_iff_mem.1 (h.isObserver r hr)
  have hle := h.nodup.length_le_of_subset hsubset
  rwa [List.length_map] at hle

/-- **Above one half, only one side can have a quorum.** -/
theorem not_both (h : DistinctVotes observers index requests) {percent : UInt8}
    (hpercent : 50 < percent) :
    ¬(observers.quorum percent ≤ countFor .yes requests ∧
      observers.quorum percent ≤ countFor .no requests) := by
  rintro ⟨hyes, hno⟩
  have hsum := countFor_add_le requests
  have hle := h.length_le
  have hhalf : 51 ≤ percent.toNat := UInt8.lt_iff_toNat_lt.1 hpercent
  have hshare : observers.size * 51 ≤ observers.size * percent.toNat :=
    Nat.mul_le_mul_left _ hhalf
  rw [ObserverSet.quorum] at hyes hno
  omega

end DistinctVotes

end Registry

/-! ### A store that works -/

namespace Backend.Works

variable {α : Type} [Layout α] {b b' : Backend} {key : Bytes}

theorem get_eq (hb : b.Works) (key : Bytes) : ReadableStore.get b key = .ok (contents b key) := by
  have hcheck : b.checkReadable key = .ok () := by rw [checkReadable, hb.readable]
  change (b.checkReadable key).map (fun _ => b.entries.find? key) = _
  rw [hcheck]
  rfl

/-- Where two stores hold the same, the same is read. -/
theorem getRecord_congr (hb : b.Works) (hb' : b'.Works) (h : contents b' key = contents b key) :
    (getRecord b' key : Except StoreError (Option α)) = getRecord b key := by
  rw [getRecord, getRecord, hb.get_eq, hb'.get_eq, h]

theorem getRecord_eq [LawfulLayout α] (hb : b.Works) {a : α} (ha : Fits a)
    (h : contents b key = some (Record.encode a)) : getRecord b key = .ok (some a) := by
  rw [getRecord, hb.get_eq, h]
  simp only [Record.decode_encode ha]

theorem exists_putRecord (hb : b.Works) (key : Bytes) (a : α) :
    ∃ b', putRecord b key a = .ok b' ∧ b'.Works ∧
      contents b' = Function.update (contents b) key (some (Record.encode a)) := by
  have hwrite : WritableStore.write b [.put key (Record.encode a)]
      = .ok { b with entries := applyAll b.entries [.put key (Record.encode a)] } :=
    if_neg (by simp [hb.accepts])
  exact ⟨_, mapError_eq_ok_iff.2 hwrite, ⟨hb.accepts, hb.readable⟩,
    LawfulStore.contents_of_write hwrite⟩

end Backend.Works

/-- The keys under which a vote finds who may vote, and on which chains. -/
def Key.IsSetting : Key → Prop
  | .observerSet | .chain _ | .chainParams _ => True
  | _ => False

theorem Key.isSetting_folded (k : Key) : k.folded.IsSetting ↔ k.IsSetting := by
  cases k <;> rfl

namespace Registry

/-- The second store has the settings of the first. -/
def SameSettings (b b' : Backend) : Prop :=
  ∀ k : Key, k.IsSetting → contents b' k.bytes = contents b k.bytes

section Settings

variable {b b' b'' : Backend}

theorem SameSettings.trans (h : SameSettings b b') (h' : SameSettings b' b'') :
    SameSettings b b'' :=
  fun k hk => (h' k hk).trans (h k hk)

/-- What is put under another key leaves the settings as they are. -/
theorem SameSettings.of_update {k : Key} (hk : ¬k.IsSetting) {value : Option Bytes}
    (h : contents b' = Function.update (contents b) k.bytes value) : SameSettings b b' := by
  intro j hj
  have hne : j.bytes ≠ k.bytes := by
    intro heq
    rw [← Key.isSetting_folded, Key.bytes_eq_iff.1 heq, Key.isSetting_folded] at hj
    exact hk hj
  rw [h, Function.update_of_ne hne]

variable (hb : b.Works) (hb' : b'.Works) (h : SameSettings b b')

include hb hb' h

theorem observerSet_congr : observerSet b' = observerSet b := by
  rw [observerSet, observerSet, hb.getRecord_congr hb' (h .observerSet trivial)]

theorem supportedChain_congr (id : ChainId) : supportedChain b' id = supportedChain b id := by
  have hchain : chain? b' id = chain? b id := by
    rw [chain?, chain?, hb.getRecord_congr hb' (h (.chain id) trivial)]
  have hparams : chainParams? b' id = chainParams? b id := by
    rw [chainParams?, chainParams?, hb.getRecord_congr hb' (h (.chainParams id) trivial)]
  rw [supportedChain, supportedChain, hchain, hparams]

end Settings

/-! ### One vote -/

section CastVote

variable {policy : StalePolicy} {b : Backend} {observers : ObserverSet} {request : VoteRequest}
  {height : UInt64} {chain : Chain} {params : ChainParams} {stored : Option Ballot}

/-- A vote on a decided ballot is taken and writes nothing. -/
theorem castVote_late {before : Ballot} (hobservers : observerSet b = .ok observers)
    (hmember : observers.contains request.voter = true)
    (hchain : supportedChain b request.chainId = .ok (chain, params))
    (hstored : ballot? b request.ballot = .ok (some before))
    (hnot_voted : before.hasVoted request.voter = false) (hdecided : before.isFinalized = true) :
    castVote policy b request height = .ok (⟨false, false, before⟩, b) := by
  refine bind_eq_ok_iff.2 ⟨observers, hobservers, unless_eq_ok_iff.2 ⟨hmember, ?_⟩⟩
  refine bind_eq_ok_iff.2 ⟨(chain, params), hchain, bind_eq_ok_iff.2 ⟨some before, hstored, ?_⟩⟩
  refine guard_eq_ok_iff.2 ⟨by simp [hnot_voted], ?_⟩
  exact ite_eq_ok_iff.2 (.inl ⟨hdecided, rfl⟩)

/-- **A vote on a pending ballot is taken**, and the ballot is stored as the rule leaves it. -/
theorem exists_castVote {before recorded after : Ballot} {finalized : Bool} (hb : b.Works)
    (hobservers : observerSet b = .ok observers)
    (hmember : observers.contains request.voter = true)
    (hchain : supportedChain b request.chainId = .ok (chain, params))
    (hstored : ballot? b request.ballot = .ok stored)
    (hbefore : stored.getD (.fresh request.ballot request.chainId request.observation height)
      = before)
    (hnot_voted : before.hasVoted request.voter = false) (hpending : before.isFinalized = false)
    (hvote : request.vote ≠ .absent)
    (hrecorded : recorded = { before with votes := before.votes ++ [request.entry] })
    (hevaluate : recorded.evaluate (observers.quorum params.thresholdPercent)
      (observers.size - recorded.countOf observers) policy height = (finalized, after)) :
    ∃ b', castVote policy b request height = .ok (⟨finalized, stored.isNone, after⟩, b') ∧
      b'.Works ∧ SameSettings b b' ∧
      contents b' (Key.ballot after.index).bytes = some (Record.encode after) := by
  have hrecord : before.record request.voter request.vote = .ok recorded :=
    hrecorded ▸ Ballot.record_eq hvote hnot_voted
  -- A new ballot is entered under its height first.
  obtain ⟨b₁, hentered, hb₁, hsettings₁⟩ : ∃ b₁,
      (stored.isNone = true ∧ addHeightEntry b height after.index = .ok b₁ ∨
        ¬stored.isNone = true ∧ (pure b : Except RegistryError Backend) = .ok b₁) ∧
      b₁.Works ∧ SameSettings b b₁ := by
    cases stored with
    | some _ => exact ⟨b, .inr ⟨Bool.false_ne_true, rfl⟩, hb, fun _ _ => rfl⟩
    | none =>
      obtain ⟨b₁, hput, hb₁, hcontents⟩ :=
        hb.exists_putRecord (Key.ballotByHeight height after.index).bytes after.index
      exact ⟨b₁, .inl ⟨rfl, storeError_lift_eq_ok_iff.2 hput⟩, hb₁, .of_update id hcontents⟩
  obtain ⟨b₂, hput, hb₂, hcontents⟩ := hb₁.exists_putRecord (Key.ballot after.index).bytes after
  have hset : setBallot b₁ after = .ok b₂ := storeError_lift_eq_ok_iff.2 hput
  refine ⟨b₂, ?_, hb₂, hsettings₁.trans (.of_update id hcontents), ?_⟩
  swap
  · rw [hcontents, Function.update_self]
  refine bind_eq_ok_iff.2 ⟨observers, hobservers, unless_eq_ok_iff.2 ⟨hmember, ?_⟩⟩
  refine bind_eq_ok_iff.2 ⟨(chain, params), hchain, bind_eq_ok_iff.2 ⟨stored, hstored, ?_⟩⟩
  simp only [hbefore]
  refine guard_eq_ok_iff.2 ⟨by simp [hnot_voted], ite_eq_ok_iff.2 (.inr ⟨by simp [hpending], ?_⟩)⟩
  refine bind_eq_ok_iff.2 ⟨recorded, mapError_eq_ok_iff.2 hrecord, ?_⟩
  simp only [hevaluate]
  have hreturn : (setBallot b₁ after >>= fun s =>
      pure ((⟨finalized, stored.isNone, after⟩ : VoteOutcome), s))
      = .ok (⟨finalized, stored.isNone, after⟩, b₂) := bind_eq_ok_iff.2 ⟨b₂, hset, rfl⟩
  refine ite_eq_ok_iff.2 ?_
  rcases hentered with ⟨hnew, hentered⟩ | ⟨hold, hentered⟩
  · exact .inl ⟨hnew, bind_eq_ok_iff.2 ⟨b₁, hentered, hreturn⟩⟩
  · exact .inr ⟨hold, bind_eq_ok_iff.2 ⟨b₁, hentered, hreturn⟩⟩

end CastVote

/-! ### What some votes have made of a ballot -/

/-- A chain is served, with a threshold. -/
def ServedAt (b : Backend) (percent : UInt8) (id : ChainId) : Prop :=
  ∃ chain params, supportedChain b id = .ok (chain, params) ∧ params.thresholdPercent = percent

/-- A store that works, with the observers, with the chains of some requests, and with what it
holds under the index of a ballot. -/
structure Polling (observers : ObserverSet) (percent : UInt8) (index : Digest)
    (requests : List VoteRequest) (b : Backend) (stored : Option Ballot) : Prop where
  works : b.Works
  observerSet_eq : observerSet b = .ok observers
  served : ∀ r ∈ requests, ServedAt b percent r.chainId
  ballot?_eq : ballot? b index = .ok stored

/-- What some votes have made of a ballot: it is in the state that they decide, and as long as they
decide nothing, all of them are on it. -/
inductive Standing (policy : StalePolicy) (observers : ObserverSet) (percent : UInt8)
    (index : Digest) : List VoteRequest → Option Ballot → Prop
  | absent : Standing policy observers percent index [] none
  | stored {cast : List VoteRequest} {b : Ballot} (hcast : cast ≠ []) (hindex : b.index = index)
      (hvoters : b.voters ⊆ cast.map VoteRequest.voter)
      (hpending : b.isFinalized = false → b.votes = cast.map VoteRequest.entry)
      (hstatus : b.status
        = statusOf policy (observers.quorum percent) observers.size cast) :
      Standing policy observers percent index cast (some b)

theorem Standing.map_status_eq {policy : StalePolicy} {observers : ObserverSet} {percent : UInt8}
    {index : Digest} {cast : List VoteRequest} {stored : Option Ballot}
    (h : Standing policy observers percent index cast stored) :
    stored.map Ballot.status
      = finalOf policy (observers.quorum percent) observers.size cast := by
  cases h with
  | absent => rfl
  | stored hcast _ _ _ hstatus => rw [finalOf, if_neg hcast, Option.map_some, hstatus]

/-- One if there is a decided ballot, and zero otherwise. -/
def decidedCount (stored : Option Ballot) : Nat :=
  if stored.any Ballot.isFinalized then 1 else 0

theorem decidedCount_eq {stored : Option Ballot} : decidedCount stored =
    if stored.map Ballot.status = some .success ∨ stored.map Ballot.status = some .failure then 1
    else 0 := by
  cases stored with
  | none => rfl
  | some ballot =>
    rw [decidedCount, Option.any_some, Ballot.isFinalized, Option.map_some]
    cases ballot.status <;> rfl

section Poll

variable {policy : StalePolicy} {observers : ObserverSet} {percent : UInt8} {index : Digest}
  {requests cast : List VoteRequest} {b : Backend} {stored : Option Ballot}

/-- If all votes are on a ballot, then the rule for the ballot is the rule for the votes. -/
theorem verdict?_eq_verdictOf {ballot : Ballot} {quorum : Nat}
    (hvotes : ballot.votes = cast.map VoteRequest.entry)
    (hmembers : ∀ r ∈ cast, observers.contains r.voter = true) :
    ballot.verdict? quorum (observers.size - ballot.countOf observers) policy
      = verdictOf policy quorum observers.size cast := by
  have hcount (vote : Vote) : ballot.count vote = countFor vote cast := by
    rw [Ballot.count, hvotes, List.countP_map]
    rfl
  have hcountOf : ballot.countOf observers = cast.length := by
    rw [Ballot.countOf, hvotes, List.countP_map]
    exact List.countP_eq_length.2 hmembers
  rw [Ballot.verdict?, verdictOf, hcount, hcount, hcountOf]

/-- A ballot with votes of different observers has lengths that are words, as the set has. -/
theorem fits_of_votes {ballot : Ballot} (hfits : Fits observers)
    (hvotes : DistinctVotes observers index cast)
    (hentries : ballot.votes = cast.map VoteRequest.entry) : Fits ballot := by
  have hmembers : Fits observers.members := hfits
  have hvotes' : Fits ballot.votes := by
    refine ⟨?_, fun v hv => ?_⟩
    · rw [hentries, List.length_map]
      exact Nat.lt_of_le_of_lt hvotes.length_le hmembers.1
    · rw [hentries] at hv
      obtain ⟨r, hr, rfl⟩ := List.mem_map.1 hv
      have hvoter : r.voter ∈ observers.members :=
        List.contains_iff_mem.1 (hvotes.isObserver r hr)
      exact ⟨hmembers.2 _ hvoter, trivial⟩
  exact ⟨trivial, trivial, trivial, hvotes', trivial, trivial, fun _ _ => trivial⟩

/-- A store that has got another ballot under the index, and has kept its settings. -/
theorem Polling.stores {b' : Backend} {ballot : Ballot}
    (h : Polling observers percent index requests b stored) (hb' : b'.Works)
    (hsettings : SameSettings b b') (hfits : Fits ballot)
    (hcontents : contents b' (Key.ballot index).bytes = some (Record.encode ballot)) :
    Polling observers percent index requests b' (some ballot) := by
  refine ⟨hb', ?_, fun r hr => ?_, ?_⟩
  · rw [observerSet_congr h.works hb' hsettings]
    exact h.observerSet_eq
  · rw [ServedAt, supportedChain_congr h.works hb' hsettings]
    exact h.served r hr
  · exact storeError_lift_eq_ok_iff.2 (hb'.getRecord_eq hfits hcontents)

/-- **A vote on a decided ballot is taken, and leaves the ballot as all votes decide it.** -/
theorem Polling.late {ballot : Ballot} {r : VoteRequest} (height : UInt64)
    (h : Polling observers percent index requests b (some ballot)) (hr : r ∈ requests)
    (hstanding : Standing policy observers percent index cast (some ballot))
    (hvotes : DistinctVotes observers index (cast ++ [r]))
    (hsides : ¬(observers.quorum percent ≤ countFor .yes (cast ++ [r]) ∧
      observers.quorum percent ≤ countFor .no (cast ++ [r])))
    (hdecided : ballot.isFinalized = true) :
    castVote policy b r height = .ok (⟨false, false, ballot⟩, b) ∧
      Standing policy observers percent index (cast ++ [r]) (some ballot) := by
  have hr' : r ∈ cast ++ [r] := List.mem_append_right _ (List.mem_singleton_self r)
  obtain ⟨chain, params, hchain, -⟩ := h.served r hr
  cases hstanding with
  | stored hcast hindex hvoters _ hstatus =>
    have hnot_voted : ballot.hasVoted r.voter = false :=
      Ballot.hasVoted_of_notMem_voters fun hmem => hvotes.notMem_of_concat (hvoters hmem)
    refine ⟨castVote_late h.observerSet_eq (hvotes.isObserver r hr') hchain ?_ hnot_voted hdecided,
      .stored (by simp) hindex ?_ ?_ ?_⟩
    · rw [hvotes.ballot_eq r hr']
      exact h.ballot?_eq
    · intro voter hvoter
      rw [List.map_append]
      exact List.mem_append_left _ (hvoters hvoter)
    · intro hpending
      rw [hdecided] at hpending
      cases hpending
    · -- What has decided the ballot decides it with one more vote as well.
      cases hverdict : verdictOf policy (observers.quorum percent) observers.size cast with
      | none =>
        rw [statusOf, hverdict] at hstatus
        rw [Ballot.isFinalized, hstatus] at hdecided
        cases hdecided
      | some status =>
        rw [statusOf, verdictOf_append hvotes.length_le hsides hverdict, hstatus, statusOf,
          hverdict]

/-- **A vote on a pending ballot is taken, and decides it as all votes do.** -/
theorem Polling.counted {before : Ballot} {r : VoteRequest} {height : UInt64}
    (h : Polling observers percent index requests b stored) (hr : r ∈ requests)
    (hfits : Fits observers) (hvotes : DistinctVotes observers index (cast ++ [r]))
    (hbefore : stored.getD (.fresh r.ballot r.chainId r.observation height) = before)
    (hindex : before.index = index) (hpending : before.isFinalized = false)
    (hentries : before.votes = cast.map VoteRequest.entry) :
    ∃ outcome b', castVote policy b r height = .ok (outcome, b') ∧
      Polling observers percent index requests b' (some outcome.ballot) ∧
      Standing policy observers percent index (cast ++ [r]) (some outcome.ballot) ∧
      outcome.finalized = outcome.ballot.isFinalized := by
  have hr' : r ∈ cast ++ [r] := List.mem_append_right _ (List.mem_singleton_self r)
  have hnot_voted : before.hasVoted r.voter = false := by
    refine Ballot.hasVoted_of_notMem_voters fun hmem => hvotes.notMem_of_concat ?_
    rw [Ballot.voters, hentries, List.map_map] at hmem
    exact hmem
  obtain ⟨chain, params, hchain, rfl⟩ := h.served r hr
  -- The ballot with the vote on it has all the votes so far.
  obtain ⟨recorded, hrecorded⟩ : ∃ recorded : Ballot,
      recorded = { before with votes := before.votes ++ [r.entry] } := ⟨_, rfl⟩
  have hrecorded' := Ballot.isFinalized_of_recorded hpending hrecorded
  have hall : recorded.votes = (cast ++ [r]).map VoteRequest.entry := by
    rw [hrecorded, List.map_append, ← hentries]
    rfl
  cases hevaluate : recorded.evaluate (observers.quorum params.thresholdPercent)
    (observers.size - recorded.countOf observers) policy height with
  | mk finalized after =>
  obtain ⟨b', hcast, hb', hsettings, hcontents⟩ := exists_castVote h.works h.observerSet_eq
    (hvotes.isObserver r hr') hchain ((hvotes.ballot_eq r hr').symm ▸ h.ballot?_eq) hbefore
    hnot_voted hpending (hvotes.ne_absent hr') hrecorded hevaluate
  obtain ⟨hgrows, -⟩ := Ballot.GrowsTo.of_evaluate hpending hrecorded hevaluate
  have hindex' : after.index = index := hgrows.index_eq.trans hindex
  obtain ⟨hafter, hfinalized, hstatus⟩ := Ballot.decided_of_evaluate hrecorded' hevaluate
  rw [verdict?_eq_verdictOf hall hvotes.isObserver] at hstatus
  rw [hall] at hafter
  rw [hindex'] at hcontents
  refine ⟨_, b', hcast, h.stores hb' hsettings (fits_of_votes hfits hvotes hafter) hcontents,
    .stored (by simp) hindex' ?_ (fun _ => hafter) hstatus, hfinalized⟩
  rw [Ballot.voters, hafter, List.map_map]
  exact fun _ => id

/-- **One more vote is taken, and the ballot is as all votes decide it.** It is the deciding one if
and only if the ballot is decided by it. -/
theorem Polling.step {r : VoteRequest} (height : UInt64)
    (h : Polling observers percent index requests b stored) (hr : r ∈ requests)
    (hstanding : Standing policy observers percent index cast stored) (hfits : Fits observers)
    (hvotes : DistinctVotes observers index (cast ++ [r]))
    (hsides : ¬(observers.quorum percent ≤ countFor .yes (cast ++ [r]) ∧
      observers.quorum percent ≤ countFor .no (cast ++ [r]))) :
    ∃ outcome b', castVote policy b r height = .ok (outcome, b') ∧
      Polling observers percent index requests b' (some outcome.ballot) ∧
      Standing policy observers percent index (cast ++ [r]) (some outcome.ballot) ∧
      decidedCount (some outcome.ballot)
        = decidedCount stored + if outcome.finalized then 1 else 0 := by
  have hcount (ballot : Ballot) : decidedCount (some ballot)
      = if ballot.isFinalized then 1 else 0 := rfl
  cases hstored : stored.any Ballot.isFinalized with
  | true =>
    obtain ⟨ballot, rfl, hdecided⟩ : ∃ ballot, stored = some ballot ∧
        ballot.isFinalized = true := by
      cases stored with
      | none => cases hstored
      | some ballot => exact ⟨ballot, rfl, hstored⟩
    obtain ⟨hcast, hstanding'⟩ := h.late height hr hstanding hvotes hsides hdecided
    exact ⟨_, b, hcast, h, hstanding', rfl⟩
  | false =>
    have hzero : decidedCount stored = 0 := by
      rw [decidedCount, hstored]
      rfl
    have hpending : ∃ before, stored.getD (.fresh r.ballot r.chainId r.observation height) = before
        ∧ before.index = index ∧ before.isFinalized = false ∧
        before.votes = cast.map VoteRequest.entry := by
      cases hstanding with
      | absent =>
        refine ⟨_, rfl, hvotes.ballot_eq r (List.mem_singleton_self r), rfl, rfl⟩
      | @stored _ ballot _ hindex _ hentries _ =>
        exact ⟨ballot, rfl, hindex, hstored, hentries hstored⟩
    obtain ⟨before, hbefore, hindex, hpending, hentries⟩ := hpending
    obtain ⟨outcome, b', hcast, hpolling, hstanding', hfinalized⟩ :=
      h.counted hr hfits hvotes hbefore hindex hpending hentries
    refine ⟨outcome, b', hcast, hpolling, hstanding', ?_⟩
    rw [hcount, hzero, hfinalized, Nat.zero_add]

end Poll

/-! ### A sequence of votes -/

/-- Casts votes at host heights, one after the other. -/
def castVotes {σ : Type} [WritableStore σ] (policy : StalePolicy) (s : σ) :
    List (VoteRequest × UInt64) → Except RegistryError (List VoteOutcome × σ)
  | [] => return ([], s)
  | (request, height) :: rest => do
    let (outcome, s) ← castVote policy s request height
    let (outcomes, s) ← castVotes policy s rest
    return (outcome :: outcomes, s)

section Sequence

variable {policy : StalePolicy} {observers : ObserverSet} {percent : UInt8} {index : Digest}
  {requests cast : List VoteRequest} {b : Backend} {stored : Option Ballot}

/-- A side with a quorum among some of the votes has one among all of them. -/
theorem not_both_of_append {quorum : Nat} {cast rest : List VoteRequest}
    (h : ¬(quorum ≤ countFor .yes (cast ++ rest) ∧ quorum ≤ countFor .no (cast ++ rest))) :
    ¬(quorum ≤ countFor .yes cast ∧ quorum ≤ countFor .no cast) := by
  rw [countFor_append, countFor_append] at h
  omega

/-- **A sequence of votes is taken, and the ballot is as all votes decide it**, whatever was cast
before. The votes that are said to decide it are as many as it has become decided. -/
theorem Polling.run {order : List (VoteRequest × UInt64)}
    (h : Polling observers percent index requests b stored)
    (hstanding : Standing policy observers percent index cast stored) (hfits : Fits observers)
    (hrequests : ∀ r ∈ order.map Prod.fst, r ∈ requests)
    (hvotes : DistinctVotes observers index (cast ++ order.map Prod.fst))
    (hsides : ¬(observers.quorum percent ≤ countFor .yes (cast ++ order.map Prod.fst) ∧
      observers.quorum percent ≤ countFor .no (cast ++ order.map Prod.fst))) :
    ∃ outcomes b' stored', castVotes policy b order = .ok (outcomes, b') ∧
      ballot? b' index = .ok stored' ∧
      Standing policy observers percent index (cast ++ order.map Prod.fst) stored' ∧
      decidedCount stored' = decidedCount stored + outcomes.countP (·.finalized) := by
  induction order generalizing cast b stored with
  | nil =>
    rw [List.map_nil, List.append_nil]
    exact ⟨[], b, stored, rfl, h.ballot?_eq, hstanding, rfl⟩
  | cons vote rest ih =>
    obtain ⟨r, height⟩ := vote
    have happend : cast ++ ((r, height) :: rest).map Prod.fst
        = (cast ++ [r]) ++ rest.map Prod.fst := by simp
    rw [happend] at hvotes hsides ⊢
    -- The first vote is one of the requests, and the rest is cast after it.
    obtain ⟨outcome, b₁, hcast, h₁, hstanding₁, hcount⟩ := h.step height
      (hrequests r List.mem_cons_self) hstanding hfits hvotes.of_append (not_both_of_append hsides)
    obtain ⟨outcomes, b', stored', hrest, hstored', hstanding', hcount'⟩ := ih h₁ hstanding₁
      (fun r' hr' => hrequests r' (List.mem_cons_of_mem _ hr')) hvotes hsides
    refine ⟨outcome :: outcomes, b', stored', ?_, hstored', hstanding', ?_⟩
    · exact bind_eq_ok_iff.2 ⟨(outcome, b₁), hcast, bind_eq_ok_iff.2 ⟨(outcomes, b'), hrest, rfl⟩⟩
    · rw [hcount', hcount, List.countP_cons]
      omega

/-- **The order of votes does not matter.** On a store that works, with these observers and without
a ballot under the index, different observers vote for one side or the other, each on a chain with
the same threshold. With a threshold above one half, the two sides do not both have a quorum. If
they do not, then the votes come to the same whatever the order and the heights are: all of them
are taken, and the ballot has succeeded if those in favour are a quorum; it has failed if they are
not, and either those against are one or stale ballots are closed and neither side can have one any
more; and it is pending otherwise. Exactly one vote is said to decide the ballot if it is decided,
and none if it is pending. -/
theorem castVotes_perm (hb : b.Works) (hobservers : observerSet b = .ok observers)
    (hfits : Fits observers) (habsent : ballot? b index = .ok none)
    (hserved : ∀ r ∈ requests, ServedAt b percent r.chainId)
    (hvotes : DistinctVotes observers index requests) (policy : StalePolicy) :
    (50 < percent → ¬(observers.quorum percent ≤ countFor .yes requests ∧
      observers.quorum percent ≤ countFor .no requests)) ∧
    (¬(observers.quorum percent ≤ countFor .yes requests ∧
      observers.quorum percent ≤ countFor .no requests) →
    ∃ final : Option BallotStatus,
      (final = none ↔ requests = []) ∧
      (final = some .success ↔ observers.quorum percent ≤ countFor .yes requests) ∧
      (requests ≠ [] → (final = some .failure ↔
        ¬observers.quorum percent ≤ countFor .yes requests ∧
        (observers.quorum percent ≤ countFor .no requests ∨ policy = .closeAsFailure ∧
          countFor .yes requests + (observers.size - requests.length) < observers.quorum percent ∧
          countFor .no requests + (observers.size - requests.length)
            < observers.quorum percent))) ∧
      ∀ order : List (VoteRequest × UInt64), (order.map Prod.fst).Perm requests →
        ∃ outcomes b' stored, castVotes policy b order = .ok (outcomes, b') ∧
          ballot? b' index = .ok stored ∧ stored.map Ballot.status = final ∧
          outcomes.countP (·.finalized)
            = if final = some .success ∨ final = some .failure then 1 else 0) := by
  have hquorum : 0 < observers.quorum percent :=
    Nat.lt_of_lt_of_le Nat.zero_lt_one (Nat.le_max_left _ _)
  refine ⟨hvotes.not_both, fun hsides =>
    ⟨finalOf policy (observers.quorum percent) observers.size requests, finalOf_eq_none_iff,
      finalOf_eq_success_iff hquorum, finalOf_eq_failure_iff, fun order horder => ?_⟩⟩
  have hstart : Polling observers percent index requests b none :=
    ⟨hb, hobservers, hserved, habsent⟩
  have hsides' : ¬(observers.quorum percent ≤ countFor .yes ([] ++ order.map Prod.fst) ∧
      observers.quorum percent ≤ countFor .no ([] ++ order.map Prod.fst)) := by
    rwa [List.nil_append, countFor_perm horder, countFor_perm horder]
  obtain ⟨outcomes, b', stored, hcast, hstored, hstanding, hdecided⟩ :=
    hstart.run .absent hfits (fun r hr => horder.mem_iff.1 hr) (hvotes.perm horder) hsides'
  have hfinal : stored.map Ballot.status
      = finalOf policy (observers.quorum percent) observers.size requests :=
    hstanding.map_status_eq.trans (finalOf_perm horder)
  refine ⟨outcomes, b', stored, hcast, hstored, hfinal, ?_⟩
  have hcount : outcomes.countP (·.finalized) = decidedCount stored :=
    (hdecided.trans (Nat.zero_add _)).symm
  rw [hcount, decidedCount_eq, hfinal]

end Sequence

end Registry

/-! ### A stale ballot -/

namespace Sample

/-- Three observers, who have to agree. -/
def unanimousCalls : List Call := [
  .setObserverSet [⟨"a"⟩, ⟨"b"⟩, ⟨"c"⟩],
  .registerChain ⟨chainId, "external", .evm⟩ (.ofThreshold chainId 100)]

/-- The store in which they are the observers. -/
def unanimousStore : Backend :=
  (service.after start unanimousCalls).store

/-- One of them votes for it. -/
def firstVote : Registry.VoteRequest :=
  ⟨poll, .inbound, chainId, ⟨"a"⟩, .yes⟩

/-- And one against it. -/
def secondVote : Registry.VoteRequest :=
  ⟨poll, .inbound, chainId, ⟨"b"⟩, .no⟩

/-- The two votes leave no side a quorum, and close the ballot whichever comes first. -/
theorem stale_in_both_orders : ∃ outcomes b outcomes' b' stored stored',
    Registry.castVotes .closeAsFailure unanimousStore [(firstVote, 1), (secondVote, 2)]
      = .ok (outcomes, b) ∧
    Registry.castVotes .closeAsFailure unanimousStore [(secondVote, 5), (firstVote, 5)]
      = .ok (outcomes', b') ∧
    Registry.ballot? b poll = .ok stored ∧ Registry.ballot? b' poll = .ok stored' ∧
    stored.map Ballot.status = some .failure ∧ stored'.map Ballot.status = some .failure ∧
    outcomes.countP (·.finalized) = 1 ∧ outcomes'.countP (·.finalized) = 1 := by
  have hworks : unanimousStore.Works := ⟨by decide +kernel, by decide +kernel⟩
  have hobservers : Registry.observerSet unanimousStore = .ok ⟨[⟨"a"⟩, ⟨"b"⟩, ⟨"c"⟩]⟩ := by
    decide +kernel
  have hfits : Fits (⟨[⟨"a"⟩, ⟨"b"⟩, ⟨"c"⟩]⟩ : ObserverSet) :=
    Record.fits_of_length_lt (by decide +kernel)
  have habsent : Registry.ballot? unanimousStore poll = .ok none := by decide +kernel
  have hchain : Registry.supportedChain unanimousStore chainId
      = .ok (⟨chainId, "external", .evm⟩, .ofThreshold chainId 100) := by decide +kernel
  have hserved : ∀ r ∈ [firstVote, secondVote], Registry.ServedAt unanimousStore 100 r.chainId := by
    intro r hr
    have hid : r.chainId = chainId := by
      rcases List.mem_pair.1 hr with rfl | rfl <;> rfl
    exact ⟨_, _, hid ▸ hchain, rfl⟩
  have hvotes : Registry.DistinctVotes ⟨[⟨"a"⟩, ⟨"b"⟩, ⟨"c"⟩]⟩ poll [firstVote, secondVote] :=
    ⟨by decide, by decide, by decide, by decide⟩
  obtain ⟨-, hfinal⟩ := Registry.castVotes_perm hworks hobservers hfits habsent hserved hvotes
    .closeAsFailure
  obtain ⟨final, -, -, hfailure, horders⟩ := hfinal (by decide)
  have hstale : final = some .failure := (hfailure (by decide)).2 (by decide)
  obtain ⟨outcomes, b, stored, hcast, hstored, hstatus, hcount⟩ :=
    horders [(firstVote, 1), (secondVote, 2)] (List.Perm.refl _)
  obtain ⟨outcomes', b', stored', hcast', hstored', hstatus', hcount'⟩ :=
    horders [(secondVote, 5), (firstVote, 5)] (List.Perm.swap _ _ _)
  rw [hstale] at hstatus hstatus' hcount hcount'
  exact ⟨outcomes, b, outcomes', b', stored, stored', hcast, hcast', hstored, hstored', hstatus,
    hstatus', hcount, hcount'⟩

end Sample

end Settlement
