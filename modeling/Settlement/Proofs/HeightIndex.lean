import Settlement.Proofs.Atomicity
import Settlement.Proofs.Listings

/-!
# Ballots by height

Every ballot has one entry under the height at which it was created, and every entry has its ballot
(`Settlement.Ledger.HeightIndexed`). The entry comes with the ballot and goes with it, so that it is
found when the ballot is old enough to be pruned. What calls make of ballots and entries is said in
steps (`Settlement.Ledger.Polls`): a ballot is opened with its entry, a vote leaves the height, and
pruning drops a decided ballot with its entry.

Main statements: in every world that is reached entries and ballots belong to each other
(`Settlement.Reachable.heightIndexed`), and pruning drops decided ballots up to its height and
nothing else (`Settlement.Registry.drops_of_pruneBallots`).
-/

namespace Settlement

variable {σ γ : Type}

/-! ### Steps -/

namespace Ledger

/-- A decided ballot that was created up to a height is dropped with its entry. -/
inductive Drops (maxHeight : UInt64) (l : Ledger) : Ledger → Prop
  | drop {index : Digest} {b : Ballot} (hstored : l (.ballot index) = some b)
      (hdecided : b.isFinalized = true) (hold : b.creationHeight ≤ maxHeight) :
      Drops maxHeight l ((l.clear (.ballot index)).clear (.ballotByHeight b.creationHeight index))

/-- One step of what calls make of ballots and their entries. -/
inductive Polls (l : Ledger) : Ledger → Prop
  /-- Neither ballots nor entries have changed. -/
  | keep {l' : Ledger} (h : ∀ k : Key, k.IsPoll → l' k.folded = l k.folded) : Polls l l'
  /-- A ballot is opened with its entry. -/
  | opened {b : Ballot} (habsent : l (.ballot b.index) = none) : Polls l
      ((l.set (.ballotByHeight b.creationHeight b.index) b.index).set (.ballot b.index) b)
  /-- A vote is entered on a ballot. -/
  | voted {b b' : Ballot} (hstored : l (.ballot b'.index) = some b)
      (hheight : b'.creationHeight = b.creationHeight) : Polls l (l.set (.ballot b'.index) b')
  | dropped {l' : Ledger} {maxHeight : UInt64} (h : l.Drops maxHeight l') : Polls l l'

/-- There is an entry for every ballot under its height, and for nothing else. -/
def HeightIndexed (l : Ledger) : Prop :=
  ∀ height index, (l (.ballotByHeight height index)).isSome ↔
    ∃ b, l (.ballot index) = some b ∧ b.creationHeight = height

variable {l l' : Ledger} {maxHeight : UInt64}

theorem HeightIndexed.empty : Ledger.empty.HeightIndexed := by
  intro height index
  constructor
  · rintro ⟨⟩
  · rintro ⟨_, ⟨⟩, _⟩

/-- For a ballot that is not there, there is no entry. -/
theorem HeightIndexed.entry_eq_none (h : l.HeightIndexed) {height : UInt64} {index : Digest}
    (habsent : l (.ballot index) = none) : l (.ballotByHeight height index) = none := by
  rw [← Option.not_isSome_iff_eq_none, h height index, habsent]
  rintro ⟨_, ⟨⟩, _⟩

/-- What becomes of one ballot has to be in order again. -/
theorem HeightIndexed.of_index (h : l.HeightIndexed) (index : Digest)
    (hentry : ∀ height, (l' (.ballotByHeight height index)).isSome ↔
      ∃ b, l' (.ballot index) = some b ∧ b.creationHeight = height)
    (hballots : ∀ other, other ≠ index → l' (.ballot other) = l (.ballot other))
    (hentries : ∀ height other, other ≠ index →
      l' (.ballotByHeight height other) = l (.ballotByHeight height other)) :
    l'.HeightIndexed := by
  intro height other
  by_cases hindex : other = index
  · exact hindex ▸ hentry height
  · rw [hballots other hindex, hentries height other hindex]
    exact h height other

/-- A ballot is opened together with its entry. -/
theorem HeightIndexed.opened (h : l.HeightIndexed) {b : Ballot}
    (habsent : l (.ballot b.index) = none) :
    ((l.set (.ballotByHeight b.creationHeight b.index) b.index).set
      (.ballot b.index) b).HeightIndexed := by
  refine h.of_index b.index (fun height => ?_) (fun other hother => ?_)
    fun height other hother => ?_
  · rw [set_self, set_of_ne _ _ (by simp)]
    by_cases hheight : height = b.creationHeight
    · subst hheight
      rw [set_self]
      exact ⟨fun _ => ⟨b, rfl, rfl⟩, fun _ => rfl⟩
    · rw [l.set_of_ne _ fun hkey => hheight (Key.ballotByHeight.inj hkey).1,
        h.entry_eq_none habsent]
      constructor
      · rintro ⟨⟩
      · rintro ⟨_, ⟨⟩, heq⟩
        exact absurd heq.symm hheight
  · rw [set_of_ne _ _ fun hkey => hother (Key.ballot.inj hkey), l.set_of_ne _ (by simp)]
  · rw [set_of_ne _ _ (by simp),
      l.set_of_ne _ fun hkey => hother (Key.ballotByHeight.inj hkey).2]

/-- A vote on a ballot leaves its height. -/
theorem HeightIndexed.voted (h : l.HeightIndexed) {b b' : Ballot}
    (hstored : l (.ballot b'.index) = some b) (hheight : b'.creationHeight = b.creationHeight) :
    (l.set (.ballot b'.index) b').HeightIndexed := by
  refine h.of_index b'.index (fun height => ?_) (fun other hother => ?_)
    fun height other hother => l.set_of_ne _ (by simp)
  · rw [set_self, l.set_of_ne _ (by simp), h height b'.index, hstored]
    constructor
    · rintro ⟨_, ⟨⟩, rfl⟩
      exact ⟨b', rfl, hheight⟩
    · rintro ⟨_, ⟨⟩, rfl⟩
      exact ⟨b, rfl, hheight.symm⟩
  · exact l.set_of_ne _ fun hkey => hother (Key.ballot.inj hkey)

/-- A ballot that is dropped takes its entry with it. -/
theorem HeightIndexed.of_drops (h : l.HeightIndexed) (hdrops : l.Drops maxHeight l') :
    l'.HeightIndexed := by
  obtain @⟨index, b, hstored, -, -⟩ := hdrops
  refine h.of_index index (fun height => ?_) (fun other hother => ?_)
    fun height other hother => ?_
  · have hgone : ((l.clear (.ballot index)).clear (.ballotByHeight b.creationHeight index))
        (.ballot index) = none := by
      rw [clear_of_ne _ (by simp), clear_self]
    rw [hgone]
    by_cases hheight : height = b.creationHeight
    · subst hheight
      rw [clear_self]
      simp
    -- It has no entry under another height.
    · rw [clear_of_ne _ fun hkey => hheight (Key.ballotByHeight.inj hkey).1,
        l.clear_of_ne (by simp), h height index, hstored]
      constructor
      · rintro ⟨_, ⟨⟩, heq⟩
        exact absurd heq.symm hheight
      · rintro ⟨_, ⟨⟩, _⟩
  · rw [clear_of_ne _ (by simp), l.clear_of_ne fun hkey => hother (Key.ballot.inj hkey)]
  · rw [clear_of_ne _ fun hkey => hother (Key.ballotByHeight.inj hkey).2, l.clear_of_ne (by simp)]

/-- **Entries and ballots stay together**, whatever is done with them. -/
theorem HeightIndexed.of_polls (h : l.HeightIndexed) (hpolls : l.Polls l') : l'.HeightIndexed := by
  cases hpolls with
  | keep hsame =>
    intro height index
    have hentry : l' (.ballotByHeight height index) = l (.ballotByHeight height index) :=
      hsame (.ballotByHeight height index) trivial
    have hballot : l' (.ballot index) = l (.ballot index) := hsame (.ballot index) trivial
    rw [hentry, hballot]
    exact h height index
  | opened habsent => exact h.opened habsent
  | voted hstored hheight => exact h.voted hstored hheight
  | dropped hdrops => exact h.of_drops hdrops

/-- What is cleared makes no record longer. -/
theorem Legible.clear (h : l.Legible) (k : Key) : (l.clear k).Legible := by
  intro j v hv
  by_cases hj : j.folded = k
  · cases hj
    rw [clear_self] at hv
    cases hv
  · rw [l.clear_of_ne hj] at hv
    exact h j v hv

namespace Drops

theorem legible (h : l.Legible) (hdrops : l.Drops maxHeight l') : l'.Legible := by
  cases hdrops with
  | drop => exact (h.clear _).clear _

/-- **A ballot is dropped only if it is decided and old enough**, and otherwise stays as it is. -/
theorem ballot_eq_or (hdrops : l.Drops maxHeight l') (index : Digest) :
    l' (.ballot index) = l (.ballot index) ∨ l' (.ballot index) = none ∧
      ∃ b, l (.ballot index) = some b ∧ b.isFinalized = true ∧ b.creationHeight ≤ maxHeight := by
  cases hdrops with
  | @drop other b hstored hdecided hold =>
    rw [clear_of_ne _ (by simp)]
    by_cases hindex : index = other
    · subst hindex
      exact .inr ⟨l.clear_self _, b, hstored, hdecided, hold⟩
    · exact .inl (l.clear_of_ne fun hkey => hindex (Key.ballot.inj hkey))

/-- No ballot is new after a drop. -/
theorem ballot_of (hdrops : l.Drops maxHeight l') {index : Digest} {b : Ballot}
    (hb : l' (.ballot index) = some b) : l (.ballot index) = some b := by
  rcases hdrops.ballot_eq_or index with hsame | ⟨hnone, -⟩
  · exact hsame.symm.trans hb
  · cases hnone.symm.trans hb

end Drops

theorem legible_of_drops (h : l.Legible)
    (hdrops : Relation.ReflTransGen (Drops maxHeight) l l') : l'.Legible := by
  induction hdrops with
  | refl => exact h
  | tail _ hdrop ih => exact hdrop.legible ih

/-- What is true of one drop is true of several. -/
theorem ballot_eq_or_of_drops (hdrops : Relation.ReflTransGen (Drops maxHeight) l l')
    (index : Digest) :
    l' (.ballot index) = l (.ballot index) ∨ l' (.ballot index) = none ∧
      ∃ b, l (.ballot index) = some b ∧ b.isFinalized = true ∧ b.creationHeight ≤ maxHeight := by
  induction hdrops with
  | refl => exact .inl rfl
  | tail _ hdrop ih =>
    rcases hdrop.ballot_eq_or index with hsame | ⟨hnone, b, hb, hdropped⟩
    · rwa [hsame]
    · refine .inr ⟨hnone, b, ?_, hdropped⟩
      rcases ih with hsame' | ⟨hnone', -⟩
      · exact hsame'.symm.trans hb
      · cases hnone'.symm.trans hb

end Ledger

/-! ### Votes -/

section Stores

variable [WritableStore σ] [LawfulStore σ] {s s' : σ} {l : Ledger}

/-- A store records what steps about ballots and entries have made of a ledger. -/
def Ledger.PollsTo (l : Ledger) (s : σ) : Prop :=
  ∃ l', Records s l' ∧ Relation.ReflTransGen Ledger.Polls l l'

namespace Ledger.PollsTo

theorem refl (h : Records s l) : l.PollsTo s :=
  ⟨l, h, .refl⟩

theorem congr {τ : Type} [WritableStore τ] [LawfulStore τ] {t : τ} (h : l.PollsTo s)
    (hcontents : contents t = contents s) : l.PollsTo t := by
  obtain ⟨l', hl', hpolls⟩ := h
  exact ⟨l', hl'.congr hcontents, hpolls⟩

/-- Writes under other keys are no matter. -/
theorem trans_touches {W : Key → Prop} (h : l.PollsTo s) (htouches : Touches W s s')
    (hW : ∀ k : Key, k.IsPoll → ¬W k.folded) : l.PollsTo s' := by
  obtain ⟨l₁, hl₁, hpolls⟩ := h
  obtain ⟨l', hl', hsame⟩ := htouches.keeps hW l₁ hl₁
  exact ⟨l', hl', hpolls.tail (.keep hsame)⟩

end Ledger.PollsTo

namespace Registry

/-- **A vote opens its ballot or is entered on it**, unless it is late. -/
theorem pollsTo_of_castVote {policy : StalePolicy} {request : VoteRequest} {height : UInt64}
    {outcome : VoteOutcome} (h : Records s l) (hl : l.Legible) (hfiled : BallotsFiled l.ballots)
    (hvote : castVote policy s request height = .ok (outcome, s')) : l.PollsTo s' := by
  obtain ⟨observers, chain, params, stored, hlinks⟩ := links_of_castVote hvote
  have hstored : stored = l (.ballot request.ballot) := eq_of_ballot? h hl hlinks.stored_eq
  cases hlinks.ends with
  | late => exact .refl h
  | @opened after _ _ _ hcounts hentry hset =>
    have hindex : after.index = request.ballot := hcounts.index_eq
    have hcreated : height = after.creationHeight := hcounts.creationHeight_eq.symm
    rw [hcreated] at hentry
    have h₁ := h.put (.ballotByHeight _ _) (storeError_lift_eq_ok_iff.1 hentry)
    exact ⟨_, h₁.put (.ballot _) (storeError_lift_eq_ok_iff.1 hset),
      .single (.opened (hindex ▸ hstored.symm))⟩
  | @counted b after _ _ hcounts _ hset =>
    have hindex : after.index = request.ballot := hcounts.index_eq.trans (hfiled _ b hstored.symm)
    exact ⟨_, h.put (.ballot _) (storeError_lift_eq_ok_iff.1 hset),
      .single (.voted (hindex ▸ hstored.symm) hcounts.creationHeight_eq)⟩

/-! ### Pruning -/

/-- The key of an entry tells its height and its ballot. -/
theorem heightEntry?_bytes (height : UInt64) (index : Digest) :
    heightEntry? (Key.ballotByHeight height index).bytes = some (height, index) := by
  have hbody : (Key.ballotByHeight height index).bytes.drop KeyRange.ballotsByHeight.bytes.length
      = Bytes.ofWord height ++ index.bytes := List.drop_left' rfl
  have hheight : UInt64.ofNat (Bytes.toNatBig (Bytes.ofWord height)) = height := by
    have hlt : height.toNat < Bytes.capacity 8 := height.toNat_lt
    rw [Bytes.ofWord, Bytes.toNatBig_big, Nat.mod_eq_of_lt hlt, UInt64.ofNat_toNat]
  have hindex : Digest.ofBytes? index.bytes = some index := dif_pos index.length_bytes
  simp only [hbody, heightEntry?]
  rw [List.take_left' (Bytes.length_ofWord height), List.drop_left' (Bytes.length_ofWord height),
    List.take_of_length_le index.length_bytes.le, hindex, hheight]
  rfl

/-- **Going over entries drops decided ballots**, each with its entry. -/
theorem drops_of_pruneEntries {maxHeight : UInt64} {keys : List Bytes} {pruned n : Nat}
    (h : Records s l) (hl : l.Legible) (hindexed : l.HeightIndexed)
    (hkeys : ∀ bs ∈ keys, ∃ height index, bs = (Key.ballotByHeight height index).bytes ∧
      ∀ b, l (.ballot index) = some b → b.creationHeight = height)
    (hprune : pruneEntries maxHeight keys pruned s = .ok (n, s')) :
    ∃ l', Records s' l' ∧ Relation.ReflTransGen (Ledger.Drops maxHeight) l l' := by
  induction keys generalizing pruned s l with
  | nil =>
    cases hprune
    exact ⟨l, h, .refl⟩
  | cons bs rest ih =>
    obtain ⟨⟨height, index, rfl, hheight⟩, hrest⟩ := List.forall_mem_cons.1 hkeys
    rw [pruneEntries, heightEntry?_bytes] at hprune
    rcases ite_eq_ok_iff.1 hprune with ⟨-, hprune⟩ | ⟨hreached, hprune⟩
    · cases hprune
      exact ⟨l, h, .refl⟩
    obtain ⟨stored, hstored, hprune⟩ := bind_eq_ok_iff.1 hprune
    obtain rfl := eq_of_ballot? h hl hstored
    cases hballot : l.ballots index with
    | none =>
      rw [hballot] at hprune
      obtain ⟨s₁, hdelete, hprune⟩ := bind_eq_ok_iff.1 hprune
      -- For a ballot that is not there, there is no entry to be removed.
      have h₁ := h.delete (.ballotByHeight height index) (storeError_lift_eq_ok_iff.1 hdelete)
      have hsame : l.clear (.ballotByHeight height index) = l :=
        Function.update_eq_self_iff.2 (hindexed.entry_eq_none hballot).symm
      rw [Key.folded, hsame] at h₁
      exact ih h₁ hl hindexed hrest hprune
    | some b =>
      obtain rfl := hheight b hballot
      rw [hballot] at hprune
      rcases ite_eq_ok_iff.1 hprune with ⟨hdecided, hprune⟩ | ⟨-, hprune⟩
      · obtain ⟨s₁, hremove, hprune⟩ := bind_eq_ok_iff.1 hprune
        obtain ⟨s₂, hdelete, hprune⟩ := bind_eq_ok_iff.1 hprune
        have h₂ := (h.delete (.ballot index) (storeError_lift_eq_ok_iff.1 hremove)).delete
          (.ballotByHeight b.creationHeight index) (storeError_lift_eq_ok_iff.1 hdelete)
        have hdrop : l.Drops maxHeight _ := .drop hballot hdecided (UInt64.not_lt.1 hreached)
        obtain ⟨l', hl', hdrops⟩ := ih h₂ (hdrop.legible hl) (hindexed.of_drops hdrop)
          (fun bs hbs => (hrest bs hbs).imp fun _ => .imp fun _ => .imp_right fun hheight b hb =>
            hheight b (hdrop.ballot_of hb)) hprune
        exact ⟨l', hl', hdrops.head hdrop⟩
      · exact ih h hl hindexed hrest hprune

/-- **Pruning drops decided ballots up to its height**, each with its entry, and nothing else. -/
theorem drops_of_pruneBallots {maxHeight : UInt64} {n : Nat} (hintact : Intact s) (h : Records s l)
    (hl : l.Legible) (hindexed : l.HeightIndexed)
    (hprune : pruneBallots s maxHeight = .ok (n, s')) :
    ∃ l', Records s' l' ∧ Relation.ReflTransGen (Ledger.Drops maxHeight) l l' := by
  obtain ⟨entries, hentries, hprune⟩ := bind_eq_ok_iff.1 hprune
  refine drops_of_pruneEntries h hl hindexed (fun bs hbs => ?_) hprune
  obtain ⟨e, he, rfl⟩ := List.mem_map.1 hbs
  obtain ⟨hstarts, hheld⟩ :=
    (LawfulStore.mem_scan_iff (mapError_eq_ok_iff.1 hentries) e).1 he
  obtain ⟨-, k, -, hk, -⟩ := hintact _ _ hheld
  rw [← hk] at hstarts hheld ⊢
  obtain ⟨height, index, rfl⟩ := KeyRange.exists_ballotByHeight hstarts
  refine ⟨height, index, rfl, fun b hb => ?_⟩
  rw [h (.ballotByHeight height index)] at hheld
  have hentry : (l (.ballotByHeight height index)).isSome :=
    Option.isSome_map.symm.trans (congrArg Option.isSome hheld)
  obtain ⟨b', hb', hheight⟩ := (hindexed height index).1 hentry
  cases hb.symm.trans hb'
  exact hheight

end Registry

/-! ### What comes after a vote -/

namespace Journal

variable {policy : StalePolicy} {config : SettlementConfig} {block : Block}
  {receipt : VoteReceipt} {effects : Effects}

/-- What comes after a vote on an inbound transaction is not about ballots. -/
theorem pollsTo_of_voteInbound [Gateway γ] {g g' : γ} {m : InboundVote} (h : Records s l)
    (hl : l.Legible) (hfiled : BallotsFiled l.ballots)
    (hvote : voteInbound policy config g s block m = (.ok (receipt, s', effects), g')) :
    l.PollsTo s' := by
  obtain ⟨outcome, s₁, hcast, -, hends⟩ := links_of_voteInbound hvote
  have hpolls := Registry.pollsTo_of_castVote h hl hfiled hcast
  rcases hends with ⟨-, rfl⟩ | ⟨-, signingKey, s₂, s₃, hmarked, hremoved, hopened⟩
  · exact hpolls
  refine (hpolls.trans_touches (touches_marked hmarked hremoved) fun k hk hmarked => ?_)
    |>.trans_touches hopened fun k hk hopened => ?_
  · have hpoll : k.folded.IsPoll := by cases k <;> exact hk
    rcases hmarked with hmark | htracker
    · rwa [hmark] at hpoll
    · rwa [htracker] at hpoll
  · have hentered := hopened.isEntered
    cases k <;> first | exact hk | exact hentered

/-- Nor is what comes after a vote on an outbound transaction. -/
theorem pollsTo_of_voteOutbound {m : OutboundVote} (h : Records s l) (hl : l.Legible)
    (hfiled : BallotsFiled l.ballots)
    (hvote : voteOutbound policy config s block m = .ok (receipt, s', effects)) :
    l.PollsTo s' := by
  obtain ⟨c, outcome, s₁, -, hcast, hrest⟩ := touches_settled_of_voteOutbound hvote
  have hpolls := Registry.pollsTo_of_castVote h hl hfiled hcast
  refine hpolls.trans_touches hrest fun k hk hsettled => ?_
  have hwritten := Key.of_isSettledUnder hsettled
  cases k <;> first | exact hk | exact hwritten.elim id (Or.elim · id id)

end Journal

end Stores

/-! ### Calls and runs -/

section Runs

variable [Gateway γ] {service : Service} {w w₀ : World γ} {l : Ledger}

/-- **Pruning drops decided ballots that are old enough**, or nothing. -/
theorem Service.drops_of_execute (service : Service) (h : Records w.store l) (hl : l.Legible)
    (hintact : Intact w.store) (hindexed : l.HeightIndexed) (height : UInt64) :
    ∃ l', Records (service.execute w (.pruneBallots height)).world.store l' ∧
      (l' = l ∨ service.observers.retentionBlocks ≠ 0 ∧
        service.observers.retentionBlocks ≤ height ∧ Relation.ReflTransGen
          (Ledger.Drops (height - service.observers.retentionBlocks)) l l') := by
  obtain ⟨e, g, hrefused⟩ | ⟨answer, draft, effects, g, b, hhandled, hcontents, hreply⟩ :=
    service.committed_cases w (.pruneBallots height)
  · rw [hrefused]
    exact ⟨l, h, .inl rfl⟩
  rw [hreply]
  rcases ite_eq_iff.1 hhandled with ⟨-, heq⟩ | ⟨hretained, hhandled⟩
  · cases heq
    exact ⟨l, h.fresh.congr hcontents, .inl rfl⟩
  · obtain ⟨⟨n, s⟩, hprune, heq⟩ := Handled.exists_of_registry hhandled
    cases heq
    obtain ⟨l', hl', hdrops⟩ := Registry.drops_of_pruneBallots
      (hintact.congr (Overlay.contents_fresh _)) h.fresh hl hindexed hprune
    rw [not_or, UInt64.not_lt] at hretained
    exact ⟨l', hl'.congr hcontents, .inr ⟨hretained.1, hretained.2, hdrops⟩⟩

/-- **What any call makes of ballots and their entries.** -/
theorem Service.pollsTo_execute (service : Service) (h : Records w.store l) (hl : l.Legible)
    (hintact : Intact w.store) (hfiled : BallotsFiled l.ballots) (hindexed : l.HeightIndexed)
    (c : Call) : l.PollsTo (service.execute w c).world.store := by
  obtain ⟨e, g, hrefused⟩ | ⟨answer, draft, effects, g, b, hhandled, hcontents, hreply⟩ :=
    service.committed_cases w c
  · rw [hrefused]
    exact .refl h
  -- What the handler has made of its draft is committed.
  have hcommitted (hdraft : l.PollsTo draft) : l.PollsTo (service.execute w c).world.store := by
    rw [hreply]
    exact hdraft.congr hcontents
  cases c with
  | castVote request block =>
    obtain ⟨⟨outcome, s₁⟩, hvote, heq⟩ := Handled.exists_of_registry hhandled
    cases heq
    exact hcommitted (Registry.pollsTo_of_castVote h.fresh hl hfiled hvote)
  | pruneBallots height =>
    obtain ⟨l', hl', rfl | ⟨-, -, hdrops⟩⟩ := service.drops_of_execute h hl hintact hindexed height
    · exact .refl hl'
    · exact ⟨l', hl', Relation.ReflTransGen.mono (fun _ _ hdrop => .dropped hdrop) _ _ hdrops⟩
  | voteInbound block m =>
    obtain ⟨⟨receipt, draft', effects'⟩, hvote, heq⟩ := Handled.exists_of_ok hhandled
    cases heq
    exact hcommitted (Journal.pollsTo_of_voteInbound h.fresh hl hfiled (Prod.ext hvote rfl))
  | voteOutbound block m =>
    obtain ⟨⟨receipt, draft', effects'⟩, hvote, heq⟩ := Handled.exists_of_ok hhandled
    cases heq
    exact hcommitted (Journal.pollsTo_of_voteOutbound h.fresh hl hfiled hvote)
  | migrateFunds block chainId amount =>
    obtain ⟨⟨index, draft', effects'⟩, hmigrate, heq⟩ := Handled.exists_of_ok hhandled
    cases heq
    refine hcommitted ((Ledger.PollsTo.refl h.fresh).trans_touches
      (Journal.touches_migrateFunds hmigrate) fun k hk => ?_)
    cases k <;> first | exact hk.elim | exact (Or.elim · id id)
  | addOutboundTracker | addInboundTracker | setObserverSet | addObserver | replaceObserver
  | registerChain | updateChainParams | setSwitches | registerKey | activateKey =>
    refine (Ledger.PollsTo.refl h).trans_touches (service.touches w _) fun k hk => ?_
    cases k <;> first | exact hk.elim | exact id

/-- **There is an entry for every ballot under its height**, and for nothing else. -/
theorem Reachable.heightIndexed (h : Reachable service w) : w.store.ledger.HeightIndexed := by
  obtain ⟨w₀, turns, hempty, hrun⟩ := h
  refine hrun.ledger_induction (fun l l' hsame hl => hl.of_polls (.keep fun k _ => hsame k))
    (fun w c hsound hintact hindexed => ?_) (World.sound_of_entries_eq_empty hempty)
    (World.intact_of_entries_eq_empty hempty) ?_
  · obtain ⟨l', hl', hpolls⟩ := service.pollsTo_execute hsound.records hsound.legible hintact
      hsound.ballotsFiled hindexed c
    refine ⟨l', hl', ?_⟩
    clear hl'
    induction hpolls with
    | refl => exact hindexed
    | tail _ hstep ih => exact ih.of_polls hstep
  · rw [World.ledger_eq_empty hempty]
    exact .empty

end Runs

end Settlement
