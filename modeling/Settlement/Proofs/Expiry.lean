import Settlement.Proofs.Acceptance
import Settlement.Proofs.Pruning

/-!
# Which ballots are pruned

Pruning goes over the entries by height and stops at the first one that is too young. That it
misses no ballot rests on three things: every ballot has its entry, the entries are listed in the
order of their heights, and removing a ballot with its entry touches no other one. So the loop
removes the ballots that it is to remove (`Settlement.Ballot.expires`) and counts them
(`Settlement.Registry.exists_pruneEntries`), and what is left is again in order, with nothing more
to remove at the same height.

Main statement: `Settlement.Reachable.expired_pruned`.
-/

namespace Settlement

/-! ### Ballots that are removed -/

namespace Ballot

/-- The key of the entry of a ballot under the height of its creation. -/
abbrev entryKey (b : Ballot) : Key :=
  .ballotByHeight b.creationHeight b.index

/-- The keys of a ballot: its own, and that of its entry. -/
def keys (b : Ballot) : List Key :=
  [.ballot b.index, b.entryKey]

/-- Whether a ballot is decided and was created up to a height. -/
def expires (maxHeight : UInt64) (b : Ballot) : Bool :=
  b.isFinalized && b.creationHeight ≤ maxHeight

theorem mem_keys_iff {b : Ballot} {k : Key} :
    k ∈ b.keys ↔ k = .ballot b.index ∨ k = b.entryKey := by
  simp [keys]

/-- Ballots have no key in common unless they have the same index. -/
theorem index_eq_of_mem_keys {b b' : Ballot} {k : Key} (h : k ∈ b.keys) (h' : k ∈ b'.keys) :
    b.index = b'.index := by
  rcases mem_keys_iff.1 h with rfl | rfl <;> rcases mem_keys_iff.1 h' with h' | h'
  · exact Key.ballot.inj h'
  · cases h'
  · cases h'
  · exact (Key.ballotByHeight.inj h').2

theorem folded_of_mem_keys {b : Ballot} {k : Key} (h : k ∈ b.keys) : k.folded = k := by
  rcases mem_keys_iff.1 h with rfl | rfl <;> rfl

end Ballot

namespace Ledger

variable {l : Ledger} {gone : List Ballot}

/-- The ledger without some ballots and their entries. -/
def without (l : Ledger) (gone : List Ballot) : Ledger := fun k =>
  if ∃ b ∈ gone, k ∈ b.keys then none else l k

theorem without_eq_none {b : Ballot} {k : Key} (hb : b ∈ gone) (hk : k ∈ b.keys) :
    l.without gone k = none :=
  if_pos ⟨b, hb, hk⟩

theorem without_of_not_mem {k : Key} (hk : ∀ b ∈ gone, k ∉ b.keys) :
    l.without gone k = l k :=
  if_neg fun ⟨b, hb, hmem⟩ => hk b hb hmem

theorem without_eq_some_iff {k : Key} {v : k.Value} :
    l.without gone k = some v ↔ (∀ b ∈ gone, k ∉ b.keys) ∧ l k = some v := by
  rw [without]
  split
  · next h =>
    obtain ⟨b, hb, hk⟩ := h
    exact iff_of_false nofun fun ⟨hnone, _⟩ => hnone b hb hk
  · next h => exact ⟨fun hv => ⟨fun b hb hk => h ⟨b, hb, hk⟩, hv⟩, And.right⟩

theorem without_nil (l : Ledger) : l.without [] = l := by
  funext k
  exact without_of_not_mem fun b hb => (List.not_mem_nil hb).elim

/-- A ballot and its entry are cleared before those of others. -/
theorem without_cons (l : Ledger) (b : Ballot) (gone : List Ballot) :
    l.without (b :: gone) = ((l.clear (.ballot b.index)).clear b.entryKey).without gone := by
  funext k
  by_cases hgone : ∃ b' ∈ gone, k ∈ b'.keys
  · obtain ⟨b', hb', hk⟩ := hgone
    rw [without_eq_none (List.mem_cons_of_mem _ hb') hk, without_eq_none hb' hk]
  have hkept (b' : Ballot) (hb' : b' ∈ gone) (hk : k ∈ b'.keys) : False :=
    hgone ⟨b', hb', hk⟩
  rw [without_of_not_mem hkept]
  by_cases hb : k ∈ b.keys
  · rw [without_eq_none List.mem_cons_self hb]
    rcases Ballot.mem_keys_iff.1 hb with rfl | rfl
    · rw [clear_of_ne _ (by simp), clear_self]
    · rw [clear_self]
  · rw [without_of_not_mem (List.forall_mem_cons.2 ⟨hb, hkept⟩)]
    rw [Ballot.mem_keys_iff, not_or] at hb
    rw [clear_of_ne _ hb.2, l.clear_of_ne hb.1]

theorem Legible.without (h : l.Legible) (gone : List Ballot) : (l.without gone).Legible :=
  fun k v hv => h k v (without_eq_some_iff.1 hv).2

theorem ballotsFiled_without (h : BallotsFiled l.ballots) (gone : List Ballot) :
    BallotsFiled (l.without gone).ballots :=
  fun index b hb => h index b (without_eq_some_iff.1 hb).2

/-- What is left of the ballots is what is left of their entries. -/
theorem HeightIndexed.without (h : l.HeightIndexed)
    (hgone : ∀ b ∈ gone, l (.ballot b.index) = some b) : (l.without gone).HeightIndexed := by
  intro height index
  constructor
  · intro hsome
    obtain ⟨entry, hentry⟩ := Option.isSome_iff_exists.1 hsome
    obtain ⟨hkept, hentry⟩ := without_eq_some_iff.1 hentry
    obtain ⟨b, hb, hheight⟩ := (h height index).1 (Option.isSome_iff_exists.2 ⟨entry, hentry⟩)
    refine ⟨b, without_eq_some_iff.2 ⟨fun b' hb' hk => hkept b' hb' ?_, hb⟩, hheight⟩
    -- The entry of the ballot would be gone with it.
    obtain rfl : index = b'.index := by simpa [Ballot.mem_keys_iff] using hk
    cases hb.symm.trans (hgone b' hb')
    exact Ballot.mem_keys_iff.2 (.inr (by rw [← hheight]))
  · rintro ⟨b, hb, hheight⟩
    obtain ⟨hkept, hb⟩ := without_eq_some_iff.1 hb
    obtain ⟨entry, hentry⟩ := Option.isSome_iff_exists.1 ((h height index).2 ⟨b, hb, hheight⟩)
    refine Option.isSome_iff_exists.2 ⟨entry, without_eq_some_iff.2 ⟨fun b' hb' hk => ?_, hentry⟩⟩
    obtain ⟨-, rfl⟩ : height = b'.creationHeight ∧ index = b'.index := by
      simpa [Ballot.mem_keys_iff] using hk
    exact hkept b' hb' (Ballot.mem_keys_iff.2 (.inl rfl))

end Ledger

/-! ### The loop -/

namespace Registry

section Loop

variable {σ : Type} [WritableStore σ] [LawfulStore σ] {s : σ} {l : Ledger}
  (hσ : FaultsWith (fun _ => False) σ)

include hσ

/-- On a store that does not fail every ballot can be looked up. -/
theorem ballot?_eq (h : Records s l) (hl : l.Legible) (index : Digest) :
    ballot? s index = .ok (l (.ballot index)) := by
  obtain ⟨stored, hstored⟩ :=
    (failsWith_getRecord_of_contents hσ (h (.ballot index)) (hl.fits (.ballot index))).exists_ok
      fun _ => StoreError.not_isFault
  have hread : ballot? s index = .ok stored := storeError_lift_eq_ok_iff.2 hstored
  rw [hread, eq_of_ballot? h hl hread]
  rfl

omit [LawfulStore σ] in
theorem exists_delete (s : σ) (bs : Bytes) : ∃ s', deleteRecord s bs = .ok s' :=
  (hσ.writeAll (fun _ => id) s [.delete bs]).exists_ok fun _ => id

/-- **Going over the entries of ballots in the order of their heights removes the ballots that
expire**, each with its entry, and counts them. -/
theorem exists_pruneEntries (maxHeight : UInt64) {filed : List Ballot} (pruned : Nat)
    (h : Records s l) (hl : l.Legible) (hstored : ∀ b ∈ filed, l (.ballot b.index) = some b)
    (hindices : (filed.map Ballot.index).Nodup)
    (hsorted : filed.Pairwise fun b b' => b.creationHeight ≤ b'.creationHeight) :
    ∃ s', pruneEntries maxHeight (filed.map fun b => b.entryKey.bytes) pruned s
        = .ok (pruned + (filed.filter (Ballot.expires maxHeight)).length, s') ∧
      Records s' (l.without (filed.filter (Ballot.expires maxHeight))) := by
  induction filed generalizing pruned s l with
  | nil => exact ⟨s, rfl, by rwa [List.filter_nil, Ledger.without_nil]⟩
  | cons b rest ih =>
    obtain ⟨hb, hrest⟩ := List.forall_mem_cons.1 hstored
    obtain ⟨hnew, hdistinct⟩ := List.nodup_cons.1 hindices
    obtain ⟨hleast, hordered⟩ := List.pairwise_cons.1 hsorted
    have hread := ballot?_eq hσ h hl b.index
    rw [hb] at hread
    rw [List.map_cons, pruneEntries, heightEntry?_bytes]
    by_cases hyoung : maxHeight < b.creationHeight
    -- No ballot after this one is older.
    · have hnone : (b :: rest).filter (Ballot.expires maxHeight) = [] := by
        refine List.filter_eq_nil_iff.2 (List.forall_mem_cons.2 ⟨?_, fun b' hb' => ?_⟩)
        · simp [Ballot.expires, UInt64.not_le.2 hyoung]
        · simp [Ballot.expires, UInt64.not_le.2 (UInt64.lt_of_lt_of_le hyoung (hleast b' hb'))]
      rw [hnone, Ledger.without_nil]
      exact ⟨s, if_pos hyoung, h⟩
    have hold : b.creationHeight ≤ maxHeight := UInt64.not_lt.1 hyoung
    cases hdecided : b.isFinalized with
    | false =>
      have hkept : Ballot.expires maxHeight b = false := by simp [Ballot.expires, hdecided]
      obtain ⟨s', hprune, hrecords⟩ := ih pruned h hl hrest hdistinct hordered
      rw [List.filter_cons, hkept]
      refine ⟨s', ite_eq_ok_iff.2 (.inr ⟨hyoung, bind_eq_ok_iff.2 ⟨_, hread, ?_⟩⟩), hrecords⟩
      exact ite_eq_ok_iff.2 (.inr ⟨by simp [hdecided], hprune⟩)
    | true =>
      have hgone : Ballot.expires maxHeight b = true := by simp [Ballot.expires, hdecided, hold]
      obtain ⟨s₁, hremove⟩ := exists_delete hσ s (Key.ballot b.index).bytes
      obtain ⟨s₂, hdelete⟩ := exists_delete hσ s₁ b.entryKey.bytes
      have h₂ := (h.delete (.ballot b.index) hremove).delete b.entryKey hdelete
      -- The ballots after this one have other keys.
      have hrest' (b' : Ballot) (hb' : b' ∈ rest) :
          ((l.clear (.ballot b.index)).clear b.entryKey) (.ballot b'.index) = some b' := by
        have hne : b'.index ≠ b.index := fun heq =>
          hnew (heq ▸ List.mem_map_of_mem (f := Ballot.index) hb')
        rw [Ledger.clear_of_ne _ (by simp), l.clear_of_ne (by simpa using hne)]
        exact hrest b' hb'
      obtain ⟨s', hprune, hrecords⟩ :=
        ih (pruned + 1) h₂ ((hl.clear _).clear _) hrest' hdistinct hordered
      rw [List.filter_cons, if_pos hgone, List.length_cons, Ledger.without_cons]
      refine ⟨s', ite_eq_ok_iff.2 (.inr ⟨hyoung, bind_eq_ok_iff.2 ⟨_, hread, ?_⟩⟩), hrecords⟩
      refine ite_eq_ok_iff.2 (.inl ⟨hdecided, ?_⟩)
      refine bind_eq_ok_iff.2 ⟨s₁, storeError_lift_eq_ok_iff.2 hremove, ?_⟩
      refine bind_eq_ok_iff.2 ⟨s₂, storeError_lift_eq_ok_iff.2 hdelete, ?_⟩
      rw [hprune, Nat.add_right_comm, Nat.add_assoc]

end Loop

/-! ### The entries -/

section Entries

variable {σ : Type} [WritableStore σ] [LawfulStore σ] {s : σ} {l : Ledger}
  {rows : List (Key × Digest)}

/-- A row of the entries by height is that of a stored ballot. -/
theorem exists_ballot_of_row (h : Records s l) (hindexed : l.HeightIndexed)
    (hfiled : BallotsFiled l.ballots) (hrows : Rows s .ballotsByHeight rows) {x : Key × Digest}
    (hx : x ∈ rows) : ∃ b, l (.ballot b.index) = some b ∧ x.1 = b.entryKey := by
  obtain ⟨k, entry⟩ := x
  have htag := KeyRange.tag_eq (hrows.starts _ hx)
  have hheld := hrows.held _ hx
  cases k <;> first | simp [KeyRange.tag, Key.tag] at htag; done | skip
  case ballotByHeight height index =>
    rw [h (.ballotByHeight height index)] at hheld
    have hentry : (l (.ballotByHeight height index)).isSome :=
      Option.isSome_map.symm.trans (congrArg Option.isSome hheld)
    obtain ⟨b, hb, hheight⟩ := (hindexed height index).1 hentry
    have hindex := hfiled index b hb
    refine ⟨b, ?_, ?_⟩
    · rwa [hindex]
    · rw [Ballot.entryKey, hheight, hindex]

/-- **The entries by height are those of the stored ballots.** -/
theorem exists_filed (h : Records s l) (hindexed : l.HeightIndexed)
    (hfiled : BallotsFiled l.ballots) (hrows : Rows s .ballotsByHeight rows) :
    ∃ filed : List Ballot, rows.map (fun x => x.1.bytes) = filed.map (fun b => b.entryKey.bytes) ∧
      ∀ b, b ∈ filed ↔ l (.ballot b.index) = some b := by
  obtain ⟨filed, hkeys⟩ : rows.map Prod.fst ∈ Set.range (List.map
      fun b : {b : Ballot // l (.ballot b.index) = some b} => b.1.entryKey) := by
    rw [Set.range_list_map]
    intro k hk
    obtain ⟨x, hx, rfl⟩ := List.mem_map.1 hk
    obtain ⟨b, hb, hkey⟩ := exists_ballot_of_row h hindexed hfiled hrows hx
    exact ⟨⟨b, hb⟩, hkey.symm⟩
  refine ⟨filed.map Subtype.val, ?_, fun b => ⟨fun hb => ?_, fun hb => ?_⟩⟩
  · have hbytes := congrArg (List.map Key.bytes) hkeys
    rw [List.map_map, List.map_map] at hbytes
    rw [List.map_map]
    exact hbytes.symm
  · obtain ⟨stored, -, rfl⟩ := List.mem_map.1 hb
    exact stored.2
  -- The entry of a stored ballot is in a row, and it is the entry of one ballot only.
  · have hentry : (contents s b.entryKey.bytes).isSome := by
      rw [h b.entryKey, Option.isSome_map]
      exact (hindexed _ _).2 ⟨b, hb, rfl⟩
    obtain ⟨x, hx, hxk⟩ := hrows.complete b.entryKey
      (KeyRange.starts_iff.2 ⟨rfl, List.nil_prefix⟩) hentry
    have hmem : x.1 ∈ rows.map Prod.fst := List.mem_map_of_mem hx
    rw [← hkeys] at hmem
    obtain ⟨⟨b', hb'⟩, hlisted, hkey⟩ := List.mem_map.1 hmem
    have hindex : b'.index = b.index :=
      (Key.ballotByHeight.inj (Key.bytes_eq_iff.1 ((congrArg Key.bytes hkey).trans hxk))).2
    rw [hindex] at hb'
    cases hb'.symm.trans hb
    exact List.mem_map_of_mem (f := Subtype.val) hlisted

end Entries

/-- **Pruning removes exactly the ballots that expire**, on a store that works. -/
theorem exists_pruneBallots {b : Backend} {r : Recorder b} {l : Ledger} (hb : b.Works)
    (hintact : Intact r) (h : Records r l) (hl : l.Legible) (hindexed : l.HeightIndexed)
    (hfiled : BallotsFiled l.ballots) (maxHeight : UInt64) :
    ∃ expired r', pruneBallots r maxHeight = .ok (expired.length, r') ∧
      Records r' (l.without expired) ∧ expired.Nodup ∧
      ∀ x, x ∈ expired ↔ l (.ballot x.index) = some x ∧ x.expires maxHeight = true := by
  obtain ⟨entries, hscan, hordered⟩ := r.exists_scan hb KeyRange.ballotsByHeight.bytes
  obtain ⟨rows, hrows, rfl⟩ := hintact.exists_rows_of_scan (r := .ballotsByHeight) hscan
  obtain ⟨filed, hkeys, hmem⟩ := exists_filed h hindexed hfiled hrows
  have hlisted : (rows.map fun x => x.1.bytes).Pairwise (· < ·) := by
    rw [List.pairwise_map] at hordered ⊢
    exact hordered
  have hbytes : filed.Pairwise fun x y => x.entryKey.bytes < y.entryKey.bytes := by
    rw [hkeys] at hlisted
    exact List.pairwise_map.1 hlisted
  have hindices : (filed.map Ballot.index).Nodup := by
    rw [List.Nodup, List.pairwise_map]
    refine hbytes.imp_of_mem fun {x y} hx hy hlt heq => ?_
    have hx := (hmem x).1 hx
    rw [heq, (hmem y).1 hy] at hx
    cases hx
    exact List.lt_irrefl _ hlt
  have hheights : filed.Pairwise fun x y => x.creationHeight ≤ y.creationHeight := by
    refine hbytes.imp fun hlt => ?_
    rcases Key.ballotByHeight_lt_iff.1 hlt with hlower | ⟨hsame, -⟩
    · exact UInt64.le_of_lt hlower
    · exact UInt64.le_of_eq hsame
  obtain ⟨r', hprune, hrecords⟩ := exists_pruneEntries hb.faultsWith maxHeight 0 h hl
    (fun x hx => (hmem x).1 hx) hindices hheights
  refine ⟨filed.filter (Ballot.expires maxHeight), r', ?_, hrecords,
    (List.Nodup.of_map _ hindices).filter _, fun x => ?_⟩
  · refine bind_eq_ok_iff.2 ⟨_, mapError_eq_ok_iff.2 hscan, ?_⟩
    rw [List.map_map]
    change pruneEntries maxHeight (rows.map fun x => x.1.bytes) 0 r = _
    rw [hkeys, hprune, Nat.zero_add]
  · rw [List.mem_filter, hmem]

end Registry

/-! ### What is left -/

section Left

variable {σ τ : Type} [WritableStore σ] [LawfulStore σ] {s s' : σ} {l : Ledger}
  {gone : List Ballot}

/-- Under the keys of ballots that are gone there is nothing. -/
theorem contents_eq_none_of_without (h : Records s (l.without gone)) {b : Ballot} (hb : b ∈ gone)
    {k : Key} (hk : k ∈ b.keys) : contents s k.bytes = none := by
  have hfolded : k.folded ∈ b.keys := by rwa [Ballot.folded_of_mem_keys hk]
  rw [h k, Ledger.without_eq_none hb hfolded, Option.map_none]

/-- Everywhere else there is what was there before. -/
theorem contents_eq_of_without {W : Key → Prop} (hintact : Intact s) (htouches : Touches W s s')
    (h : Records s l) (h' : Records s' (l.without gone)) {bs : Bytes}
    (hbs : ∀ b ∈ gone, ∀ k ∈ b.keys, k.bytes ≠ bs) : contents s' bs = contents s bs := by
  by_contra hne
  obtain ⟨k, rfl, -⟩ := hintact.exists_key htouches hne
  refine hne ?_
  rw [h' k, h k, Ledger.without_of_not_mem]
  exact fun b hb hk => hbs b hb k.folded hk k.bytes_folded

/-- What is left of an intact store is intact. -/
theorem Intact.of_without {W : Key → Prop} (hintact : Intact s) (htouches : Touches W s s')
    (h : Records s l) (h' : Records s' (l.without gone)) : Intact s' := by
  intro bs held hheld
  have hbs (b : Ballot) (hb : b ∈ gone) (k : Key) (hk : k ∈ b.keys) : k.bytes ≠ bs := by
    rintro rfl
    cases (contents_eq_none_of_without h' hb hk).symm.trans hheld
  exact hintact bs held ((contents_eq_of_without hintact htouches h h' hbs).symm.trans hheld)

end Left

/-! ### Calls -/

section Calls

variable {γ : Type} [Gateway γ] {service : Service} {w : World γ}

/-- Whether a service prunes a ballot at a height: ballots are pruned at all, the height has reached
the configured number of blocks, and the ballot is decided and was created up to the difference of
the two. -/
def Service.Expires (service : Service) (height : UInt64) (b : Ballot) : Prop :=
  service.observers.retentionBlocks ≠ 0 ∧ service.observers.retentionBlocks ≤ height ∧
    b.isFinalized = true ∧ b.creationHeight ≤ height - service.observers.retentionBlocks

/-- **Pruning is answered with the number of the ballots that expire**, and leaves the others. -/
theorem Service.execute_pruneBallots {l : Ledger} (service : Service) (hworks : w.store.Works)
    (hintact : Intact w.store) (h : Records w.store l) (hl : l.Legible)
    (hindexed : l.HeightIndexed) (hfiled : BallotsFiled l.ballots) (height : UInt64) :
    ∃ expired : List Ballot,
      (service.execute w (.pruneBallots height)).answer = .ok (.count expired.length) ∧
      (service.execute w (.pruneBallots height)).world.store.Works ∧
      Records (service.execute w (.pruneBallots height)).world.store (l.without expired) ∧
      expired.Nodup ∧
      ∀ b, b ∈ expired ↔ l (.ballot b.index) = some b ∧ service.Expires height b := by
  have hrecords : Records (Recorder.start w.store) l := h
  obtain ⟨expired, r, hhandled, hleft, hnodup, hmem⟩ : ∃ expired r,
      (service.handle w.gateway (Recorder.start w.store) (.pruneBallots height)).1
        = .ok (.count expired.length, r, .none) ∧
      Records r (l.without expired) ∧ expired.Nodup ∧
      ∀ b, b ∈ expired ↔ l (.ballot b.index) = some b ∧ service.Expires height b := by
    rw [handle]
    by_cases hnone : service.observers.retentionBlocks = 0 ∨
        height < service.observers.retentionBlocks
    · refine ⟨[], Recorder.start w.store, by rw [if_pos hnone]; rfl, ?_, List.nodup_nil,
        fun b => iff_of_false List.not_mem_nil ?_⟩
      · rwa [Ledger.without_nil]
      · rintro ⟨-, hpruned, hreached, -⟩
        exact hnone.elim hpruned (UInt64.not_lt.2 hreached)
    · obtain ⟨expired, r, hprune, hleft, hnodup, hmem⟩ := Registry.exists_pruneBallots hworks
        (hintact.congr rfl) hrecords hl hindexed hfiled
        (height - service.observers.retentionBlocks)
      refine ⟨expired, r, by rw [if_neg hnone, hprune]; rfl, hleft, hnodup, fun b => ?_⟩
      rw [not_or, UInt64.not_lt] at hnone
      simp only [hmem, Ballot.expires, Bool.and_eq_true, decide_eq_true_eq, Expires, ne_eq, hnone,
        not_false_eq_true, true_and]
  obtain ⟨hanswer, hstore⟩ := Service.execute_of_handled hworks.accepts hhandled
  refine ⟨expired, hanswer, ?_, ?_, hnodup, hmem⟩
  · rw [hstore]
    exact ⟨hworks.accepts, hworks.readable⟩
  · rw [hstore]
    exact hleft.congr r.contents_written

/-- **Pruning removes exactly the old decided ballots.** In a world that is reached there is an
entry under a height for a ballot exactly if the ballot is stored and was created at this height.
If the store works, then pruning at any height, for any configured number of blocks, is answered
with the number of the ballots that expire: if ballots are pruned at all and the height has reached
the number of blocks, these are the decided ballots that were created up to the difference of the
two, and otherwise there are none. They are gone with their entries, the other ballots have kept
theirs, and whatever else is stored is as it was. Pruning again at the same height removes
nothing. -/
theorem Reachable.expired_pruned (hreach : Reachable service w) :
    (∀ height index, (contents w.store (Key.ballotByHeight height index).bytes).isSome ↔
      ∃ b, Registry.ballot? w.store.restored index = .ok (some b) ∧
        b.index = index ∧ b.creationHeight = height) ∧
    (w.store.Works → ∀ (pruner : Service) (height : UInt64),
      let reply := pruner.execute w (.pruneBallots height)
      ∃ expired : List Ballot, expired.Nodup ∧
        (∀ b, b ∈ expired ↔ Registry.ballot? w.store.restored b.index = .ok (some b) ∧
          pruner.Expires height b) ∧
        reply.answer = .ok (.count expired.length) ∧
        (∀ b ∈ expired, ∀ k ∈ b.keys, contents reply.world.store k.bytes = none) ∧
        (∀ b, Registry.ballot? w.store.restored b.index = .ok (some b) →
          ¬pruner.Expires height b → ∀ k ∈ b.keys,
            contents reply.world.store k.bytes = contents w.store k.bytes) ∧
        (∀ bs, (∀ b ∈ expired, ∀ k ∈ b.keys, k.bytes ≠ bs) →
          contents reply.world.store bs = contents w.store bs) ∧
        (pruner.execute reply.world (.pruneBallots height)).answer = .ok (.count 0)) := by
  have hsound := hreach.sound
  have hindexed := hreach.heightIndexed
  have hread (index : Digest) (b : Ballot) :
      Registry.ballot? w.store.restored index = .ok (some b) ↔
        w.store.ledger (.ballot index) = some b := by
    rw [hsound.ballot?_eq, Except.ok.injEq]
    rfl
  constructor
  · intro height index
    rw [hsound.records (.ballotByHeight height index), Option.isSome_map]
    refine (hindexed height index).trans ⟨fun ⟨b, hb, hheight⟩ => ?_, fun ⟨b, hb, _, hheight⟩ => ?_⟩
    · exact ⟨b, (hread index b).2 hb, hsound.ballotsFiled index b hb, hheight⟩
    · exact ⟨b, (hread index b).1 hb, hheight⟩
  intro hworks pruner height reply
  have htouches : Touches _ w.store reply.world.store := pruner.touches w (.pruneBallots height)
  obtain ⟨expired, hanswer, hworks', hleft, hnodup, hmem⟩ := pruner.execute_pruneBallots hworks
    hreach.intact hsound.records hsound.legible hindexed hsound.ballotsFiled height
  have hstored (b : Ballot) (hb : b ∈ expired) : w.store.ledger (.ballot b.index) = some b :=
    ((hmem b).1 hb).1
  have hkept (bs : Bytes) (hbs : ∀ b ∈ expired, ∀ k ∈ b.keys, k.bytes ≠ bs) :
      contents reply.world.store bs = contents w.store bs :=
    contents_eq_of_without (hreach.intact.congr rfl) htouches hsound.records hleft hbs
  refine ⟨expired, hnodup, fun b => ?_, hanswer, fun b hb k hk =>
    contents_eq_none_of_without hleft hb hk, fun b hb hstays k hk => ?_, hkept, ?_⟩
  · rw [hread]
    exact hmem b
  -- A ballot that stays has no key of one that goes.
  · refine hkept k.bytes fun b' hb' k' hk' heq => hstays ?_
    rw [Key.bytes_eq_iff, Ballot.folded_of_mem_keys hk', Ballot.folded_of_mem_keys hk] at heq
    have hindex : b'.index = b.index := Ballot.index_eq_of_mem_keys hk' (heq ▸ hk)
    obtain ⟨hstored', hexpires⟩ := (hmem b').1 hb'
    rw [hindex] at hstored'
    cases hstored'.symm.trans ((hread b.index b).1 hb)
    exact hexpires
  -- Of the ballots that are left none expires.
  · obtain ⟨again, hanswer', -, -, -, hmem'⟩ := pruner.execute_pruneBallots hworks'
      (hreach.intact.of_without htouches hsound.records hleft) hleft (hsound.legible.without _)
      (hindexed.without hstored) (Ledger.ballotsFiled_without hsound.ballotsFiled _) height
    have hnone : again = [] := by
      refine List.eq_nil_iff_forall_not_mem.2 fun b hb => ?_
      obtain ⟨hb, hexpires⟩ := (hmem' b).1 hb
      obtain ⟨hkept, hb⟩ := Ledger.without_eq_some_iff.1 hb
      exact hkept b ((hmem b).2 ⟨hb, hexpires⟩) (Ballot.mem_keys_iff.2 (.inl rfl))
    rw [hanswer', hnone]
    rfl

end Calls

/-! ### One ballot of three -/

namespace Sample

/-- A ballot besides the first one. -/
def laterPoll (n : UInt8) : Digest :=
  ⟨List.replicate 32 n, rfl⟩

/-- A vote on a ballot. -/
def voteOn (ballot : Digest) (voter : String) (height : UInt64) : Call :=
  .castVote ⟨ballot, .inbound, chainId, ⟨voter⟩, .yes⟩ ⟨height, height⟩

/-- Two observers have to agree. They do on the first ballot and on the third one, which is created
later, and the second one waits for the other vote. -/
def agingCalls : List Call := [
  .setObserverSet [⟨"a"⟩, ⟨"b"⟩],
  .registerChain ⟨chainId, "external", .evm⟩ (.ofThreshold chainId 100),
  voteOn poll "a" 1,
  voteOn (laterPoll 1) "a" 1,
  voteOn poll "b" 2,
  voteOn (laterPoll 2) "a" 9,
  voteOn (laterPoll 2) "b" 9]

/-- The world with the three ballots. -/
def agingWorld : World ScriptedGateway :=
  service.after start agingCalls

/-- The first ballot. -/
def agedBallot : Ballot :=
  ⟨poll, chainId, .inbound, [⟨⟨"a"⟩, .yes⟩, ⟨⟨"b"⟩, .yes⟩], .success, 1, some 2⟩

/-- The second ballot. -/
def waitingBallot : Ballot :=
  ⟨laterPoll 1, chainId, .inbound, [⟨⟨"a"⟩, .yes⟩], .pending, 1, none⟩

/-- The first ballot is pruned as soon as its blocks have passed, and the second one stays. -/
theorem aged_pruned :
    ∃ expired : List Ballot, agedBallot ∈ expired ∧
      (briefService.execute agingWorld (.pruneBallots 3)).answer = .ok (.count expired.length) ∧
      contents (briefService.execute agingWorld (.pruneBallots 3)).world.store
        (Key.ballotByHeight 1 poll).bytes = none ∧
      contents (briefService.execute agingWorld (.pruneBallots 3)).world.store
        (Key.ballot (laterPoll 1)).bytes
          = contents agingWorld.store (Key.ballot (laterPoll 1)).bytes := by
  have hevaluated :
      (∀ t ∈ service.turnsOf start agingCalls,
        (service.execute t.world t.call).world.store.Addressable) ∧
      agingWorld.store.rejectsWrites = false ∧ agingWorld.store.unreadable = none ∧
      Registry.ballot? agingWorld.store.restored poll = .ok (some agedBallot) ∧
      Registry.ballot? agingWorld.store.restored (laterPoll 1) = .ok (some waitingBallot) := by
    decide +kernel
  obtain ⟨hstores, haccepts, hreadable, haged, hwaiting⟩ := hevaluated
  have hreached : Reachable service agingWorld :=
    ⟨start, _, rfl, Run.start.calls agingCalls hstores⟩
  obtain ⟨-, hpruned⟩ := Reachable.expired_pruned hreached
  obtain ⟨expired, -, hmem, hanswer, hgone, hstays, -, -⟩ :=
    hpruned ⟨haccepts, hreadable⟩ briefService 3
  have hexpired : agedBallot ∈ expired :=
    (hmem agedBallot).2 ⟨haged, by decide, by decide, rfl, by decide⟩
  refine ⟨expired, hexpired, hanswer, hgone _ hexpired (.ballotByHeight 1 poll) ?_, ?_⟩
  · exact Ballot.mem_keys_iff.2 (.inr rfl)
  · refine hstays waitingBallot hwaiting ?_ _ (Ballot.mem_keys_iff.2 (.inl rfl))
    rintro ⟨-, -, hdecided, -⟩
    cases hdecided

end Sample

end Settlement
