import Settlement.Proofs.Enactment

/-!
# The electorate

Governance may change the observers and the thresholds at any time, but two things stay: no
observer is a member twice, and every threshold is a percentage from 1 to 100
(`Settlement.Ledger.Constituted`). So a quorum never asks for more votes than there are observers
(`Settlement.ObserverSet.quorum_le_size`), and the number of votes that are outstanding on a ballot
is that of the observers without a vote on it, even if it holds votes of former observers
(`Settlement.Ballot.size_sub_countOf`).

Main statement: the electorate of every world that is reached from an empty store is in order
(`Settlement.Reachable.constituted`).
-/

namespace Settlement

/-! ### Observer sets -/

namespace ObserverSet

variable {s s' : ObserverSet} {id old new : ObserverId}

theorem nodup_add? (h : s.members.Nodup) (hadd : s.add? id = some s') : s'.members.Nodup := by
  rw [add?] at hadd
  split at hadd
  · cases hadd
  · next habsent =>
    cases hadd
    have hnew : id ∉ s.members := fun hmem => habsent (List.contains_iff_mem.2 hmem)
    exact h.append (List.nodup_singleton id) (List.disjoint_singleton.2 hnew)

/-- **A list of accounts makes a set without repetitions**, whatever it repeats. -/
theorem nodup_ofList (ids : List ObserverId) : (ofList ids).members.Nodup := by
  have hfold (s : ObserverSet) (hs : s.members.Nodup) :
      (ids.foldl (fun s id => (s.add? id).getD s) s).members.Nodup := by
    induction ids generalizing s with
    | nil => exact hs
    | cons id rest ih =>
      refine ih _ ?_
      simp only
      cases hadd : s.add? id with
      | none => exact hs
      | some s' => exact nodup_add? hs hadd
  exact hfold empty List.nodup_nil

/-- The exchanged list has the new account and otherwise members of the old one. -/
theorem nodup_exchange {members members' : List ObserverId} (h : members.Nodup)
    (hnew : new ∉ members) (hexchange : exchange old new members = some members') :
    members'.Nodup ∧ ∀ id ∈ members', id = new ∨ id ∈ members := by
  induction members generalizing members' with
  | nil => cases hexchange
  | cons id rest ih =>
    obtain ⟨hid, hrest⟩ := List.nodup_cons.1 h
    obtain ⟨hne, hnotMem⟩ := not_or.1 (List.mem_cons.not.1 hnew)
    rw [exchange] at hexchange
    split at hexchange
    · cases hexchange
      exact ⟨List.nodup_cons.2 ⟨hnotMem, hrest⟩, fun i hi =>
        (List.mem_cons.1 hi).imp_right (List.mem_cons_of_mem id)⟩
    · obtain ⟨rest', hrest', rfl⟩ := Option.map_eq_some_iff.1 hexchange
      obtain ⟨hnodup, hmem⟩ := ih hrest hnotMem hrest'
      refine ⟨List.nodup_cons.2 ⟨fun hi => ?_, hnodup⟩, fun i hi => ?_⟩
      · exact (hmem id hi).elim (fun heq => hne heq.symm) hid
      · rcases List.mem_cons.1 hi with rfl | hi
        · exact .inr List.mem_cons_self
        · exact (hmem i hi).imp_right (List.mem_cons_of_mem id)

theorem nodup_replace? (h : s.members.Nodup) (hreplace : s.replace? old new = some s') :
    s'.members.Nodup := by
  rw [replace?] at hreplace
  split at hreplace
  · cases hreplace
  · next habsent =>
    obtain ⟨members', hexchange, rfl⟩ := Option.map_eq_some_iff.1 hreplace
    exact (nodup_exchange h (fun hmem => habsent (List.contains_iff_mem.2 hmem)) hexchange).1

/-- **No account is a member twice**, whatever governance makes of the set. -/
theorem Succeeds.nodup (h : s.Succeeds s') (hs : s.members.Nodup) : s'.members.Nodup := by
  cases h with
  | ofList ids => exact nodup_ofList ids
  | add hadd => exact nodup_add? hs hadd
  | replace hreplace => exact nodup_replace? hs hreplace

/-- **A quorum asks for no more votes than there are observers.** -/
theorem quorum_le_size {percent : UInt8} (hsize : 0 < s.size) (hpercent : percent.toNat ≤ 100) :
    s.quorum percent ≤ s.size := by
  have hshare : s.size * percent.toNat ≤ s.size * 100 := Nat.mul_le_mul_left _ hpercent
  rw [quorum]
  omega

theorem quorum_pos (s : ObserverSet) (percent : UInt8) : 0 < s.quorum percent :=
  Nat.lt_of_lt_of_le Nat.zero_lt_one (Nat.le_max_left _ _)

theorem size_pos_of_contains (h : s.contains id = true) : 0 < s.size :=
  List.length_pos_of_mem (List.contains_iff_mem.1 h)

end ObserverSet

/-! ### Outstanding votes -/

namespace Ballot

variable {b : Ballot} {s : ObserverSet}

/-- The observers who have no vote on the ballot. -/
def outstanding (b : Ballot) (s : ObserverSet) : List ObserverId :=
  s.members.filter fun id => !b.hasVoted id

/-- Where every entry is a vote, those who have voted are the voters. -/
theorem hasVoted_iff (hvotes : ∀ v ∈ b.votes, v.vote ≠ .absent) {id : ObserverId} :
    b.hasVoted id = true ↔ id ∈ b.voters := by
  constructor
  · intro hvoted
    by_contra hnotMem
    rw [hasVoted_of_notMem_voters hnotMem] at hvoted
    cases hvoted
  · intro hmem
    by_contra hnot_voted
    exact notMem_voters hvotes (Bool.not_eq_true _ ▸ hnot_voted) hmem

/-- **What is outstanding are the observers without a vote**: entries of former observers are not
counted, and no observer is counted twice. -/
theorem size_sub_countOf (hs : s.members.Nodup) (hvoters : b.voters.Nodup)
    (hvotes : ∀ v ∈ b.votes, v.vote ≠ .absent) :
    s.size - b.countOf s = (b.outstanding s).length := by
  have hcount : b.countOf s = (b.voters.filter s.contains).length := by
    rw [countOf, voters, List.filter_map, List.length_map, List.countP_eq_length_filter]
    rfl
  -- The voters who are observers are the observers who have voted.
  have hperm : (b.voters.filter s.contains).Perm (s.members.filter b.hasVoted) := by
    refine (List.perm_ext_iff_of_nodup (hvoters.filter _) (hs.filter _)).2 fun id => ?_
    rw [List.mem_filter, List.mem_filter, ObserverSet.contains, List.contains_iff_mem,
      hasVoted_iff hvotes, and_comm]
  have hsplit := List.length_eq_length_filter_add (l := s.members) b.hasVoted
  rw [hcount, hperm.length_eq, ObserverSet.size, outstanding]
  omega

end Ballot

/-! ### The electorate of a ledger -/

/-- No observer is a member twice, and thresholds are percentages. -/
structure Ledger.Constituted (l : Ledger) : Prop where
  nodup : l.observers.members.Nodup
  threshold : ∀ id params, l (.chainParams id) = some params →
    0 < params.thresholdPercent.toNat ∧ params.thresholdPercent.toNat ≤ 100

namespace Ledger.Constituted

variable {l l' : Ledger}

theorem empty : Ledger.empty.Constituted :=
  ⟨List.nodup_nil, by rintro _ _ ⟨⟩⟩

/-- Only the settings matter. -/
theorem congr (h : l.Constituted) (hsame : ∀ k : Key, k.IsGoverned → l' k.folded = l k.folded) :
    l'.Constituted := by
  have hobservers : l'.observers = l.observers :=
    congrArg (Option.getD · ObserverSet.empty) (hsame .observerSet trivial)
  refine ⟨hobservers ▸ h.nodup, fun id params hparams => h.threshold id params ?_⟩
  exact (hsame (.chainParams id) trivial).symm.trans hparams

theorem set_observerSet (h : l.Constituted) {observers : ObserverSet}
    (hnodup : observers.members.Nodup) : (l.set .observerSet observers).Constituted := by
  refine ⟨?_, fun id params hparams => h.threshold id params ?_⟩
  · rw [Ledger.observers, set_self]
    exact hnodup
  · rwa [l.set_of_ne _ (by simp)] at hparams

theorem set_chainParams (h : l.Constituted) {params : ChainParams} {id : ChainId}
    (hproper : params.IsProper) : (l.set (.chainParams id) params).Constituted := by
  refine ⟨?_, fun id' params' hparams' => ?_⟩
  · rw [Ledger.observers, l.set_of_ne _ (by simp)]
    exact h.nodup
  · by_cases heq : id' = id
    · subst heq
      rw [l.set_self] at hparams'
      cases hparams'
      exact hproper
    · rw [l.set_of_ne _ fun hkey => heq (Key.chainParams.inj hkey)] at hparams'
      exact h.threshold id' params' hparams'

/-- What is put elsewhere leaves the electorate as it is. -/
theorem set_of_ne (h : l.Constituted) {k : Key} (v : k.Value) (hobservers : .observerSet ≠ k)
    (hparams : ∀ id, .chainParams id ≠ k) : (l.set k v).Constituted := by
  refine ⟨?_, fun id params hstored => h.threshold id params ?_⟩
  · rw [Ledger.observers, l.set_of_ne v hobservers]
    exact h.nodup
  · rwa [l.set_of_ne v (hparams id)] at hstored

/-- A member of the electorate makes a quorum possible. -/
theorem quorum_le_size (h : l.Constituted) {id : ChainId} {params : ChainParams}
    (hparams : l (.chainParams id) = some params) (hsize : 0 < l.observers.size) :
    l.observers.quorum params.thresholdPercent ≤ l.observers.size :=
  ObserverSet.quorum_le_size hsize (h.threshold id params hparams).2

end Ledger.Constituted

/-! ### Runs -/

/-- **Governance leaves the electorate in order**, whatever it decides. -/
theorem Ledger.Constituted.of_enacts {l l' : Ledger} (h : l.Constituted) (henacts : l.Enacts l') :
    l'.Constituted := by
  cases henacts with
  | keep hsame => exact h.congr fun k hk => hsame k hk.isAdministered
  | observers hsucceeds => exact h.set_observerSet (hsucceeds.nodup h.nodup)
  | register _ _ hproper => exact (h.set_of_ne _ (by simp) (by simp)).set_chainParams hproper
  | update _ hproper => exact h.set_chainParams hproper
  | switch => exact h.set_of_ne _ (by simp) (by simp)
  | append => exact h.set_of_ne _ (by simp) (by simp)
  | appoint => exact (h.set_of_ne _ (by simp) (by simp)).set_of_ne _ (by simp) (by simp)
  | activate => exact h.set_of_ne _ (by simp) (by simp)

/-- **The electorate of every world that is reached is in order.** -/
theorem Reachable.constituted {γ : Type} [Gateway γ] {service : Service} {w : World γ}
    (h : Reachable service w) : w.store.ledger.Constituted :=
  h.of_enacts (fun _ _ => Ledger.Constituted.of_enacts) .empty

end Settlement
