import Settlement.Nonce

/-!
# Sets of nonces

What is in a set of nonces after an insertion and after a removal
(`Settlement.NonceSet.contains_insert`, `Settlement.NonceSet.contains_erase`), and that a set is
given back by the list of its elements (`Settlement.NonceSet.ofList_toList`).
-/

namespace Settlement

namespace NonceSet

/-- Sets with the same list of elements are equal. -/
theorem ext {s t : NonceSet} (h : s.toList = t.toList) : s = t := by
  cases s
  cases t
  cases h
  rfl

@[simp]
theorem contains_empty (n : UInt64) : empty.contains n = false :=
  rfl

@[simp]
theorem contains_insert (s : NonceSet) (n m : UInt64) :
    (s.insert n).contains m = true ↔ m = n ∨ s.contains m = true := by
  simp only [contains, insert, List.contains_iff_mem, mem_insertWord]

@[simp]
theorem contains_erase (s : NonceSet) (n m : UInt64) :
    (s.erase n).contains m = true ↔ s.contains m = true ∧ m ≠ n := by
  simp only [contains, erase, List.contains_iff_mem, List.mem_filter, bne_iff_ne]

/-- Removing what is not an element changes nothing. -/
theorem erase_of_not_contains {s : NonceSet} {n : UInt64} (h : s.contains n = false) :
    s.erase n = s := by
  refine ext (List.filter_eq_self.2 fun m hm => ?_)
  rw [bne_iff_ne]
  rintro rfl
  rw [contains, List.contains_iff_mem.2 hm] at h
  cases h

/-- A word above all elements goes to the end of the list. -/
theorem insertWord_of_lt {n : UInt64} {ms : List UInt64} (h : ∀ m ∈ ms, m < n) :
    insertWord n ms = ms ++ [n] := by
  induction ms with
  | nil => rfl
  | cons m ms ih =>
    have hm : m < n := h m List.mem_cons_self
    rw [insertWord, if_neg (UInt64.lt_asymm hm), if_neg (UInt64.ne_of_lt hm).symm,
      ih fun k hk => h k (List.mem_cons_of_mem m hk), List.cons_append]

theorem toList_foldl_insert {s : NonceSet} {ns : List UInt64}
    (h : (s.toList ++ ns).Pairwise (· < ·)) : (ns.foldl insert s).toList = s.toList ++ ns := by
  induction ns generalizing s with
  | nil => exact (List.append_nil _).symm
  | cons n ns ih =>
    have hs : (s.insert n).toList = s.toList ++ [n] :=
      insertWord_of_lt fun m hm => (List.pairwise_append.1 h).2.2 m hm n List.mem_cons_self
    rw [List.foldl_cons, ih (by rw [hs, List.append_assoc]; exact h), hs, List.append_assoc]
    rfl

/-- **A set is given back by the list of its elements.** -/
theorem ofList_toList (s : NonceSet) : ofList s.toList = s :=
  ext (toList_foldl_insert (s := empty) s.sorted)

/-- A set has at most one element more after an insertion. -/
theorem length_insertWord_le (n : UInt64) (ms : List UInt64) :
    (insertWord n ms).length ≤ ms.length + 1 := by
  induction ms with
  | nil => exact Nat.le_refl _
  | cons m ms ih =>
    rw [insertWord]
    split
    · exact Nat.le_refl _
    · split
      · exact Nat.le_succ _
      · exact Nat.succ_le_succ ih

end NonceSet

end Settlement
