import Settlement.Bytes

/-!
# Maps from keys to values

Keys are byte strings in lexicographic order. A map is the list of its entries in strictly
increasing order of their keys, so two maps with the same entries are equal, and listing a map
or the part of it under some leading bytes needs no sorting.

Main statements: what is found after an insertion and after a removal
(`Settlement.ByteMap.find?_insert`, `Settlement.ByteMap.find?_erase`), and that maps in which
the same is found under every key are equal (`Settlement.ByteMap.ext_find?`).
-/

namespace Settlement

/-- A finite map from byte strings. -/
structure ByteMap (β : Type) where
  /-- The keys with their values. -/
  entries : List (Bytes × β)
  /-- The keys increase. -/
  sorted : entries.Pairwise fun x y => x.1 < y.1

namespace ByteMap

variable {β : Type}

/-! ### Entries in the order of their keys -/

/-- The value of the first entry with a key. -/
def findEntry (k : Bytes) : List (Bytes × β) → Option β
  | [] => none
  | e :: es => if k = e.1 then some e.2 else findEntry k es

/-- The entries with the value under a key set. -/
def insertEntry (k : Bytes) (v : β) : List (Bytes × β) → List (Bytes × β)
  | [] => [(k, v)]
  | e :: es =>
    if k < e.1 then (k, v) :: e :: es
    else if k = e.1 then (k, v) :: es
    else e :: insertEntry k v es

theorem fst_of_mem_insertEntry {k : Bytes} {v : β} {es : List (Bytes × β)} {x : Bytes × β}
    (h : x ∈ insertEntry k v es) : x.1 = k ∨ x ∈ es := by
  induction es with
  | nil => simp_all [insertEntry]
  | cons e es ih =>
    rw [insertEntry] at h
    split at h
    · rcases List.mem_cons.1 h with rfl | h <;> simp_all
    · split at h
      · rcases List.mem_cons.1 h with rfl | h <;> simp_all
      · rcases List.mem_cons.1 h with rfl | h
        · simp
        · rcases ih h with h | h <;> simp_all

theorem sorted_insertEntry (k : Bytes) (v : β) {es : List (Bytes × β)}
    (h : es.Pairwise fun x y => x.1 < y.1) :
    (insertEntry k v es).Pairwise fun x y => x.1 < y.1 := by
  induction es with
  | nil => simp [insertEntry]
  | cons e es ih =>
    obtain ⟨he, hes⟩ := List.pairwise_cons.1 h
    rw [insertEntry]
    split
    · rename_i hlt
      refine List.pairwise_cons.2 ⟨fun x hx => ?_, h⟩
      rcases List.mem_cons.1 hx with rfl | hx
      · exact hlt
      · exact List.lt_trans hlt (he x hx)
    · rename_i hle
      split
      · rename_i heq
        exact List.pairwise_cons.2 ⟨fun x hx => heq ▸ he x hx, hes⟩
      · rename_i hne
        refine List.pairwise_cons.2 ⟨fun x hx => ?_, ih hes⟩
        rcases fst_of_mem_insertEntry hx with hx | hx
        · exact hx ▸ Std.lt_of_le_of_ne (List.not_lt.1 hle) (Ne.symm hne)
        · exact he x hx

/-! ### Operations -/

/-- The map without entries. -/
def empty : ByteMap β :=
  ⟨[], .nil⟩

/-- The value under a key. -/
def find? (m : ByteMap β) (k : Bytes) : Option β :=
  findEntry k m.entries

/-- The map with the value under a key set. -/
def insert (m : ByteMap β) (k : Bytes) (v : β) : ByteMap β :=
  ⟨insertEntry k v m.entries, sorted_insertEntry k v m.sorted⟩

/-- The map without a key. -/
def erase (m : ByteMap β) (k : Bytes) : ByteMap β :=
  ⟨m.entries.filter fun e => e.1 != k, m.sorted.filter _⟩

/-- The map with the given values set one after the other. -/
def insertMany (m : ByteMap β) (es : List (Bytes × β)) : ByteMap β :=
  es.foldl (fun m e => m.insert e.1 e.2) m

/-- The entries whose keys start with the given bytes. -/
def scan (m : ByteMap β) (stem : Bytes) : List (Bytes × β) :=
  m.entries.filter fun e => stem.isPrefixOf e.1

/-! ### What is found -/

theorem findEntry_insertEntry (k j : Bytes) (v : β) (es : List (Bytes × β)) :
    findEntry j (insertEntry k v es) = if j = k then some v else findEntry j es := by
  induction es with
  | nil => simp [insertEntry, findEntry]
  | cons e es ih =>
    rw [insertEntry]
    split
    · simp [findEntry]
    · split
      · rename_i heq
        by_cases h : j = k <;> simp [findEntry, ← heq, h]
      · rename_i hne
        by_cases h : j = e.1
        · have : j ≠ k := fun hk => hne (hk ▸ h)
          simp [findEntry, h, Ne.symm hne]
        · simp [findEntry, h, ih]

theorem find?_insert (m : ByteMap β) (k j : Bytes) (v : β) :
    (m.insert k v).find? j = if j = k then some v else m.find? j :=
  findEntry_insertEntry k j v m.entries

theorem findEntry_filter_ne (k j : Bytes) (es : List (Bytes × β)) :
    findEntry j (es.filter fun e => e.1 != k) = if j = k then none else findEntry j es := by
  induction es with
  | nil => simp [findEntry]
  | cons e es ih =>
    by_cases hk : e.1 = k
    · rw [List.filter_cons_of_neg (by simpa using hk), ih]
      by_cases h : j = k <;> simp [findEntry, hk, h]
    · by_cases h : j = e.1
      · simp [findEntry, h, hk]
      · simp [findEntry, h, hk, ih]

theorem find?_erase (m : ByteMap β) (k j : Bytes) :
    (m.erase k).find? j = if j = k then none else m.find? j :=
  findEntry_filter_ne k j m.entries

@[simp]
theorem find?_empty (k : Bytes) : (empty : ByteMap β).find? k = none :=
  rfl

/-- What is found under a key is the entry with this key. -/
theorem findEntry_eq_some_iff {es : List (Bytes × β)}
    (hes : es.Pairwise fun x y => x.1 < y.1) (k : Bytes) (v : β) :
    findEntry k es = some v ↔ (k, v) ∈ es := by
  induction es with
  | nil => simp [findEntry]
  | cons e es ih =>
    obtain ⟨he, hrest⟩ := List.pairwise_cons.1 hes
    by_cases h : k = e.1
    · have hnot : (k, v) ∉ es := fun hmem => List.lt_irrefl k (by simpa [h] using he _ hmem)
      rw [h] at hnot
      simp [findEntry, h, Prod.ext_iff, hnot, eq_comm]
    · simp [findEntry, h, Prod.ext_iff, ih hrest]

theorem find?_eq_some_iff {m : ByteMap β} {k : Bytes} {v : β} :
    m.find? k = some v ↔ (k, v) ∈ m.entries :=
  findEntry_eq_some_iff m.sorted k v

/-- Increasing lists with the same entries are equal. -/
theorem eq_of_mem_iff {es fs : List (Bytes × β)} (hes : es.Pairwise fun x y => x.1 < y.1)
    (hfs : fs.Pairwise fun x y => x.1 < y.1) (h : ∀ x, x ∈ es ↔ x ∈ fs) : es = fs := by
  induction es generalizing fs with
  | nil =>
    cases fs with
    | nil => rfl
    | cons f fs => exact absurd ((h f).2 (by simp)) (by simp)
  | cons e es ih =>
    cases fs with
    | nil => exact absurd ((h e).1 (by simp)) (by simp)
    | cons f fs =>
      obtain ⟨he, hes'⟩ := List.pairwise_cons.1 hes
      obtain ⟨hf, hfs'⟩ := List.pairwise_cons.1 hfs
      have hef : e = f := by
        rcases List.mem_cons.1 ((h e).1 (by simp)) with h1 | h1
        · exact h1
        rcases List.mem_cons.1 ((h f).2 (by simp)) with h2 | h2
        · exact h2.symm
        exact absurd (List.lt_trans (he _ h2) (hf _ h1)) (List.lt_irrefl _)
      subst hef
      have hnes : e ∉ es := fun hm => List.lt_irrefl _ (he _ hm)
      have hnfs : e ∉ fs := fun hm => List.lt_irrefl _ (hf _ hm)
      rw [ih hes' hfs' fun x => ⟨fun hx => ?_, fun hx => ?_⟩]
      · rcases List.mem_cons.1 ((h x).1 (List.mem_cons_of_mem _ hx)) with rfl | h1
        · exact absurd hx hnes
        · exact h1
      · rcases List.mem_cons.1 ((h x).2 (List.mem_cons_of_mem _ hx)) with rfl | h1
        · exact absurd hx hnfs
        · exact h1

/-- Maps in which the same is found under every key are equal. -/
theorem ext_find? {m n : ByteMap β} (h : ∀ k, m.find? k = n.find? k) : m = n := by
  have hmem : ∀ x, x ∈ m.entries ↔ x ∈ n.entries := fun (k, v) => by
    rw [← find?_eq_some_iff, ← find?_eq_some_iff, h]
  obtain ⟨es, hes⟩ := m
  obtain ⟨fs, hfs⟩ := n
  obtain rfl : es = fs := eq_of_mem_iff hes hfs hmem
  rfl

end ByteMap

end Settlement
