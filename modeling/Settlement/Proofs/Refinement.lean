import Settlement.Proofs.Store

/-!
# Drafts and direct writes

A draft keeps its writes beside its base, and merges the two whenever it is read. Nothing of this
can be seen: whatever is read and written on a draft, it answers as a store would on which the same
is written directly, and the batch of the draft brings the base to where that store is.

Both kinds of stores hold a map, answer reads with it, and change it by the writes that they take
(`Settlement.FaithfulStore`). So does a draft over any such store, also over another draft. What an
operation answers is then determined by the map (`Settlement.StoreOp.exists_run`), and so is what
operations answer one after the other (`Settlement.StoreOp.exists_runAll`).

Main statement: `Settlement.Overlay.refines_direct_writes`.
-/

namespace Settlement

/-! ### Listings -/

namespace ByteMap

variable {β : Type} {stem : Bytes}

/-- A key that starts with some bytes is not below them. -/
theorem not_lt_of_starts {k : Bytes} (h : stem <+: k) : ¬k < stem := by
  obtain ⟨rest, rfl⟩ := h
  intro hlt
  rw [← List.append_nil stem, List.append_assoc] at hlt
  induction stem with
  | nil => exact List.not_lt_nil _ hlt
  | cons b stem ih =>
    rw [List.cons_append, List.cons_append, List.cons_lt_cons_iff] at hlt
    exact hlt.elim (fun hb => absurd hb (UInt8.lt_irrefl b)) fun h => ih h.2

/-- Between some bytes and a key that starts with them, all keys start with them. -/
theorem starts_of_between {k j : Bytes} (hstem : ¬k < stem) (hkj : k < j) (hj : stem <+: j) :
    stem <+: k := by
  induction stem generalizing k j with
  | nil => exact List.nil_prefix
  | cons b stem ih =>
    obtain ⟨rest, rfl⟩ := hj
    cases k with
    | nil => exact absurd (List.nil_lt_cons b stem) hstem
    | cons a k =>
      rw [List.cons_lt_cons_iff] at hstem
      rw [List.cons_append, List.cons_lt_cons_iff] at hkj
      obtain hab | ⟨rfl, hkj⟩ := hkj
      · exact absurd (.inl hab) hstem
      · have hstem : ¬k < stem := fun h => hstem (.inr ⟨rfl, h⟩)
        exact List.cons_prefix_cons.2 ⟨rfl, ih hstem hkj (List.prefix_append stem rest)⟩

/-- The entries from some bytes on, up to the first whose key does not start with them. -/
def walk (m : ByteMap β) (stem : Bytes) : List (Bytes × β) :=
  (m.entries.dropWhile fun e => e.1 < stem).takeWhile fun e => stem.isPrefixOf e.1

/-- In increasing order, no key starts with some bytes after the first that does not. -/
theorem filter_eq_takeWhile {es : List (Bytes × β)} (hes : es.Pairwise fun x y => x.1 < y.1)
    (hstem : ∀ e ∈ es, ¬e.1 < stem) :
    (es.filter fun e => stem.isPrefixOf e.1) = es.takeWhile fun e => stem.isPrefixOf e.1 := by
  induction es with
  | nil => rfl
  | cons e es ih =>
    obtain ⟨he, hes⟩ := List.pairwise_cons.1 hes
    by_cases hstarts : stem.isPrefixOf e.1 = true
    · rw [List.filter_cons, if_pos hstarts, List.takeWhile_cons, if_pos hstarts,
        ih hes fun x hx => hstem x (List.mem_cons_of_mem _ hx)]
    · rw [List.filter_cons, if_neg hstarts, List.takeWhile_cons, if_neg hstarts,
        List.filter_eq_nil_iff]
      intro x hx hstarts'
      refine hstarts (List.isPrefixOf_iff_prefix.2 ?_)
      exact starts_of_between (hstem e List.mem_cons_self) (he x hx)
        (List.isPrefixOf_iff_prefix.1 hstarts')

/-- **A listing of the keys that start with some bytes is a walk** that begins at these bytes and
ends with the first key that does not start with them. -/
theorem scan_eq_walk (m : ByteMap β) (stem : Bytes) : m.scan stem = m.walk stem := by
  suffices h : ∀ es : List (Bytes × β), (es.Pairwise fun x y => x.1 < y.1) →
      (es.filter fun e => stem.isPrefixOf e.1)
        = (es.dropWhile fun e => e.1 < stem).takeWhile fun e => stem.isPrefixOf e.1 from
    h m.entries m.sorted
  intro es hes
  induction es with
  | nil => rfl
  | cons e es ih =>
    obtain ⟨he, hrest⟩ := List.pairwise_cons.1 hes
    by_cases hbelow : e.1 < stem
    · have hnot : ¬stem.isPrefixOf e.1 = true := fun h =>
        not_lt_of_starts (List.isPrefixOf_iff_prefix.1 h) hbelow
      rw [List.filter_cons, if_neg hnot, List.dropWhile_cons, if_pos (decide_eq_true hbelow)]
      exact ih hrest
    · rw [List.dropWhile_cons, if_neg (by simpa using hbelow)]
      refine filter_eq_takeWhile hes fun x hx hlt => ?_
      rcases List.mem_cons.1 hx with rfl | hx
      · exact hbelow hlt
      · exact hbelow (List.lt_trans (he x hx) hlt)

/-- A listing is in increasing order. -/
theorem sorted_scan (m : ByteMap β) (stem : Bytes) :
    (m.scan stem).Pairwise fun x y => x.1 < y.1 :=
  m.sorted.filter _

end ByteMap

/-! ### Stores that hold a map -/

/-- A store that holds a map. It answers reads with the map if it can be read, and changes the map
by the writes that it takes. -/
class FaithfulStore (σ : Type) [WritableStore σ] where
  /-- Whether the store answers reads. -/
  Readable : σ → Prop
  /-- Whether the store takes writes. -/
  Writable : σ → Prop
  /-- The map that the store holds. -/
  held : σ → ByteMap Bytes
  get_eq : ∀ {s : σ}, Readable s → ∀ key, ReadableStore.get s key = .ok ((held s).find? key)
  contains_eq : ∀ {s : σ}, Readable s → ∀ key,
    ReadableStore.contains s key = .ok ((held s).find? key).isSome
  scan_eq : ∀ {s : σ}, Readable s → ∀ stem, ReadableStore.scan s stem = .ok ((held s).scan stem)
  exists_write : ∀ {s : σ}, Writable s → ∀ writes, ∃ s', WritableStore.write s writes = .ok s' ∧
    (Readable s → Readable s') ∧ Writable s' ∧ held s' = Backend.applyAll (held s) writes

namespace Backend

/-- The store that holds a map, and works. -/
def ofMap (m : ByteMap Bytes) : Backend :=
  ⟨m, false, none⟩

theorem checkReadable_eq {b : Backend} (h : b.unreadable = none) (key : Bytes) :
    b.checkReadable key = .ok () := by
  rw [checkReadable, h]

instance : FaithfulStore Backend where
  Readable b := b.unreadable = none
  Writable b := b.rejectsWrites = false
  held b := b.entries
  get_eq {b} h key := by
    change (b.checkReadable key).map _ = _
    rw [checkReadable_eq h]
    rfl
  contains_eq {b} h key := by
    change (b.checkReadable key).map _ = _
    rw [checkReadable_eq h]
    rfl
  scan_eq {b} h stem := by
    change (b.checkReadable stem).map _ = _
    rw [checkReadable_eq h]
    rfl
  exists_write {b} h writes := by
    refine ⟨{ b with entries := applyAll b.entries writes }, ?_, id, h, rfl⟩
    change (if b.rejectsWrites then _ else _) = _
    rw [h]
    rfl

end Backend

namespace Overlay

section Held

variable {σ : Type} [WritableStore σ] [FaithfulStore σ]

/-- The map that a draft holds: that of its base after the batch of the draft. -/
def map (o : Overlay σ) : ByteMap Bytes :=
  Backend.applyAll (FaithfulStore.held o.base) o.writes

theorem find?_map (o : Overlay σ) (key : Bytes) :
    o.map.find? key = (o.pending.find? key).getD ((FaithfulStore.held o.base).find? key) :=
  find?_applyAll_map_writeOf o.pending.sorted key

/-- A listing that is merged is the one of the map. -/
theorem merge_scan (o : Overlay σ) (stem : Bytes) :
    (merge ((FaithfulStore.held o.base).scan stem) (o.pending.scan stem)).entries
      = o.map.scan stem := by
  refine ByteMap.eq_of_mem_iff (ByteMap.sorted _) (o.map.sorted_scan stem) fun e => ?_
  rw [ByteMap.mem_scan_iff, find?_map, ← find?_merge ByteMap.mem_scan_iff]
  exact ByteMap.find?_eq_some_iff.symm

/-- The map after writes on a draft is the one after these writes. -/
theorem map_write (o : Overlay σ) (writes : List Write) :
    ({ o with pending := writes.foldl apply o.pending } : Overlay σ).map
      = Backend.applyAll o.map writes := by
  refine ByteMap.ext_find? fun key => ?_
  rw [find?_map, Backend.find?_applyAll]
  refine (congrFun (getD_find?_foldl_apply (FaithfulStore.held o.base).find? o.pending writes)
    key).trans ?_
  exact congrArg (fun m => writes.foldl Contents.apply m key) (funext (find?_map o)).symm

/-- **A draft holds a map too**, whether its base takes writes or not. -/
instance : FaithfulStore (Overlay σ) where
  Readable o := FaithfulStore.Readable o.base
  Writable _ := True
  held := map
  get_eq {o} h key := by
    rw [find?_map]
    change (match o.pending.find? key with
      | some value => Except.ok value
      | none => ReadableStore.get o.base key) = _
    cases o.pending.find? key with
    | some value => rfl
    | none => exact FaithfulStore.get_eq h key
  contains_eq {o} h key := by
    rw [find?_map]
    change (match o.pending.find? key with
      | some value => Except.ok value.isSome
      | none => ReadableStore.contains o.base key) = _
    cases o.pending.find? key with
    | some value => rfl
    | none => exact FaithfulStore.contains_eq h key
  scan_eq {o} h stem := by
    change (ReadableStore.scan o.base stem).map _ = _
    rw [FaithfulStore.scan_eq h stem, ← merge_scan o stem]
    rfl
  exists_write {o} _ writes := ⟨_, rfl, id, trivial, map_write o writes⟩

end Held

end Overlay

/-! ### Operations -/

/-- An operation on a store. -/
inductive StoreOp where
  | put (key value : Bytes)
  | delete (key : Bytes)
  | batch (writes : List Write)
  | get (key : Bytes)
  | contains (key : Bytes)
  | scan (stem : Bytes)
  deriving DecidableEq

/-- What an operation answers. -/
inductive StoreAnswer where
  | done
  | value (value : Option Bytes)
  | found (found : Bool)
  | entries (entries : List (Bytes × Bytes))
  deriving DecidableEq

namespace StoreOp

/-- The writes of an operation. -/
def writes : StoreOp → List Write
  | put key value => [.put key value]
  | delete key => [.delete key]
  | batch writes => writes
  | get _ | contains _ | scan _ => []

section Run

variable {σ : Type} [WritableStore σ]

/-- What an operation does on a store. -/
def run (s : σ) : StoreOp → Except StoreFault (StoreAnswer × σ)
  | put key value => (WritableStore.write s [.put key value]).map fun s => (.done, s)
  | delete key => (WritableStore.write s [.delete key]).map fun s => (.done, s)
  | batch writes => (WritableStore.write s writes).map fun s => (.done, s)
  | get key => (ReadableStore.get s key).map fun value => (.value value, s)
  | contains key => (ReadableStore.contains s key).map fun found => (.found found, s)
  | scan stem => (ReadableStore.scan s stem).map fun entries => (.entries entries, s)

/-- What operations do on a store, one after the other. -/
def runAll (s : σ) : List StoreOp → Except StoreFault (List StoreAnswer × σ)
  | [] => .ok ([], s)
  | op :: ops => do
    let (answer, s) ← run s op
    let (answers, s) ← runAll s ops
    return (answer :: answers, s)

end Run

/-! ### What a map says of operations -/

/-- What an operation answers on a map. -/
def answer (m : ByteMap Bytes) : StoreOp → StoreAnswer
  | put _ _ | delete _ | batch _ => .done
  | get key => .value (m.find? key)
  | contains key => .found (m.find? key).isSome
  | scan stem => .entries (m.scan stem)

/-- What operations answer on a map, one after the other. -/
def answers (m : ByteMap Bytes) : List StoreOp → List StoreAnswer
  | [] => []
  | op :: ops => op.answer m :: answers (Backend.applyAll m op.writes) ops

section Faithful

variable {σ : Type} [WritableStore σ] [FaithfulStore σ] {s : σ}

/-- **The map of a store says what an operation answers**, and how the map changes. -/
theorem exists_run (hread : FaithfulStore.Readable s) (hwrite : FaithfulStore.Writable s)
    (op : StoreOp) : ∃ s', run s op = .ok (op.answer (FaithfulStore.held s), s') ∧
      FaithfulStore.Readable s' ∧ FaithfulStore.Writable s' ∧
      FaithfulStore.held s' = Backend.applyAll (FaithfulStore.held s) op.writes := by
  have hwritten (writes : List Write) : ∃ s', (WritableStore.write s writes).map
      (fun s => (StoreAnswer.done, s)) = .ok (.done, s') ∧ FaithfulStore.Readable s' ∧
      FaithfulStore.Writable s' ∧
      FaithfulStore.held s' = Backend.applyAll (FaithfulStore.held s) writes := by
    obtain ⟨s', hs', hread', hwrite', hheld⟩ := FaithfulStore.exists_write hwrite writes
    exact ⟨s', by rw [hs']; rfl, hread' hread, hwrite', hheld⟩
  cases op with
  | put key value => exact hwritten _
  | delete key => exact hwritten _
  | batch writes => exact hwritten writes
  | get key => exact ⟨s, by rw [run, FaithfulStore.get_eq hread]; rfl, hread, hwrite, rfl⟩
  | contains key =>
    exact ⟨s, by rw [run, FaithfulStore.contains_eq hread]; rfl, hread, hwrite, rfl⟩
  | scan stem => exact ⟨s, by rw [run, FaithfulStore.scan_eq hread]; rfl, hread, hwrite, rfl⟩

/-- **The map of a store says what operations answer**, one after the other. -/
theorem exists_runAll (hread : FaithfulStore.Readable s) (hwrite : FaithfulStore.Writable s)
    (ops : List StoreOp) : ∃ s', runAll s ops = .ok (answers (FaithfulStore.held s) ops, s') ∧
      FaithfulStore.Readable s' ∧ FaithfulStore.Writable s' ∧
      FaithfulStore.held s'
        = Backend.applyAll (FaithfulStore.held s) (ops.flatMap StoreOp.writes) := by
  induction ops generalizing s with
  | nil => exact ⟨s, rfl, hread, hwrite, rfl⟩
  | cons op ops ih =>
    obtain ⟨s₁, hrun, hread₁, hwrite₁, hheld₁⟩ := exists_run hread hwrite op
    obtain ⟨s₂, hrest, hread₂, hwrite₂, hheld₂⟩ := ih hread₁ hwrite₁
    refine ⟨s₂, ?_, hread₂, hwrite₂, ?_⟩
    · rw [runAll, answers, ← hheld₁]
      exact bind_eq hrun (bind_eq hrest rfl)
    · rw [hheld₂, hheld₁, List.flatMap_cons, Backend.applyAll, Backend.applyAll,
        Backend.applyAll, List.foldl_append]

end Faithful

end StoreOp

/-! ### The batch of a draft -/

namespace Overlay

section Run

variable {σ : Type} [WritableStore σ] {o o' : Overlay σ}

/-- An operation on a draft leaves its base as it is, and adds its writes. -/
theorem eq_of_run {op : StoreOp} {answer : StoreAnswer} (h : op.run o = .ok (answer, o')) :
    o' = { o with pending := op.writes.foldl apply o.pending } := by
  cases op with
  | put | delete | batch =>
    cases h
    rfl
  | get | contains | scan =>
    obtain ⟨_, -, heq⟩ := map_eq_ok_iff.1 h
    cases heq
    rfl

theorem eq_of_runAll {ops : List StoreOp} {answers : List StoreAnswer}
    (h : StoreOp.runAll o ops = .ok (answers, o')) :
    o' = { o with pending := (ops.flatMap StoreOp.writes).foldl apply o.pending } := by
  induction ops generalizing o answers with
  | nil =>
    cases h
    rfl
  | cons op ops ih =>
    obtain ⟨⟨answer, o₁⟩, hrun, h⟩ := bind_eq_ok_iff.1 h
    obtain ⟨⟨rest, o₂⟩, hrest, h⟩ := bind_eq_ok_iff.1 h
    cases h
    rw [ih hrest, eq_of_run hrun, List.flatMap_cons, List.foldl_append]

end Run

section Batch

variable {σ : Type}

/-- The keys of the batch are those of the pending writes. -/
theorem map_key_writes (o : Overlay σ) :
    o.writes.map Write.key = o.pending.entries.map Prod.fst := by
  rw [writes, List.map_map]
  refine List.map_congr_left fun e _ => ?_
  obtain ⟨key, value⟩ := e
  cases value <;> rfl

/-- The batch names no key twice. -/
theorem nodup_map_key_writes (o : Overlay σ) : (o.writes.map Write.key).Nodup := by
  rw [map_key_writes, List.Nodup, List.pairwise_map]
  refine o.pending.sorted.imp fun {x y} hlt heq => ?_
  rw [heq] at hlt
  exact List.lt_irrefl _ hlt

theorem mem_map_key_writes_iff (o : Overlay σ) (key : Bytes) :
    key ∈ o.writes.map Write.key ↔ (o.pending.find? key).isSome := by
  rw [map_key_writes, Option.isSome_iff_exists]
  simp only [ByteMap.find?_eq_some_iff, List.mem_map, Prod.exists, exists_and_right,
    exists_eq_right]

/-- A write is entered under its key. -/
theorem isSome_find?_apply (pending : ByteMap (Option Bytes)) (w : Write) (key : Bytes) :
    ((apply pending w).find? key).isSome ↔ (pending.find? key).isSome ∨ key = w.key := by
  cases w with
  | put j value =>
    rw [apply, ByteMap.find?_insert, Write.key]
    split <;> simp [*]
  | delete j =>
    rw [apply, ByteMap.find?_insert, Write.key]
    split <;> simp [*]

theorem isSome_find?_foldl_apply (pending : ByteMap (Option Bytes)) (writes : List Write)
    (key : Bytes) : ((writes.foldl apply pending).find? key).isSome ↔
      (pending.find? key).isSome ∨ key ∈ writes.map Write.key := by
  induction writes generalizing pending with
  | nil => simp
  | cons w writes ih =>
    rw [List.foldl_cons, ih, isSome_find?_apply, List.map_cons, List.mem_cons, or_assoc]

end Batch

/-! ### The refinement -/

section Refinement

variable {σ : Type} [WritableStore σ] [FaithfulStore σ]

/-- **A draft does what direct writes do.** Take any store that can be read, and any operations.
Made on a draft over this store, they answer what they answer when they are made directly on a
copy of the map that it holds. The store underneath is the same afterwards, and if it takes
writes, then the batch of the draft leaves the map of the copy in it; the batch names once every
key that was written or deleted, and no other. What is read on the draft and on the copy is the
same: under a key, and also in a listing, which is a walk through the map from the given bytes on,
and has the entries under the keys that start with these bytes, each once, in increasing order. -/
theorem refines_direct_writes (base : σ) (hread : FaithfulStore.Readable base)
    (ops : List StoreOp) :
    ∃ (answers : List StoreAnswer) (o : Overlay σ) (copy : Backend),
      StoreOp.runAll (fresh base) ops = .ok (answers, o) ∧
      StoreOp.runAll (Backend.ofMap (FaithfulStore.held base)) ops = .ok (answers, copy) ∧
      o.base = base ∧
      (FaithfulStore.Writable base → ∃ s, WritableStore.write base o.writes = .ok s ∧
        FaithfulStore.Readable s ∧ FaithfulStore.held s = copy.entries) ∧
      (o.writes.map Write.key).Nodup ∧
      (∀ key, key ∈ o.writes.map Write.key ↔
        ∃ op ∈ ops, key ∈ op.writes.map Write.key) ∧
      (∀ key, ReadableStore.get o key = ReadableStore.get copy key ∧
        ReadableStore.contains o key = ReadableStore.contains copy key) ∧
      ∀ stem, ReadableStore.scan o stem = .ok (copy.entries.walk stem) ∧
        ReadableStore.scan copy stem = .ok (copy.entries.walk stem) ∧
        ((copy.entries.walk stem).Pairwise fun x y => x.1 < y.1) ∧
        ∀ key value, (key, value) ∈ copy.entries.walk stem ↔
          stem <+: key ∧ ReadableStore.get o key = .ok (some value) := by
  obtain ⟨o, ho, hreado, -, hheldo⟩ :=
    StoreOp.exists_runAll (s := fresh base) hread trivial ops
  obtain ⟨copy, hcopy, hreadc, -, hheldc⟩ :=
    StoreOp.exists_runAll (s := Backend.ofMap (FaithfulStore.held base)) rfl rfl ops
  -- Both come to the same map.
  have hheld : FaithfulStore.held o = copy.entries := hheldo.trans hheldc.symm
  have hpending := eq_of_runAll ho
  have hbase : o.base = base := by rw [hpending]; rfl
  have hget (key : Bytes) : ReadableStore.get o key = .ok (copy.entries.find? key) := by
    rw [FaithfulStore.get_eq hreado, hheld]
  refine ⟨_, o, copy, ho, hcopy, hbase, fun hwrite => ?_, o.nodup_map_key_writes, fun key => ?_,
    fun key => ⟨?_, ?_⟩, fun stem => ⟨?_, ?_, ?_, fun key value => ?_⟩⟩
  · obtain ⟨s, hs, hreads, -, hheads⟩ := FaithfulStore.exists_write hwrite o.writes
    refine ⟨s, hs, hreads hread, ?_⟩
    rw [hheads, ← hheld, ← hbase]
    rfl
  · rw [mem_map_key_writes_iff, hpending]
    refine (isSome_find?_foldl_apply _ _ key).trans ?_
    simp [fresh, List.map_flatMap]
  · rw [hget, FaithfulStore.get_eq hreadc]
    rfl
  · rw [FaithfulStore.contains_eq hreado, FaithfulStore.contains_eq hreadc, hheld]
    rfl
  · rw [FaithfulStore.scan_eq hreado, hheld, ByteMap.scan_eq_walk]
  · rw [FaithfulStore.scan_eq hreadc, ← ByteMap.scan_eq_walk]
    rfl
  · rw [← ByteMap.scan_eq_walk]
    exact copy.entries.sorted_scan stem
  · rw [← ByteMap.scan_eq_walk, ByteMap.mem_scan_iff, hget, Except.ok.injEq]

/-- A draft over a store that deletes the first of its two keys, and puts a third. -/
def half : Overlay Backend :=
  let base := Backend.ofMap ((ByteMap.empty.insert [1] [10]).insert [1, 2] [20])
  ⟨base, [.delete [1], .put [1, 3] [30]].foldl apply .empty⟩

/-- Operations that delete a key of the store underneath, put one again that was deleted, and write
one key several times in a batch. -/
def halfOps : List StoreOp :=
  [.scan [1], .delete [1, 2], .batch [.put [1] [7], .delete [1], .put [1] [8]], .get [1, 2],
    .contains [1], .scan [1]]

/-- On a further draft over this one, they answer as on the copy: the last write of a batch counts,
and a deleted key is not listed. The batch has each of the two keys once. -/
theorem draft_over_draft : FaithfulStore.Readable half ∧
    ∃ (o : Overlay (Overlay Backend)) (copy : Backend),
      StoreOp.runAll (fresh half) halfOps = .ok ([.entries [([1, 2], [20]), ([1, 3], [30])],
        .done, .done, .value none, .found true, .entries [([1], [8]), ([1, 3], [30])]], o) ∧
      (StoreOp.runAll (Backend.ofMap (FaithfulStore.held half)) halfOps).map Prod.fst
        = (StoreOp.runAll (fresh half) halfOps).map Prod.fst ∧
      o.writes.map Write.key = [[1], [1, 2]] ∧
      ∃ s, WritableStore.write half o.writes = .ok s ∧ FaithfulStore.held s = copy.entries := by
  have hread : FaithfulStore.Readable half := rfl
  obtain ⟨answers, o, copy, ho, hcopy, -, hbatch, -⟩ := refines_direct_writes half hread halfOps
  obtain ⟨s, hs, -, hheld⟩ := hbatch trivial
  obtain rfl := Except.ok.inj (congrArg (Except.map Prod.fst) ho)
  refine ⟨hread, o, copy, ho, by rw [ho, hcopy]; rfl, ?_, s, hs, hheld⟩
  exact (Except.ok.inj (congrArg (Except.map fun r => r.2.writes.map Write.key) ho)).symm

end Refinement

end Overlay

end Settlement
