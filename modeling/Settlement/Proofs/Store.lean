import Mathlib.Logic.Function.Basic
import Settlement.Proofs.Success
import Settlement.Store.Commit

/-!
# What stores hold

The contents of a store say which bytes are under which key. The committed store and the draft
of a transition are lawful in the same way (`Settlement.LawfulStore`): what is read is what they
hold, and a write changes what they hold at its own key.

Main statement: a transition that is committed leaves the committed store with the contents of
its draft (`Settlement.Backend.eq_of_conclude_ok`), and otherwise the committed store stays as it
is (`Settlement.Backend.eq_of_conclude_error`).
-/

namespace Settlement

/-! ### Contents -/

/-- The bytes under every key. -/
abbrev Contents : Type :=
  Bytes → Option Bytes

/-- The contents after a write. -/
def Contents.apply (m : Contents) : Write → Contents
  | .put key value => Function.update m key (some value)
  | .delete key => Function.update m key none

/-- What writes leave in a place depends only on what was there. -/
theorem Contents.foldl_apply_congr {m m' : Contents} {bs : Bytes} (h : m bs = m' bs)
    (writes : List Write) : writes.foldl apply m bs = writes.foldl apply m' bs := by
  induction writes generalizing m m' with
  | nil => exact h
  | cons write rest ih =>
    refine ih ?_
    cases write <;> simp only [apply, Function.update_apply, h]

/-- A store that answers reads with what it holds, and whose writes change that and nothing
else. It may still refuse to answer. -/
class LawfulStore (σ : Type) [WritableStore σ] where
  /-- What the store holds. -/
  contents : σ → Contents
  eq_of_get : ∀ {s : σ} {key : Bytes} {value : Option Bytes},
    ReadableStore.get s key = .ok value → value = contents s key
  eq_of_contains : ∀ {s : σ} {key : Bytes} {found : Bool},
    ReadableStore.contains s key = .ok found → found = (contents s key).isSome
  /-- A listing holds the entries that start with the given bytes, and no others. -/
  mem_scan_iff : ∀ {s : σ} {stem : Bytes} {entries : List (Bytes × Bytes)},
    ReadableStore.scan s stem = .ok entries →
      ∀ e, e ∈ entries ↔ stem <+: e.1 ∧ contents s e.1 = some e.2
  contents_of_write : ∀ {s s' : σ} {writes : List Write},
    WritableStore.write s writes = .ok s' → contents s' = writes.foldl Contents.apply (contents s)

export LawfulStore (contents)

section Records

variable {σ α : Type} [WritableStore σ] [LawfulStore σ] [Layout α] {s s' : σ} {key : Bytes}

/-- A record that is put is what is under its key then, -/
theorem contents_putRecord {a : α} (h : putRecord s key a = .ok s') :
    contents s' = Function.update (contents s) key (some (Record.encode a)) :=
  LawfulStore.contents_of_write (mapError_eq_ok_iff.1 h)

omit [Layout α] in
/-- and under a key that is deleted there is nothing. -/
theorem contents_deleteRecord (h : deleteRecord s key = .ok s') :
    contents s' = Function.update (contents s) key none :=
  LawfulStore.contents_of_write (mapError_eq_ok_iff.1 h)

end Records

/-! ### The committed store -/

namespace ByteMap

variable {β : Type}

/-- A key below all others has no entry among them. -/
theorem findEntry_eq_none {k : Bytes} {es : List (Bytes × β)}
    (hes : es.Pairwise fun x y => x.1 < y.1) (h : ∀ e ∈ es, k < e.1) : findEntry k es = none := by
  cases hfound : findEntry k es with
  | none => rfl
  | some v =>
    have hmem := (findEntry_eq_some_iff hes k v).1 hfound
    exact absurd (h _ hmem) (List.lt_irrefl k)

/-- A filter on keys keeps what is found under the keys that pass it. -/
theorem mem_scan_iff {m : ByteMap β} {stem : Bytes} (e : Bytes × β) :
    e ∈ m.scan stem ↔ stem <+: e.1 ∧ m.find? e.1 = some e.2 := by
  rw [scan, List.mem_filter, List.isPrefixOf_iff_prefix, find?_eq_some_iff]
  exact And.comm

/-- The map that is built from entries with one value for every key holds these entries. -/
theorem find?_insertMany {m : ByteMap β} {es : List (Bytes × β)}
    (h : ∀ k v w, (k, v) ∈ es → (k, w) ∈ es → v = w) (k : Bytes) (v : β) :
    (m.insertMany es).find? k = some v ↔
      (k, v) ∈ es ∨ (∀ w, (k, w) ∉ es) ∧ m.find? k = some v := by
  induction es generalizing m with
  | nil => simp [insertMany]
  | cons e es ih =>
    obtain ⟨j, u⟩ := e
    have ih := ih (m := m.insert j u) fun k v w hv hw =>
      h k v w (List.mem_cons_of_mem _ hv) (List.mem_cons_of_mem _ hw)
    rw [insertMany, List.foldl_cons]
    refine ih.trans ?_
    rw [find?_insert]
    by_cases hk : k = j
    -- A later entry under the same key wins, but it has the same value.
    · subst hk
      have hu (w : β) (hw : (k, w) ∈ es) : w = u :=
        h k w u (List.mem_cons_of_mem _ hw) List.mem_cons_self
      by_cases hmem : (k, v) ∈ es
      · simp [hmem]
      · by_cases huv : u = v
        · subst huv
          have hnone : ∀ w, (k, w) ∉ es := fun w hw => hmem (hu w hw ▸ hw)
          simp [hnone]
        · have hne : v ≠ u := fun hvu => huv hvu.symm
          simp only [hmem, if_true, Option.some.injEq, huv, and_false, or_false, List.mem_cons,
            Prod.mk.injEq, hne, false_iff, false_or, not_and]
          exact fun hnone => absurd (Or.inl ⟨trivial, rfl⟩) (hnone u)
    · simp [hk]

end ByteMap

namespace Backend

theorem find?_apply (m : ByteMap Bytes) (w : Write) :
    (apply m w).find? = Contents.apply m.find? w := by
  funext k
  cases w with
  | put key value =>
    rw [apply, ByteMap.find?_insert, Contents.apply, Function.update_apply]
  | delete key =>
    rw [apply, ByteMap.find?_erase, Contents.apply, Function.update_apply]

theorem find?_applyAll (m : ByteMap Bytes) (writes : List Write) :
    (applyAll m writes).find? = writes.foldl Contents.apply m.find? := by
  induction writes generalizing m with
  | nil => rfl
  | cons w writes ih =>
    rw [applyAll, List.foldl_cons, List.foldl_cons, ← find?_apply]
    exact ih (apply m w)

instance : LawfulStore Backend where
  contents b := b.entries.find?
  eq_of_get h := by
    obtain ⟨_, _, rfl⟩ := map_eq_ok_iff.1 h
    rfl
  eq_of_contains h := by
    obtain ⟨_, _, rfl⟩ := map_eq_ok_iff.1 h
    rfl
  mem_scan_iff h e := by
    obtain ⟨_, _, rfl⟩ := map_eq_ok_iff.1 h
    exact ByteMap.mem_scan_iff e
  contents_of_write {b _ writes} h := by
    rcases ite_eq_ok_iff.1 h with ⟨_, h⟩ | ⟨_, h⟩
    · cases h
    · cases h
      exact find?_applyAll b.entries writes

end Backend

/-! ### Drafts -/

namespace Overlay

/-- A batch that names every key once brings each of these keys to its own value. -/
theorem find?_applyAll_map_writeOf {m : ByteMap Bytes} {es : List (Bytes × Option Bytes)}
    (hes : es.Pairwise fun x y => x.1 < y.1) (k : Bytes) :
    (Backend.applyAll m (es.map writeOf)).find? k
      = (ByteMap.findEntry k es).getD (m.find? k) := by
  induction es generalizing m with
  | nil => rfl
  | cons e es ih =>
    obtain ⟨he, hes⟩ := List.pairwise_cons.1 hes
    have hstep : (Backend.apply m (writeOf e)).find? k = if k = e.1 then e.2 else m.find? k := by
      obtain ⟨j, v⟩ := e
      cases v with
      | none => exact ByteMap.find?_erase m j k
      | some v => exact ByteMap.find?_insert m j k v
    rw [List.map_cons, Backend.applyAll, List.foldl_cons]
    refine (ih hes).trans ?_
    rw [hstep, ByteMap.findEntry]
    split
    · next hk => rw [ByteMap.findEntry_eq_none hes fun x hx => hk ▸ he x hx]; rfl
    · rfl

/-- A write changes at its own key what is seen through the pending ones. -/
theorem getD_find?_apply (m : Contents) (pending : ByteMap (Option Bytes)) (w : Write) :
    (fun key => ((apply pending w).find? key).getD (m key))
      = Contents.apply (fun key => (pending.find? key).getD (m key)) w := by
  funext key
  cases w with
  | put j value =>
    simp only [apply, ByteMap.find?_insert, Contents.apply, Function.update_apply]
    split <;> rfl
  | delete j =>
    simp only [apply, ByteMap.find?_insert, Contents.apply, Function.update_apply]
    split <;> rfl

theorem getD_find?_foldl_apply (m : Contents) (pending : ByteMap (Option Bytes))
    (writes : List Write) :
    (fun key => ((writes.foldl apply pending).find? key).getD (m key))
      = writes.foldl Contents.apply fun key => (pending.find? key).getD (m key) := by
  induction writes generalizing pending with
  | nil => rfl
  | cons w writes ih => rw [List.foldl_cons, List.foldl_cons, ih, getD_find?_apply]

/-- What a draft holds: what it has written, and underneath what its base holds. -/
def held (o : Draft) : Contents := fun key =>
  (o.pending.find? key).getD (o.base.entries.find? key)

theorem find?_merge {base : List (Bytes × Bytes)} {pending : ByteMap (Option Bytes)}
    {stem : Bytes} {m : Contents} (hbase : ∀ e, e ∈ base ↔ stem <+: e.1 ∧ m e.1 = some e.2)
    (k v : Bytes) :
    (merge base (pending.scan stem)).find? k = some v ↔
      stem <+: k ∧ (pending.find? k).getD (m k) = some v := by
  have hunique (k v w : Bytes) (hv : (k, v) ∈ base) (hw : (k, w) ∈ base) : v = w :=
    Option.some.inj (((hbase _).1 hv).2.symm.trans ((hbase _).1 hw).2)
  have hsorted : (pending.scan stem).Pairwise fun x y => x.1 < y.1 := pending.sorted.filter _
  have hmerged := ByteMap.find?_insertMany (m := .empty) hunique k v
  rw [merge, find?_applyAll_map_writeOf hsorted]
  -- What the draft has written under a key hides what its base has there.
  by_cases hstem : stem <+: k
  · cases hfound : pending.find? k with
    | some u =>
      have hmem : (k, u) ∈ pending.scan stem := (ByteMap.mem_scan_iff _).2 ⟨hstem, hfound⟩
      rw [(ByteMap.findEntry_eq_some_iff hsorted k u).2 hmem]
      simp [hstem]
    | none =>
      have hnone : ByteMap.findEntry k (pending.scan stem) = none := by
        refine Option.eq_none_iff_forall_not_mem.2 fun u hu => ?_
        have hmem := (ByteMap.findEntry_eq_some_iff hsorted k u).1 hu
        rw [((ByteMap.mem_scan_iff _).1 hmem).2] at hfound
        cases hfound
      rw [hnone, Option.getD_none, Option.getD_none, hmerged, hbase]
      simp [hstem]
  · have hnone : ByteMap.findEntry k (pending.scan stem) = none := by
      refine Option.eq_none_iff_forall_not_mem.2 fun u hu => hstem ?_
      exact ((ByteMap.mem_scan_iff _).1 ((ByteMap.findEntry_eq_some_iff hsorted k u).1 hu)).1
    rw [hnone, Option.getD_none, hmerged, hbase]
    simp [hstem]

instance : LawfulStore Draft where
  contents := held
  eq_of_get {o key value} h := by
    rw [held]
    change (match o.pending.find? key with
      | some value => Except.ok value
      | none => ReadableStore.get o.base key) = .ok value at h
    split at h
    · next hfound => cases h; rw [hfound]; rfl
    · next hfound => rw [hfound]; exact LawfulStore.eq_of_get h
  eq_of_contains {o key found} h := by
    rw [held]
    change (match o.pending.find? key with
      | some value => Except.ok value.isSome
      | none => ReadableStore.contains o.base key) = .ok found at h
    split at h
    · next hfound => cases h; rw [hfound]; rfl
    · next hfound => rw [hfound]; exact LawfulStore.eq_of_contains h
  mem_scan_iff {o stem entries} h e := by
    obtain ⟨base, hbase, rfl⟩ := map_eq_ok_iff.1 h
    rw [← ByteMap.find?_eq_some_iff (k := e.1) (v := e.2)]
    exact find?_merge (LawfulStore.mem_scan_iff hbase) e.1 e.2
  contents_of_write {o o' writes} h := by
    cases h
    exact getD_find?_foldl_apply o.base.entries.find? o.pending writes

@[simp]
theorem contents_fresh (b : Backend) : contents (fresh b : Draft) = contents b :=
  rfl

/-- **A committed draft leaves its contents behind.** -/
theorem contents_commit {draft : Draft} {b : Backend} (h : draft.commit = .ok b) :
    contents b = contents draft := by
  rw [commit] at h
  rcases ite_eq_ok_iff.1 h with ⟨_, h⟩ | ⟨hclean, h⟩
  · rw [LawfulStore.contents_of_write (mapError_eq_ok_iff.1 h)]
    refine (Backend.find?_applyAll draft.base.entries draft.writes).symm.trans ?_
    exact funext (find?_applyAll_map_writeOf draft.pending.sorted)
  · obtain rfl := Except.ok.inj h
    have hnone : draft.pending.entries = [] := by simpa [isDirty] using hclean
    funext k
    change _ = (ByteMap.findEntry k draft.pending.entries).getD _
    rw [hnone]
    rfl

end Overlay

/-! ### Transitions -/

namespace Backend

variable {α ε : Type} {b b' : Backend} {ofStore : StoreError → ε} {result : Except ε (α × Draft)}

/-- **A transition that is refused leaves the store as it is.** -/
theorem eq_of_conclude_error {e : ε} (h : b.conclude ofStore result = (.error e, b')) :
    b' = b := by
  cases result with
  | error _ => cases h; rfl
  | ok r =>
    rw [conclude] at h
    split at h
    · cases h; rfl
    · cases h

/-- **A transition that is committed is committed as a whole.** -/
theorem eq_of_conclude_ok {a : α} (h : b.conclude ofStore result = (.ok a, b')) :
    ∃ draft, result = .ok (a, draft) ∧ contents b' = contents draft := by
  cases result with
  | error _ => cases h
  | ok r =>
    rw [conclude] at h
    split at h
    · cases h
    · next hcommit =>
      cases h
      exact ⟨r.2, rfl, Overlay.contents_commit hcommit⟩

end Backend

end Settlement
