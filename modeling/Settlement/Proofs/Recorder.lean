import Settlement.Proofs.Store

/-!
# The writes of a transition

A transition that runs on a record of its writes (`Settlement.Recorder`) reads what it would read
on a draft, and every batch that it writes is kept in its order. The draft of these writes is the
one that the transition makes when it runs on drafts, which is said of the steps of a transition
one by one (`Settlement.Mirrors`) and then of whole chains of steps.

Main statement: a draft that is committed leaves the committed entries with the recorded writes
made, one after the other, and nothing else (`Settlement.Recorder.eq_of_commit`).
-/

namespace Settlement

/-! ### Recorded writes -/

/-- A record of the writes over a store that stays as it is: the batches, the last one first. -/
structure Recorder (b : Backend) where
  batches : List (List Write)

namespace Recorder

variable {b : Backend}

/-- Nothing is written yet. -/
def start (b : Backend) : Recorder b :=
  ⟨[]⟩

/-- The writes, in the order in which they were made. -/
def writes (r : Recorder b) : List Write :=
  r.batches.reverse.flatten

/-- The draft after some batches, the last one first. -/
def draftOf (b : Backend) : List (List Write) → Draft
  | [] => .fresh b
  | batch :: before =>
    { draftOf b before with pending := batch.foldl Overlay.apply (draftOf b before).pending }

/-- The draft in which the recorded writes are pending. -/
def draft (r : Recorder b) : Draft :=
  draftOf b r.batches

/-- A result with the draft of its writes. -/
def seen {α : Type} (p : α × Recorder b) : α × Draft :=
  (p.1, p.2.draft)

instance : WritableStore (Recorder b) where
  get r key := ReadableStore.get r.draft key
  contains r key := ReadableStore.contains r.draft key
  scan r stem := ReadableStore.scan r.draft stem
  write r batch := .ok ⟨batch :: r.batches⟩

instance : LawfulStore (Recorder b) where
  contents r := contents r.draft
  eq_of_get {r key value} h := LawfulStore.eq_of_get (s := r.draft) h
  eq_of_contains {r key found} h := LawfulStore.eq_of_contains (s := r.draft) h
  mem_scan_iff {r stem entries} h := LawfulStore.mem_scan_iff (s := r.draft) h
  contents_of_write {r r' batch} h := by
    cases h
    exact LawfulStore.contents_of_write (s := r.draft) rfl

@[simp]
theorem draft_start (b : Backend) : (start b).draft = .fresh b :=
  rfl

theorem contents_draftOf (b : Backend) (batches : List (List Write)) :
    contents (draftOf b batches)
      = batches.reverse.flatten.foldl Contents.apply (contents b) := by
  induction batches with
  | nil => rfl
  | cons batch before ih =>
    rw [List.reverse_cons, List.flatten_concat, List.foldl_append, ← ih]
    exact LawfulStore.contents_of_write (s := draftOf b before) rfl

/-- The base of the draft is the store underneath. -/
theorem base_draftOf (b : Backend) (batches : List (List Write)) :
    (draftOf b batches).base = b := by
  induction batches with
  | nil => rfl
  | cons batch before ih => exact ih

@[simp]
theorem base_draft (r : Recorder b) : r.draft.base = b :=
  base_draftOf b r.batches

/-- What has been written is read first, and only then what is underneath. -/
theorem get_eq_match (r : Recorder b) (key : Bytes) : ReadableStore.get r key =
    match r.draft.pending.find? key with
    | some value => .ok value
    | none => ReadableStore.get b key := by
  change (match r.draft.pending.find? key with
    | some value => Except.ok value
    | none => ReadableStore.get r.draft.base key) = _
  rw [base_draft]

theorem contains_eq_match (r : Recorder b) (key : Bytes) : ReadableStore.contains r key =
    match r.draft.pending.find? key with
    | some value => .ok value.isSome
    | none => ReadableStore.contains b key := by
  change (match r.draft.pending.find? key with
    | some value => Except.ok value.isSome
    | none => ReadableStore.contains r.draft.base key) = _
  rw [base_draft]

/-- On a store that can be read, every read is answered, whatever was written. -/
theorem get_eq (hb : b.unreadable = none) (r : Recorder b) (key : Bytes) :
    ReadableStore.get r key = .ok (contents r key) := by
  have hcheck : b.checkReadable key = .ok () := by rw [Backend.checkReadable, hb]
  have hcontents : contents r key
      = (r.draft.pending.find? key).getD (r.draft.base.entries.find? key) := rfl
  rw [hcontents, get_eq_match, base_draft]
  cases r.draft.pending.find? key with
  | some value => rfl
  | none => exact congrArg (Except.map fun _ => b.entries.find? key) hcheck

/-! ### Commits -/

/-- The recorded writes lead from the contents of the store underneath to what is read. -/
theorem contents_written (r : Recorder b) :
    contents { b with entries := Backend.applyAll b.entries r.writes } = contents r := by
  refine (Backend.find?_applyAll b.entries r.writes).trans ?_
  exact (contents_draftOf b r.batches).symm

/-- **A commit makes exactly the recorded writes.** -/
theorem eq_of_commit {r : Recorder b} {b' : Backend} (h : r.draft.commit = .ok b') :
    b' = { b with entries := Backend.applyAll b.entries r.writes } := by
  have hfields : b' = { b with entries := b'.entries } := by
    rw [Overlay.commit, base_draft] at h
    rcases ite_eq_ok_iff.1 h with ⟨-, h⟩ | ⟨-, h⟩
    · rcases ite_eq_ok_iff.1 (mapError_eq_ok_iff.1 h) with ⟨-, h⟩ | ⟨-, h⟩
      · cases h
      · cases h
        rfl
    · cases h
      rfl
  have hcontents : contents b'
      = contents { b with entries := Backend.applyAll b.entries r.writes } :=
    (Overlay.contents_commit h).trans r.contents_written.symm
  have hentries : b'.entries = Backend.applyAll b.entries r.writes :=
    ByteMap.ext_find? fun k => congrFun hcontents k
  rw [hfields, hentries]

/-- A commit is taken if there is nothing to write or the store takes writes. -/
theorem exists_commit (r : Recorder b) (h : r.draft.isDirty = true → b.rejectsWrites = false) :
    ∃ b', r.draft.commit = .ok b' := by
  rw [Overlay.commit, base_draft]
  split
  · next hdirty =>
    have hwrite : WritableStore.write b r.draft.writes
        = .ok { b with entries := Backend.applyAll b.entries r.draft.writes } :=
      if_neg (by simp [h hdirty])
    exact ⟨_, mapError_eq_ok_iff.2 hwrite⟩
  · exact ⟨b, rfl⟩

/-- A commit fails only if there is something to write and the store takes no writes. -/
theorem commit_eq (r : Recorder b) : r.draft.commit =
    if r.draft.isDirty = true ∧ b.rejectsWrites = true then .error (.store .writeRejected)
    else .ok { b with entries := Backend.applyAll b.entries r.writes } := by
  split
  · next h =>
    have hwrite : WritableStore.write b r.draft.writes = .error .writeRejected := if_pos h.2
    rw [Overlay.commit, if_pos h.1, base_draft, writeAll, hwrite]
    rfl
  · next h =>
    obtain ⟨b', hcommit⟩ := r.exists_commit fun hdirty =>
      Bool.not_eq_true _ ▸ fun hrejects => h ⟨hdirty, hrejects⟩
    rw [hcommit, eq_of_commit hcommit]

/-! ### Another store underneath -/

/-- The same writes over another store. -/
def rebase (b' : Backend) (r : Recorder b) : Recorder b' :=
  ⟨r.batches⟩

variable {b' : Backend}

/-- What is pending does not depend on the store underneath. -/
theorem pending_rebase (r : Recorder b) : (r.rebase b').draft.pending = r.draft.pending := by
  obtain ⟨batches⟩ := r
  induction batches with
  | nil => rfl
  | cons batch before ih => exact congrArg (batch.foldl Overlay.apply) ih

end Recorder

/-! ### Mirrored computations -/

section Mirrors

variable {ε ε' α α' β β' ρ ρ' : Type}

/-- The second computation does the same as the first one and sees its result through a view. -/
def Mirrors (view : α → β) (x : Except ε α) (y : Except ε β) : Prop :=
  y = x.map view

namespace Mirrors

variable {view : α → β} {view' : α' → β'} {x : Except ε α} {y : Except ε β}

theorem error (e : ε) : Mirrors view (.error e) (.error e) :=
  rfl

theorem ok (a : α) : Mirrors view (.ok a : Except ε α) (.ok (view a)) :=
  rfl

/-- A step that mirrors another one, and what comes after it for the result that it has. -/
theorem bind_of_eq {f : α → Except ε α'} {g : β → Except ε β'} (hx : Mirrors view x y)
    (hf : ∀ a, x = .ok a → Mirrors view' (f a) (g (view a))) :
    Mirrors view' (x >>= f) (y >>= g) := by
  subst hx
  cases x with
  | error e => rfl
  | ok a => exact hf a rfl

/-- A step that mirrors another one, and what comes after it. -/
theorem bind {f : α → Except ε α'} {g : β → Except ε β'} (hx : Mirrors view x y)
    (hf : ∀ a, Mirrors view' (f a) (g (view a))) : Mirrors view' (x >>= f) (y >>= g) :=
  hx.bind_of_eq fun a _ => hf a

/-- A step that only writes, and what comes after it. -/
theorem write {b : Backend} {s : Except ε (Recorder b)} {t : Except ε Draft}
    {f : Recorder b → Except ε α} {g : Draft → Except ε β} (hs : Mirrors Recorder.draft s t)
    (hf : ∀ r, Mirrors view (f r) (g r.draft)) : Mirrors view (s >>= f) (t >>= g) :=
  bind hs hf

/-- A step whose result is seen as it is, and what comes after it for this result. -/
theorem read_of_eq {f : ρ → Except ε α} {g : ρ → Except ε β} {z z' : Except ε ρ} (hz : z' = z)
    (hf : ∀ a, z = .ok a → Mirrors view (f a) (g a)) : Mirrors view (z >>= f) (z' >>= g) := by
  subst hz
  cases z' with
  | error e => rfl
  | ok a => exact hf a rfl

/-- A step whose result is seen as it is, and what comes after it. -/
theorem read {f : ρ → Except ε α} {g : ρ → Except ε β} {z z' : Except ε ρ} (hz : z' = z)
    (hf : ∀ a, Mirrors view (f a) (g a)) : Mirrors view (z >>= f) (z' >>= g) :=
  read_of_eq hz fun a _ => hf a

theorem ite {p : Prop} [Decidable p] {x' : Except ε α} {y' : Except ε β} (h : Mirrors view x y)
    (h' : Mirrors view x' y') : Mirrors view (if p then x else x') (if p then y else y') := by
  split
  · exact h
  · exact h'

theorem mapError {f : ε → ε'} (h : Mirrors view x y) :
    Mirrors view (x.mapError f) (y.mapError f) := by
  subst h
  cases x <;> rfl

/-- What is made of the results may be seen through another view. -/
theorem map {f : α → α'} {g : β → β'} (h : Mirrors view x y)
    (hview : ∀ a, g (view a) = view' (f a)) : Mirrors view' (x.map f) (y.map g) := by
  subst h
  cases x with
  | error e => rfl
  | ok a => exact congrArg Except.ok (hview a)

end Mirrors

end Mirrors

end Settlement
