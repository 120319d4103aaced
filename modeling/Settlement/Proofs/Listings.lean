import Mathlib.Data.Set.List
import Settlement.Proofs.Intact
import Settlement.Proofs.Queries
import Settlement.Proofs.Settings

/-!
# What a listing shows

A listing goes over the keys that start with the bytes of a range and gives what is under them, in
the order of the keys. On an intact store it is made of rows, one for every key of the range under
which there is something (`Settlement.Rows`): nothing is left out, nothing comes twice, and a value
is shown only if it is there.

Main statements: a listing that is answered shows such rows (`Settlement.Intact.exists_rows`), and
the committed store answers with them in the order of their keys as soon as it can be read
(`Settlement.Intact.scanRecords_restored`).
-/

namespace Settlement

section Stores

variable {σ : Type} [WritableStore σ] [LawfulStore σ] {s : σ} {r : KeyRange}
  {rows : List (Key × r.Value)}

/-! ### Rows -/

/-- The rows of a listing: keys of the range with the values whose records are under them. No key
of the range is missing that has something under it. -/
structure Rows (s : σ) (r : KeyRange) (rows : List (Key × r.Value)) : Prop where
  starts : ∀ x ∈ rows, r.bytes <+: x.1.bytes
  held : ∀ x ∈ rows, contents s x.1.bytes = some (Record.encode x.2)
  fits : ∀ x ∈ rows, Fits x.2
  complete : ∀ k : Key, r.bytes <+: k.bytes → (contents s k.bytes).isSome →
    ∃ x ∈ rows, x.1.bytes = k.bytes

/-- Records of values whose lengths are words are read back one after the other. -/
theorem decodeAll_encode {α : Type} [Layout α] [LawfulLayout α] {values : List α}
    (hfits : ∀ v ∈ values, Fits v) : decodeAll (values.map Record.encode) = .ok values := by
  induction values with
  | nil => rfl
  | cons v rest ih =>
    obtain ⟨hv, hrest⟩ := List.forall_mem_cons.1 hfits
    rw [List.map_cons, decodeAll, Record.decode_encode hv, ih hrest]
    rfl

/-- The entries that an intact store lists are rows. -/
theorem Intact.exists_rows_of_scan (h : Intact s) {entries : List (Bytes × Bytes)}
    (hscan : ReadableStore.scan s r.bytes = .ok entries) :
    ∃ rows, Rows s r rows ∧ entries = rows.map fun x => (x.1.bytes, Record.encode x.2) := by
  have hentries := LawfulStore.mem_scan_iff hscan
  -- Every entry is that of a key, with a record of the type that is listed.
  obtain ⟨rows, rfl⟩ : entries ∈ Set.range (List.map
      fun x : {x : Key × r.Value // Fits x.2} => (x.1.1.bytes, Record.encode x.1.2)) := by
    rw [Set.range_list_map]
    intro e he
    obtain ⟨hstem, hheld⟩ := (hentries e).1 he
    obtain ⟨-, k, -, hk, -⟩ := h e.1 e.2 hheld
    obtain ⟨v, hv, hfits⟩ := h.exists_encode_of_range hstem hheld
    exact ⟨⟨(k, v), hfits⟩, Prod.ext hk hv.symm⟩
  have hshown (x : Key × r.Value) (hx : x ∈ rows.map Subtype.val) : r.bytes <+: x.1.bytes ∧
      contents s x.1.bytes = some (Record.encode x.2) ∧ Fits x.2 := by
    obtain ⟨y, hy, rfl⟩ := List.mem_map.1 hx
    obtain ⟨hstem, hheld⟩ := (hentries _).1 (List.mem_map.2 ⟨y, hy, rfl⟩)
    exact ⟨hstem, hheld, y.2⟩
  refine ⟨rows.map Subtype.val, ⟨fun x hx => (hshown x hx).1, fun x hx => (hshown x hx).2.1,
    fun x hx => (hshown x hx).2.2, ?_⟩, by rw [List.map_map]; rfl⟩
  intro k hk hsome
  obtain ⟨held, hheld⟩ := Option.isSome_iff_exists.1 hsome
  obtain ⟨y, hy, heq⟩ := List.mem_map.1 ((hentries (k.bytes, held)).2 ⟨hk, hheld⟩)
  exact ⟨y.1, List.mem_map.2 ⟨y, hy, rfl⟩, congrArg Prod.fst heq⟩

namespace Rows

/-- The values of rows are what is listed. -/
theorem scanRecords_eq (h : Rows s r rows) {entries : List (Bytes × Bytes)}
    (hscan : ReadableStore.scan s r.bytes = .ok entries)
    (hentries : entries = rows.map fun x => (x.1.bytes, Record.encode x.2)) :
    scanRecords s r.bytes = .ok (rows.map Prod.snd) := by
  rw [scanRecords, hscan, hentries]
  have hvalues : (rows.map fun x => (x.1.bytes, Record.encode x.2)).map Prod.snd
      = (rows.map Prod.snd).map Record.encode := by simp
  simp only [hvalues]
  refine decodeAll_encode fun v hv => ?_
  obtain ⟨x, hx, rfl⟩ := List.mem_map.1 hv
  exact h.fits x hx

/-- Only the contents matter. -/
theorem congr {τ : Type} [WritableStore τ] [LawfulStore τ] {t : τ} (h : Rows s r rows)
    (ht : contents t = contents s) : Rows t r rows := by
  refine ⟨h.starts, ?_, h.fits, ?_⟩
  · rw [ht]
    exact h.held
  · rw [ht]
    exact h.complete

end Rows

/-- **A listing that is answered shows the rows of the range.** -/
theorem Intact.exists_rows (h : Intact s) {values : List r.Value}
    (hscan : scanRecords s r.bytes = .ok values) :
    ∃ rows, Rows s r rows ∧ values = rows.map Prod.snd := by
  cases hentries : ReadableStore.scan s r.bytes with
  | error fault =>
    rw [scanRecords, hentries] at hscan
    cases hscan
  | ok entries =>
    obtain ⟨rows, hrows, heq⟩ := h.exists_rows_of_scan hentries
    exact ⟨rows, hrows, Except.ok.inj (hscan.symm.trans (hrows.scanRecords_eq hentries heq))⟩

/-- **What is shown is what is there.** A value stands in a row exactly if its record is under a key
of the range. -/
theorem Rows.mem_iff (h : Rows s r rows) (v : r.Value) :
    v ∈ rows.map Prod.snd ↔
      ∃ k : Key, r.bytes <+: k.bytes ∧ contents s k.bytes = some (Record.encode v) ∧ Fits v := by
  constructor
  · intro hv
    obtain ⟨x, hx, rfl⟩ := List.mem_map.1 hv
    exact ⟨x.1, h.starts x hx, h.held x hx, h.fits x hx⟩
  · rintro ⟨k, hk, hheld, hfits⟩
    obtain ⟨x, hx, hxk⟩ := h.complete k hk (by rw [hheld]; rfl)
    have hencode : Record.encode x.2 = Record.encode v := by
      rw [← hxk, h.held x hx] at hheld
      exact Option.some.inj hheld
    have hdecode := Record.decode_encode (h.fits x hx)
    rw [hencode, Record.decode_encode hfits] at hdecode
    cases hdecode
    exact List.mem_map.2 ⟨x, hx, rfl⟩

end Stores

/-! ### The committed store -/

/-- **The committed store is listed in the order of its keys**, as soon as it can be read. -/
theorem Intact.scanRecords_restored {b : Backend} (h : Intact b) (r : KeyRange) :
    ∃ rows : List (Key × r.Value), Rows b r rows ∧
      rows.Pairwise (fun x y => x.1.bytes < y.1.bytes) ∧
      scanRecords b.restored r.bytes = .ok (rows.map Prod.snd) := by
  have hscan : ReadableStore.scan b.restored r.bytes = .ok (b.entries.scan r.bytes) := rfl
  obtain ⟨rows, hrows, hentries⟩ := (h.congr (t := b.restored) rfl).exists_rows_of_scan hscan
  refine ⟨rows, hrows.congr rfl, ?_, hrows.scanRecords_eq hscan hentries⟩
  have hsorted : (b.entries.scan r.bytes).Pairwise fun x y => x.1 < y.1 :=
    b.entries.sorted.filter _
  rw [hentries, List.pairwise_map] at hsorted
  exact hsorted

/-! ### Stores that stay intact -/

section Runs

variable {γ : Type} {service : Service} {w w₀ : World γ} {turns : List (Turn γ)}

/-- What is written over an intact store is intact again, if the store could take it. -/
theorem Intact.of_touches {b b' : Backend} {W : Key → Prop} (h : Intact b)
    (htouches : Touches W b b') (hb' : b'.Addressable) : Intact b' := by
  intro bs held hheld
  refine ⟨hb'.value_lt _ (ByteMap.find?_eq_some_iff.1 hheld), ?_⟩
  rcases htouches bs with hsame | ⟨-, hnone | ⟨k, v, hk, hv⟩⟩
  · rw [hsame] at hheld
    exact (h bs held hheld).2
  · rw [hnone] at hheld
    cases hheld
  · rw [hv] at hheld
    cases hheld
    exact ⟨k, v, hk, rfl⟩

theorem World.intact_of_entries_eq_empty (h : w.store.entries = .empty) : Intact w.store := by
  intro bs held hheld
  have hempty : (ByteMap.empty : ByteMap Bytes).find? bs = some held := h ▸ hheld
  cases hempty

/-- **In a run from an intact store every store is intact.** -/
theorem Run.intact [Gateway γ] (hrun : Run service w₀ turns w) (h₀ : Intact w₀.store) :
    Intact w.store := by
  induction hrun with
  | start => exact h₀
  | call _ c hstore ih => exact ih.of_touches (service.touches _ c) hstore
  | outside _ hentries ih => exact ih.congr (congrArg ByteMap.find? hentries)

theorem Reachable.intact [Gateway γ] (h : Reachable service w) : Intact w.store := by
  obtain ⟨w₀, turns, hempty, hrun⟩ := h
  exact hrun.intact (World.intact_of_entries_eq_empty hempty)

/-- **What every call preserves of the ledger is preserved by a run.** -/
theorem Run.ledger_induction [Gateway γ] {P : Ledger → Prop}
    (hcongr : ∀ l l' : Ledger, (∀ k : Key, l' k.folded = l k.folded) → P l → P l')
    (hcall : ∀ (w : World γ) (c : Call), w.Sound → Intact w.store → P w.store.ledger →
      ∃ l', Records (service.execute w c).world.store l' ∧ P l')
    (hrun : Run service w₀ turns w) (h₀ : w₀.Sound) (hintact : Intact w₀.store)
    (hP : P w₀.store.ledger) : P w.store.ledger := by
  induction hrun with
  | start => exact hP
  | call hrun c hstore ih =>
    obtain ⟨l', hl', hpreserved⟩ := hcall _ c (hrun.sound h₀) (hrun.intact hintact) ih
    exact hcongr l' _ (hl'.ledger_eq hstore) hpreserved
  | outside _ hentries ih => exact World.ledger_eq_of_entries_eq hentries ▸ ih

end Runs

/-! ### Families -/

section Families

variable {σ : Type} [WritableStore σ] [LawfulStore σ] {s : σ} {l : Ledger}

/-- A record under a key is that of the value in the ledger. -/
theorem Records.eq_some_iff (h : Records s l) (hl : l.Legible) {k : Key} {v : k.folded.Value} :
    l k.folded = some v ↔ contents s k.bytes = some (Record.encode v) ∧ Fits v := by
  constructor
  · intro hv
    exact ⟨by rw [h k, hv, Option.map_some], hl.fits k v hv⟩
  · rintro ⟨hheld, hfits⟩
    rw [h k] at hheld
    obtain ⟨w, hw, hencode⟩ := Option.map_eq_some_iff.1 hheld
    have hdecode := Record.decode_encode (hl.fits k w hw)
    rw [hencode, Record.decode_encode hfits] at hdecode
    cases hdecode
    exact hw

/-- A row of the history of keys is an entry of the ledger. -/
theorem Registry.exists_entry_of_row (h : Records s l) (hl : l.Legible)
    {rows : List (Key × SigningKey)} (hrows : Rows s .keyHistory rows) {x : Key × SigningKey}
    (hx : x ∈ rows) :
    ∃ height pubkey, x.1 = .keyHistory height pubkey ∧
      l (.keyHistory height pubkey) = some x.2 := by
  obtain ⟨k, key⟩ := x
  have htag := KeyRange.tag_eq (hrows.starts _ hx)
  have hheld := And.intro (hrows.held _ hx) (hrows.fits _ hx)
  cases k <;> first | simp [KeyRange.tag, Key.tag] at htag; done | skip
  case keyHistory height pubkey =>
    exact ⟨height, pubkey, rfl, (h.eq_some_iff hl (k := .keyHistory height pubkey)).2 hheld⟩

/-- The history of keys is what the ledger has under the keys of its family. -/
theorem Registry.mem_keyHistory_iff (h : Records s l) (hl : l.Legible)
    {rows : List (Key × SigningKey)} (hrows : Rows s .keyHistory rows) (key : SigningKey) :
    key ∈ rows.map Prod.snd ↔ ∃ height pubkey, l (.keyHistory height pubkey) = some key := by
  constructor
  · intro hkey
    obtain ⟨x, hx, rfl⟩ := List.mem_map.1 hkey
    obtain ⟨height, pubkey, -, hentry⟩ := exists_entry_of_row h hl hrows hx
    exact ⟨height, pubkey, hentry⟩
  · rintro ⟨height, pubkey, hkey⟩
    exact (hrows.mem_iff key).2 ⟨.keyHistory height pubkey,
      KeyRange.starts_iff.2 ⟨rfl, List.nil_prefix⟩,
      (h.eq_some_iff hl (k := .keyHistory height pubkey)).1 hkey⟩

/-- The inbound trackers of a chain are what the ledger has under its keys. -/
theorem Journal.mem_inboundTrackers_iff (h : Records s l) (hl : l.Legible) {chainId : ChainId}
    {rows : List (Key × InboundTracker)} (hrows : Rows s (.inboundTrackers chainId) rows)
    (tracker : InboundTracker) :
    tracker ∈ rows.map Prod.snd ↔
      ∃ txHash, l (.inboundTracker chainId (foldCase txHash)) = some tracker := by
  rw [hrows.mem_iff]
  constructor
  · rintro ⟨k, hk, hheld⟩
    obtain ⟨htag, hfront⟩ := KeyRange.starts_iff.1 hk
    cases k <;> first | simp [KeyRange.tag, Key.tag] at htag; done | skip
    case inboundTracker chainId' txHash =>
      obtain rfl : chainId = chainId' :=
        ChainId.bytes_injective ((Bytes.starts_append_iff (by simp)).1 hfront)
      exact ⟨txHash, (h.eq_some_iff hl (k := .inboundTracker chainId txHash)).2 hheld⟩
  · rintro ⟨txHash, htracker⟩
    exact ⟨.inboundTracker chainId txHash, KeyRange.starts_iff.2 ⟨rfl, List.prefix_append _ _⟩,
      (h.eq_some_iff hl (k := .inboundTracker chainId txHash)).1 htracker⟩

end Families

end Settlement
