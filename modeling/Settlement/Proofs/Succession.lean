import Settlement.Proofs.Charter

/-!
# The key that comes next

Funds move from the current signing key to a newer one, and which one that is, is read off the last
place of the listed history. This is the right place because the history is listed in the order of
its keys: the key under which an entry is kept starts with the height of the entry, so that of all
keys the last one was generated last (`Settlement.Registry.exists_sorted_history`). Two keys of one
height are told apart by their public keys, and the current key is itself an entry, so a key of
another height is another key.

Main statement: `Settlement.Reachable.newerKey_is_newest`.
-/

namespace Settlement

/-! ### The order of the history -/

/-- A key that is listed before another one was not generated after it. -/
theorem Key.height_le_of_keyHistory_lt {height height' : UInt64} {pubkey pubkey' : String}
    (h : (keyHistory height pubkey).bytes < (keyHistory height' pubkey').bytes) :
    height ≤ height' := by
  rw [bytes_lt_iff (by rfl), body, body, Bytes.append_lt_append_iff (by simp),
    Bytes.ofWord_lt_ofWord_iff] at h
  rcases h with hlt | ⟨heq, -⟩
  · exact UInt64.le_of_lt hlt
  · exact UInt64.le_of_eq (Bytes.ofWord_injective heq)

/-- **The history is listed in the order of the keys of its entries.** -/
theorem Registry.exists_sorted_history {σ : Type} [WritableStore σ] [LawfulStore σ] {s : σ}
    {l : Ledger} (hintact : Intact s) (h : Records s l) (hl : l.Legible) (hkeys : l.KeysFiled)
    {entries : List (Bytes × Bytes)}
    (hscan : ReadableStore.scan s KeyRange.keyHistory.bytes = .ok entries)
    (hordered : entries.Pairwise fun x y => x.1 < y.1) :
    ∃ history, keyHistory s = .ok history ∧ (∀ key, key ∈ history ↔ l.Recalls key) ∧
      history.Pairwise fun key other => key.historyKey.bytes < other.historyKey.bytes := by
  obtain ⟨rows, hrows, rfl⟩ := hintact.exists_rows_of_scan (r := .keyHistory) hscan
  refine ⟨_, storeError_lift_eq_ok_iff.2 (hrows.scanRecords_eq hscan rfl),
    mem_keyHistory_iff h hl hrows, ?_⟩
  rw [List.pairwise_map] at hordered ⊢
  refine hordered.imp_of_mem fun {x y} hx hy hlt => ?_
  rwa [hkeys.fst_eq_of_row h hl hrows hx, hkeys.fst_eq_of_row h hl hrows hy] at hlt

/-! ### The last key -/

namespace Registry

/-- The last key of a history if it was generated after the current one. -/
theorem newerKey?_eq {σ : Type} [ReadableStore σ] {s : σ} {current : SigningKey}
    {history : List SigningKey} (hcurrent : currentKey? s = .ok (some current))
    (hhistory : keyHistory s = .ok history) :
    newerKey? s = .ok (history.getLast?.filter fun latest =>
      latest.pubkey != current.pubkey && current.keygenHeight < latest.keygenHeight) := by
  rw [newerKey?, currentKey, hcurrent, hhistory]
  rfl

/-- **The last key of a history that is in order is the newest one.** -/
theorem height_le_of_getLast? {history : List SigningKey} {latest : SigningKey}
    (hsorted : history.Pairwise fun key other => key.keygenHeight ≤ other.keygenHeight)
    (hlast : history.getLast? = some latest) :
    ∀ key ∈ history, key.keygenHeight ≤ latest.keygenHeight := by
  obtain ⟨older, rfl⟩ := List.getLast?_eq_some_iff.1 hlast
  intro key hkey
  rcases List.mem_append.1 hkey with holder | hself
  · exact (List.pairwise_append.1 hsorted).2.2 key holder latest (List.mem_singleton_self _)
  · rw [List.mem_singleton.1 hself]
    exact UInt64.le_refl _

/-- Only the last key can be newer than the current one, and it is if any key is. -/
theorem isSome_newer_iff {history : List SigningKey} {current : SigningKey}
    (hsorted : history.Pairwise fun key other => key.keygenHeight ≤ other.keygenHeight)
    (hcurrent : ∀ key ∈ history, key.pubkey = current.pubkey → key = current) :
    (history.getLast?.filter fun latest => latest.pubkey != current.pubkey &&
        current.keygenHeight < latest.keygenHeight).isSome ↔
      ∃ key ∈ history, current.keygenHeight < key.keygenHeight := by
  simp only [Option.isSome_iff_exists, Option.filter_eq_some_iff, Bool.and_eq_true, bne_iff_ne,
    decide_eq_true_eq]
  constructor
  · rintro ⟨latest, hlast, -, hnewer⟩
    exact ⟨latest, List.mem_of_getLast? hlast, hnewer⟩
  · rintro ⟨key, hkey, hlt⟩
    have hne := List.ne_nil_of_mem hkey
    have hlast := List.getLast?_eq_some_getLast hne
    have hnewer := UInt64.lt_of_lt_of_le hlt (height_le_of_getLast? hsorted hlast key hkey)
    refine ⟨history.getLast hne, hlast, fun hpubkey => ?_, hnewer⟩
    -- Under the public key of the current one there is only the current one.
    rw [hcurrent _ (List.getLast_mem hne) hpubkey] at hnewer
    exact UInt64.lt_irrefl _ hnewer

end Registry

/-! ### Worlds that are reached -/

section Runs

variable {γ : Type} [Gateway γ] {service : Service} {w : World γ}

/-- **The history of a reached world is listed in order**, every key of it once. -/
theorem Reachable.exists_sorted_history (h : Reachable service w) :
    ∃ history, Registry.keyHistory w.store.restored = .ok history ∧
      (∀ key, key ∈ history ↔ w.store.ledger.Recalls key) ∧
      history.Pairwise fun key other => key.historyKey.bytes < other.historyKey.bytes :=
  Registry.exists_sorted_history (h.intact.congr rfl) (h.sound.records.congr rfl)
    h.sound.legible h.keysFiled rfl (w.store.entries.sorted.filter _)

/-- **Funds migrate to the newest key.** In a world that is reached and has a current key, there is
a newer key exactly if the history has a key that was generated at a greater height; then the newer
key is in the history, it is another one than the current key, with another public key, and no key
of the history was generated at a greater height. In which order the keys were registered and which
of them was activated does not matter, and neither does it how many have the same height. -/
theorem Reachable.newerKey_is_newest (h : Reachable service w) {current : SigningKey}
    (hcurrent : Registry.currentKey? w.store.restored = .ok (some current)) :
    ∃ history newer,
      Registry.keyHistory w.store.restored = .ok history ∧
      Registry.newerKey? w.store.restored = .ok newer ∧
      (newer.isSome ↔ ∃ key ∈ history, current.keygenHeight < key.keygenHeight) ∧
      ∀ key, newer = some key →
        key ∈ history ∧ key ≠ current ∧ key.pubkey ≠ current.pubkey ∧
        ∀ other ∈ history, other.keygenHeight ≤ key.keygenHeight := by
  have hkeys := h.keysFiled
  obtain ⟨history, hhistory, hmem, hsorted⟩ := h.exists_sorted_history
  have hstored : w.store.ledger .currentKey = some current :=
    Except.ok.inj (h.sound.currentKey?_eq.symm.trans hcurrent)
  have hheights := hsorted.imp Key.height_le_of_keyHistory_lt
  have hdistinct (key : SigningKey) (hkey : key ∈ history) (hpubkey : key.pubkey = current.pubkey) :
      key = current :=
    hkeys.eq_of_pubkey_eq key current ((hmem key).1 hkey) (hkeys.current current hstored) hpubkey
  refine ⟨history, _, hhistory, Registry.newerKey?_eq hcurrent hhistory,
    Registry.isSome_newer_iff hheights hdistinct, fun key hkey => ?_⟩
  obtain ⟨hlast, hnewer⟩ := Option.filter_eq_some_iff.1 hkey
  have hpubkey : key.pubkey ≠ current.pubkey := bne_iff_ne.1 (Bool.and_eq_true_iff.1 hnewer).1
  exact ⟨List.mem_of_getLast? hlast, fun heq => hpubkey (congrArg _ heq), hpubkey,
    Registry.height_le_of_getLast? hheights hlast⟩

end Runs

/-! ### Keys that are registered out of order -/

namespace Sample

/-- Two keys of one height are registered, then one of a smaller height than all others; the first
of the two is made the current one, and then the one that was current at the start. -/
def successions : List Call := [
  .registerKey ⟨"twin", 9, 2⟩ false,
  .registerKey ⟨"late", 9, 3⟩ false,
  .registerKey ⟨"early", 0, 4⟩ false,
  .activateKey "twin",
  .activateKey "key"]

/-- Of the two keys of the greatest height one is the newer key. -/
theorem newer_of_successions :
    ∃ history key,
      Registry.keyHistory (service.after world successions).store.restored = .ok history ∧
      Registry.newerKey? (service.after world successions).store.restored = .ok (some key) ∧
      key ∈ history ∧ key.pubkey ≠ "key" ∧ 9 ≤ key.keygenHeight := by
  have hevaluated :
      (∀ t ∈ service.turnsOf world successions,
        (service.execute t.world t.call).world.store.Addressable) ∧
      Registry.currentKey? (service.after world successions).store.restored
        = .ok (some ⟨"key", 1, 1⟩) ∧
      (Registry.keyHistory (service.after world successions).store.restored).map
        (fun history => decide (⟨"late", 9, 3⟩ ∈ history)) = .ok true := by
    decide +kernel
  obtain ⟨hstores, hcurrent, hlate⟩ := hevaluated
  have hreached : Reachable service (service.after world successions) :=
    ⟨start, _, rfl, run.calls successions hstores⟩
  obtain ⟨history, newer, hhistory, hnewer, hsome, hnewest⟩ :=
    hreached.newerKey_is_newest hcurrent
  rw [hhistory] at hlate
  have hmem : (⟨"late", 9, 3⟩ : SigningKey) ∈ history := of_decide_eq_true (Except.ok.inj hlate)
  obtain ⟨key, rfl⟩ := Option.isSome_iff_exists.1 (hsome.2 ⟨_, hmem, by decide⟩)
  obtain ⟨hlisted, -, hpubkey, hgreatest⟩ := hnewest key rfl
  exact ⟨history, key, hhistory, hnewer, hlisted, hpubkey, hgreatest _ hmem⟩

end Sample

end Settlement
