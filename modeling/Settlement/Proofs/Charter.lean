import Settlement.Proofs.Electorate

/-!
# The registry

Votes, stale ballots and fund migrations take some facts about the registry for granted. A chain has
parameters exactly if it is registered, both are filed under its identifier
(`Settlement.Ledger.ChainsFiled`), and a registered chain stays what it is. The history of keys has
one entry for a public key, and the current key is taken from it (`Settlement.Ledger.KeysFiled`).
Each of these facts is preserved by every change of governance (`Settlement.Ledger.Enacts`), and no
other call writes what they are about.

Main statement: `Settlement.Reachable.registry_in_order`.
-/

namespace Settlement

/-! ### Chains -/

/-- Chains are filed with their parameters, each under its own identifier. -/
structure Ledger.ChainsFiled (l : Ledger) : Prop where
  registered : ∀ id, (l (.chain id)).isSome = (l (.chainParams id)).isSome
  chainId_eq : ∀ id chain, l (.chain id) = some chain → chain.chainId = id
  paramsId_eq : ∀ id params, l (.chainParams id) = some params → params.chainId = id

namespace Ledger.ChainsFiled

variable {l l' : Ledger}

theorem empty : Ledger.empty.ChainsFiled :=
  ⟨fun _ => rfl, nofun, nofun⟩

/-- What is changed under one identifier has to be in order again. -/
theorem of_file (h : l.ChainsFiled) (id : ChainId)
    (hregistered : (l' (.chain id)).isSome = (l' (.chainParams id)).isSome)
    (hchain : ∀ chain, l' (.chain id) = some chain → chain.chainId = id)
    (hparams : ∀ params, l' (.chainParams id) = some params → params.chainId = id)
    (hothers : ∀ other, other ≠ id →
      l' (.chain other) = l (.chain other) ∧ l' (.chainParams other) = l (.chainParams other)) :
    l'.ChainsFiled := by
  constructor
  · intro other
    by_cases hid : other = id
    · exact hid ▸ hregistered
    · rw [(hothers other hid).1, (hothers other hid).2]
      exact h.registered other
  · intro other
    by_cases hid : other = id
    · exact hid ▸ hchain
    · rw [(hothers other hid).1]
      exact h.chainId_eq other
  · intro other
    by_cases hid : other = id
    · exact hid ▸ hparams
    · rw [(hothers other hid).2]
      exact h.paramsId_eq other

/-- What is put under a key of another family leaves the chains as they are. -/
theorem congr (h : l.ChainsFiled) (hchain : ∀ id, l' (.chain id) = l (.chain id))
    (hparams : ∀ id, l' (.chainParams id) = l (.chainParams id)) : l'.ChainsFiled := by
  constructor
  · intro id
    rw [hchain, hparams]
    exact h.registered id
  · intro id
    rw [hchain]
    exact h.chainId_eq id
  · intro id
    rw [hparams]
    exact h.paramsId_eq id

theorem set_of_ne (h : l.ChainsFiled) {k : Key} (v : k.Value) (hchain : ∀ id, .chain id ≠ k)
    (hparams : ∀ id, .chainParams id ≠ k) : (l.set k v).ChainsFiled :=
  h.congr (fun id => l.set_of_ne v (hchain id)) fun id => l.set_of_ne v (hparams id)

/-- Parameters are filed for a chain that is registered. -/
theorem set_chainParams (h : l.ChainsFiled) {params : ChainParams}
    (hregistered : (l' (.chain params.chainId)).isSome)
    (hchain : ∀ chain, l' (.chain params.chainId) = some chain → chain.chainId = params.chainId)
    (hothers : ∀ other, other ≠ params.chainId → l' (.chain other) = l (.chain other))
    (hparams : ∀ id, l' (.chainParams id) = l (.chainParams id)) :
    (l'.set (.chainParams params.chainId) params).ChainsFiled := by
  have hkept (id : ChainId) : l'.set (.chainParams params.chainId) params (.chain id)
      = l' (.chain id) := l'.set_of_ne _ (by simp)
  refine h.of_file params.chainId ?_ ?_ ?_ fun other hother => ⟨?_, ?_⟩
  · rw [hkept, set_self, hregistered]
    rfl
  · rw [hkept]
    exact hchain
  · rw [set_self]
    rintro _ ⟨⟩
    rfl
  · rw [hkept]
    exact hothers other hother
  · rw [l'.set_of_ne _ fun hkey => hother (Key.chainParams.inj hkey)]
    exact hparams other

/-- **Chains stay filed with their parameters**, whatever governance does. -/
theorem of_enacts (h : l.ChainsFiled) (henacts : l.Enacts l') : l'.ChainsFiled := by
  cases henacts with
  | keep hsame =>
    exact h.congr (fun id => hsame (.chain id) trivial) fun id => hsame (.chainParams id) trivial
  | observers => exact h.set_of_ne _ (by simp) (by simp)
  | @register chain params habsent hchain hproper =>
    have hother (id : ChainId) (hid : id ≠ chain.chainId) :
        l.set (.chain chain.chainId) chain (.chain id) = l (.chain id) :=
      l.set_of_ne _ fun hkey => hid (Key.chain.inj hkey)
    refine h.set_chainParams ?_ ?_ ?_ fun id => l.set_of_ne _ (by simp)
    · rw [hchain, set_self]
      rfl
    · rw [hchain, set_self]
      rintro _ ⟨⟩
      rfl
    · rw [hchain]
      exact hother
  | @update params hregistered hproper =>
    exact h.set_chainParams hregistered (h.chainId_eq _) (fun _ _ => rfl) fun _ => rfl
  | switch => exact h.set_of_ne _ (by simp) (by simp)
  | append => exact h.set_of_ne _ (by simp) (by simp)
  | appoint => exact (h.set_of_ne _ (by simp) (by simp)).set_of_ne _ (by simp) (by simp)
  | activate => exact h.set_of_ne _ (by simp) (by simp)

end Ledger.ChainsFiled

/-- **A registered chain stays what it is**: its name and its network do not change. -/
theorem Ledger.Enacts.chain_eq {l l' : Ledger} (henacts : l.Enacts l') {id : ChainId}
    {chain : Chain} (hchain : l (.chain id) = some chain) : l' (.chain id) = some chain := by
  have hset {l : Ledger} {k : Key} {v : k.Value} (hl : l (.chain id) = some chain)
      (hk : .chain id ≠ k) : l.set k v (.chain id) = some chain :=
    (l.set_of_ne v hk).trans hl
  cases henacts with
  | keep hsame => exact (hsame (.chain id) trivial).trans hchain
  | observers => exact hset hchain (by simp)
  | register habsent =>
    refine hset (hset hchain fun hkey => ?_) (by simp)
    -- Only a chain that is not registered is entered.
    cases hkey
    cases habsent.symm.trans hchain
  | update => exact hset hchain (by simp)
  | switch => exact hset hchain (by simp)
  | append => exact hset hchain (by simp)
  | appoint => exact hset (hset hchain (by simp)) (by simp)
  | activate => exact hset hchain (by simp)

/-! ### Signing keys -/

/-- The history has every key under its own height and public key, and no public key twice. The
current key is taken from it. -/
structure Ledger.KeysFiled (l : Ledger) : Prop where
  historyKey_eq : ∀ height pubkey key, l (.keyHistory height pubkey) = some key →
    key.keygenHeight = height ∧ key.pubkey = pubkey
  eq_of_pubkey_eq : ∀ key other, l.Recalls key → l.Recalls other → key.pubkey = other.pubkey →
    key = other
  current : ∀ key, l .currentKey = some key → l.Recalls key

namespace Ledger.KeysFiled

variable {l l' : Ledger} {key : SigningKey}

theorem empty : Ledger.empty.KeysFiled :=
  ⟨nofun, by rintro _ _ ⟨_, _, ⟨⟩⟩, nofun⟩

/-- Only the history and the current key matter. -/
theorem congr (h : l.KeysFiled)
    (hhistory : ∀ height pubkey, l' (.keyHistory height pubkey) = l (.keyHistory height pubkey))
    (hcurrent : ∀ key, l' .currentKey = some key → l.Recalls key) : l'.KeysFiled := by
  have hrecalls (key : SigningKey) : l'.Recalls key ↔ l.Recalls key := by
    simp only [Recalls, hhistory]
  constructor
  · intro height pubkey
    rw [hhistory]
    exact h.historyKey_eq height pubkey
  · intro key other
    rw [hrecalls, hrecalls]
    exact h.eq_of_pubkey_eq key other
  · intro key hkey
    exact (hrecalls key).2 (hcurrent key hkey)

theorem set_of_ne (h : l.KeysFiled) {k : Key} (v : k.Value)
    (hhistory : ∀ height pubkey, .keyHistory height pubkey ≠ k) (hcurrent : .currentKey ≠ k) :
    (l.set k v).KeysFiled := by
  refine h.congr (fun height pubkey => l.set_of_ne v (hhistory height pubkey)) fun key hkey => ?_
  rw [l.set_of_ne v hcurrent] at hkey
  exact h.current key hkey

/-- A key of the history becomes the current one. -/
theorem set_currentKey (h : l.KeysFiled) (hkey : l.Recalls key) :
    (l.set .currentKey key).KeysFiled := by
  refine h.congr (fun height pubkey => l.set_of_ne _ (by simp)) fun other hother => ?_
  rw [set_self] at hother
  cases hother
  exact hkey

/-- In the history with a new key are the keys of the old one and the new key. -/
theorem recalls_of_append {other : SigningKey} (hother : (l.set key.historyKey key).Recalls other) :
    other = key ∨ l.Recalls other := by
  obtain ⟨height, pubkey, hheld⟩ := hother
  by_cases hkey : .keyHistory height pubkey = key.historyKey
  · cases hkey
    exact .inl (Option.some.inj (hheld.symm.trans (l.set_self _ _)))
  · rw [l.set_of_ne _ hkey] at hheld
    exact .inr ⟨height, pubkey, hheld⟩

/-- A key enters the history whose public key is not there. -/
theorem set_historyKey (h : l.KeysFiled)
    (hnew : ∀ other, l.Recalls other → other.pubkey ≠ key.pubkey) :
    (l.set key.historyKey key).KeysFiled ∧ (l.set key.historyKey key).Recalls key := by
  refine ⟨⟨?_, ?_, ?_⟩, _, _, l.set_self _ _⟩
  · intro height pubkey other hother
    by_cases hkey : .keyHistory height pubkey = key.historyKey
    · cases hkey
      cases hother.symm.trans (l.set_self _ _)
      exact ⟨rfl, rfl⟩
    · rw [l.set_of_ne _ hkey] at hother
      exact h.historyKey_eq height pubkey other hother
  · intro first second hfirst hsecond hpubkey
    rcases recalls_of_append hfirst with hfirst | hfirst <;>
      rcases recalls_of_append hsecond with hsecond | hsecond
    · exact hfirst.trans hsecond.symm
    · exact absurd (hpubkey.symm.trans (congrArg _ hfirst)) (hnew second hsecond)
    · exact absurd (hpubkey.trans (congrArg _ hsecond)) (hnew first hfirst)
    · exact h.eq_of_pubkey_eq first second hfirst hsecond hpubkey
  · intro current hcurrent
    rw [l.set_of_ne _ (by simp)] at hcurrent
    obtain ⟨height, pubkey, hheld⟩ := h.current current hcurrent
    refine ⟨height, pubkey, (l.set_of_ne _ fun hkey => ?_).trans hheld⟩
    cases hkey
    exact hnew current ⟨_, _, hheld⟩ (h.historyKey_eq _ _ current hheld).2

/-- **The history keeps its keys apart, and has the current one**, whatever governance does. -/
theorem of_enacts (h : l.KeysFiled) (henacts : l.Enacts l') : l'.KeysFiled := by
  cases henacts with
  | keep hsame =>
    have hhistory := fun height pubkey => hsame (.keyHistory height pubkey) trivial
    refine h.congr hhistory fun key hkey => ?_
    exact h.current key ((hsame .currentKey trivial).symm.trans hkey)
  | observers => exact h.set_of_ne _ (by simp) (by simp)
  | register => exact (h.set_of_ne _ (by simp) (by simp)).set_of_ne _ (by simp) (by simp)
  | update => exact h.set_of_ne _ (by simp) (by simp)
  | switch => exact h.set_of_ne _ (by simp) (by simp)
  | append hnew => exact (h.set_historyKey hnew).1
  | appoint hnew =>
    obtain ⟨hfiled, hrecalled⟩ := h.set_historyKey hnew
    exact hfiled.set_currentKey hrecalled
  | activate hkey => exact h.set_currentKey hkey

section Rows

variable {σ : Type} [WritableStore σ] [LawfulStore σ] {s : σ} {rows : List (Key × SigningKey)}

/-- Every row of a listed history is that of the key of its entry. -/
theorem fst_eq_of_row (h : l.KeysFiled) (hrecords : Records s l) (hl : l.Legible)
    (hrows : Rows s .keyHistory rows) {x : Key × SigningKey} (hx : x ∈ rows) :
    x.1 = x.2.historyKey := by
  obtain ⟨height, pubkey, hkey, hentry⟩ := Registry.exists_entry_of_row hrecords hl hrows hx
  obtain ⟨rfl, rfl⟩ := h.historyKey_eq _ _ _ hentry
  exact hkey

/-- **No public key is in a listed history twice.** -/
theorem nodup_of_rows (h : l.KeysFiled) (hrecords : Records s l) (hl : l.Legible)
    (hrows : Rows s .keyHistory rows)
    (hsorted : rows.Pairwise fun x y => x.1.bytes < y.1.bytes) :
    ((rows.map Prod.snd).map SigningKey.pubkey).Nodup := by
  rw [List.map_map, List.Nodup, List.pairwise_map]
  refine hsorted.imp_of_mem fun {x y} hx hy hlt heq => ?_
  have hrecalls {x : Key × SigningKey} (hx : x ∈ rows) : l.Recalls x.2 :=
    (Registry.mem_keyHistory_iff hrecords hl hrows _).1 (List.mem_map_of_mem hx)
  -- Two entries with one public key are one key, which has one place.
  have hsame : x.2 = y.2 := h.eq_of_pubkey_eq _ _ (hrecalls hx) (hrecalls hy) heq
  rw [h.fst_eq_of_row hrecords hl hrows hx, h.fst_eq_of_row hrecords hl hrows hy, hsame] at hlt
  exact List.lt_irrefl _ hlt

end Rows

end Ledger.KeysFiled

/-! ### Worlds that are reached -/

section Runs

variable {γ : Type} [Gateway γ] {service : Service} {w : World γ}

theorem Reachable.chainsFiled (h : Reachable service w) : w.store.ledger.ChainsFiled :=
  h.of_enacts (fun _ _ => Ledger.ChainsFiled.of_enacts) .empty

theorem Reachable.keysFiled (h : Reachable service w) : w.store.ledger.KeysFiled :=
  h.of_enacts (fun _ _ => Ledger.KeysFiled.of_enacts) .empty

omit [Gateway γ] in
theorem World.Sound.chain?_eq (h : w.Sound) (id : ChainId) :
    Registry.chain? w.store.restored id = .ok (w.store.ledger (.chain id)) :=
  storeError_lift_eq_ok_iff.2 (getRecord_restored h.records h.legible (.chain id))

/-- **The registry is in order**, whatever governance is asked for and in whatever order, and
whether it is refused or not. In a world that is reached from an empty store, no observer is a
member twice; the public keys of the history are distinct, and the current key is in the history as
it is. A chain is registered exactly if its parameters are stored; both have its identifier; and in
every later world the chain is still registered with the same name and network. The threshold is a
percentage from 1 to 100, so that a quorum asks for at least one vote and, as long as there are
observers, for no more votes than there are. -/
theorem Reachable.registry_in_order (h : Reachable service w) :
    ∃ observers history current,
      Registry.observerSet w.store.restored = .ok observers ∧
      Registry.keyHistory w.store.restored = .ok history ∧
      Registry.currentKey? w.store.restored = .ok current ∧
      observers.members.Nodup ∧
      (history.map SigningKey.pubkey).Nodup ∧ (∀ key, current = some key → key ∈ history) ∧
      ∀ id, ∃ chain params,
        Registry.chain? w.store.restored id = .ok chain ∧
        Registry.chainParams? w.store.restored id = .ok params ∧
        (chain.isSome ↔ params.isSome) ∧
        (∀ c, chain = some c → c.chainId = id ∧ ∀ turns w', Run service w turns w' →
          Registry.chain? w'.store.restored id = .ok (some c)) ∧
        ∀ p, params = some p → p.chainId = id ∧
          1 ≤ p.thresholdPercent.toNat ∧ p.thresholdPercent.toNat ≤ 100 ∧
          (observers.members ≠ [] → 1 ≤ observers.quorum p.thresholdPercent ∧
            observers.quorum p.thresholdPercent ≤ observers.members.length) := by
  have hsound := h.sound
  have hchains := h.chainsFiled
  have hkeys := h.keysFiled
  obtain ⟨rows, hrows, hsorted, hhistory⟩ := h.intact.scanRecords_restored .keyHistory
  refine ⟨_, _, _, hsound.observerSet_eq, storeError_lift_eq_ok_iff.2 hhistory,
    hsound.currentKey?_eq, h.constituted.nodup,
    hkeys.nodup_of_rows hsound.records hsound.legible hrows hsorted, ?_, ?_⟩
  · intro key hcurrent
    exact (Registry.mem_keyHistory_iff hsound.records hsound.legible hrows key).2
      (hkeys.current key hcurrent)
  intro id
  refine ⟨_, _, hsound.chain?_eq id, hsound.chainParams?_eq id, ?_, ?_, ?_⟩
  · rw [hchains.registered id]
  · intro c hc
    refine ⟨hchains.chainId_eq id c hc, fun turns w' hrun => ?_⟩
    have hkept := hrun.of_enacts (fun _ _ hl henacts => henacts.chain_eq hl) hsound h.intact hc
    rw [(hrun.sound hsound).chain?_eq, hkept]
  · intro p hp
    obtain ⟨hone, hhundred⟩ := h.constituted.threshold id p hp
    refine ⟨hchains.paramsId_eq id p hp, hone, hhundred, fun hmembers => ?_⟩
    exact ⟨ObserverSet.quorum_pos _ _,
      h.constituted.quorum_le_size hp (List.length_pos_of_ne_nil hmembers)⟩

end Runs

/-! ### Governance that is refused -/

namespace Sample

/-- The chain is registered again under another name, then its threshold is raised, and the public
key that is current is registered again. Only the threshold changes. -/
def decrees : List Call := [
  .registerChain ⟨chainId, "renamed", .solana⟩ (.ofThreshold chainId 1),
  .updateChainParams (.ofThreshold chainId 100),
  .updateChainParams (.ofThreshold chainId 101),
  .registerKey ⟨"key", 2, 2⟩ true]

/-- The chain keeps its name, and its quorum asks for the one vote that there is. -/
theorem chain_kept_by_decrees :
    Reachable service world ∧ ∃ observers,
      Registry.observerSet world.store.restored = .ok observers ∧
      1 ≤ observers.quorum 50 ∧ observers.quorum 50 ≤ observers.members.length ∧
      Registry.chain? (service.after world decrees).store.restored chainId
        = .ok (some ⟨chainId, "external", .evm⟩) := by
  have hevaluated :
      (∀ t ∈ service.turnsOf world decrees,
        (service.execute t.world t.call).world.store.Addressable) ∧
      world.store.ledger (.chain chainId) = some ⟨chainId, "external", .evm⟩ ∧
      world.store.ledger (.chainParams chainId) = some (.ofThreshold chainId 50) ∧
      world.observers.members ≠ [] := by
    decide +kernel
  obtain ⟨hstores, hchain, hparams, hmembers⟩ := hevaluated
  obtain ⟨observers, -, -, hobservers, -, -, -, -, -, hchains⟩ :=
    Reachable.registry_in_order reachable
  obtain ⟨chain, params, hfound, hstored, -, hkept, hproper⟩ := hchains chainId
  obtain rfl := Except.ok.inj ((reachable.sound.observerSet_eq).symm.trans hobservers)
  obtain rfl := Except.ok.inj ((reachable.sound.chain?_eq chainId).symm.trans hfound)
  obtain rfl := Except.ok.inj ((reachable.sound.chainParams?_eq chainId).symm.trans hstored)
  have hquorum := (hproper _ hparams).2.2.2 hmembers
  refine ⟨reachable, _, hobservers, hquorum.1, hquorum.2, ?_⟩
  exact (hkept _ hchain).2 _ _ (Run.start.calls decrees hstores)

end Sample

end Settlement
