import Settlement.Proofs.Key

/-!
# The order of keys, and what is listed

A listing goes over the keys that start with the bytes of a range, in the order of their bytes. The
bytes of a range are those of its tag and of the leading parts that all its keys have in common, so
that no key of another family, or of another signing key or chain or height, starts with them
(`Settlement.KeyRange.starts_iff_covers`). Numbers are written with the most significant byte first,
so that the order of bytes is that of numbers (`Settlement.Bytes.ofWord_lt_ofWord_iff`); a text has
its length in front, so that shorter texts come first.

Main statement: `Settlement.Key.layout_exact`.
-/

namespace Settlement

/-! ### The order of byte strings -/

namespace Bytes

/-- Behind parts of the same length, the order is that of the parts, and then that of the rests. -/
theorem append_lt_append_iff {xs ys xs' ys' : Bytes} (hlength : xs.length = ys.length) :
    xs ++ xs' < ys ++ ys' ↔ xs < ys ∨ xs = ys ∧ xs' < ys' := by
  induction xs generalizing ys with
  | nil =>
    obtain rfl := List.length_eq_zero_iff.1 hlength.symm
    simp
  | cons x xs ih =>
    cases ys with
    | nil => cases hlength
    | cons y ys =>
      simp only [List.cons_append, List.cons_lt_cons_iff, ih (Nat.succ.inj hlength),
        List.cons.injEq]
      grind

/-- What is in front of both byte strings does not matter. -/
theorem append_lt_append_left_iff (stem : Bytes) {xs ys : Bytes} :
    stem ++ xs < stem ++ ys ↔ xs < ys := by
  rw [append_lt_append_iff rfl, or_iff_right (List.lt_irrefl stem), and_iff_right rfl]

/-- **Numbers of a fixed width are in the order of their bytes.** -/
theorem big_lt_big_iff {width n m : Nat} (hn : n < capacity width) (hm : m < capacity width) :
    big width n < big width m ↔ n < m := by
  induction width generalizing n m with
  | zero =>
    rw [capacity] at hn hm
    obtain rfl : n = m := by omega
    exact iff_of_false (List.lt_irrefl _) (Nat.lt_irrefl _)
  | succ width ih =>
    rw [capacity] at hn hm
    have hn' : n / 256 < capacity width := Nat.div_lt_of_lt_mul hn
    have hm' : m / 256 < capacity width := Nat.div_lt_of_lt_mul hm
    -- The last byte is the remainder, and decides if the quotients are equal.
    have hquotients : big width (n / 256) = big width (m / 256) ↔ n / 256 = m / 256 :=
      ⟨big_injective hn' hm', congrArg _⟩
    have hlast : [UInt8.ofNat n] < [UInt8.ofNat m] ↔ n % 256 < m % 256 := by
      rw [List.cons_lt_cons_iff, or_iff_left fun h => List.lt_irrefl _ h.2]
      exact UInt8.lt_iff_toNat_lt
    have hsplit (k : Nat) : big (width + 1) k = big width (k / 256) ++ [UInt8.ofNat k] := by
      rw [big, little, List.reverse_cons, big]
    rw [hsplit, hsplit, append_lt_append_iff (by simp), ih hn' hm', hquotients, hlast]
    omega

/-- Words are in the order of their bytes. -/
theorem ofWord_lt_ofWord_iff {n m : UInt64} : ofWord n < ofWord m ↔ n < m := by
  have hn : n.toNat < capacity 8 := n.toNat_lt
  have hm : m.toNat < capacity 8 := m.toNat_lt
  rw [ofWord, ofWord, big_lt_big_iff hn hm, UInt64.lt_iff_toNat_lt]

/-- A byte string starts with a part of the same length as its first one if that is the part. -/
theorem starts_append_iff {xs ys zs : Bytes} (hlength : xs.length = ys.length) :
    xs <+: ys ++ zs ↔ xs = ys := by
  refine ⟨fun h => ?_, fun h => h ▸ List.prefix_append _ _⟩
  exact (List.prefix_of_prefix_length_le h (List.prefix_append ys zs)
    (Nat.le_of_eq hlength)).eq_of_length hlength

/-! ### Texts in keys -/

/-- A text whose length can be written in front of it in a key. -/
def IsShort (s : String) : Prop :=
  (ofText s).length < UInt32.size

instance : DecidablePred IsShort :=
  fun s => inferInstanceAs (Decidable ((ofText s).length < UInt32.size))

/-- Short texts of different lengths have different bytes in front. -/
theorem big_length_eq_iff {s t : String} (hs : IsShort s) (ht : IsShort t) :
    big 4 (ofText s).length = big 4 (ofText t).length ↔
      (ofText s).length = (ofText t).length := by
  have hs : (ofText s).length < capacity 4 := hs
  have ht : (ofText t).length < capacity 4 := ht
  exact ⟨big_injective hs ht, congrArg _⟩

/-- Shorter texts come first, and texts of the same length are in the order of their bytes. -/
theorem ofSizedText_lt_ofSizedText_iff {s t : String} (hs : IsShort s) (ht : IsShort t) :
    ofSizedText 4 s < ofSizedText 4 t ↔ (ofText s).length < (ofText t).length ∨
      (ofText s).length = (ofText t).length ∧ ofText s < ofText t := by
  rw [ofSizedText, ofSizedText, append_lt_append_iff (by simp), big_length_eq_iff hs ht,
    big_lt_big_iff (show _ < capacity 4 from hs) ht]

/-- A text with its length in front is found in front of a key only if it is there. -/
theorem ofSizedText_append_starts_iff {s t : String} {xs ys zs : Bytes} (hs : IsShort s)
    (ht : IsShort t) (hlength : xs.length = ys.length) :
    ofSizedText 4 s ++ xs <+: ofSizedText 4 t ++ ys ++ zs ↔ s = t ∧ xs = ys := by
  refine ⟨fun h => ?_, fun ⟨hst, hxy⟩ => hst ▸ hxy ▸ List.prefix_append _ _⟩
  -- The lengths agree, so both parts end at the same place.
  have hfront : big 4 (ofText s).length = big 4 (ofText t).length := by
    rw [ofSizedText, ofSizedText, List.append_assoc, List.append_assoc, List.append_assoc] at h
    exact (starts_append_iff (by simp)).1 ((List.prefix_append _ _).trans h)
  have htexts := (big_length_eq_iff hs ht).1 hfront
  have hsized : (ofSizedText 4 s ++ xs).length = (ofSizedText 4 t ++ ys).length := by
    simp [ofSizedText, htexts, hlength]
  exact ofSizedText_append_injective hlength ((starts_append_iff hsized).1 h)

end Bytes

/-! ### Ranges of keys -/

namespace KeyRange

/-- The tag of the family of the keys. -/
def tag : KeyRange → String
  | .ballotsByHeight => "ob:h:"
  | .ballotsAt _ => "ob:h:"
  | .chains => "ob:ch:"
  | .keyHistory => "ob:skh:"
  | .fundMigrations => "ob:fm:"
  | .cctxs => "xc:cctx:"
  | .outboundTrackers _ _ => "xc:otr:"
  | .inboundTrackers _ => "xc:itr:"

/-- The bytes that the keys have in common after the tag. -/
def front : KeyRange → Bytes
  | .ballotsByHeight => []
  | .ballotsAt height => Bytes.ofWord height
  | .chains => []
  | .keyHistory => []
  | .fundMigrations => []
  | .cctxs => []
  | .outboundTrackers signingKey chainId => Bytes.ofSizedText 4 signingKey ++ chainId.bytes
  | .inboundTrackers chainId => chainId.bytes

/-- The keys that are meant: those of the family with the leading parts that are given. -/
def Covers : KeyRange → Key → Prop
  | .ballotsByHeight, k => ∃ height index, k = .ballotByHeight height index
  | .ballotsAt height, k => ∃ index, k = .ballotByHeight height index
  | .chains, k => ∃ chainId, k = .chain chainId
  | .keyHistory, k => ∃ keygenHeight pubkey, k = .keyHistory keygenHeight pubkey
  | .fundMigrations, k => ∃ chainId, k = .fundMigration chainId
  | .cctxs, k => ∃ index, k = .cctx index
  | .outboundTrackers signingKey chainId, k =>
    ∃ nonce, k = .outboundTracker signingKey chainId nonce
  | .inboundTrackers chainId, k => ∃ txHash, k = .inboundTracker chainId txHash

/-- The texts in a range have lengths that can be written in front of them. -/
def IsShort : KeyRange → Prop
  | .outboundTrackers signingKey _ => Bytes.IsShort signingKey
  | _ => True

theorem tag_mem_tags (r : KeyRange) : r.tag ∈ Key.tags := by
  cases r <;> simp [tag, Key.tags]

theorem bytes_eq (r : KeyRange) : r.bytes = Bytes.ofText r.tag ++ r.front := by
  cases r <;> rfl

end KeyRange

/-- The texts in a key have lengths that can be written in front of them. -/
def Key.IsShort : Key → Prop
  | .keyHistory _ pubkey => Bytes.IsShort pubkey
  | .nonces signingKey _ => Bytes.IsShort signingKey
  | .nonceOwner signingKey _ _ => Bytes.IsShort signingKey
  | .outboundTracker signingKey _ _ => Bytes.IsShort signingKey
  | .inboundTracker _ txHash => Bytes.IsShort txHash
  | .finalizedInbound _ txHash _ => Bytes.IsShort txHash
  | _ => True

namespace KeyRange

variable {r : KeyRange} {k : Key}

/-- The keys of a range are of its family. -/
theorem tag_eq (h : r.bytes <+: k.bytes) : k.tag = r.tag := by
  rw [bytes_eq] at h
  exact Key.tag_eq_of_starts_bytes r.tag_mem_tags ((List.prefix_append _ _).trans h)

/-- The keys that start as height entries do are those of height entries. -/
theorem exists_ballotByHeight (h : ballotsByHeight.bytes <+: k.bytes) :
    ∃ height index, k = .ballotByHeight height index := by
  have htag := tag_eq (r := .ballotsByHeight) h
  cases k <;> first | exact ⟨_, _, rfl⟩ | simp [tag, Key.tag] at htag

/-- A key starts with the bytes of a range if it has its tag and then its front. -/
theorem starts_iff : r.bytes <+: k.bytes ↔ k.tag = r.tag ∧ r.front <+: k.body := by
  refine ⟨fun h => ?_, fun ⟨htag, hfront⟩ => ?_⟩
  · have htag := tag_eq h
    rw [bytes_eq, Key.bytes, htag, List.prefix_append_right_inj] at h
    exact ⟨htag, h⟩
  · rwa [bytes_eq, Key.bytes, htag, List.prefix_append_right_inj]

/-- **The keys that start with the bytes of a range are those that are meant.** -/
theorem starts_iff_covers (hr : r.IsShort) (hk : k.IsShort) :
    r.bytes <+: k.bytes ↔ r.Covers k := by
  rw [starts_iff]
  constructor
  -- The tag says of which family the key is, and its front what the leading parts are.
  · rintro ⟨htag, hfront⟩
    cases r <;> cases k <;> first | simp [tag, Key.tag] at htag; done | skip
    case ballotsByHeight.ballotByHeight => exact ⟨_, _, rfl⟩
    case ballotsAt.ballotByHeight =>
      rw [Bytes.ofWord_injective ((Bytes.starts_append_iff (by simp)).1 hfront)]
      exact ⟨_, rfl⟩
    case chains.chain => exact ⟨_, rfl⟩
    case keyHistory.keyHistory => exact ⟨_, _, rfl⟩
    case fundMigrations.fundMigration => exact ⟨_, rfl⟩
    case cctxs.cctx => exact ⟨_, rfl⟩
    case outboundTrackers.outboundTracker =>
      obtain ⟨hkey, hchain⟩ := (Bytes.ofSizedText_append_starts_iff hr hk (by simp)).1 hfront
      rw [hkey, ChainId.bytes_injective hchain]
      exact ⟨_, rfl⟩
    case inboundTrackers.inboundTracker =>
      rw [ChainId.bytes_injective ((Bytes.starts_append_iff (by simp)).1 hfront)]
      exact ⟨_, rfl⟩
  · intro hcovers
    cases r with
    | ballotsByHeight =>
      obtain ⟨height, index, rfl⟩ := hcovers
      exact ⟨rfl, List.nil_prefix⟩
    | keyHistory =>
      obtain ⟨keygenHeight, pubkey, rfl⟩ := hcovers
      exact ⟨rfl, List.nil_prefix⟩
    | chains | fundMigrations | cctxs =>
      obtain ⟨_, rfl⟩ := hcovers
      exact ⟨rfl, List.nil_prefix⟩
    | ballotsAt | outboundTrackers | inboundTrackers =>
      obtain ⟨_, rfl⟩ := hcovers
      exact ⟨rfl, List.prefix_append _ _⟩

end KeyRange

/-! ### The order of keys -/

namespace Key

/-- Keys of one family are in the order of what comes after the tag. -/
theorem bytes_lt_iff {k j : Key} (htag : k.tag = j.tag) : k.bytes < j.bytes ↔ k.body < j.body := by
  rw [bytes, bytes, htag, Bytes.append_lt_append_left_iff]

/-- Ballots are listed in the order of their heights, and at one height in that of their
indices. -/
theorem ballotByHeight_lt_iff {height height' : UInt64} {index index' : Digest} :
    (ballotByHeight height index).bytes < (ballotByHeight height' index').bytes ↔
      height < height' ∨ height = height' ∧ index.bytes < index'.bytes := by
  have hheights : Bytes.ofWord height = Bytes.ofWord height' ↔ height = height' :=
    ⟨Bytes.ofWord_injective, congrArg _⟩
  rw [bytes_lt_iff (by rfl), body, body, Bytes.append_lt_append_iff (by simp),
    Bytes.ofWord_lt_ofWord_iff, hheights]

/-- The trackers of a signing key on a chain are listed in the order of their nonces. -/
theorem outboundTracker_lt_iff {signingKey : String} {chainId : ChainId} {nonce nonce' : UInt64} :
    (outboundTracker signingKey chainId nonce).bytes
      < (outboundTracker signingKey chainId nonce').bytes ↔ nonce < nonce' := by
  rw [bytes_lt_iff (by rfl), body, body, Bytes.append_lt_append_left_iff,
    Bytes.ofWord_lt_ofWord_iff]

/-- Signing keys are listed in the order of the heights of their generation, then in that of the
lengths of their texts, and then in that of the texts. -/
theorem keyHistory_lt_iff {height height' : UInt64} {pubkey pubkey' : String}
    (hshort : Bytes.IsShort pubkey) (hshort' : Bytes.IsShort pubkey') :
    (keyHistory height pubkey).bytes < (keyHistory height' pubkey').bytes ↔
      height < height' ∨ height = height' ∧
        ((Bytes.ofText pubkey).length < (Bytes.ofText pubkey').length ∨
          (Bytes.ofText pubkey).length = (Bytes.ofText pubkey').length ∧
            Bytes.ofText pubkey < Bytes.ofText pubkey') := by
  have hheights : Bytes.ofWord height = Bytes.ofWord height' ↔ height = height' :=
    ⟨Bytes.ofWord_injective, congrArg _⟩
  rw [bytes_lt_iff (by rfl), body, body, Bytes.append_lt_append_iff (by simp),
    Bytes.ofWord_lt_ofWord_iff, hheights, Bytes.ofSizedText_lt_ofSizedText_iff hshort hshort']

/-- **Keys do not collide, and listings are exact.** Two keys have the same bytes if and only if
they are of the same family with the same parts, transaction hashes up to case. As long as the texts
in them have lengths that can be written in front of them, a key starts with the bytes of a range if
and only if it is one of the keys that are meant by it. The order of the bytes is that of heights
for the ballots of all heights, that of nonces for the trackers of a signing key on a chain, and
that of heights, lengths and texts for the signing keys. -/
theorem layout_exact :
    (∀ k j : Key, k.bytes = j.bytes ↔ k.folded = j.folded) ∧
    (∀ (r : KeyRange) (k : Key), r.IsShort → k.IsShort → (r.bytes <+: k.bytes ↔ r.Covers k)) ∧
    (∀ (height height' : UInt64) (index index' : Digest),
      (ballotByHeight height index).bytes < (ballotByHeight height' index').bytes ↔
        height < height' ∨ height = height' ∧ index.bytes < index'.bytes) ∧
    (∀ (signingKey : String) (chainId : ChainId) (nonce nonce' : UInt64),
      (outboundTracker signingKey chainId nonce).bytes
        < (outboundTracker signingKey chainId nonce').bytes ↔ nonce < nonce') ∧
    ∀ (height height' : UInt64) (pubkey pubkey' : String), Bytes.IsShort pubkey →
      Bytes.IsShort pubkey' →
      ((keyHistory height pubkey).bytes < (keyHistory height' pubkey').bytes ↔
        height < height' ∨ height = height' ∧
          ((Bytes.ofText pubkey).length < (Bytes.ofText pubkey').length ∨
            (Bytes.ofText pubkey).length = (Bytes.ofText pubkey').length ∧
              Bytes.ofText pubkey < Bytes.ofText pubkey')) :=
  ⟨fun _ _ => bytes_eq_iff, fun _ _ => KeyRange.starts_iff_covers,
    fun _ _ _ _ => ballotByHeight_lt_iff, fun _ _ _ _ => outboundTracker_lt_iff,
    fun _ _ _ _ => keyHistory_lt_iff⟩

/-- The trackers of a key are listed for this key, and not for one whose text is the start of it;
and of two signing keys of one height the shorter one comes first. -/
theorem tracker_listed_for_own_key :
    (KeyRange.outboundTrackers "key" ⟨1⟩).bytes <+: (outboundTracker "key" ⟨1⟩ 7).bytes ∧
      ¬(KeyRange.outboundTrackers "ke" ⟨1⟩).bytes <+: (outboundTracker "key" ⟨1⟩ 7).bytes ∧
      (keyHistory 1 "zz").bytes < (keyHistory 1 "key").bytes := by
  have hshort : Bytes.IsShort "key" ∧ Bytes.IsShort "ke" ∧ Bytes.IsShort "zz" := by decide
  obtain ⟨hkey, hstart, hother⟩ := hshort
  obtain ⟨-, hlisted, -, -, hordered⟩ := layout_exact
  refine ⟨(hlisted (.outboundTrackers "key" ⟨1⟩) (.outboundTracker "key" ⟨1⟩ 7) hkey hkey).2
    ⟨7, rfl⟩, fun h => ?_, ?_⟩
  · obtain ⟨nonce, heq⟩ :=
      (hlisted (.outboundTrackers "ke" ⟨1⟩) (.outboundTracker "key" ⟨1⟩ 7) hstart hkey).1 h
    exact absurd (outboundTracker.inj heq).1 (by decide)
  · exact (hordered 1 1 "zz" "key" hother hkey).2 (.inr ⟨rfl, .inl (by decide)⟩)

end Key

end Settlement
