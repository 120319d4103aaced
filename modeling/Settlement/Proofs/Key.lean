import Settlement.Key
import Settlement.Proofs.Utf8

/-!
# Keys are told apart

Two keys have the same bytes only if they are the same key, up to the case of transaction hashes
(`Settlement.Key.bytes_eq_iff`). No tag is the start of another one, so the bytes say first of
which family a key is; after that every part has a fixed width, or its length in front, or ends
the key.
-/

namespace Settlement

/-! ### Parts of keys -/

namespace Bytes

theorem big_injective {width n m : Nat} (hn : n < capacity width) (hm : m < capacity width)
    (h : big width n = big width m) : n = m := by
  have hmod := congrArg toNatBig h
  rwa [toNatBig_big, toNatBig_big, Nat.mod_eq_of_lt hn, Nat.mod_eq_of_lt hm] at hmod

theorem ofWord_injective {n m : UInt64} (h : ofWord n = ofWord m) : n = m := by
  have hn : n.toNat < capacity 8 := n.toNat_lt
  have hm : m.toNat < capacity 8 := m.toNat_lt
  exact UInt64.toNat_inj.1 (big_injective hn hm h)

/-- Of two byte strings that are continued to the same one, one starts with the other. -/
theorem starts_or_starts {xs ys xs' ys' : Bytes} (h : xs ++ xs' = ys ++ ys') :
    xs <+: ys ∨ ys <+: xs :=
  List.prefix_or_prefix_of_prefix (List.prefix_append xs xs') (h ▸ List.prefix_append ys ys')

/-- A text with its length in front is told from what follows it if this has a fixed width. -/
theorem ofSizedText_append_injective {s t : String} {xs ys : Bytes}
    (hlen : xs.length = ys.length) (h : ofSizedText 4 s ++ xs = ofSizedText 4 t ++ ys) :
    s = t ∧ xs = ys := by
  obtain ⟨htext, hrest⟩ := List.append_inj' h hlen
  have hbody := (List.append_inj htext (by rw [length_big, length_big])).2
  exact ⟨ofText_injective hbody, hrest⟩

theorem ofSizedText_injective {s t : String} (h : ofSizedText 4 s = ofSizedText 4 t) : s = t :=
  ofText_injective (List.append_inj h (by rw [length_big, length_big])).2

end Bytes

theorem ChainId.bytes_injective {c d : ChainId} (h : c.bytes = d.bytes) : c = d := by
  have hnumber := congrArg UInt64.toInt64 (Bytes.ofWord_injective h)
  rw [Int64.toInt64_toUInt64, Int64.toInt64_toUInt64] at hnumber
  exact congrArg ChainId.mk hnumber

namespace Key

/-! ### Families -/

/-- The tags of the families. -/
def tags : List String :=
  ["ob:b:", "ob:h:", "ob:os", "ob:ch:", "ob:cp:", "ob:cf", "ob:ck", "ob:skh:", "ob:n:", "ob:nc:",
    "ob:fm:", "xc:cctx:", "xc:otr:", "xc:itr:", "xc:fin:"]

theorem tag_mem_tags (k : Key) : k.tag ∈ tags := by
  cases k <;> simp [tag, tags]

/-- **No tag is the start of another one.** -/
theorem tag_eq_of_starts : ∀ s ∈ tags, ∀ t ∈ tags, Bytes.ofText s <+: Bytes.ofText t → s = t := by
  decide

/-- A tag in front of the bytes of a key is the tag of this key. -/
theorem tag_eq_of_starts_bytes {t : String} (ht : t ∈ tags) {k : Key}
    (h : Bytes.ofText t <+: k.bytes) : k.tag = t := by
  obtain ⟨rest, hrest⟩ := h
  rcases Bytes.starts_or_starts hrest with hp | hp
  · exact (tag_eq_of_starts t ht k.tag (tag_mem_tags k) hp).symm
  · exact tag_eq_of_starts k.tag (tag_mem_tags k) t ht hp

theorem tag_eq_of_bytes_eq {k j : Key} (h : k.bytes = j.bytes) : k.tag = j.tag :=
  tag_eq_of_starts_bytes (tag_mem_tags j) (h ▸ List.prefix_append _ _)

theorem body_eq_of_bytes_eq {k j : Key} (h : k.bytes = j.bytes) : k.body = j.body := by
  rw [bytes, bytes, tag_eq_of_bytes_eq h] at h
  exact List.append_cancel_left h

/-! ### The key up to case -/

/-- The key with its transaction hash in small letters, if it has one. -/
def folded : Key → Key
  | inboundTracker chainId txHash => inboundTracker chainId (foldCase txHash)
  | finalizedInbound chainId txHash eventIndex =>
    finalizedInbound chainId (foldCase txHash) eventIndex
  | ballot index => ballot index
  | ballotByHeight height index => ballotByHeight height index
  | observerSet => observerSet
  | chain chainId => chain chainId
  | chainParams chainId => chainParams chainId
  | switches => switches
  | currentKey => currentKey
  | keyHistory keygenHeight pubkey => keyHistory keygenHeight pubkey
  | nonces signingKey chainId => nonces signingKey chainId
  | nonceOwner signingKey chainId nonce => nonceOwner signingKey chainId nonce
  | fundMigration chainId => fundMigration chainId
  | cctx index => cctx index
  | outboundTracker signingKey chainId nonce => outboundTracker signingKey chainId nonce

end Key

/-! ### Folding twice -/

/-- A capital letter that is made small is none any more. -/
theorem toLower_toLower (c : Char) : c.toLower.toLower = c.toLower := by
  by_cases h : c.val ≥ 'A'.val ∧ c.val ≤ 'Z'.val
  · have hval : c.toLower.val = c.val + 32 :=
      (congrArg Char.val (dif_pos h : c.toLower = _)).trans rfl
    have hle : c.val.toNat ≤ 90 := UInt32.le_iff_toNat_le.1 h.2
    have hge : 65 ≤ c.val.toNat := UInt32.le_iff_toNat_le.1 h.1
    have hnat : c.toLower.val.toNat = c.val.toNat + 32 := by
      rw [hval, UInt32.toNat_add]
      exact Nat.mod_eq_of_lt (Nat.lt_of_le_of_lt (Nat.add_le_add_right hle 32) (by decide))
    refine dif_neg fun hc => ?_
    have hz : c.toLower.val.toNat ≤ 90 := UInt32.le_iff_toNat_le.1 hc.2
    omega
  · have hc : c.toLower = c := dif_neg h
    rw [hc, hc]

@[simp]
theorem foldCase_foldCase (s : String) : foldCase (foldCase s) = foldCase s := by
  simp only [foldCase, String.toList_ofList, List.map_map, Function.comp_def, toLower_toLower]

namespace Key

@[simp]
theorem bytes_folded (k : Key) : k.folded.bytes = k.bytes := by
  cases k <;> simp [folded, bytes, tag, body]

/-- **Keys with the same bytes are the same key up to case.** -/
theorem bytes_eq_iff {k j : Key} : k.bytes = j.bytes ↔ k.folded = j.folded := by
  refine ⟨fun h => ?_, fun h => by rw [← bytes_folded k, h, bytes_folded]⟩
  -- Behind equal tags there are equal bodies.
  have htag := tag_eq_of_bytes_eq h
  have hbody := body_eq_of_bytes_eq h
  -- Keys of different families have different tags.
  cases k <;> cases j <;> first | simp [tag] at htag; done | skip
  case ballot.ballot => rw [Digest.ext hbody]
  case ballotByHeight.ballotByHeight =>
    obtain ⟨hheight, hindex⟩ := List.append_inj hbody (by simp)
    rw [Bytes.ofWord_injective hheight, Digest.ext hindex]
  case observerSet.observerSet => rfl
  case chain.chain => rw [ChainId.bytes_injective hbody]
  case chainParams.chainParams => rw [ChainId.bytes_injective hbody]
  case switches.switches => rfl
  case currentKey.currentKey => rfl
  -- A text in the middle has its length in front, and what follows it has a fixed width.
  case keyHistory.keyHistory =>
    obtain ⟨hheight, hkey⟩ := List.append_inj hbody (by simp)
    rw [Bytes.ofWord_injective hheight, Bytes.ofSizedText_injective hkey]
  case nonces.nonces =>
    obtain ⟨hkey, hchain⟩ := Bytes.ofSizedText_append_injective (by simp) hbody
    rw [hkey, ChainId.bytes_injective hchain]
  case nonceOwner.nonceOwner =>
    obtain ⟨hfront, hnonce⟩ := List.append_inj' hbody (by simp)
    obtain ⟨hkey, hchain⟩ := Bytes.ofSizedText_append_injective (by simp) hfront
    rw [hkey, ChainId.bytes_injective hchain, Bytes.ofWord_injective hnonce]
  case fundMigration.fundMigration => rw [ChainId.bytes_injective hbody]
  case cctx.cctx => rw [Digest.ext hbody]
  case outboundTracker.outboundTracker =>
    obtain ⟨hfront, hnonce⟩ := List.append_inj' hbody (by simp)
    obtain ⟨hkey, hchain⟩ := Bytes.ofSizedText_append_injective (by simp) hfront
    rw [hkey, ChainId.bytes_injective hchain, Bytes.ofWord_injective hnonce]
  -- A hash ends the key and has no length in front. It is there in small letters.
  case inboundTracker.inboundTracker =>
    obtain ⟨hchain, hhash⟩ := List.append_inj hbody (by simp)
    rw [folded, folded, ChainId.bytes_injective hchain, Bytes.ofText_injective hhash]
  case finalizedInbound.finalizedInbound =>
    obtain ⟨hfront, hhash⟩ := List.append_inj hbody (by simp)
    obtain ⟨hchain, hevent⟩ := List.append_inj hfront (by simp)
    rw [folded, folded, ChainId.bytes_injective hchain, Bytes.ofWord_injective hevent,
      Bytes.ofText_injective hhash]

end Key

end Settlement
