import Settlement.Proofs.Decisions
import Settlement.Proofs.Openings

/-!
# What digests tell apart

The index of a transaction is the digest of what it came from: the report of a deposit, or a fund
migration. What is hashed determines the fields it was made of, because texts and byte strings have
their lengths in front and everything else a fixed width
(`Settlement.Preimage.fields_eq_of_bytes_eq`); and the two kinds of origin have domain names of
their own.

As long as no two digests collide, a transaction that is stored under the digest of a report has
therefore come from the same event, which is marked by then
(`Settlement.Run.absent_of_unmarked`).
-/

namespace Settlement

/-! ### Fields -/

/-- The kinds of fields. -/
inductive FieldKind where
  | text
  | bytes
  | word
  | chain
  | amount
  deriving DecidableEq

/-- The kind of a field. -/
def Field.kind : Field → FieldKind
  | .text _ => .text
  | .bytes _ => .bytes
  | .word _ => .word
  | .chain _ => .chain
  | .amount _ => .amount

theorem U256.bytes_injective {x y : U256} (h : x.bytes = y.bytes) : x = y := by
  have hnumber := congrArg Bytes.toNatBig h
  rw [toNatBig_bytes, toNatBig_bytes] at hnumber
  obtain ⟨n, hn⟩ := x
  obtain ⟨m, hm⟩ := y
  cases hnumber
  rfl

/-- A byte string with its length in front is told from what follows it. -/
theorem Bytes.sized_append_injective {bs cs xs ys : Bytes} (hbs : bs.length < UInt64.size)
    (hcs : cs.length < UInt64.size)
    (h : big 8 bs.length ++ bs ++ xs = big 8 cs.length ++ cs ++ ys) : bs = cs ∧ xs = ys := by
  rw [List.append_assoc, List.append_assoc] at h
  obtain ⟨hfront, hrest⟩ := List.append_inj h (by rw [length_big, length_big])
  have hbs : bs.length < capacity 8 := hbs
  have hcs : cs.length < capacity 8 := hcs
  exact List.append_inj hrest (big_injective hbs hcs hfront)

namespace Field

/-- A text or a byte string has a length that fits in a word. -/
def IsShort : Field → Prop
  | text s => (Bytes.ofText s).length < UInt64.size
  | bytes bs => bs.length < UInt64.size
  | word _ | chain _ | amount _ => True

instance : DecidablePred IsShort
  | text s => inferInstanceAs (Decidable ((Bytes.ofText s).length < UInt64.size))
  | bytes bs => inferInstanceAs (Decidable (bs.length < UInt64.size))
  | word _ | chain _ | amount _ => .isTrue trivial

theorem isShort_of_length_lt {f : Field} (h : f.encode.length < UInt64.size) : f.IsShort := by
  cases f with
  | text s =>
    rw [encode, Bytes.ofSizedText, List.length_append] at h
    exact Nat.lt_of_le_of_lt (Nat.le_add_left _ _) h
  | bytes bs =>
    rw [encode, List.length_append] at h
    exact Nat.lt_of_le_of_lt (Nat.le_add_left _ _) h
  | word | chain | amount => trivial

/-- **A field is told from what follows it**, if it is known of which kind it is. -/
theorem encode_append_injective {f g : Field} {xs ys : Bytes} (hkind : f.kind = g.kind)
    (hf : f.IsShort) (hg : g.IsShort) (h : f.encode ++ xs = g.encode ++ ys) :
    f = g ∧ xs = ys := by
  -- A field of a fixed width ends where the other one does.
  have hfixed (hwidth : f.encode.length = g.encode.length) : f.encode = g.encode ∧ xs = ys :=
    List.append_inj h hwidth
  cases f <;> cases g <;> first | cases hkind; done | skip
  case text.text s t =>
    obtain ⟨hst, hrest⟩ := Bytes.sized_append_injective hf hg h
    exact ⟨congrArg text (Bytes.ofText_injective hst), hrest⟩
  case bytes.bytes bs cs =>
    obtain ⟨rfl, hrest⟩ := Bytes.sized_append_injective hf hg h
    exact ⟨rfl, hrest⟩
  case word.word n m =>
    obtain ⟨hword, hrest⟩ := hfixed (by simp [encode])
    exact ⟨congrArg word (Bytes.ofWord_injective hword), hrest⟩
  case chain.chain c d =>
    obtain ⟨hchain, hrest⟩ := hfixed (by simp [encode])
    exact ⟨congrArg chain (ChainId.bytes_injective hchain), hrest⟩
  case amount.amount x y =>
    obtain ⟨hamount, hrest⟩ := hfixed (by simp [encode, U256.bytes])
    exact ⟨congrArg amount (U256.bytes_injective hamount), hrest⟩

/-- Fields of known kinds are told apart one after the other. -/
theorem eq_of_flatMap_encode_eq {fs gs : List Field} (hkinds : fs.map kind = gs.map kind)
    (hfs : ∀ f ∈ fs, f.IsShort) (hgs : ∀ g ∈ gs, g.IsShort)
    (h : fs.flatMap encode = gs.flatMap encode) : fs = gs := by
  induction fs generalizing gs with
  | nil => exact (List.map_eq_nil_iff.1 hkinds.symm).symm
  | cons f fs ih =>
    obtain ⟨g, gs, rfl, hkind, hrests⟩ := List.map_eq_cons_iff.1 hkinds.symm
    rw [List.forall_mem_cons] at hfs hgs
    rw [List.flatMap_cons, List.flatMap_cons] at h
    obtain ⟨rfl, hrest⟩ := encode_append_injective hkind.symm hfs.1 hgs.1 h
    rw [ih hrests.symm hfs.2 hgs.2 hrest]

end Field

namespace Preimage

/-- Each text and each byte string among the fields has a length that fits in a word. -/
def IsShort (p : Preimage) : Prop :=
  ∀ f ∈ p.fields, f.IsShort

instance : DecidablePred IsShort :=
  fun p => inferInstanceAs (Decidable (∀ f ∈ p.fields, f.IsShort))

theorem isShort_of_length_lt {p : Preimage} (h : p.bytes.length < UInt64.size) : p.IsShort := by
  intro f hf
  obtain ⟨before, after, hfields⟩ := List.append_of_mem hf
  rw [bytes, hfields, List.flatMap_append, List.flatMap_cons] at h
  simp only [List.length_append] at h
  exact Field.isShort_of_length_lt (by omega)

/-- **What is hashed determines its fields**, if their kinds are known and they are not too
long. -/
theorem fields_eq_of_bytes_eq {p q : Preimage} (hdomain : p.domain = q.domain)
    (hkinds : p.fields.map Field.kind = q.fields.map Field.kind) (hp : p.IsShort)
    (hq : q.IsShort) (h : p.bytes = q.bytes) : p.fields = q.fields := by
  rw [bytes, bytes, hdomain] at h
  exact Field.eq_of_flatMap_encode_eq hkinds hp hq (List.append_cancel_left h)

end Preimage

/-- **Reports of which the same is hashed are about the same event.** -/
theorem InboundVote.origin_eq_of_bytes_eq {m n : InboundVote}
    (hlength : m.preimage.bytes.length < UInt64.size) (h : m.preimage.bytes = n.preimage.bytes) :
    m.origin = n.origin := by
  have hfields : m.preimage.fields = n.preimage.fields :=
    Preimage.fields_eq_of_bytes_eq rfl rfl (Preimage.isShort_of_length_lt hlength)
      (Preimage.isShort_of_length_lt (h ▸ hlength)) h
  simp only [preimage, List.cons.injEq, Field.text.injEq, Field.chain.injEq, Field.word.injEq]
    at hfields
  obtain ⟨-, hchain, -, -, -, -, -, hhash, -, -, -, -, hevent, -⟩ := hfields
  rw [origin, origin, hchain, hhash, hevent]

/-- Reports and migrations are told apart by their domain names. -/
theorem InboundVote.bytes_ne_migration (m : InboundVote) (chainId : ChainId) (amount : U256)
    (current newer : SigningKey) (height : UInt64) : m.preimage.bytes
      ≠ (Journal.migrationPreimage chainId amount current newer height).bytes :=
  Preimage.bytes_ne "xc/vote-inbound" "xc/migration" rfl rfl (by decide)

/-! ### What is hashed in a run -/

section Runs

variable {γ : Type}

/-- What is hashed in a turn: the message that is voted on, or the migration that is asked for with
the keys that are there. -/
def Turn.preimage? (t : Turn γ) : Option Preimage :=
  match t.call with
  | .voteInbound _ m => some m.preimage
  | .voteOutbound _ m => some m.preimage
  | .migrateFunds block chainId amount =>
    match Registry.currentKey (Overlay.fresh t.world.store : Draft),
      Registry.newerKey? (Overlay.fresh t.world.store : Draft) with
    | .ok current, .ok (some newer) =>
      some (Journal.migrationPreimage chainId amount current newer block.height)
    | _, _ => none
  | _ => none

/-- All that is hashed in some turns. -/
def preimagesIn (turns : List (Turn γ)) : List Preimage :=
  turns.filterMap Turn.preimage?

/-- A transaction has the digest of what was hashed in the turn from which it comes: of a report of
its event, or of a migration. -/
theorem Cctx.ComesFrom.exists_preimage {c : Cctx} {t : Turn γ} (h : c.ComesFrom t) :
    ∃ p, t.preimage? = some p ∧ c.index = p.digest ∧
      ((∃ m : InboundVote, p = m.preimage ∧ c.inbound.origin = m.origin ∧
          c.inbound.coinType ≠ .cmd) ∨
        ∃ chainId amount current newer height,
          p = Journal.migrationPreimage chainId amount current newer height) := by
  cases h with
  | report hindex horigin hcoin => exact ⟨_, rfl, hindex, .inl ⟨_, rfl, horigin, hcoin⟩⟩
  | migration hcurrent hnewer hindex =>
    refine ⟨_, ?_, hindex, .inr ⟨_, _, _, _, _, rfl⟩⟩
    simp only [Turn.preimage?, hcurrent, hnewer]

variable [Gateway γ] {service : Service} {w w₀ : World γ} {turns : List (Turn γ)}

/-- **There is no transaction under the digest of a report whose event is not marked**, as long as
no two digests collide. -/
theorem Run.absent_of_unmarked (hrun : Run service w₀ turns w)
    (hempty : w₀.store.entries = .empty) {m : InboundVote}
    (hfree : CollisionFree ((m.preimage :: preimagesIn turns).map Preimage.bytes))
    (hlength : m.preimage.bytes.length < UInt64.size)
    (hmarked : w.accounts.marked m.origin = false) : w.accounts.cctx m.digest = none := by
  have hsound := (hrun.sound (World.sound_of_entries_eq_empty hempty)).accounts
  refine Option.eq_none_iff_forall_not_mem.2 fun c hc => ?_
  obtain ⟨t, ht, hopened⟩ := hrun.openedIn hempty hc
  obtain ⟨p, hp, hindex, horigin⟩ := hopened.comesFrom.exists_preimage
  have hdigest : m.preimage.digest = p.digest := (hsound.index_eq _ _ hc).symm.trans hindex
  have hmem : p ∈ m.preimage :: preimagesIn turns :=
    List.mem_cons_of_mem _ (List.mem_filterMap.2 ⟨t, ht, hp⟩)
  have hbytes : m.preimage.bytes = p.bytes :=
    hfree _ (List.mem_map_of_mem List.mem_cons_self) _ (List.mem_map_of_mem hmem) hdigest
  obtain ⟨n, rfl, horigin, hcoin⟩ | ⟨chainId, amount, current, newer, height, rfl⟩ := horigin
  · have hevent := hsound.marked _ c hc hcoin
    rw [horigin, ← InboundVote.origin_eq_of_bytes_eq hlength hbytes, hmarked] at hevent
    cases hevent
  · exact m.bytes_ne_migration chainId amount current newer height hbytes

end Runs

end Settlement
