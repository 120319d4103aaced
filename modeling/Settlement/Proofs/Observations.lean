import Settlement.Proofs.Digests
import Settlement.Proofs.Migrations

/-!
# What digests identify

Three kinds of things are hashed: reports of inbound and of outbound transactions, and fund
migrations. The digest of a report and the index of a migration are the SHA-256 hashes of their byte
strings. Domain names of different lengths separate the kinds
(`Settlement.Preimage.bytes_ne`), and within a kind what is hashed determines its fields
(`Settlement.Preimage.fields_eq_of_bytes_eq`). The fields leave out who reports, the outcome of an
outbound transaction, and whether an empty revert address is missing; everything else they
determine.

Main statement: `Settlement.Subject.digests_identify`.
-/

namespace Settlement

/-! ### What fields determine -/

@[simp]
theorem CoinType.number_inj {c d : CoinType} : c.number = d.number ↔ c = d := by
  cases c <;> cases d <;> decide

@[simp]
theorem ProtocolVersion.number_inj {v w : ProtocolVersion} : v.number = w.number ↔ v = w := by
  cases v <;> cases w <;> decide

@[simp]
theorem Field.flag_inj {b c : Bool} : flag b = flag c ↔ b = c := by
  cases b <;> cases c <;> decide

/-- The reports say the same of an inbound transaction: they differ at most in who reports, and a
revert address that is missing in one may be empty in the other. -/
structure InboundVote.SameObservation (m n : InboundVote) : Prop where
  eq_upTo : n = { m with
    creator := n.creator
    revertOptions := { m.revertOptions with revertAddress := n.revertOptions.revertAddress } }
  revertAddress_eq : m.revertOptions.revertAddress.getD "" = n.revertOptions.revertAddress.getD ""

/-- The reports say the same of an outbound transaction: they differ at most in who reports and in
the outcome, which is the vote. -/
def OutboundVote.SameObservation (m n : OutboundVote) : Prop :=
  n = { m with creator := n.creator, outcome := n.outcome }

/-- **The fields of a report determine what it says.** -/
theorem InboundVote.fields_eq_iff {m n : InboundVote} :
    m.preimage.fields = n.preimage.fields ↔ m.SameObservation n := by
  constructor
  · intro h
    obtain ⟨_, _, _, _, _, _, _, _, _, _, _, _, _, _, _, _, _, _⟩ := m
    obtain ⟨_, _, _, _, _, _, _, _, _, _, _, _, _, _, _, _, _, _⟩ := n
    simp only [preimage, List.cons.injEq, Field.text.injEq, Field.chain.injEq, Field.word.injEq,
      Field.amount.injEq, Field.bytes.injEq, Field.flag_inj, CoinType.number_inj,
      ProtocolVersion.number_inj] at h
    obtain ⟨rfl, rfl, rfl, rfl, rfl, rfl, rfl, rfl, rfl, rfl, rfl, rfl, rfl, rfl, haddress, rfl,
      rfl, -⟩ := h
    exact ⟨rfl, haddress⟩
  · rintro ⟨h, haddress⟩
    rw [h]
    simp only [preimage, haddress]

/-- The fields of a report of an outbound transaction determine what it says, too. -/
theorem OutboundVote.fields_eq_iff {m n : OutboundVote} :
    m.preimage.fields = n.preimage.fields ↔ m.SameObservation n := by
  constructor
  · intro h
    obtain ⟨_, ⟨_, _⟩, _⟩ := m
    obtain ⟨_, ⟨_, _⟩, _⟩ := n
    simp only [preimage, List.cons.injEq, Field.text.injEq, Field.chain.injEq, Field.word.injEq,
      Field.amount.injEq, Field.bytes.injEq, CoinType.number_inj] at h
    obtain ⟨rfl, rfl, rfl, rfl, rfl, rfl, rfl, rfl, rfl, rfl, -⟩ := h
    rfl
  · intro h
    rw [h]
    rfl

/-- Reports of outbound transactions and migrations are told apart by their domain names. -/
theorem OutboundVote.bytes_ne_migration (m : OutboundVote) (chainId : ChainId) (amount : U256)
    (current newer : SigningKey) (height : UInt64) : m.preimage.bytes
      ≠ (Journal.migrationPreimage chainId amount current newer height).bytes :=
  Preimage.bytes_ne "xc/vote-outbound" "xc/migration" rfl rfl (by decide)

/-! ### What is hashed -/

/-- What a digest may be of: a report, or a fund migration at a height with the keys that are there
then. -/
inductive Subject where
  | inbound (m : InboundVote)
  | outbound (m : OutboundVote)
  | migration (chainId : ChainId) (amount : U256) (current newer : SigningKey) (height : UInt64)

namespace Subject

/-- What is hashed of it. -/
def preimage : Subject → Preimage
  | inbound m => m.preimage
  | outbound m => m.preimage
  | migration chainId amount current newer height =>
    Journal.migrationPreimage chainId amount current newer height

/-- Two are the same if they are of one kind and agree on all that is hashed: reports on what they
say, and migrations on the chain, the amount, the two public keys and the height. -/
inductive Same : Subject → Subject → Prop
  | inbound {m n : InboundVote} (h : m.SameObservation n) : Same (.inbound m) (.inbound n)
  | outbound {m n : OutboundVote} (h : m.SameObservation n) : Same (.outbound m) (.outbound n)
  | migration {chainId : ChainId} {amount : U256} {current current' newer newer' : SigningKey}
      {height : UInt64} (hcurrent : current.pubkey = current'.pubkey)
      (hnewer : newer.pubkey = newer'.pubkey) :
      Same (.migration chainId amount current newer height)
        (.migration chainId amount current' newer' height)

/-- What is the same is hashed alike. -/
theorem Same.preimage_eq {x y : Subject} (h : x.Same y) : x.preimage = y.preimage := by
  cases h with
  | inbound h => exact congrArg (Preimage.mk _) (InboundVote.fields_eq_iff.2 h)
  | outbound h => exact congrArg (Preimage.mk _) (OutboundVote.fields_eq_iff.2 h)
  | migration hcurrent hnewer => simp only [preimage, Journal.migrationPreimage, hcurrent, hnewer]

/-- Migrations agree on all that is hashed if their fields are equal. -/
theorem same_migration {chainId chainId' : ChainId} {amount amount' : U256}
    {current current' newer newer' : SigningKey} {height height' : UInt64}
    (h : (Journal.migrationPreimage chainId amount current newer height).fields
      = (Journal.migrationPreimage chainId' amount' current' newer' height').fields) :
    (migration chainId amount current newer height).Same
      (migration chainId' amount' current' newer' height') := by
  simp only [Journal.migrationPreimage, List.cons.injEq, Field.chain.injEq, Field.amount.injEq,
    Field.text.injEq, Field.word.injEq] at h
  obtain ⟨rfl, rfl, hcurrent, hnewer, rfl, -⟩ := h
  exact .migration hcurrent hnewer

/-- **The hashed byte strings of two things are equal if and only if these are the same.** -/
theorem bytes_eq_iff {x y : Subject} (hx : x.preimage.IsShort) (hy : y.preimage.IsShort) :
    x.preimage.bytes = y.preimage.bytes ↔ x.Same y := by
  refine ⟨fun h => ?_, fun h => by rw [h.preimage_eq]⟩
  -- Of one kind, the fields are told apart; of two kinds, the domain names are.
  cases x with
  | inbound m =>
    cases y with
    | inbound n =>
      exact .inbound (InboundVote.fields_eq_iff.1
        (Preimage.fields_eq_of_bytes_eq rfl rfl hx hy h))
    | outbound n => exact absurd h (m.bytes_ne n)
    | migration => exact absurd h (m.bytes_ne_migration _ _ _ _ _)
  | outbound m =>
    cases y with
    | inbound n => exact absurd h.symm (n.bytes_ne m)
    | outbound n =>
      exact .outbound (OutboundVote.fields_eq_iff.1
        (Preimage.fields_eq_of_bytes_eq rfl rfl hx hy h))
    | migration => exact absurd h (m.bytes_ne_migration _ _ _ _ _)
  | migration =>
    cases y with
    | inbound n => exact absurd h.symm (n.bytes_ne_migration _ _ _ _ _)
    | outbound n => exact absurd h.symm (n.bytes_ne_migration _ _ _ _ _)
    | migration => exact same_migration (Preimage.fields_eq_of_bytes_eq rfl rfl hx hy h)

/-- The index of a migration that is made is the digest of it, with the keys that are there. -/
theorem index_of_migrateFunds {σ : Type} [WritableStore σ] {config : SettlementConfig} {s s' : σ}
    {block : Block} {chainId : ChainId} {amount : U256} {index : Digest} {effects : Effects}
    (h : Journal.migrateFunds config s block chainId amount = .ok (index, s', effects)) :
    ∃ current newer, Registry.currentKey s = .ok current ∧
      Registry.newerKey? s = .ok (some newer) ∧
      index = (migration chainId amount current newer block.height).preimage.digest := by
  obtain ⟨current, newer, _, _, _, hlinks⟩ := Journal.links_of_migrateFunds h
  exact ⟨current, newer, hlinks.current_eq, hlinks.newer_eq, hlinks.index_eq⟩

/-- **Digests identify what they are of.** The digest of a report, be it of an inbound or of an
outbound transaction, and the index of a migration that is made, on whatever store, are the SHA-256
hashes of their byte strings. And the hashed byte strings of two things are equal if and only if
these are of one kind and agree on all that is hashed. -/
theorem digests_identify {x y : Subject} (hx : x.preimage.IsShort) (hy : y.preimage.IsShort) :
    (∀ m : InboundVote, m.digest.bytes = Sha256.hash (inbound m).preimage.bytes) ∧
    (∀ m : OutboundVote, m.digest.bytes = Sha256.hash (outbound m).preimage.bytes) ∧
    (∀ (σ : Type) [WritableStore σ] config (s : σ) block chainId amount index s' effects,
      Journal.migrateFunds config s block chainId amount = .ok (index, s', effects) →
      ∃ current newer, Registry.currentKey s = .ok current ∧
        Registry.newerKey? s = .ok (some newer) ∧ index.bytes
          = Sha256.hash (migration chainId amount current newer block.height).preimage.bytes) ∧
    (x.preimage.bytes = y.preimage.bytes ↔ x.Same y) := by
  refine ⟨fun _ => rfl, fun _ => rfl, ?_, bytes_eq_iff hx hy⟩
  intro σ _ config s block chainId amount index s' effects hmigrate
  obtain ⟨current, newer, hcurrent, hnewer, rfl⟩ := index_of_migrateFunds hmigrate
  exact ⟨current, newer, hcurrent, hnewer, rfl⟩

end Subject

/-! ### A further report, another one, and a migration -/

namespace Sample

/-- A further report of the deposit, by someone else and with an empty revert address. -/
def furtherReport : InboundVote :=
  { deposit with
    creator := ⟨"other"⟩
    revertOptions := { deposit.revertOptions with revertAddress := some "" } }

/-- A report with another receiver. -/
def otherReport : InboundVote :=
  { deposit with receiver := "0xOther" }

/-- The draft on which funds are moved. -/
def movingDraft : Draft :=
  .fresh (service.after start movingCalls.dropLast).store

/-- The transfer of the funds. -/
def transfer : Subject :=
  .migration chainId (.ofNat 100) ⟨"key", 1, 1⟩ ⟨"newer key", 2, 2⟩ 3

/-- **The further report has the digest of the deposit**, and the byte strings of the other one and
of the transfer are different ones. The index of the transfer is the hash of its own. -/
theorem digests_of_reports :
    furtherReport.digest = deposit.digest ∧
    deposit.digest.bytes = Sha256.hash (Subject.inbound deposit).preimage.bytes ∧
    (Subject.inbound deposit).preimage.bytes ≠ (Subject.inbound otherReport).preimage.bytes ∧
    (Subject.inbound deposit).preimage.bytes ≠ transfer.preimage.bytes ∧
    (Journal.migrateFunds service.settlement movingDraft ⟨3, 3⟩ chainId (.ofNat 100)).map Prod.fst
      = .ok movingIndex ∧
    movingIndex.bytes = Sha256.hash transfer.preimage.bytes := by
  have hevaluated :
      (Journal.migrateFunds service.settlement movingDraft ⟨3, 3⟩ chainId (.ofNat 100)).map Prod.fst
        = .ok movingIndex ∧
      Registry.currentKey movingDraft = .ok ⟨"key", 1, 1⟩ ∧
      Registry.newerKey? movingDraft = .ok (some ⟨"newer key", 2, 2⟩) ∧
      (Subject.inbound deposit).preimage.IsShort ∧
      (Subject.inbound furtherReport).preimage.IsShort ∧
      (Subject.inbound otherReport).preimage.IsShort ∧ transfer.preimage.IsShort := by
    decide +kernel
  obtain ⟨hmade, hcurrent, hnewer, hdeposit, hfurther, hother, htransfer⟩ := hevaluated
  obtain ⟨hdigest, -, hindex, hsame⟩ := Subject.digests_identify hdeposit hfurther
  obtain ⟨-, -, -, hdiffer⟩ := Subject.digests_identify hdeposit hother
  obtain ⟨-, -, -, hmoved⟩ := Subject.digests_identify hdeposit htransfer
  refine ⟨?_, hdigest _, fun h => ?_, fun h => ?_, hmade, ?_⟩
  · refine Digest.ext ?_
    rw [hdigest, hdigest, hsame.2 (.inbound ⟨rfl, rfl⟩)]
  · cases hdiffer.1 h with
    | inbound h => exact absurd h.eq_upTo (by decide)
  · cases hmoved.1 h
  · obtain ⟨⟨index, s', effects⟩, hmigrate, rfl⟩ := map_eq_ok_iff.1 hmade
    obtain ⟨current, newer, hcurrent', hnewer', hbytes⟩ := hindex _ _ _ _ _ _ _ _ _ hmigrate
    cases hcurrent.symm.trans hcurrent'
    cases hnewer.symm.trans hnewer'
    exact hbytes

end Sample

end Settlement
