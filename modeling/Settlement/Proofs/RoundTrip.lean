import Settlement.Cctx.Config
import Settlement.Event
import Settlement.Proofs.Ledger
import Settlement.Registry.Config

/-!
# The round trip of every record

Everything that the service writes as a record, and not only what it stores, is read back from
its record, whatever bytes follow it (`Settlement.Record.round_trip`): the stored values, the
messages that are voted on, the configurations and the events. So no two values of a type have
the same record.

What is asked of a value is that the length of every text, list and set inside it is a word. A
length is written in eight bytes, and no machine that counts in words holds a longer one.
-/

namespace Settlement

/-! ### Messages and configurations -/

instance : LawfulLayout UInt32 where
  Fits _ := True
  read_write n _ rest := by
    change Reader.map _ (Reader.number 4) (Bytes.little 4 n.toNat ++ rest) = _
    rw [Reader.map, Reader.number_little rest n.toNat_lt]
    simp only [Except.map, UInt32.ofNat_toNat]
  fits_of_length_lt _ _ := trivial
  length_pos n := by
    change 0 < (Bytes.little 4 n.toNat).length
    rw [Bytes.length_little]
    decide

instance : LawfulLayout Block :=
  .ofFields

instance : LawfulLayout StalePolicy :=
  .ofAlternatives StalePolicy.all (by intro p; cases p <;> decide) (by decide)

instance : LawfulLayout ObserverConfig :=
  .ofFields

instance : LawfulLayout SettlementConfig :=
  .ofFields

instance : LawfulLayout OutboundOutcome :=
  .ofAlternatives OutboundOutcome.all (by intro o; cases o <;> decide) (by decide)

instance : LawfulLayout InboundVote :=
  .ofFields

instance : LawfulLayout OutboundVote :=
  .ofFields

instance : LawfulLayout OutboundHashReport :=
  .ofFields

instance : LawfulLayout InboundHashReport :=
  .ofFields

/-! ### Events -/

namespace Event

/-- The lengths inside an event are words. -/
def Fits : Event → Prop
  | .ballotCreated ballot observation chainId =>
    LawfulLayout.Fits (ballot, observation, chainId)
  | .inboundFinalized cctx senderChain inboundHash =>
    LawfulLayout.Fits (cctx, senderChain, inboundHash)
  | .statusChanged cctx before after message =>
    LawfulLayout.Fits (cctx, before, after, message)
  | .nonceReserved cctx signingKey chainId nonce =>
    LawfulLayout.Fits (cctx, signingKey, chainId, nonce)
  | .migrationStarted cctx chainId amount => LawfulLayout.Fits (cctx, chainId, amount)
  | .poolFunded cctx chainId amount => LawfulLayout.Fits (cctx, chainId, amount)
  | .poolFundingFailed cctx chainId reason => LawfulLayout.Fits (cctx, chainId, reason)

/-- An alternative is read back if its fields are: the number says which fields follow. -/
theorem read_alternative {α : Type} [Layout α] [LawfulLayout α] (number : Nat) {e : α → Event}
    (a : α) (ha : LawfulLayout.Fits a) (hnumber : number < alternatives)
    (hread : readFields number = Reader.map e Layout.read) (rest : Bytes) :
    (Layout.read : Reader Event) (Bytes.little 4 number ++ Layout.write a ++ rest)
      = .ok (e a, rest) := by
  change Reader.andThen (Reader.number 4) readFields _ = _
  have hcapacity : alternatives < Bytes.capacity 4 := by decide
  rw [Reader.andThen, List.append_assoc,
    Reader.number_little _ (Nat.lt_trans hnumber hcapacity)]
  simp only [hread, Reader.map, LawfulLayout.read_write a ha, Except.map]

/-- In an alternative of less than a word of bytes, so are the fields. -/
theorem fits_alternative {α : Type} [Layout α] [LawfulLayout α] {number : Nat} {a : α}
    (h : (Bytes.little 4 number ++ Layout.write a).length < UInt64.size) :
    LawfulLayout.Fits a := by
  rw [List.length_append] at h
  exact LawfulLayout.fits_of_length_lt a (by omega)

end Event

instance : LawfulLayout Event where
  Fits := Event.Fits
  read_write e h rest := by
    cases e with
    | ballotCreated ballot observation chainId =>
      exact Event.read_alternative 0 (ballot, observation, chainId) h (by decide)
        Event.readFields.eq_1 rest
    | inboundFinalized cctx senderChain inboundHash =>
      exact Event.read_alternative 1 (cctx, senderChain, inboundHash) h (by decide)
        Event.readFields.eq_2 rest
    | statusChanged cctx before after message =>
      exact Event.read_alternative 2 (cctx, before, after, message) h (by decide)
        Event.readFields.eq_3 rest
    | nonceReserved cctx signingKey chainId nonce =>
      exact Event.read_alternative 3 (cctx, signingKey, chainId, nonce) h (by decide)
        Event.readFields.eq_4 rest
    | migrationStarted cctx chainId amount =>
      exact Event.read_alternative 4 (cctx, chainId, amount) h (by decide)
        Event.readFields.eq_5 rest
    | poolFunded cctx chainId amount =>
      exact Event.read_alternative 5 (cctx, chainId, amount) h (by decide)
        Event.readFields.eq_6 rest
    | poolFundingFailed cctx chainId reason =>
      exact Event.read_alternative 6 (cctx, chainId, reason) h (by decide)
        Event.readFields.eq_7 rest
  fits_of_length_lt e h := by
    cases e <;> exact Event.fits_alternative h
  length_pos e := by
    cases e <;> exact Nat.succ_pos _

/-! ### Types of records -/

/-- A type whose values are written as records: the parts, the options and lists of them, and
everything that is made of those. -/
inductive RecordType where
  | byte
  | half
  | word
  | integer
  | flag
  | text
  | amount
  | digest
  | chainId
  /-- A set of words. -/
  | words
  | option (t : RecordType)
  | list (t : RecordType)
  | pair (t u : RecordType)
  | block
  | observerSet
  | ballot
  | chain
  | chainParams
  | switches
  | signingKey
  | nonceRecord
  | nonceOwner
  | fundMigration
  | cctx
  | outboundTracker
  | inboundTracker
  | finalizedInbound
  | observerConfig
  | settlementConfig
  | inboundVote
  | outboundVote
  | outboundHashReport
  | inboundHashReport
  | event
  deriving DecidableEq

namespace RecordType

/-- The values of a type. -/
@[reducible]
def Value : RecordType → Type
  | byte => UInt8
  | half => UInt32
  | word => UInt64
  | integer => Int64
  | flag => Bool
  | text => String
  | amount => U256
  | digest => Digest
  | chainId => ChainId
  | words => NonceSet
  | option t => Option t.Value
  | list t => List t.Value
  | pair t u => t.Value × u.Value
  | block => Block
  | observerSet => ObserverSet
  | ballot => Ballot
  | chain => Chain
  | chainParams => ChainParams
  | switches => Switches
  | signingKey => SigningKey
  | nonceRecord => NonceRecord
  | nonceOwner => NonceOwner
  | fundMigration => FundMigration
  | cctx => Cctx
  | outboundTracker => OutboundTracker
  | inboundTracker => InboundTracker
  | finalizedInbound => FinalizedInbound
  | observerConfig => ObserverConfig
  | settlementConfig => SettlementConfig
  | inboundVote => InboundVote
  | outboundVote => OutboundVote
  | outboundHashReport => OutboundHashReport
  | inboundHashReport => InboundHashReport
  | event => Event

instance layout : (t : RecordType) → Layout t.Value
  | byte => inferInstanceAs (Layout UInt8)
  | half => inferInstanceAs (Layout UInt32)
  | word => inferInstanceAs (Layout UInt64)
  | integer => inferInstanceAs (Layout Int64)
  | flag => inferInstanceAs (Layout Bool)
  | text => inferInstanceAs (Layout String)
  | amount => inferInstanceAs (Layout U256)
  | digest => inferInstanceAs (Layout Digest)
  | chainId => inferInstanceAs (Layout ChainId)
  | words => inferInstanceAs (Layout NonceSet)
  | option t => letI := layout t; inferInstanceAs (Layout (Option t.Value))
  | list t => letI := layout t; inferInstanceAs (Layout (List t.Value))
  | pair t u => letI := layout t; letI := layout u; inferInstanceAs (Layout (t.Value × u.Value))
  | block => inferInstanceAs (Layout Block)
  | observerSet => inferInstanceAs (Layout ObserverSet)
  | ballot => inferInstanceAs (Layout Ballot)
  | chain => inferInstanceAs (Layout Chain)
  | chainParams => inferInstanceAs (Layout ChainParams)
  | switches => inferInstanceAs (Layout Switches)
  | signingKey => inferInstanceAs (Layout SigningKey)
  | nonceRecord => inferInstanceAs (Layout NonceRecord)
  | nonceOwner => inferInstanceAs (Layout NonceOwner)
  | fundMigration => inferInstanceAs (Layout FundMigration)
  | cctx => inferInstanceAs (Layout Cctx)
  | outboundTracker => inferInstanceAs (Layout OutboundTracker)
  | inboundTracker => inferInstanceAs (Layout InboundTracker)
  | finalizedInbound => inferInstanceAs (Layout FinalizedInbound)
  | observerConfig => inferInstanceAs (Layout ObserverConfig)
  | settlementConfig => inferInstanceAs (Layout SettlementConfig)
  | inboundVote => inferInstanceAs (Layout InboundVote)
  | outboundVote => inferInstanceAs (Layout OutboundVote)
  | outboundHashReport => inferInstanceAs (Layout OutboundHashReport)
  | inboundHashReport => inferInstanceAs (Layout InboundHashReport)
  | event => inferInstanceAs (Layout Event)

instance lawfulLayout : (t : RecordType) → LawfulLayout t.Value
  | byte => inferInstanceAs (LawfulLayout UInt8)
  | half => inferInstanceAs (LawfulLayout UInt32)
  | word => inferInstanceAs (LawfulLayout UInt64)
  | integer => inferInstanceAs (LawfulLayout Int64)
  | flag => inferInstanceAs (LawfulLayout Bool)
  | text => inferInstanceAs (LawfulLayout String)
  | amount => inferInstanceAs (LawfulLayout U256)
  | digest => inferInstanceAs (LawfulLayout Digest)
  | chainId => inferInstanceAs (LawfulLayout ChainId)
  | words => inferInstanceAs (LawfulLayout NonceSet)
  | option t => letI := lawfulLayout t; inferInstanceAs (LawfulLayout (Option t.Value))
  | list t => letI := lawfulLayout t; inferInstanceAs (LawfulLayout (List t.Value))
  | pair t u =>
    letI := lawfulLayout t
    letI := lawfulLayout u
    inferInstanceAs (LawfulLayout (t.Value × u.Value))
  | block => inferInstanceAs (LawfulLayout Block)
  | observerSet => inferInstanceAs (LawfulLayout ObserverSet)
  | ballot => inferInstanceAs (LawfulLayout Ballot)
  | chain => inferInstanceAs (LawfulLayout Chain)
  | chainParams => inferInstanceAs (LawfulLayout ChainParams)
  | switches => inferInstanceAs (LawfulLayout Switches)
  | signingKey => inferInstanceAs (LawfulLayout SigningKey)
  | nonceRecord => inferInstanceAs (LawfulLayout NonceRecord)
  | nonceOwner => inferInstanceAs (LawfulLayout NonceOwner)
  | fundMigration => inferInstanceAs (LawfulLayout FundMigration)
  | cctx => inferInstanceAs (LawfulLayout Cctx)
  | outboundTracker => inferInstanceAs (LawfulLayout OutboundTracker)
  | inboundTracker => inferInstanceAs (LawfulLayout InboundTracker)
  | finalizedInbound => inferInstanceAs (LawfulLayout FinalizedInbound)
  | observerConfig => inferInstanceAs (LawfulLayout ObserverConfig)
  | settlementConfig => inferInstanceAs (LawfulLayout SettlementConfig)
  | inboundVote => inferInstanceAs (LawfulLayout InboundVote)
  | outboundVote => inferInstanceAs (LawfulLayout OutboundVote)
  | outboundHashReport => inferInstanceAs (LawfulLayout OutboundHashReport)
  | inboundHashReport => inferInstanceAs (LawfulLayout InboundHashReport)
  | event => inferInstanceAs (LawfulLayout Event)

end RecordType

/-! ### The round trip -/

namespace Record

section Lawful

variable {α : Type} [Layout α] [LawfulLayout α]

/-- A value is read back from its record, whatever bytes follow it. -/
theorem decode_encode_append {a : α} (h : Fits a) (rest : Bytes) :
    decode (encode a ++ rest) = .ok a := by
  rw [encode, List.cons_append, decode, if_pos rfl, LawfulLayout.read_write a h rest]

/-- Values with the same record are the same. -/
theorem eq_of_encode_eq {a b : α} (ha : Fits a) (hb : Fits b) (h : encode a = encode b) :
    a = b := by
  have hread := decode_encode ha
  rw [h, decode_encode hb] at hread
  exact (Except.ok.inj hread).symm

end Lawful

/-- **The round trip of every record**: a value of any type is read back from its record,
whatever bytes follow it, and no other value of its type has the same record. -/
theorem round_trip (t : RecordType) (v : t.Value) (hv : Fits v) :
    (∀ rest, decode (encode v ++ rest) = .ok v) ∧
      ∀ w : t.Value, Fits w → encode w = encode v → w = v :=
  ⟨decode_encode_append hv, fun _ hw h => eq_of_encode_eq hw hv h⟩

end Record

namespace Sample

/-- A tracker with a key that is not ASCII, and two hashes. -/
def tracker : OutboundTracker where
  signingKey := "ключ"
  chainId := ⟨-1⟩
  nonce := 3
  hashes := [⟨"0xAB", "observer"⟩, ⟨"", ""⟩]

/-- A tracker that is followed by other bytes is read back. -/
theorem tracker_read_back :
    (∀ rest, Record.decode (Record.encode tracker ++ rest) = .ok tracker) ∧
      ∀ w : OutboundTracker, Fits w → Record.encode w = Record.encode tracker → w = tracker :=
  Record.round_trip .outboundTracker tracker (Record.fits_of_length_lt (by decide))

end Sample

end Settlement
