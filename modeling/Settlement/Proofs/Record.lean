import Settlement.Cctx.Basic
import Settlement.Cctx.Tracker
import Settlement.Proofs.Layout
import Settlement.Proofs.Nonce
import Settlement.Record
import Settlement.SigningKey

/-!
# Records read back

Everything that is stored is read back from its record (`Settlement.Record.decode_encode`). The
layouts are those of tuples of fields and of lists of alternatives, so that each of them is
lawful because its parts are.
-/

namespace Settlement

/-! ### Ballots and governance -/

instance : LawfulLayout ObserverId :=
  .via ObserverId.account ObserverId.mk fun _ => rfl

instance : LawfulLayout ObserverSet :=
  .ofFields

instance : LawfulLayout Vote :=
  .ofAlternatives Vote.all (by intro v; cases v <;> decide) (by decide)

instance : LawfulLayout Observation :=
  .ofAlternatives Observation.all (by intro o; cases o <;> decide) (by decide)

instance : LawfulLayout BallotStatus :=
  .ofAlternatives BallotStatus.all (by intro s; cases s <;> decide) (by decide)

instance : LawfulLayout CastVote :=
  .ofFields

instance : LawfulLayout Ballot :=
  .ofFields

instance : LawfulLayout Network :=
  .ofAlternatives Network.all (by intro n; cases n <;> decide) (by decide)

instance : LawfulLayout Chain :=
  .ofFields

instance : LawfulLayout ChainParams :=
  .ofFields

instance : LawfulLayout Switches :=
  .ofFields

instance : LawfulLayout SigningKey :=
  .ofFields

/-! ### Nonces -/

instance : LawfulLayout NonceSet :=
  .via NonceSet.toList NonceSet.ofList NonceSet.ofList_toList

instance : LawfulLayout NonceRecord :=
  .ofFields

instance : LawfulLayout NonceOwner :=
  .ofFields

instance : LawfulLayout FundMigration :=
  .ofFields

/-! ### Cross-chain transactions -/

instance : LawfulLayout CoinType :=
  .ofAlternatives CoinType.all (by intro t; cases t <;> decide) (by decide)

instance : LawfulLayout ProtocolVersion :=
  .ofAlternatives ProtocolVersion.all (by intro v; cases v <;> decide) (by decide)

instance : LawfulLayout CctxStatus :=
  .ofAlternatives CctxStatus.all (by intro s; cases s <;> decide) (by decide)

instance : LawfulLayout AttemptState :=
  .ofAlternatives AttemptState.all (by intro s; cases s <;> decide) (by decide)

instance : LawfulLayout RevertOptions :=
  .ofFields

instance : LawfulLayout Inbound :=
  .ofFields

instance : LawfulLayout Attempt :=
  .ofFields

instance : LawfulLayout StatusReport :=
  .ofFields

instance : LawfulLayout Cctx :=
  .ofFields

/-! ### Trackers and marks -/

instance : LawfulLayout HashReport :=
  .ofFields

instance : LawfulLayout OutboundTracker :=
  .ofFields

instance : LawfulLayout InboundTracker :=
  .ofFields

instance : LawfulLayout FinalizedInbound :=
  .ofFields

/-! ### Records -/

namespace Record

variable {α : Type} [Layout α] [LawfulLayout α]

/-- **A value is read back from its record.** -/
theorem decode_encode {a : α} (h : Fits a) : decode (encode a) = .ok a := by
  have hread := LawfulLayout.read_write a h []
  rw [List.append_nil] at hread
  rw [encode, decode, if_pos rfl, hread]

/-- In a record of less than a word of bytes, every length is a word. -/
theorem fits_of_length_lt {a : α} (h : (encode a).length < UInt64.size) : Fits a := by
  rw [encode, List.length_cons] at h
  exact LawfulLayout.fits_of_length_lt a (by omega)

end Record

end Settlement
