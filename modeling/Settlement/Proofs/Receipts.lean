import Settlement.Proofs.Atomicity

/-!
# Receipts of votes on inbound transactions

A vote on an inbound transaction is answered with a receipt. It names the ballot of the message, and
if the ballot is decided in favour it names the transaction too, which has the same index and is
stored (`Settlement.World.Sound.receipt_of_voteInbound`).

An accepted vote has come to one of three ends, and each of them says what is stored
(`Settlement.Journal.ends_of_voteInbound`).
-/

namespace Settlement

variable {γ : Type} [Gateway γ]

namespace Journal

/-- The receipt with which a vote comes to its deposit, or ends before it. -/
def Intake.receipt {σ : Type} : Intake σ → VoteReceipt
  | .counted receipt _ _ => receipt
  | .opened receipt _ => receipt

variable {σ : Type} [WritableStore σ] [LawfulStore σ] {s s' : σ} {l : Ledger} {p p' : Progress σ}
  {policy : StalePolicy} {config : SettlementConfig} {block : Block} {m : InboundVote}
  {receipt : VoteReceipt} {effects : Effects} {g g' : γ}

omit [LawfulStore σ] in
/-- The receipt names the ballot of the message. -/
theorem ballotIndex_of_intake {r : Intake σ} (h : intake policy config s block m = .ok r) :
    r.receipt.ballotIndex = m.digest := by
  obtain ⟨key, outcome, s₁, hlinks⟩ := links_of_intake h
  cases hlinks.ends <;> rfl

/-- **A transaction that is opened is stored under the index of the message** as its deposit has
left it, and the receipt names it with its state. -/
theorem stored_of_opened {outcome : Registry.VoteOutcome} {ballots : Digest → Option Ballot}
    {receipt₀ : VoteReceipt} (hl : l.Legible)
    (htaken : InboundTaken policy l block m outcome ballots)
    (hopened : IntakeTaken l block m outcome ballots (.opened receipt₀ p))
    (hdeposit : deposit config g p block = (.ok p', g'))
    (hfinish : finish receipt₀ p' = .ok (receipt, s', effects)) :
    receipt = { receipt₀ with
        cctxIndex := some m.digest
        cctxStatus := some p'.cctx.status } ∧
      ∃ a, Books s' a ballots ∧ a.cctx m.digest = some p'.cctx := by
  obtain ⟨-, _, _, henters, hbooks⟩ := enters_of_opened hl htaken hopened hdeposit hfinish
  obtain ⟨p'', hsave, hfinish⟩ := bind_eq_ok_iff.1 hfinish
  obtain ⟨s, -, rfl⟩ := Progress.eq_of_save hsave
  cases hfinish
  refine ⟨by rw [henters.index_eq], _, hbooks, ?_⟩
  rw [Accounts.Renews.renew_cctx, if_pos henters.index_eq.symm]

/-- What an accepted vote has come to, where `ballot` is stored afterwards: its receipt, and the
accounts that are stored, by how it came to its deposit or ended before it. -/
inductive InboundEnds (config : SettlementConfig) (g : γ) (l : Ledger) (block : Block)
    (m : InboundVote) (ballot : Ballot) (receipt : VoteReceipt) : Accounts → Intake σ → Prop
  /-- The vote does not decide its ballot. -/
  | pending {s : σ} {effects : Effects} (hpending : receipt.finalized = false)
      (hunnamed : receipt.cctxIndex = none) :
      InboundEnds config g l block m ballot receipt l.accounts (.counted receipt s effects)
  /-- It was decided that there is no such transaction. -/
  | failed {s : σ} {effects : Effects} (hfailure : ballot.status = .failure)
      (hunnamed : receipt.cctxIndex = none) :
      InboundEnds config g l block m ballot receipt (l.accounts.mark m.origin)
        (.counted receipt s effects)
  /-- A transaction is stored as its deposit has left it. -/
  | opened {a : Accounts} {receipt₀ : VoteReceipt} {p p' : Progress σ}
      (hstands : ballot.status ≠ .failure) (hnamed : receipt.cctxIndex = some m.digest)
      (hdeposit : (deposit config g p block).1 = .ok p')
      (hstored : a.cctx m.digest = some p'.cctx) :
      InboundEnds config g l block m ballot receipt a (.opened receipt₀ p)

/-- **What an accepted vote has come to.** -/
theorem ends_of_voteInbound (h : Records s l) (hl : l.Legible) (hballots : BallotsFiled l.ballots)
    (hvote : voteInbound policy config g s block m = (.ok (receipt, s', effects), g')) :
    receipt.ballotIndex = m.digest ∧ ∃ r ballot a ballots,
      intake policy config s block m = .ok r ∧ ballots m.digest = some ballot ∧
      Books s' a ballots ∧ InboundEnds config g l block m ballot receipt a r := by
  obtain ⟨hintake, -⟩ | ⟨receipt₀, p, p', hintake, hdeposit, hfinish⟩ :=
    intake_of_voteInbound hvote
  · obtain ⟨key, outcome, s₁, hlinks⟩ := links_of_intake hintake
    have hunnamed : receipt.cctxIndex = none := by cases hlinks.ends <;> rfl
    obtain ⟨ballots, htaken, htells, ⟨hpending, hbooks⟩ | ⟨-, hfailure, hbooks⟩⟩ :=
      taken_of_links h hl hballots hlinks
    · exact ⟨ballotIndex_of_intake hintake, _, _, _, ballots, hintake, htaken.voted.stored_eq,
        hbooks, .pending (htells.finalized_eq.trans hpending) hunnamed⟩
    · exact ⟨ballotIndex_of_intake hintake, _, _, _, ballots, hintake, htaken.voted.stored_eq,
        hbooks, .failed hfailure hunnamed⟩
  · obtain ⟨key, outcome, s₁, hlinks⟩ := links_of_intake hintake
    obtain ⟨ballots, htaken, hopened⟩ := taken_of_links h hl hballots hlinks
    have hstands : outcome.ballot.status ≠ .failure := by
      cases hlinks.ends
      assumption
    obtain ⟨rfl, a, hbooks, hstored⟩ := stored_of_opened hl htaken hopened hdeposit hfinish
    exact ⟨ballotIndex_of_intake hintake, _, _, a, ballots, hintake, htaken.voted.stored_eq,
      hbooks, .opened hstands rfl (by rw [hdeposit]) hstored⟩

/-- **What the receipt says of the transaction**, by the ballot that is stored afterwards. -/
theorem receipt_of_voteInbound (h : Records s l) (hl : l.Legible)
    (hballots : BallotsFiled l.ballots)
    (hvote : voteInbound policy config g s block m = (.ok (receipt, s', effects), g')) :
    receipt.ballotIndex = m.digest ∧ ∃ a ballots, Books s' a ballots ∧
      (receipt.finalized = true →
        receipt.cctxIndex = some m.digest ∧ (a.cctx m.digest).isSome ∨
          ∃ b, ballots m.digest = some b ∧ b.status = .failure) := by
  obtain ⟨hindex, r, ballot, a, ballots, -, hballot, hbooks, hends⟩ :=
    ends_of_voteInbound h hl hballots hvote
  refine ⟨hindex, a, ballots, hbooks, fun hfinalized => ?_⟩
  cases hends with
  | pending hpending =>
    rw [hpending] at hfinalized
    cases hfinalized
  | failed hfailure => exact .inr ⟨ballot, hballot, hfailure⟩
  | opened _ hnamed _ hstored => exact .inl ⟨hnamed, by rw [hstored]; rfl⟩

end Journal

/-- A vote that is answered with a receipt is committed with what it has come to. -/
theorem Service.committed_of_voteInbound {service : Service} {w : World γ} {block : Block}
    {m : InboundVote} {receipt : VoteReceipt}
    (hanswer : (service.execute w (.voteInbound block m)).answer = .ok (.receipt receipt)) :
    ∃ (draft : Draft) (effects : Effects) (gateway : γ),
      Journal.voteInbound service.observers.stalePolicy service.settlement w.gateway
        (.fresh w.store : Draft) block m = (.ok (receipt, draft, effects), gateway) ∧
      contents (service.execute w (.voteInbound block m)).world.store = contents draft := by
  obtain ⟨draft, effects, g, hhandled, hcontents⟩ := committed_of_answer hanswer
  obtain ⟨⟨receipt', draft', effects'⟩, hvote, heq⟩ := Handled.exists_of_ok hhandled
  cases heq
  exact ⟨draft, effects, _, Prod.ext hvote rfl, hcontents⟩

/-- **The receipt of a deciding vote names the transaction, which is stored**, unless the ballot has
failed. -/
theorem World.Sound.receipt_of_voteInbound {service : Service} {w : World γ} (h : w.Sound)
    {block : Block} {m : InboundVote} {receipt : VoteReceipt}
    (hstore : (service.execute w (.voteInbound block m)).world.store.Addressable)
    (hanswer : (service.execute w (.voteInbound block m)).answer = .ok (.receipt receipt)) :
    receipt.ballotIndex = m.digest ∧ (receipt.finalized = true →
      receipt.cctxIndex = some m.digest ∧
        ((service.execute w (.voteInbound block m)).world.accounts.cctx m.digest).isSome ∨
      ∃ b, (service.execute w (.voteInbound block m)).world.ballots m.digest = some b ∧
        b.status = .failure) := by
  obtain ⟨draft, effects, gateway, hvote, hcontents⟩ := Service.committed_of_voteInbound hanswer
  obtain ⟨hindex, a, ballots, hbooks, hdecided⟩ :=
    Journal.receipt_of_voteInbound h.records.fresh h.legible h.ballotsFiled hvote
  obtain ⟨-, rfl, rfl⟩ := (hbooks.congr hcontents).ledger hstore
  exact ⟨hindex, hdecided⟩

end Settlement
