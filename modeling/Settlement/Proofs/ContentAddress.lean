import Settlement.Proofs.Atomicity
import Settlement.Proofs.Observations
import Settlement.Proofs.Receipts

/-!
# Transactions are determined by what was agreed on

Observers agree on the digest of a report, and the transaction is made of the report that happens
to be the deciding one. As long as digests do not collide, reports with the same digest say the
same, so it makes no difference which of them decides: all that they can differ in is how they
say that there is no revert address, which may be missing or empty.

In everything that is made of a report the revert address can therefore be exchanged
(`Settlement.Cctx.readdress`). The steps from the vote to the transaction that is stored either
leave it alone or read it through the receiver of the revert, which is the same then. So each of
them commutes with the exchange, and so does the deposit (`Settlement.Journal.deposit_readdress`).

Main statement: `Settlement.Service.stored_by_either_report`.
-/

namespace Settlement

/-! ### Exchanging the revert address -/

/-- The report with another revert address. -/
def InboundVote.readdress (m : InboundVote) (address : Option String) : InboundVote :=
  { m with revertOptions := { m.revertOptions with revertAddress := address } }

/-- Reports of one observer that say the same differ in the revert address only. -/
theorem InboundVote.SameObservation.eq_readdress {m n : InboundVote} (h : m.SameObservation n)
    (hcreator : m.creator = n.creator) : n = m.readdress n.revertOptions.revertAddress := by
  refine h.eq_upTo.trans ?_
  rw [← hcreator]
  rfl

namespace Cctx

/-- The transaction with another revert address. -/
def readdress (c : Cctx) (address : Option String) : Cctx :=
  { c with revertOptions := { c.revertOptions with revertAddress := address } }

/-- The addresses mean the same: the same account, or the sender if they are missing or empty. -/
def AddressedAs (c : Cctx) (address : Option String) : Prop :=
  c.revertOptions.revertAddress.getD "" = address.getD ""

variable {c : Cctx} {address : Option String}

/-- An address that is missing counts as an empty one. -/
theorem revertReceiver_eq (c : Cctx) : c.revertReceiver =
    if c.protocolVersion = .v2 ∧ c.revertOptions.revertAddress.getD "" ≠ "" then
      c.revertOptions.revertAddress.getD ""
    else c.inbound.sender := by
  rw [revertReceiver]
  split
  · next hversion haddress => simp [hversion, haddress]
  · next hother =>
    rw [if_neg]
    rintro ⟨hversion, haddress⟩
    cases h : c.revertOptions.revertAddress with
    | none => exact haddress (by rw [h]; rfl)
    | some a => exact hother a hversion h

/-- A revert goes to the same account if the addresses mean the same. -/
theorem revertReceiver_readdress (h : c.AddressedAs address) :
    (c.readdress address).revertReceiver = c.revertReceiver := by
  rw [revertReceiver_eq, revertReceiver_eq, h]
  rfl

theorem updateCurrent_readdress (f : Attempt → Attempt) :
    (c.readdress address).updateCurrent f = (c.updateCurrent f).readdress address := by
  rw [updateCurrent, updateCurrent]
  cases h : c.revert <;> simp [readdress, h]

theorem addRevert_readdress (h : c.AddressedAs address) (gasLimit : UInt64) :
    (c.readdress address).addRevert gasLimit
      = (c.addRevert gasLimit).map (·.readdress address) := by
  rw [addRevert, addRevert, revertReceiver_readdress h]
  change (if c.isReverting then _ else _) = _
  split <;> rfl

theorem setStatus_readdress (next : CctxStatus) (message : String) (timestamp : UInt64) :
    (c.readdress address).setStatus next message timestamp
      = (c.setStatus next message timestamp).map (·.readdress address) := by
  rw [setStatus, setStatus]
  change (if c.status.canBecome next then _ else _) = _
  split <;> rfl

end Cctx

namespace Progress

variable {σ : Type} {p : Progress σ} {address : Option String}

/-- The transition with another revert address in the transaction. -/
def readdress (p : Progress σ) (address : Option String) : Progress σ :=
  { p with cctx := p.cctx.readdress address }

theorem advance_readdress (next : CctxStatus) (message : String) (block : Block) :
    (p.readdress address).advance next message block
      = (p.advance next message block).map (·.readdress address) := by
  rw [advance, advance]
  change ((p.cctx.readdress address).setStatus next message block.timestamp >>= _) = _
  rw [Cctx.setStatus_readdress]
  cases p.cctx.setStatus next message block.timestamp <;> rfl

theorem abort_readdress (message : String) (block : Block) :
    (p.readdress address).abort message block
      = (p.abort message block).map (·.readdress address) := by
  have hexecuted : (p.cctx.readdress address).executeCurrent
      = p.cctx.executeCurrent.readdress address := Cctx.updateCurrent_readdress _
  rw [abort, abort, ← advance_readdress]
  change advance { p with cctx := (p.cctx.readdress address).executeCurrent } _ _ _ = _
  rw [hexecuted]
  rfl

theorem assignNonce_readdress [WritableStore σ] :
    (p.readdress address).assignNonce = p.assignNonce.map (·.readdress address) := by
  have hnonce (nonce : UInt64) : (p.cctx.readdress address).setNonce (some nonce)
      = (p.cctx.setNonce (some nonce)).readdress address := Cctx.updateCurrent_readdress _
  simp only [assignNonce, map_bind_eq]
  refine bind_congr fun reserved => bind_congr fun s => ?_
  simp only [readdress, hnonce]
  rfl

end Progress

namespace Journal

variable {σ γ : Type} [WritableStore σ] {p : Progress σ} {address : Option String}
  {config : SettlementConfig} {block : Block}

/-- The receiver is all that a revert takes from the address. -/
theorem startRevert_readdress (h : p.cctx.AddressedAs address) (message : String) :
    startRevert config (p.readdress address) message block
      = (startRevert config p message block).map (·.readdress address) := by
  have hrevert : (p.readdress address).cctx.addRevert config.revertGasLimit
      = (p.cctx.addRevert config.revertGasLimit).map (·.readdress address) :=
    Cctx.addRevert_readdress h _
  rw [startRevert, startRevert, hrevert]
  cases p.cctx.addRevert config.revertGasLimit with
  | error e => exact Progress.abort_readdress _ _
  | ok c =>
    change Progress.assignNonce (Progress.readdress { p with cctx := c } address) >>= _ = _
    rw [Progress.assignNonce_readdress, map_bind_eq]
    cases Progress.assignNonce { p with cctx := c } with
    | error e => rfl
    | ok p₁ => exact Progress.advance_readdress _ _ _

theorem settleDeposit_readdress (h : p.cctx.AddressedAs address) (d : Destination)
    (answer : DepositAnswer) :
    settleDeposit config (p.readdress address) d answer block
      = (settleDeposit config p d answer block).map (·.readdress address) := by
  cases answer with
  | ok receipt =>
    rw [settleDeposit, settleDeposit]
    change (if staysOnHost config p.cctx then _ else _) = _
    split
    · exact Progress.advance_readdress (p := { p with cctx := paidOnHost p.cctx d receipt block })
        _ _ _
    · rw [Progress.assignNonce_readdress, map_bind_eq]
      cases p.assignNonce with
      | error e => rfl
      | ok p₁ => exact Progress.advance_readdress _ _ _
  | error e =>
    rw [settleDeposit, settleDeposit]
    split
    · exact startRevert_readdress h _
    · exact Progress.abort_readdress _ _

/-- **The deposit commutes with the exchange.** The gateway is asked for the same, and if it answers
the same, then the same is made of the answer. -/
theorem deposit_readdress [Gateway γ] {g g' : γ} (h : p.cctx.AddressedAs address)
    (hanswers : ∀ r, r.cctxIndex = p.cctx.index →
      (Gateway.deposit g' r).1 = (Gateway.deposit g r).1) :
    (deposit config g' (p.readdress address) block).1
      = (deposit config g p block).1.map (·.readdress address) := by
  have htarget : depositTarget config (p.readdress address).cctx
      = depositTarget config p.cctx := rfl
  rw [deposit, deposit, htarget]
  cases depositTarget config p.cctx with
  | error fault => exact Progress.abort_readdress _ _
  | ok d =>
    have hanswer : (Gateway.deposit g' (depositRequest (p.readdress address).cctx d)).1
        = (Gateway.deposit g (depositRequest p.cctx d)).1 := hanswers _ rfl
    simp only [hanswer]
    exact settleDeposit_readdress h d _

/-- The deposit leaves the revert address as it is. -/
theorem revertAddress_of_deposit [Gateway γ] {g : γ} {p' : Progress σ}
    (h : (deposit config g p block).1 = .ok p') :
    p'.cctx.revertOptions.revertAddress = p.cctx.revertOptions.revertAddress := by
  -- Exchanging the address for itself changes nothing before the deposit, and so not after it.
  have hself : (deposit config g p block).1 = (deposit config g p block).1.map
      (·.readdress p.cctx.revertOptions.revertAddress) :=
    deposit_readdress (p := p) rfl fun _ _ => rfl
  rw [h] at hself
  exact congrArg (·.cctx.revertOptions.revertAddress) (Except.ok.inj hself)

/-! ### Before the deposit -/

section Vote

variable [LawfulStore σ] [Gateway γ] {policy : StalePolicy} {s s' : σ} {l : Ledger}
  {m n : InboundVote} {receipt receipt' : VoteReceipt} {effects : Effects} {g g' : γ}
  {p' : Progress σ}

omit [LawfulStore σ] in
/-- **What two reports of one observer open differs in the revert address only**, if they have the
same digest and say the same. -/
theorem opened_readdress (h : m.SameObservation n) (hcreator : m.creator = n.creator)
    (hdigest : m.digest = n.digest) (hm : intake policy config s block m = .ok (.opened receipt p))
    (hn : intake policy config s block n = .ok (.opened receipt' p')) :
    p' = p.readdress n.revertOptions.revertAddress := by
  obtain ⟨key, outcome, s₁, hm⟩ := links_of_intake hm
  obtain ⟨key', outcome', s₁', hn⟩ := links_of_intake hn
  obtain ⟨address, rfl⟩ : ∃ address, n = m.readdress address := ⟨_, h.eq_readdress hcreator⟩
  have hcast := hn.cast_eq
  rw [← hdigest] at hcast
  -- The second vote does step by step what the first one does.
  cases hm.current_eq.symm.trans hn.current_eq
  cases hm.cast_eq.symm.trans hcast
  cases hm.ends with
  | opened _ hmarked hremoved =>
  cases hn.ends with
  | opened _ hmarked' hremoved' =>
  cases hmarked.symm.trans hmarked'
  cases hremoved.symm.trans hremoved'
  rw [← hdigest]
  rfl

omit [LawfulStore σ] in
/-- The transaction that is opened is made of the report. -/
theorem exists_cctx_eq_of_opened (hm : intake policy config s block m = .ok (.opened receipt p)) :
    ∃ key : SigningKey, p.cctx = .ofInbound m m.digest key.pubkey block := by
  obtain ⟨key, outcome, s₁, hlinks⟩ := links_of_intake hm
  cases hlinks.ends with
  | opened => exact ⟨key, rfl⟩

/-- A vote whose receipt names a transaction has opened it, and stores it as its deposit has left
it. -/
theorem exists_opened_of_voteInbound (h : Records s l) (hl : l.Legible)
    (hballots : BallotsFiled l.ballots)
    (hvote : voteInbound policy config g s block m = (.ok (receipt, s', effects), g'))
    (hnamed : receipt.cctxIndex.isSome) :
    ∃ receipt₀ p p' a ballots, intake policy config s block m = .ok (.opened receipt₀ p) ∧
      (deposit config g p block).1 = .ok p' ∧ Books s' a ballots ∧
      a.cctx m.digest = some p'.cctx := by
  obtain ⟨-, r, ballot, a, ballots, hintake, -, hbooks, hends⟩ :=
    ends_of_voteInbound h hl hballots hvote
  cases hends with
  | pending _ hunnamed | failed _ hunnamed =>
    rw [hunnamed] at hnamed
    cases hnamed
  | @opened _ receipt₀ p p' _ _ hdeposit hstored =>
    exact ⟨receipt₀, p, p', a, ballots, hintake, hdeposit, hbooks, hstored⟩

end Vote

end Journal

/-! ### The transaction that is stored -/

section Service

variable {γ : Type} [Gateway γ] {service : Service} {w : World γ} {block : Block}
  {m : InboundVote} {receipt : VoteReceipt}

/-- A vote whose receipt names a transaction stores it as its deposit has left it. -/
theorem World.Sound.stores_of_voteInbound (h : w.Sound)
    (hstore : (service.execute w (.voteInbound block m)).world.store.Addressable)
    (hanswer : (service.execute w (.voteInbound block m)).answer = .ok (.receipt receipt))
    (hnamed : receipt.cctxIndex.isSome) :
    ∃ (receipt₀ : VoteReceipt) (p p' : Progress Draft),
      Journal.intake service.observers.stalePolicy service.settlement (.fresh w.store) block m
        = .ok (.opened receipt₀ p) ∧
      (Journal.deposit service.settlement w.gateway p block).1 = .ok p' ∧
      (service.execute w (.voteInbound block m)).world.Stores m.digest p'.cctx := by
  obtain ⟨draft, effects, gateway, hvote, hcontents⟩ := Service.committed_of_voteInbound hanswer
  obtain ⟨receipt₀, p, p', a, ballots, hintake, hdeposit, hbooks, hstored⟩ :=
    Journal.exists_opened_of_voteInbound h.records.fresh h.legible h.ballotsFiled hvote hnamed
  obtain ⟨-, rfl, rfl⟩ := (hbooks.congr hcontents).ledger hstore
  exact ⟨receipt₀, p, p', hintake, hdeposit, (h.execute hstore).1.stores_iff.2 hstored⟩

/-- **It makes no difference which of the agreeing reports decides.** Two reports of one observer
have the same digest, no two digests collide, and in the same state, under gateways that answer
alike, each of them would decide the ballot and create the transaction. Then the same transaction
is stored by either, but for the revert address: that is the one of the report, and if the reports
do not write it alike, then it is missing in one of them and empty in the other. A revert would go
to the same account. -/
theorem Service.stored_by_either_report {n : InboundVote} {receipt' : VoteReceipt} {g : γ}
    (hreach : Reachable service w) (hm : m.preimage.IsShort) (hn : n.preimage.IsShort)
    (hfree : CollisionFree [m.preimage.bytes, n.preimage.bytes]) (hdigest : m.digest = n.digest)
    (hcreator : m.creator = n.creator)
    (hanswers : ∀ request, request.cctxIndex = m.digest →
      (Gateway.deposit g request).1 = (Gateway.deposit w.gateway request).1)
    (hstore : (service.execute w (.voteInbound block m)).world.store.Addressable)
    (hanswer : (service.execute w (.voteInbound block m)).answer = .ok (.receipt receipt))
    (hnamed : receipt.cctxIndex.isSome)
    (hstore' :
      (service.execute { w with gateway := g } (.voteInbound block n)).world.store.Addressable)
    (hanswer' : (service.execute { w with gateway := g } (.voteInbound block n)).answer
      = .ok (.receipt receipt'))
    (hnamed' : receipt'.cctxIndex.isSome) :
    ∃ c : Cctx, (service.execute w (.voteInbound block m)).world.Stores m.digest c ∧
      (service.execute { w with gateway := g } (.voteInbound block n)).world.Stores m.digest
        (c.readdress n.revertOptions.revertAddress) ∧
      c.revertOptions.revertAddress = m.revertOptions.revertAddress ∧
      c.AddressedAs n.revertOptions.revertAddress ∧
      (c.readdress n.revertOptions.revertAddress).revertReceiver = c.revertReceiver := by
  have hbytes : m.preimage.bytes = n.preimage.bytes := hfree _ (by simp) _ (by simp) hdigest
  have hsame : m.SameObservation n :=
    InboundVote.fields_eq_iff.1 (Preimage.fields_eq_of_bytes_eq rfl rfl hm hn hbytes)
  obtain ⟨receipt₁, p₁, q₁, hintake, hdeposit, hstores⟩ :=
    hreach.sound.stores_of_voteInbound hstore hanswer hnamed
  have hsound' : World.Sound { w with gateway := g } := hreach.sound.congr rfl
  obtain ⟨receipt₂, p₂, q₂, hintake', hdeposit', hstores'⟩ :=
    hsound'.stores_of_voteInbound hstore' hanswer' hnamed'
  obtain ⟨key, hcctx⟩ := Journal.exists_cctx_eq_of_opened hintake
  obtain rfl := Journal.opened_readdress hsame hcreator hdigest hintake hintake'
  have haddressed : p₁.cctx.AddressedAs n.revertOptions.revertAddress := by
    rw [hcctx]
    exact hsame.revertAddress_eq
  have hindex : p₁.cctx.index = m.digest := by rw [hcctx]; rfl
  rw [Journal.deposit_readdress haddressed fun r hr => hanswers r (hr.trans hindex), hdeposit]
    at hdeposit'
  obtain rfl := Except.ok.inj hdeposit'
  have haddress : q₁.cctx.revertOptions.revertAddress = m.revertOptions.revertAddress := by
    rw [Journal.revertAddress_of_deposit hdeposit, hcctx]
    rfl
  have hmeant : q₁.cctx.AddressedAs n.revertOptions.revertAddress := by
    rw [Cctx.AddressedAs, haddress]
    exact hsame.revertAddress_eq
  rw [← hdigest] at hstores'
  exact ⟨q₁.cctx, hstores, hstores', haddress, hmeant, Cctx.revertReceiver_readdress hmeant⟩

end Service

/-! ### A report with an empty revert address -/

/-- What was asked before makes no difference for the next answer. -/
theorem ScriptedGateway.deposit_fst_eq {g g' : ScriptedGateway} (h : g.script = g'.script)
    (request : DepositRequest) :
    (Gateway.deposit g request).1 = (Gateway.deposit g' request).1 := by
  obtain ⟨script, requests⟩ := g
  obtain ⟨script', requests'⟩ := g'
  cases h
  cases script <;> rfl

namespace Sample

/-- The report of the deposit, with a revert address that is empty instead of missing. -/
def unaddressed : InboundVote :=
  { deposit with revertOptions := { deposit.revertOptions with revertAddress := some "" } }

/-- An empty address is hashed as a missing one. -/
theorem preimage_unaddressed : unaddressed.preimage = deposit.preimage :=
  rfl

/-- Where only one byte string is hashed, nothing collides. -/
theorem collisionFree_reports :
    CollisionFree [deposit.preimage.bytes, unaddressed.preimage.bytes] := by
  rw [preimage_unaddressed]
  intro x hx y hy _
  simp only [List.mem_cons, List.not_mem_nil, or_false, or_self] at hx hy
  rw [hx, hy]

/-- The world before the report, with a gateway that was asked for something before. -/
def askedBefore : World ScriptedGateway :=
  { ready with gateway := ⟨[], [Journal.depositRequest cctx ⟨"0xReceiver", []⟩]⟩ }

/-- The receipt of a report that decides its ballot, after which the transaction waits. -/
def receipt : VoteReceipt :=
  ⟨deposit.digest, true, true, some deposit.digest, some .pendingOutbound⟩

theorem reachable_ready : Reachable service ready := by
  have hstores : ∀ t ∈ service.turnsOf start (calls.take 3),
      (service.execute t.world t.call).world.store.Addressable := by decide +kernel
  exact ⟨start, _, rfl, Run.start.calls (calls.take 3) hstores⟩

/-- The report of the deposit is evaluated once for all that is to be known of it. -/
theorem evaluation_of_deposit :
    (service.execute ready (.voteInbound ⟨1, 1⟩ deposit)).world.store.Addressable ∧
    (service.execute ready (.voteInbound ⟨1, 1⟩ deposit)).answer = .ok (.receipt receipt) ∧
    (service.execute ready (.voteInbound ⟨1, 1⟩ deposit)).world.accounts.cctx deposit.digest
      = some cctx := by
  decide +kernel

/-- Of two reports with the same digest, one has no revert address and the other an empty one, and
so have the transactions that are stored if the one or the other decides. -/
theorem stored_as_reported : Reachable service ready ∧ deposit.digest = unaddressed.digest ∧
    CollisionFree [deposit.preimage.bytes, unaddressed.preimage.bytes] ∧
    deposit.creator = unaddressed.creator ∧
    (service.execute ready (.voteInbound ⟨1, 1⟩ deposit)).answer = .ok (.receipt receipt) ∧
    (service.execute ready (.voteInbound ⟨1, 1⟩ unaddressed)).answer = .ok (.receipt receipt) ∧
    receipt.finalized = true ∧ receipt.cctxIndex = some deposit.digest ∧
    ∃ c c' : Cctx,
      (service.execute ready (.voteInbound ⟨1, 1⟩ deposit)).world.Stores deposit.digest c ∧
      (service.execute ready (.voteInbound ⟨1, 1⟩ unaddressed)).world.Stores deposit.digest c' ∧
      c ≠ c' ∧ c.revertOptions.revertAddress = none ∧
      c'.revertOptions.revertAddress = some "" := by
  have hevaluated :
      (service.execute ready (.voteInbound ⟨1, 1⟩ unaddressed)).world.store.Addressable ∧
      (service.execute ready (.voteInbound ⟨1, 1⟩ unaddressed)).answer = .ok (.receipt receipt) ∧
      (service.execute ready (.voteInbound ⟨1, 1⟩ unaddressed)).world.accounts.cctx deposit.digest
        = some (cctx.readdress (some "")) := by decide +kernel
  obtain ⟨hstore, hanswer, hcctx⟩ := evaluation_of_deposit
  obtain ⟨hstore', hanswer', hcctx'⟩ := hevaluated
  have hsound := reachable_ready.sound
  have hne : cctx ≠ cctx.readdress (some "") := by
    intro h
    cases congrArg (fun c : Cctx => c.revertOptions.revertAddress) h
  exact ⟨reachable_ready, congrArg Preimage.digest preimage_unaddressed.symm,
    collisionFree_reports, rfl, hanswer, hanswer', rfl, rfl, cctx, cctx.readdress (some ""),
    (hsound.execute hstore).1.stores_iff.2 hcctx,
    (hsound.execute hstore').1.stores_iff.2 hcctx', hne, rfl, rfl⟩

/-- Nothing else is different in these transactions, also if the gateway was asked before. -/
theorem alike_but_for_address :
    (∀ request : DepositRequest, request.cctxIndex = deposit.digest →
      (Gateway.deposit askedBefore.gateway request).1
        = (Gateway.deposit ready.gateway request).1) ∧
    ∃ c : Cctx,
      (service.execute ready (.voteInbound ⟨1, 1⟩ deposit)).world.Stores deposit.digest c ∧
      (service.execute askedBefore (.voteInbound ⟨1, 1⟩ unaddressed)).world.Stores deposit.digest
        (c.readdress (some "")) ∧
      c.revertOptions.revertAddress = none ∧ c.AddressedAs (some "") ∧
      (c.readdress (some "")).revertReceiver = c.revertReceiver := by
  have hanswers : ∀ request : DepositRequest, request.cctxIndex = deposit.digest →
      (Gateway.deposit askedBefore.gateway request).1
        = (Gateway.deposit ready.gateway request).1 := by
    have hscript : ready.gateway.script = [] := by decide +kernel
    exact fun request _ => ScriptedGateway.deposit_fst_eq hscript.symm request
  have hevaluated :
      (service.execute askedBefore (.voteInbound ⟨1, 1⟩ unaddressed)).world.store.Addressable ∧
      (service.execute askedBefore (.voteInbound ⟨1, 1⟩ unaddressed)).answer
        = .ok (.receipt receipt) := by decide +kernel
  obtain ⟨hstore, hanswer, -⟩ := evaluation_of_deposit
  exact ⟨hanswers, Service.stored_by_either_report reachable_ready (by decide +kernel)
    (by decide +kernel) collisionFree_reports (congrArg Preimage.digest preimage_unaddressed.symm)
    rfl hanswers hstore hanswer rfl hevaluated.1 hevaluated.2 rfl⟩

end Sample

end Settlement
