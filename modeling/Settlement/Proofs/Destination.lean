import Settlement.Proofs.ContentAddress
import Settlement.Proofs.Deposits
import Settlement.Proofs.Hex

/-!
# Where deposits go

The destination of a deposit on the host chain is read from a message that anybody may have
written. Which messages lead where is said by a relation that does not mention the reader
(`Settlement.Destination.Leads`), and the reader finds exactly these destinations
(`Settlement.Destination.resolve_eq_ok_iff`) and no destination in all other messages
(`Settlement.Destination.resolve_eq_error_iff`).

A vote that decides its ballot has the deposit made there, once, and gives the transaction up if
there is no destination. It does neither if the ballot has failed, although the vote speaks for the
deposit: it may be the last one after votes against it that were cast without a message
(`Settlement.Sample.outvoted_without_deposit`).

Main statement: `Settlement.Service.host_deposits_exact`.
-/

namespace Settlement

namespace Destination

/-! ### Messages and destinations -/

/-- Where a message leads, given as hexadecimal text without `0x`. -/
inductive Leads (declared : String) (text : Bytes) : ProtocolVersion → Destination → Prop
  /-- The second version names the receiver, who is called with the whole message. -/
  | named {payload : Bytes} (h : Hex.Spells text payload) :
      Leads declared text .v2 ⟨declared, payload⟩
  /-- An empty message leads to the named receiver. -/
  | plain (h : Hex.Spells text []) : Leads declared text .v1 ⟨declared, []⟩
  /-- A message that starts with an address leads there. -/
  | addressed {address payload : Bytes} (h : Hex.Spells text (address ++ payload))
      (hlength : address.length = 20) (hne : address ≠ List.replicate 20 0) :
      Leads declared text .v1 ⟨"0x" ++ Hex.encode address, payload⟩
  /-- A message that starts with the zero address leads to the named receiver. -/
  | unaddressed {payload : Bytes} (h : Hex.Spells text (List.replicate 20 0 ++ payload)) :
      Leads declared text .v1 ⟨declared, payload⟩

variable {version : ProtocolVersion} {declared message : String} {text bs : Bytes}
  {d : Destination}

theorem all_eq_zero_iff {address : Bytes} (h : address.length = 20) :
    address.all (· == 0) = true ↔ address = List.replicate 20 0 := by
  rw [List.eq_replicate_iff, List.all_eq_true]
  simp only [h, beq_iff_eq, true_and]

/-- A message of at least twenty bytes starts with an address. -/
theorem ofMessage_append {address : Bytes} (h : address.length = 20) (payload : Bytes) :
    ofMessage .v1 declared (address ++ payload)
      = .ok ⟨if address = List.replicate 20 0 then declared else "0x" ++ Hex.encode address,
          payload⟩ := by
  have hne : address ++ payload ≠ [] := by
    intro hnil
    rw [(List.append_eq_nil_iff.1 hnil).1] at h
    cases h
  have hlong : ¬(address ++ payload).length < 20 := by
    rw [List.length_append]
    omega
  simp only [ofMessage, if_neg hne, if_neg hlong, List.take_left' h, List.drop_left' h,
    all_eq_zero_iff h, Hex.encodePrefixed]

theorem leads_of_ofMessage (hspells : Hex.Spells text bs)
    (h : ofMessage version declared bs = .ok d) : Leads declared text version d := by
  cases version with
  | v2 => cases h; exact .named hspells
  | v1 =>
    obtain rfl | hne := eq_or_ne bs []
    · cases h
      exact .plain hspells
    by_cases hshort : bs.length < 20
    · rw [ofMessage, if_neg hne, if_pos hshort] at h
      cases h
    obtain ⟨address, payload, hlength, rfl⟩ :
        ∃ address payload : Bytes, address.length = 20 ∧ bs = address ++ payload :=
      ⟨bs.take 20, bs.drop 20, List.length_take_of_le (Nat.not_lt.1 hshort),
        (List.take_append_drop 20 bs).symm⟩
    rw [ofMessage_append hlength] at h
    cases h
    split
    · next hzero => exact .unaddressed (hzero ▸ hspells)
    · next hzero => exact .addressed hspells hlength hzero

theorem ofMessage_eq_error_iff :
    (∃ fault, ofMessage version declared bs = .error fault) ↔
      version = .v1 ∧ 1 ≤ bs.length ∧ bs.length ≤ 19 := by
  cases version with
  | v2 => exact ⟨nofun, nofun⟩
  | v1 =>
    rw [ofMessage]
    obtain rfl | hne := eq_or_ne bs []
    · exact ⟨nofun, nofun⟩
    have hpos : 0 < bs.length := List.length_pos_iff.2 hne
    rw [if_neg hne]
    split
    · next hshort => exact ⟨fun _ => ⟨rfl, hpos, by omega⟩, fun _ => ⟨_, rfl⟩⟩
    · next hlong => exact ⟨nofun, fun h => absurd h.2.2 (by omega)⟩

/-- **The destination of a message is where it leads.** -/
theorem resolve_eq_ok_iff : resolve version declared message = .ok d ↔
    Leads declared (Hex.trim (Bytes.ofText message)) version d := by
  rw [resolve]
  constructor
  · intro h
    split at h
    · cases h
    · next bs hdecoded => exact leads_of_ofMessage (Hex.decode_eq_ok_iff.1 hdecoded) h
  · intro h
    cases h with
    | named hspells => rw [Hex.decode_eq_ok_iff.2 hspells]; rfl
    | plain hspells => rw [Hex.decode_eq_ok_iff.2 hspells]; rfl
    | addressed hspells hlength hne =>
      rw [Hex.decode_eq_ok_iff.2 hspells]
      exact (ofMessage_append hlength _).trans (by rw [if_neg hne])
    | unaddressed hspells =>
      rw [Hex.decode_eq_ok_iff.2 hspells]
      exact (ofMessage_append List.length_replicate _).trans (by rw [if_pos rfl])

/-- **Which messages lead nowhere.** -/
theorem resolve_eq_error_iff : (∃ fault, resolve version declared message = .error fault) ↔
    (Hex.trim (Bytes.ofText message)).length % 2 = 1 ∨
    (∃ b ∈ Hex.trim (Bytes.ofText message), ¬Hex.IsDigit b) ∨
    version = .v1 ∧ ∃ bs, Hex.Spells (Hex.trim (Bytes.ofText message)) bs ∧
      1 ≤ bs.length ∧ bs.length ≤ 19 := by
  rw [resolve]
  cases hdecoded : Hex.decode (Hex.trim (Bytes.ofText message)) with
  | error fault =>
    -- Nothing is spelled, since it would be read.
    have hnone : ¬∃ bs, Hex.Spells (Hex.trim (Bytes.ofText message)) bs := by
      rintro ⟨bs, hspells⟩
      rw [Hex.decode_eq_ok_iff.2 hspells] at hdecoded
      cases hdecoded
    refine ⟨fun _ => ?_, fun _ => ⟨_, rfl⟩⟩
    by_contra hcon
    push Not at hcon
    exact hnone (Hex.exists_spells_iff.2 ⟨by omega, hcon.2.1⟩)
  | ok bs =>
    have hspells := Hex.decode_eq_ok_iff.1 hdecoded
    obtain ⟨heven, hdigits⟩ := Hex.exists_spells_iff.1 ⟨bs, hspells⟩
    refine ofMessage_eq_error_iff.trans ⟨fun ⟨hversion, hlength⟩ => ?_, fun h => ?_⟩
    · exact .inr (.inr ⟨hversion, bs, hspells, hlength⟩)
    · obtain hodd | ⟨b, hb, hbad⟩ | ⟨hversion, bs', hspells', hlength⟩ := h
      · omega
      · exact absurd (hdigits b hb) hbad
      · cases hdecoded.symm.trans (Hex.decode_eq_ok_iff.2 hspells')
        exact ⟨hversion, hlength⟩

/-- A deposit without a destination fails for good. -/
theorem Fault.toDepositError_kind (fault : Fault) :
    fault.toDepositError.kind = .invalidDestination ∧
      fault.toDepositError.kind.shouldRevert = false := by
  cases fault <;> exact ⟨rfl, rfl⟩

end Destination

/-! ### What the gateway is asked -/

namespace InboundVote

/-- The destination that a report gives its deposit on the host chain. -/
def destination (m : InboundVote) : Except Destination.Fault Destination :=
  Destination.resolve m.protocolVersion m.receiver m.message

/-- The deposit that is reported, at a destination. -/
def depositRequest (m : InboundVote) (d : Destination) : DepositRequest where
  cctxIndex := m.digest
  sender := m.sender
  senderChain := m.senderChain
  receiver := d.receiver
  amount := m.amount
  coinType := m.coinType
  asset := m.asset
  payload := d.payload
  protocolVersion := m.protocolVersion

end InboundVote

namespace Journal

variable {σ γ : Type} {config : SettlementConfig} {block : Block} {m : InboundVote}

theorem depositTarget_ofInbound (hhost : m.receiverChain = config.hostChain) (index : Digest)
    (key : String) : depositTarget config (.ofInbound m index key block) = m.destination :=
  if_pos (decide_eq_true hhost)

/-- What the gateway is asked for what a vote has come to, with its answer. -/
def Intake.asks [Gateway γ] (config : SettlementConfig) (g : γ) :
    Intake σ → List (DepositRequest × DepositAnswer)
  | .counted _ _ _ => []
  | .opened _ p =>
    match depositTarget config p.cctx with
    | .error _ => []
    | .ok d => [(depositRequest p.cctx d, (Gateway.deposit g (depositRequest p.cctx d)).1)]

section Asks

variable [WritableStore σ] [Gateway γ] {policy : StalePolicy} {s : σ} {g : γ}

/-- A transaction on the host chain has its deposit made at the destination of the report, or none
if there is no destination. -/
theorem asks_of_opened {receipt : VoteReceipt} {p : Progress σ}
    (hhost : m.receiverChain = config.hostChain)
    (hintake : intake policy config s block m = .ok (.opened receipt p)) :
    (Intake.opened receipt p).asks config g = match m.destination with
      | .error _ => []
      | .ok d => [(m.depositRequest d, (Gateway.deposit g (m.depositRequest d)).1)] := by
  obtain ⟨key, hcctx⟩ := exists_cctx_eq_of_opened hintake
  rw [Intake.asks, hcctx, depositTarget_ofInbound hhost]
  cases m.destination <;> rfl

/-- A transaction whose report gives no destination is given up. -/
theorem status_of_deposit {receipt : VoteReceipt} {p p' : Progress σ}
    (hhost : m.receiverChain = config.hostChain)
    (hintake : intake policy config s block m = .ok (.opened receipt p))
    {fault : Destination.Fault} (hfault : m.destination = .error fault)
    (hdeposit : (deposit config g p block).1 = .ok p') : p'.cctx.status = .aborted := by
  obtain ⟨key, hcctx⟩ := exists_cctx_eq_of_opened hintake
  rw [deposit, hcctx, depositTarget_ofInbound hhost, hfault] at hdeposit
  obtain ⟨-, report, hreport, hcctx'⟩ := Progress.eq_of_abort hdeposit
  rw [hcctx']
  exact hreport

end Asks

end Journal

section Asked

variable {γ : Type} [Gateway γ] {service : Service} {w : World γ} {block : Block} {m : InboundVote}

theorem Service.asked_voteInbound : service.asked ⟨w, .voteInbound block m⟩
    = (Journal.voteInbound service.observers.stalePolicy service.settlement w.audited.gateway
      (.fresh w.store : Draft) block m).2.log :=
  asked_eq service w (.voteInbound block m)

/-- The log of a vote shows what it has come to. -/
theorem Service.asked_of_intake {r : Journal.Intake Draft}
    (hintake : Journal.intake service.observers.stalePolicy service.settlement
      (.fresh w.store) block m = .ok r) :
    service.asked ⟨w, .voteInbound block m⟩ = r.asks service.settlement w.gateway := by
  rw [asked_voteInbound, Journal.voteInbound, hintake]
  cases r with
  | counted receipt s effects => rfl
  | opened receipt p =>
    simp only [Journal.deposit, Journal.Intake.asks]
    cases Journal.depositTarget service.settlement p.cctx <;> rfl

/-- A deposit on the host chain that the gateway is asked for goes to the destination of the
report, whether the vote is accepted in the end or not. -/
theorem Service.destination_of_mem_asked (hhost : m.receiverChain = service.settlement.hostChain)
    {entry : DepositRequest × DepositAnswer}
    (hentry : entry ∈ service.asked ⟨w, .voteInbound block m⟩) :
    ∃ d, m.destination = .ok d ∧ entry.1 = m.depositRequest d := by
  cases hintake : Journal.intake service.observers.stalePolicy service.settlement
      (.fresh w.store : Draft) block m with
  | error e =>
    rw [asked_voteInbound, Journal.voteInbound, hintake] at hentry
    cases hentry
  | ok r =>
    rw [asked_of_intake hintake] at hentry
    cases r with
    | counted receipt s effects => cases hentry
    | opened receipt p =>
      rw [Journal.asks_of_opened hhost hintake] at hentry
      cases hdestination : m.destination with
      | error fault => rw [hdestination] at hentry; cases hentry
      | ok d =>
        rw [hdestination, List.mem_singleton] at hentry
        exact ⟨d, rfl, congrArg Prod.fst hentry⟩

/-- What a vote on a deposit on the host chain has done when it has decided its ballot. -/
structure Service.DecidesDeposit (service : Service) (w : World γ) (block : Block)
    (m : InboundVote) (receipt : VoteReceipt) (b : Ballot) : Prop where
  /-- The ballot is stored. -/
  ballot_eq : Registry.ballot? (service.execute w (.voteInbound block m)).world.store.restored
    m.digest = .ok (some b)
  /-- If it has failed, then the transactions are as before, and the gateway is not asked. -/
  failed : b.status = .failure → receipt.cctxIndex = none ∧
    service.asked ⟨w, .voteInbound block m⟩ = [] ∧
    ∀ x c, (service.execute w (.voteInbound block m)).world.Stores x c ↔ w.Stores x c
  /-- Otherwise there is a transaction. -/
  opened : b.status ≠ .failure → receipt.cctxIndex = some m.digest
  /-- The gateway is asked once for the deposit at its destination. -/
  made : b.status ≠ .failure → ∀ d, m.destination = .ok d →
    service.asked ⟨w, .voteInbound block m⟩
      = [(m.depositRequest d, (Gateway.deposit w.gateway (m.depositRequest d)).1)]
  /-- If there is no destination, then the gateway is not asked, and the transaction is given up. -/
  given_up : b.status ≠ .failure → ∀ fault, m.destination = .error fault →
    service.asked ⟨w, .voteInbound block m⟩ = [] ∧
    ∃ c, (service.execute w (.voteInbound block m)).world.Stores m.digest c ∧ c.status = .aborted

/-- **The deposit of a report that is decided goes where the message says.** -/
theorem World.Sound.decidesDeposit {receipt : VoteReceipt} (h : w.Sound)
    (hhost : m.receiverChain = service.settlement.hostChain)
    (hstore : (service.execute w (.voteInbound block m)).world.store.Addressable)
    (hanswer : (service.execute w (.voteInbound block m)).answer = .ok (.receipt receipt))
    (hfinalized : receipt.finalized = true) :
    ∃ b, service.DecidesDeposit w block m receipt b := by
  have hsound := (h.execute hstore).1
  obtain ⟨draft, effects, gateway, hvote, hcontents⟩ := Service.committed_of_voteInbound hanswer
  obtain ⟨-, r, b, a, ballots, hintake, hballot, hbooks, hends⟩ :=
    Journal.ends_of_voteInbound h.records.fresh h.legible h.ballotsFiled hvote
  obtain ⟨-, haccounts, hstored⟩ := (hbooks.congr hcontents).ledger hstore
  have hballot := (hsound.ballot?_eq m.digest).trans (congrArg _ (hstored ▸ hballot))
  have hasked := Service.asked_of_intake hintake
  refine ⟨b, ?_⟩
  cases hends with
  | pending hpending =>
    rw [hpending] at hfinalized
    cases hfinalized
  | failed hfailure hunnamed =>
    refine ⟨hballot, fun _ => ⟨hunnamed, hasked, fun x c => ?_⟩, fun hne => absurd hfailure hne,
      fun hne => absurd hfailure hne, fun hne => absurd hfailure hne⟩
    rw [hsound.stores_iff, h.stores_iff, World.accounts, haccounts]
    rfl
  | opened hstands hnamed hdeposit hstored =>
    rw [Journal.asks_of_opened hhost hintake] at hasked
    refine ⟨hballot, fun hfailure => absurd hfailure hstands, fun _ => hnamed,
      fun _ d hd => by rw [hasked, hd], fun _ fault hfault => ⟨by rw [hasked, hfault], _, ?_,
        Journal.status_of_deposit hhost hintake hfault hdeposit⟩⟩
    rw [hsound.stores_iff, World.accounts, haccounts]
    exact hstored

/-- **Deposits on the host chain go exactly where their messages say.** One `0x` in front of a
message counts for nothing. There is no destination exactly if what follows is of odd length, has
a byte that is no digit, or, in the first version of the protocol, spells one to nineteen bytes,
and every such fault is an invalid destination, which sends nothing back; any other message leads
to the destination that is found.

Whatever becomes of a vote on a deposit on the host chain, the gateway is asked for nothing but
this deposit at its destination. If the vote decides its ballot and the ballot has not failed, then
it is asked for that once, or, if there is no destination, it is not asked and the transaction is
stored as given up. If the ballot has failed, then no transaction is stored and the gateway is not
asked. -/
theorem Service.host_deposits_exact (service : Service) :
    (∀ rest, Hex.trim (Bytes.ofText "0x" ++ rest) = rest) ∧
    (∀ text, ¬Bytes.ofText "0x" <+: text → Hex.trim text = text) ∧
    (∀ version declared message,
      ((∃ fault, Destination.resolve version declared message = .error fault) ↔
        (Hex.trim (Bytes.ofText message)).length % 2 = 1 ∨
        (∃ b ∈ Hex.trim (Bytes.ofText message), ¬Hex.IsDigit b) ∨
        version = .v1 ∧ ∃ bs, Hex.Spells (Hex.trim (Bytes.ofText message)) bs ∧
          1 ≤ bs.length ∧ bs.length ≤ 19) ∧
      ∀ d, Destination.resolve version declared message = .ok d ↔
        Destination.Leads declared (Hex.trim (Bytes.ofText message)) version d) ∧
    (∀ fault : Destination.Fault, fault.toDepositError.kind = .invalidDestination ∧
      fault.toDepositError.kind.shouldRevert = false) ∧
    ∀ (w : World γ) (block : Block) (m : InboundVote),
      m.receiverChain = service.settlement.hostChain →
      (∀ entry ∈ service.asked ⟨w, .voteInbound block m⟩,
        ∃ d, m.destination = .ok d ∧ entry.1 = m.depositRequest d) ∧
      ∀ receipt : VoteReceipt, Reachable service w →
        (service.execute w (.voteInbound block m)).world.store.Addressable →
        (service.execute w (.voteInbound block m)).answer = .ok (.receipt receipt) →
        receipt.finalized = true → ∃ b, service.DecidesDeposit w block m receipt b :=
  ⟨Hex.trim_append, fun _ => Hex.trim_of_not_isPrefix,
    fun _ _ _ => ⟨Destination.resolve_eq_error_iff, fun _ => Destination.resolve_eq_ok_iff⟩,
    Destination.Fault.toDepositError_kind, fun _ _ _ hhost =>
      ⟨fun _ => destination_of_mem_asked hhost,
        fun _ hreach => hreach.sound.decidesDeposit hhost⟩⟩

end Asked

/-! ### A message with an address, and a deposit that is voted down -/

namespace Sample

/-- A deposit on the host chain, to an address that is written with digits of either case. -/
def hostDeposit : InboundVote :=
  { deposit with
    receiverChain := ⟨7000⟩
    message := "0xAbcdefABCDEF00112233445566778899aAbBcCdDBEef"
    protocolVersion := .v1 }

/-- Where it goes. -/
def hostDestination : Destination :=
  ⟨"0xabcdefabcdef00112233445566778899aabbccdd", [0xbe, 0xef]⟩

/-- The gateway is asked once, for the address in small digits and with the rest of the message. -/
theorem hostDeposit_made :
    hostDeposit.destination = .ok hostDestination ∧
    service.asked ⟨ready, .voteInbound ⟨1, 1⟩ hostDeposit⟩
      = [(hostDeposit.depositRequest hostDestination,
        .ok ⟨hostDeposit.digest.toHex, true⟩)] := by
  have hevaluated :
      hostDeposit.destination = .ok hostDestination ∧
      (service.execute ready (.voteInbound ⟨1, 1⟩ hostDeposit)).world.store.Addressable ∧
      (service.execute ready (.voteInbound ⟨1, 1⟩ hostDeposit)).answer = .ok (.receipt
        ⟨hostDeposit.digest, true, true, some hostDeposit.digest, some .outboundMined⟩) ∧
      (Registry.ballot?
        (service.execute ready (.voteInbound ⟨1, 1⟩ hostDeposit)).world.store.restored
        hostDeposit.digest).map (Option.map Ballot.status) = .ok (some .success) ∧
      (Gateway.deposit ready.gateway (hostDeposit.depositRequest hostDestination)).1
        = .ok ⟨hostDeposit.digest.toHex, true⟩ := by decide +kernel
  obtain ⟨hdestination, hstore, hanswer, hballot, hmade⟩ := hevaluated
  obtain ⟨b, hdecides⟩ := ((Service.host_deposits_exact service).2.2.2.2 ready ⟨1, 1⟩
    hostDeposit rfl).2 _ reachable_ready hstore hanswer rfl
  rw [hdecides.ballot_eq] at hballot
  have hne : b.status ≠ .failure := by
    have hsuccess : b.status = .success := Option.some.inj (Except.ok.inj hballot)
    rw [hsuccess]
    decide
  rw [← hmade]
  exact ⟨hdestination, hdecides.made hne _ hdestination⟩

/-- A deposit on the host chain that the last of three observers reports. -/
def outvotedDeposit : InboundVote :=
  { deposit with creator := ⟨"c"⟩, receiverChain := ⟨7000⟩ }

/-- The other two vote against it without a message, while all three have to agree. Then two of
them are enough. -/
def outvotedCalls : List Call := [
  .setObserverSet [⟨"a"⟩, ⟨"b"⟩, ⟨"c"⟩],
  .registerChain ⟨chainId, "external", .evm⟩ (.ofThreshold chainId 100),
  .registerKey ⟨"key", 1, 1⟩ true,
  .castVote ⟨outvotedDeposit.digest, .inbound, chainId, ⟨"a"⟩, .no⟩ ⟨1, 1⟩,
  .castVote ⟨outvotedDeposit.digest, .inbound, chainId, ⟨"b"⟩, .no⟩ ⟨1, 1⟩,
  .updateChainParams (.ofThreshold chainId 50)]

/-- The world before the report. -/
def outvoted : World ScriptedGateway :=
  service.after start outvotedCalls

/-- **A report decides its ballot, and its deposit is not made although it has a destination**: the
ballot has failed. -/
theorem outvoted_without_deposit :
    Reachable service outvoted ∧
    outvotedDeposit.receiverChain = service.settlement.hostChain ∧
    outvotedDeposit.destination = .ok ⟨"0xReceiver", []⟩ ∧
    (service.execute outvoted (.voteInbound ⟨2, 2⟩ outvotedDeposit)).answer
      = .ok (.receipt ⟨outvotedDeposit.digest, false, true, none, none⟩) ∧
    service.asked ⟨outvoted, .voteInbound ⟨2, 2⟩ outvotedDeposit⟩ = [] := by
  have hevaluated :
      (∀ t ∈ service.turnsOf start outvotedCalls,
        (service.execute t.world t.call).world.store.Addressable) ∧
      outvotedDeposit.receiverChain = service.settlement.hostChain ∧
      outvotedDeposit.destination = .ok ⟨"0xReceiver", []⟩ ∧
      (service.execute outvoted (.voteInbound ⟨2, 2⟩ outvotedDeposit)).answer
        = .ok (.receipt ⟨outvotedDeposit.digest, false, true, none, none⟩) ∧
      service.asked ⟨outvoted, .voteInbound ⟨2, 2⟩ outvotedDeposit⟩ = [] := by decide +kernel
  obtain ⟨hstores, hunasked⟩ := hevaluated
  exact ⟨⟨start, _, rfl, Run.start.calls outvotedCalls hstores⟩, hunasked⟩

end Sample

end Settlement
