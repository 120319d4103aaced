import Settlement.Proofs.Footprint
import Settlement.Proofs.Voting

/-!
# What a vote on an inbound transaction does

A vote on an inbound transaction is refused if its event is marked. The deciding vote marks the
event, and unless the ballot has failed it opens a transaction, which has been sent, paid, sent
back or given up when it is entered (`Settlement.Journal.taken_of_voteInbound`). Whatever the
gateway answers, the transaction has at most one ticket then, and waits for the vote on it.

A fund migration opens a transaction in the same way, but for no event
(`Settlement.Journal.taken_of_migrateFunds`).
-/

namespace Settlement

theorem Cctx.isBlank_ofInbound (m : InboundVote) (index : Digest) (signingKey : String)
    (block : Block) : (ofInbound m index signingKey block).IsBlank :=
  ⟨rfl, rfl, rfl, rfl, rfl⟩

theorem Cctx.isBlank_migrationCctx (config : SettlementConfig) (chain : Chain) (chainId : ChainId)
    (amount : U256) (current newer : SigningKey) (index : Digest) (block : Block) :
    (Journal.migrationCctx config chain chainId amount current newer index block).IsBlank :=
  ⟨rfl, rfl, rfl, rfl, rfl⟩

/-- A transfer between signing keys is not reported. -/
theorem InboundVote.coinType_ne_of_validate {m : InboundVote} (h : m.validate = .ok ()) :
    m.coinType ≠ .cmd := by
  intro hcmd
  have hcoin : (!m.coinType.isObservable) = true := by rw [hcmd]; rfl
  rw [validate] at h
  split at h
  · cases h
  · next hfault => simp [fault?, hcoin, ite_eq_iff] at hfault

theorem DepositError.message_ne (e : DepositError) : e.message ≠ "" := by
  intro h
  have hhead := (String.append_eq_empty_iff.1 h).1
  have hlead : "deposit failed (" = "" :=
    (String.append_eq_empty_iff.1 (String.append_eq_empty_iff.1 hhead).1).1
  exact absurd hlead (by decide)

/-! ### What is made of a report -/

/-- What a vote on an inbound transaction makes of the accounts, as it was decided, under the key
that is current. -/
inductive Accounts.Reported (a : Accounts) (current : Option SigningKey) (m : InboundVote)
    (outcome : Registry.VoteOutcome) : Accounts → Prop
  /-- The vote does not decide its ballot. -/
  | pending (h : outcome.finalized = false) : Reported a current m outcome a
  /-- It was decided that there is no such transaction. Its event is dealt with. -/
  | refuted (h : outcome.finalized = true) (hfailure : outcome.ballot.status = .failure) :
      Reported a current m outcome (a.mark m.origin)
  /-- A transaction is opened for the event, and signed with the current key. -/
  | opened {c : Cctx} {lane : Option Lane} {key : SigningKey} (h : outcome.finalized = true)
      (hindex : c.index = m.digest) (horigin : c.inbound.origin = m.origin)
      (hcoin : c.inbound.coinType = m.coinType) (hkey : current = some key)
      (hsigned : c.outbound.signingKey = key.pubkey) (hopens : a.Opens c lane) :
      Reported a current m outcome ((a.mark m.origin).renew c lane none)

namespace Accounts.Reported

variable {a b : Accounts} {current : Option SigningKey} {m : InboundVote}
  {outcome : Registry.VoteOutcome}

theorem step (h : a.Reported current m outcome b) (hmarked : a.marked m.origin = false) :
    a.Step none b := by
  cases h with
  | pending => exact .keep
  | refuted => exact .mark _
  | opened _ _ horigin _ _ _ hopens =>
    rw [← horigin] at hmarked ⊢
    exact .openInbound hmarked hopens

/-- The event of a report that was decided is marked. -/
theorem marked_eq (h : a.Reported current m outcome b) (hfinalized : outcome.finalized = true) :
    b.marked m.origin = true := by
  have hself : (a.mark m.origin).marked m.origin = true := by rw [mark_marked, if_pos rfl]
  cases h with
  | pending hpending => rw [hfinalized] at hpending; cases hpending
  | refuted => exact hself
  | @opened c lane =>
    change (((a.mark m.origin).issueOn c.index lane).retireOf none).marked m.origin = true
    rw [retireOf_marked, issueOn_marked, hself]

/-- A report that was found to be right has its transaction. -/
theorem exists_cctx (h : a.Reported current m outcome b) (hfinalized : outcome.finalized = true)
    (hsuccess : outcome.ballot.status = .success) : ∃ c, b.cctx m.digest = some c := by
  cases h with
  | pending hpending => rw [hfinalized] at hpending; cases hpending
  | refuted _ hfailure => rw [hsuccess] at hfailure; cases hfailure
  | opened _ hindex => exact ⟨_, by rw [Renews.renew_cctx, if_pos hindex.symm]⟩

end Accounts.Reported

namespace Journal

variable {σ γ : Type} [WritableStore σ] [LawfulStore σ] [Gateway γ] {s s' : σ} {l : Ledger}
  {p p' : Progress σ} {a : Accounts} {ballots : Digest → Option Ballot} {policy : StalePolicy}
  {config : SettlementConfig} {block : Block} {m : InboundVote}

/-! ### The deposit -/

theorem starts_of_abort {message : String} (h : Books p.store a ballots)
    (hblank : p.cctx.IsBlank) (hmessage : message ≠ "")
    (hend : p.abort message block = .ok p') :
    ∃ lane : Option Lane, a.Starts p.cctx p'.cctx lane ∧
      Books p'.store (a.issueOn p.cctx.index lane) ballots := by
  have hformed := Progress.formed_of_abort hend hmessage hblank.balanced
  obtain ⟨hstore, report, hreport, hcctx⟩ := Progress.eq_of_abort hend
  rw [hcctx] at hformed ⊢
  exact ⟨none, .of_settles hblank (.of_isTerminal (by rw [hreport]; rfl)) hformed, hstore ▸ h⟩

/-- A transaction that is paid on the host chain has no attempt in flight any more. -/
theorem settles_paidOnHost {c : Cctx} (hblank : c.IsBlank) (d : Destination)
    (receipt : DepositReceipt) {report : StatusReport}
    (hreport : report.status.isTerminal = true) :
    c.Settles { paidOnHost c d receipt block with report := report } none := by
  have hcurrent : c.current = c.outbound := Cctx.current_eq_outbound hblank.revert_eq
  refine ⟨rfl, rfl,
    ⟨[], (paidOnHost c d receipt block).outbound, [], ?_, ?_, ?_, rfl, by simp, rfl⟩,
    Cctx.openTicket?_of_isTerminal hreport⟩
  · rw [Cctx.attempts, hblank.revert_eq, hcurrent]
    rfl
  · simp [Cctx.attempts, paidOnHost, hblank.revert_eq]
  · rw [hcurrent]
    exact ⟨rfl, rfl, fun _ => rfl⟩

/-- The receiver of a single attempt may change when it is paid on the host chain. -/
theorem balanced_paidOnHost {c : Cctx} (hblank : c.IsBlank) (d : Destination)
    (receipt : DepositReceipt) : (paidOnHost c d receipt block).Balanced :=
  .of_revert_eq_none hblank.revert_eq hblank.amount_eq

/-- **Whatever the gateway answers, the transaction starts with one ticket or none.** -/
theorem starts_of_settleDeposit {d : Destination} {answer : DepositAnswer}
    (h : Books p.store a ballots) (hblank : p.cctx.IsBlank)
    (hcoin : p.cctx.inbound.coinType ≠ .cmd)
    (hfits : ∀ chainId, Fits (a.nonces ⟨p.cctx.outbound.signingKey, chainId⟩))
    (hsettle : settleDeposit config p d answer block = .ok p') :
    ∃ lane : Option Lane, a.Starts p.cctx p'.cctx lane ∧
      Books p'.store (a.issueOn p.cctx.index lane) ballots := by
  cases answer with
  | ok receipt =>
    rcases ite_eq_ok_iff.1 hsettle with ⟨-, hpaid⟩ | ⟨-, hsent⟩
    · have hformed := Progress.formed_of_advance hpaid (by simp)
        (balanced_paidOnHost hblank d receipt) ⟨hblank.revert_eq, rfl⟩
      obtain ⟨hstore, report, hreport, hcctx⟩ := Progress.eq_of_advance hpaid
      rw [hcctx] at hformed ⊢
      refine ⟨none, .of_settles hblank (settles_paidOnHost hblank d receipt ?_) hformed, hstore ▸ h⟩
      rw [hreport]
      rfl
    · obtain ⟨p₁, hassign, hadvance⟩ := bind_eq_ok_iff.1 hsent
      exact ⟨_, Progress.books_send h hblank (hfits _) hassign (by simp) hadvance⟩
  | error e =>
    rcases ite_eq_ok_iff.1 hsettle with ⟨-, hrevert⟩ | ⟨-, hend⟩
    · rw [startRevert] at hrevert
      split at hrevert
      · exact starts_of_abort h hblank (by simp) hrevert
      · next c hc =>
        obtain ⟨p₁, hassign, hadvance⟩ := bind_eq_ok_iff.1 hrevert
        have hformed := Progress.formed_of_revert hblank.balanced hcoin hc hassign e.message_ne
          hadvance
        obtain ⟨lane, hreverts, hbooks⟩ := Progress.books_revert h (hfits _) hc hassign hadvance
        exact ⟨some lane, .of_settles hblank hreverts.settles hformed, hbooks⟩
    · exact starts_of_abort h hblank e.message_ne hend

theorem starts_of_deposit {g g' : γ} (h : Books p.store a ballots) (hblank : p.cctx.IsBlank)
    (hcoin : p.cctx.inbound.coinType ≠ .cmd)
    (hfits : ∀ chainId, Fits (a.nonces ⟨p.cctx.outbound.signingKey, chainId⟩))
    (hdeposit : deposit config g p block = (.ok p', g')) :
    ∃ lane : Option Lane, a.Starts p.cctx p'.cctx lane ∧
      Books p'.store (a.issueOn p.cctx.index lane) ballots := by
  rw [deposit] at hdeposit
  split at hdeposit
  · exact starts_of_abort h hblank (DepositError.message_ne _) (congrArg Prod.fst hdeposit)
  · exact starts_of_settleDeposit h hblank hcoin hfits (congrArg Prod.fst hdeposit)

/-! ### The whole vote -/

/-- A vote on an inbound transaction that is taken: on an event that is not marked. -/
structure InboundTaken (policy : StalePolicy) (l : Ledger) (block : Block) (m : InboundVote)
    (outcome : Registry.VoteOutcome) (ballots : Digest → Option Ballot) : Prop where
  marked_eq : l.accounts.marked m.origin = false
  coinType_ne : m.coinType ≠ .cmd
  voted : Registry.Voted policy l ⟨m.digest, .inbound, m.senderChain, m.creator, .yes⟩
    block.height outcome ballots

/-- What a vote that is taken has come to before any deposit. A transaction that is opened is
blank, and its event is marked by then. -/
def IntakeTaken (l : Ledger) (block : Block) (m : InboundVote) (outcome : Registry.VoteOutcome)
    (ballots : Digest → Option Ballot) : Intake σ → Prop
  | .counted receipt s' _ => receipt.Tells outcome ∧
    (outcome.finalized = false ∧ Books s' l.accounts ballots ∨
      outcome.finalized = true ∧ outcome.ballot.status = .failure ∧
        Books s' (l.accounts.mark m.origin) ballots)
  | .opened receipt p => receipt.Tells outcome ∧ outcome.finalized = true ∧
    ∃ key : SigningKey, l .currentKey = some key ∧ p.cctx = .ofInbound m m.digest key.pubkey block ∧
      l.accounts.cctx m.digest = none ∧ Books p.store (l.accounts.mark m.origin) ballots

omit [LawfulStore σ] in
theorem fits_of_currentKey (hl : l.Legible) {key : SigningKey} (hkey : l .currentKey = some key) :
    Fits key.pubkey :=
  have hfits : Fits key := hl.fits .currentKey key hkey
  hfits.1

/-- A transaction that a report opens, before its deposit is made: nothing has been done of it, it
is about the event of the report, and it will be signed with the key that is current. -/
structure Opened (l : Ledger) (m : InboundVote) (key : SigningKey) (c : Cctx) : Prop where
  current_eq : l .currentKey = some key
  isBlank : c.IsBlank
  index_eq : c.index = m.digest
  origin_eq : c.inbound.origin = m.origin
  coinType_eq : c.inbound.coinType = m.coinType
  signingKey_eq : c.outbound.signingKey = key.pubkey

omit [LawfulStore σ] in
theorem opened_ofInbound {key : SigningKey} {c : Cctx} (hkey : l .currentKey = some key)
    (hc : c = .ofInbound m m.digest key.pubkey block) : Opened l m key c := by
  subst hc
  exact ⟨hkey, Cctx.isBlank_ofInbound .., rfl, rfl, rfl, rfl⟩

omit [LawfulStore σ] in
/-- The nonces under the key of a transaction that is opened can be read. -/
theorem Opened.fits_nonces {key : SigningKey} {c : Cctx} (h : Opened l m key c) (hl : l.Legible)
    (chainId : ChainId) :
    Fits ((l.accounts.mark m.origin).nonces ⟨c.outbound.signingKey, chainId⟩) := by
  refine hl.fits_nonces ?_
  rw [h.signingKey_eq]
  exact fits_of_currentKey hl h.current_eq

theorem eq_of_currentKey (h : Records s l) (hl : l.Legible) {key : SigningKey}
    (hkey : Registry.currentKey s = .ok key) : l .currentKey = some key := by
  obtain ⟨stored, hstored, hkey⟩ := bind_eq_ok_iff.1 hkey
  obtain rfl := getRecord_of_records h .currentKey (hl.fits .currentKey)
    (storeError_lift_eq_ok_iff.1 hstored)
  cases hfound : l Key.currentKey.folded with
  | none =>
    rw [hfound] at hkey
    cases hkey
  | some current =>
    rw [hfound] at hkey
    cases hkey
    exact hfound

theorem taken_of_links {key : SigningKey} {outcome : Registry.VoteOutcome} {s₁ : σ} {r : Intake σ}
    (h : Records s l) (hl : l.Legible) (hballots : BallotsFiled l.ballots)
    (hlinks : IntakeLinks policy s block m key outcome s₁ r) :
    ∃ ballots, InboundTaken policy l block m outcome ballots ∧
      IntakeTaken l block m outcome ballots r := by
  have hmarked : l.accounts.marked m.origin = false := by
    rw [InboundVote.origin, ← eq_of_isFinalized h.books hlinks.unmarked]
  obtain ⟨ballots, hvoted, hbooks⟩ := Registry.voted_of_castVote h hl hballots hlinks.cast_eq
  refine ⟨ballots, ⟨hmarked, InboundVote.coinType_ne_of_validate hlinks.valid, hvoted⟩, ?_⟩
  -- Once the ballot is decided, the event is marked whatever the verdict is.
  cases hlinks.ends with
  | pending hpending => exact ⟨⟨rfl, rfl⟩, .inl ⟨hpending, hbooks⟩⟩
  | failed hfinalized hmark hremove hfailure =>
    exact ⟨⟨rfl, rfl⟩, .inr ⟨hfinalized, hfailure, books_marked hbooks hmark hremove⟩⟩
  | opened hfinalized hmark hremove habsent =>
    have hbooks' := books_marked hbooks hmark hremove
    have hnone : (l.accounts.mark m.origin).cctx m.digest = none :=
      Option.not_isSome_iff_eq_none.1 (by rw [← eq_of_hasCctx hbooks' habsent]; decide)
    exact ⟨⟨rfl, rfl⟩, hfinalized, key, eq_of_currentKey h hl hlinks.current_eq, rfl, hnone,
      hbooks'⟩

theorem taken_of_intake {r : Intake σ} (h : Records s l) (hl : l.Legible)
    (hballots : BallotsFiled l.ballots) (hintake : intake policy config s block m = .ok r) :
    ∃ outcome ballots, InboundTaken policy l block m outcome ballots ∧
      IntakeTaken l block m outcome ballots r := by
  obtain ⟨key, outcome, s₁, hlinks⟩ := links_of_intake hintake
  obtain ⟨ballots, htaken⟩ := taken_of_links h hl hballots hlinks
  exact ⟨outcome, ballots, htaken⟩

/-- A transaction that a report opens is new to the accounts once its deposit is made: it is entered
under the index of the message, with one ticket or none. -/
structure Enters (l : Ledger) (m : InboundVote) (key : SigningKey) (c : Cctx)
    (lane : Option Lane) : Prop where
  current_eq : l .currentKey = some key
  index_eq : c.index = m.digest
  origin_eq : c.inbound.origin = m.origin
  coinType_eq : c.inbound.coinType = m.coinType
  signingKey_eq : c.outbound.signingKey = key.pubkey
  opens : l.accounts.Opens c lane

/-- **A transaction that a report opens is entered as its deposit has left it.** -/
theorem enters_of_opened {g g' : γ} {outcome : Registry.VoteOutcome}
    {receipt receipt' : VoteReceipt} {effects : Effects} (hl : l.Legible)
    (htaken : InboundTaken policy l block m outcome ballots)
    (hintake : IntakeTaken l block m outcome ballots (.opened receipt p))
    (hdeposit : deposit config g p block = (.ok p', g'))
    (hfinish : finish receipt p' = .ok (receipt', s', effects)) :
    receipt'.Tells outcome ∧ ∃ key lane, Enters l m key p'.cctx lane ∧
      Books s' ((l.accounts.mark m.origin).renew p'.cctx lane none) ballots := by
  obtain ⟨htells, -, key, hkey, hcctx, habsent, hbooks⟩ := hintake
  have hopened : Opened l m key p.cctx := opened_ofInbound hkey hcctx
  have hcoin : p.cctx.inbound.coinType ≠ .cmd := hopened.coinType_eq ▸ htaken.coinType_ne
  obtain ⟨lane, hstarts, hbooks'⟩ :=
    starts_of_deposit hbooks hopened.isBlank hcoin (hopened.fits_nonces hl) hdeposit
  -- Marking the event makes no difference for what the transaction finds.
  have hopens : l.accounts.Opens p'.cctx lane := by
    have h' : (l.accounts.mark m.origin).Opens p'.cctx lane :=
      hstarts.opens (by rw [hopened.index_eq]; exact habsent)
    exact ⟨h'.absent, ⟨h'.renews.tickets_eq, h'.renews.openTicket?_eq, h'.renews.closed_eq⟩,
      h'.signingKey_eq, h'.formed⟩
  obtain ⟨htells', hbooks''⟩ := books_finish hbooks' htells hfinish
  refine ⟨htells', key, lane, ⟨hkey, hstarts.index_eq.trans hopened.index_eq,
    by rw [hstarts.inbound_eq, hopened.origin_eq], by rw [hstarts.inbound_eq, hopened.coinType_eq],
    hstarts.signed_eq.trans hopened.signingKey_eq, hopens⟩, ?_⟩
  rw [Accounts.renew, hstarts.index_eq]
  exact hbooks''

/-- **A vote on an inbound transaction does nothing to the accounts but mark its event and open
a transaction for it**, and it does so only if the event was not marked. The gateway is left
alone as long as the ballot is not decided. -/
theorem taken_of_voteInbound {g g' : γ} {receipt : VoteReceipt} {effects : Effects}
    (h : Records s l) (hl : l.Legible) (hballots : BallotsFiled l.ballots)
    (hvote : voteInbound policy config g s block m = (.ok (receipt, s', effects), g')) :
    ∃ outcome a ballots, InboundTaken policy l block m outcome ballots ∧
      receipt.Tells outcome ∧ l.accounts.Reported (l .currentKey) m outcome a ∧
      (outcome.finalized = false → g' = g) ∧ Books s' a ballots := by
  obtain ⟨hintake, rfl⟩ | ⟨receipt₀, p, p', hintake, hdeposit, hfinish⟩ :=
    intake_of_voteInbound hvote
  · obtain ⟨outcome, ballots, htaken, htells, ⟨hpending, hbooks⟩ | ⟨hfinalized, hfailure, hbooks⟩⟩
      := taken_of_intake h hl hballots hintake
    · exact ⟨outcome, _, ballots, htaken, htells, .pending hpending, fun _ => rfl, hbooks⟩
    · exact ⟨outcome, _, ballots, htaken, htells, .refuted hfinalized hfailure, fun _ => rfl,
        hbooks⟩
  · obtain ⟨outcome, ballots, htaken, hopened⟩ := taken_of_intake h hl hballots hintake
    -- Whatever the gateway has answered, the transaction starts in one of few ways.
    obtain ⟨htells, key, lane, henters, hbooks⟩ :=
      enters_of_opened hl htaken hopened hdeposit hfinish
    have hfinalized : outcome.finalized = true := hopened.2.1
    exact ⟨outcome, _, ballots, htaken, htells,
      .opened hfinalized henters.index_eq henters.origin_eq henters.coinType_eq henters.current_eq
        henters.signingKey_eq henters.opens,
      fun hpending => absurd hpending (by simp [hfinalized]), hbooks⟩

/-! ### Fund migrations -/

/-- What a fund migration that is accepted opens: a transaction that comes from no event, sent on
the chain with the current key. Its index is the digest of what is moved, and the chain was not
marked. -/
structure MigrationTaken (l : Ledger) (block : Block) (chainId : ChainId) (amount : U256)
    (index : Digest) (current newer : SigningKey) (c : Cctx) (lane : Lane) : Prop where
  unmarked : l.migrations chainId = none
  current_eq : l .currentKey = some current
  digest_eq : index = (migrationPreimage chainId amount current newer block.height).digest
  index_eq : c.index = index
  coinType_eq : c.inbound.coinType = .cmd
  chainId_eq : c.outbound.chainId = chainId
  signingKey_eq : c.outbound.signingKey = current.pubkey
  lane_eq : lane = ⟨current.pubkey, chainId⟩
  revert_eq : c.revert = none
  status_eq : c.status = .pendingOutbound
  opens : l.accounts.Opens c (some lane)

/-- **The transaction of a fund migration is entered once it is sent.** -/
theorem enters_of_migration {chainId : ChainId} {amount : U256} {index : Digest}
    {current newer : SigningKey} {p₁ p₂ p₃ : Progress σ} {effects : Effects} (h : Records s l)
    (hl : l.Legible)
    (hlinks : MigrationLinks config s block chainId amount current newer index p₁ p₂ p₃ s'
      effects) :
    ∃ lane, MigrationTaken l block chainId amount index current newer p₂.cctx lane ∧
      Books s' (l.accounts.renew p₂.cctx (some lane) none) l.ballots := by
  obtain ⟨chain, hassign⟩ := hlinks.assigned
  obtain ⟨message, hmessage, hadvance⟩ := hlinks.advanced
  have hcurrent := eq_of_currentKey h hl hlinks.current_eq
  have habsent : l.accounts.cctx index = none :=
    Option.not_isSome_iff_eq_none.1 (by rw [← eq_of_hasCctx h.books hlinks.absent]; decide)
  obtain ⟨hstarts, hbooks⟩ := Progress.books_send
    (p := ⟨s, migrationCctx config chain chainId amount current newer _ block, .none⟩)
    h.books (Cctx.isBlank_migrationCctx ..) (hl.fits_nonces (fits_of_currentKey hl hcurrent))
    hassign hmessage hadvance
  -- What is sent is the transaction of the migration with a nonce, in another state.
  obtain ⟨nonce, hcctx₁⟩ := Progress.exists_nonce_of_assignNonce hassign
  obtain ⟨-, report, hreport, hcctx₂⟩ := Progress.eq_of_advance hadvance
  rw [hcctx₁] at hcctx₂
  refine ⟨_, ⟨?_, hcurrent, hlinks.index_eq, hstarts.index_eq,
    congrArg Inbound.coinType hstarts.inbound_eq, by rw [hcctx₂]; rfl, hstarts.signed_eq, rfl,
    by rw [hcctx₂]; rfl, by rw [hcctx₂]; exact hreport, hstarts.opens habsent⟩, ?_⟩
  · exact (Registry.eq_of_fundMigration? h.marks hlinks.unmarked).symm
  · rw [Accounts.renew, hstarts.index_eq]
    exact (keeps_booked_put (.fundMigration _) id (storeError_lift_eq_ok_iff.1 hlinks.marked)).books
      (Progress.books_save hbooks hlinks.saved).2

/-- **A fund migration opens a transaction that comes from no event, and marks the chain
with it.** -/
theorem taken_of_migrateFunds {chainId : ChainId} {amount : U256} {index : Digest}
    {effects : Effects} (h : Records s l) (hl : l.Legible)
    (hmigrate : migrateFunds config s block chainId amount = .ok (index, s', effects)) :
    ∃ current newer c lane, Registry.newerKey? s = .ok (some newer) ∧
      MigrationTaken l block chainId amount index current newer c lane ∧
      Books s' (l.accounts.renew c (some lane) none) l.ballots ∧
      Marks s' (Function.update l.migrations chainId
        (some ⟨chainId, index, block.height⟩)) := by
  obtain ⟨current, newer, p₁, p₂, p₃, hlinks⟩ := links_of_migrateFunds hmigrate
  obtain ⟨lane, htaken, hbooks⟩ := enters_of_migration h hl hlinks
  have hmarks := Registry.marks_setFundMigration (hlinks.touches.marks (fun _ => id) h.marks)
    hlinks.marked
  exact ⟨current, newer, p₂.cctx, lane, hlinks.newer_eq, htaken, hbooks, hmarks⟩

end Journal

end Settlement
