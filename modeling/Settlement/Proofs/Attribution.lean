import Settlement.Proofs.Continuation
import Settlement.Proofs.Succession
import Settlement.Proofs.Trackers

/-!
# To which key a report belongs

Several signing keys may have the same nonce open on the same chain. A report about an outbound
transaction that names no key is meant for the one that comes last in the history among those to
which the nonce belongs, and this is found without a look at the pending nonces: the history is gone
through from its end, and a key is asked for the owner of the nonce and for the attempts of the
transaction that owns it. In a world that is reached both ways of asking agree
(`Settlement.Journal.ownsUnsettled_eq`), so that a report finds a key exactly if the nonce is listed
as pending for one, and finds the last such key.

Main statement: `Settlement.Reachable.report_finds_last_key`.
-/

namespace Settlement

/-! ### The order of keys -/

/-- The order of signing keys: that of the heights of their generation, then that of the lengths of
their public keys, and then that of the public keys. -/
def SigningKey.Precedes (key other : SigningKey) : Prop :=
  key.keygenHeight < other.keygenHeight ∨ key.keygenHeight = other.keygenHeight ∧
    ((Bytes.ofText key.pubkey).length < (Bytes.ofText other.pubkey).length ∨
      (Bytes.ofText key.pubkey).length = (Bytes.ofText other.pubkey).length ∧
        Bytes.ofText key.pubkey < Bytes.ofText other.pubkey)

/-- What is found first from the end of an ordered list comes after all else that could be found. -/
theorem last_of_find?_reverse {α : Type} {R : α → α → Prop} {xs : List α} {p : α → Bool} {a : α}
    (hordered : xs.Pairwise R) (h : xs.reverse.find? p = some a) :
    a ∈ xs ∧ p a = true ∧ ∀ b ∈ xs, p b = true → b = a ∨ R b a := by
  obtain ⟨ha, later, earlier, heq, hlater⟩ := List.find?_eq_some_iff_append.1 h
  have hxs : xs = earlier.reverse ++ a :: later.reverse := by
    rw [← List.reverse_reverse xs, heq]
    simp
  subst hxs
  refine ⟨by simp, ha, fun b hb hpb => ?_⟩
  rcases List.mem_append.1 hb with hearlier | hb
  · exact .inr ((List.pairwise_append.1 hordered).2.2 b hearlier a List.mem_cons_self)
  · rcases List.mem_cons.1 hb with rfl | hb
    · exact .inl rfl
    · have hnot := hlater b (List.mem_reverse.1 hb)
      simp [hpb] at hnot

/-! ### Finding the key -/

/-- A nonce of a signing key on a chain is listed as pending. -/
def Registry.IsPending {σ : Type} [ReadableStore σ] (s : σ) (signingKey : String)
    (chainId : ChainId) (nonce : UInt64) : Prop :=
  ∃ pending, pendingNonces s signingKey chainId = .ok pending ∧ nonce ∈ pending.toList

namespace Journal

/-- The first key is found to which the nonce belongs. -/
theorem findOwner_eq {σ : Type} [ReadableStore σ] {s : σ} {chainId : ChainId} {nonce : UInt64}
    {keys : List String} {owns : String → Bool}
    (howns : ∀ key ∈ keys, ownsUnsettled s key chainId nonce = .ok (owns key)) :
    findOwner s chainId nonce keys = .ok (keys.find? owns) := by
  induction keys with
  | nil => rfl
  | cons key rest ih =>
    obtain ⟨hkey, hrest⟩ := List.forall_mem_cons.1 howns
    rw [findOwner, hkey, List.find?_cons]
    cases owns key with
    | true => rfl
    | false => exact ih hrest

section Works

variable {b : Backend} {r : Recorder b} {l : Ledger}

/-- **A nonce belongs to an attempt that is not settled exactly if it is pending.** -/
theorem ownsUnsettled_eq (hb : b.Works) (h : Records r l) (hl : l.Legible)
    (hsound : l.accounts.Sound) (t : Ticket) :
    ownsUnsettled r t.lane.signingKey t.lane.chainId t.nonce
      = .ok ((l.accounts.nonces t.lane).pending.contains t.nonce) := by
  have howner : (Registry.nonceOwner? r t.lane.signingKey t.lane.chainId t.nonce)
      = .ok (l.accounts.owner t) :=
    storeError_lift_eq_ok_iff.2 (Recorder.getRecord_eq hb h (.nonceOwner _ _ _) (hl.fits _))
  have hcctx (x : Digest) : cctx? r x = .ok (l.accounts.cctx x) :=
    storeError_lift_settlement_eq_ok_iff.2 (Recorder.getRecord_eq hb h (.cctx x) (hl.fits _))
  -- The answer is there, and what it says of an open ticket is right.
  obtain ⟨owns, howns⟩ : ∃ owns,
      ownsUnsettled r t.lane.signingKey t.lane.chainId t.nonce = .ok owns := by
    refine exists_ok_bind (registryError_lift_eq_ok_iff.2 howner) ?_
    cases l.accounts.owner t with
    | none => exact ⟨_, rfl⟩
    | some owner =>
      refine exists_ok_bind (hcctx owner.cctxIndex) ?_
      cases l.accounts.cctx owner.cctxIndex <;> exact ⟨_, rfl⟩
  rw [howns, Except.ok.injEq, Bool.eq_iff_iff, hsound.pending_iff t]
  constructor
  · rintro rfl
    exact open_of_ownsUnsettled h hl hsound howns
  · rintro ⟨x, c, hc, ht⟩
    have hfound := (hsound.owner_iff t x).2 ⟨c, hc, Cctx.mem_tickets_of_openTicket? ht⟩
    obtain ⟨hticket, -, hopen⟩ := Cctx.eq_of_openTicket? ht
    obtain ⟨hkey, hchain, hnonce⟩ := Attempt.ticket?_eq_some_iff.1 hticket
    have hunsettled : c.current.state = .unsettled := by
      cases hstate : c.current.state with
      | unsettled => rfl
      | executed => simp [Attempt.isExecuted, hstate] at hopen
    obtain ⟨owner, hread, howns⟩ := bind_eq_ok_iff.1 howns
    obtain rfl := Except.ok.inj ((registryError_lift_eq_ok_iff.1 hread).symm.trans howner)
    rw [hfound] at howns
    obtain ⟨stored, hread, howns⟩ := bind_eq_ok_iff.1 howns
    obtain rfl := Except.ok.inj (hread.symm.trans (hcctx x))
    rw [hc] at howns
    rw [← pure_eq_ok_iff.1 howns]
    exact List.any_eq_true.2 ⟨c.current, c.current_mem_attempts,
      decide_eq_true ⟨hkey, hchain, hnonce, hunsettled⟩⟩

end Works

/-! ### Reports -/

/-- A report is admitted: it has a hash, the chain is served, and the reporter is an observer. -/
structure AdmitsReport {σ : Type} [ReadableStore σ] (s : σ) (m : OutboundHashReport) : Prop where
  txHash_ne : m.txHash ≠ ""
  isServed : ∃ served, Registry.supportedChain s m.chainId = .ok served
  isObserver : ∃ observers, Registry.observerSet s = .ok observers ∧ m.creator ∈ observers.members

section Reports

variable {σ : Type} [WritableStore σ] {s : σ} {config : SettlementConfig} {m : OutboundHashReport}

/-- What becomes of a report once its tracker is found: a hash that is known changes nothing, and a
new one is entered if there is room. -/
def enterHash (config : SettlementConfig) (s : σ) (m : OutboundHashReport)
    (tracker : OutboundTracker) : Except SettlementError σ :=
  if tracker.contains m.txHash = true then .ok s
  else if config.maxTrackerHashes.toNat ≤ tracker.hashes.length then
    .error (.trackerFull m.chainId m.nonce config.maxTrackerHashes)
  else setOutboundTracker s (tracker.add ⟨m.txHash, m.creator.account⟩)

/-- **A report that is admitted goes to the key that is found**, and is refused if there is
none. -/
theorem addOutboundTracker_eq (config : SettlementConfig) {candidates : List String}
    {owner : Option String} (hadmits : AdmitsReport s m)
    (hcandidates : candidateKeys s m.signingKey = .ok candidates)
    (howner : findOwner s m.chainId m.nonce candidates = .ok owner) :
    addOutboundTracker config s m =
      owner.elim (.error (.noPendingOutbound m.chainId m.nonce)) fun key =>
        outboundTracker? s key m.chainId m.nonce >>= fun stored =>
          enterHash config s m (stored.getD (.fresh key m.chainId m.nonce)) := by
  obtain ⟨⟨chain, params⟩, hchain⟩ := hadmits.isServed
  obtain ⟨observers, hobservers, hmember⟩ := hadmits.isObserver
  have hserved : supportedChain s m.chainId = .ok chain := by
    rw [supportedChain, hchain]
    rfl
  have hobserver : ensureObserver s m.creator = .ok () := by
    rw [ensureObserver, hobservers]
    exact if_pos (List.contains_iff_mem.2 hmember)
  refine (if_neg hadmits.txHash_ne).trans (bind_eq hserved (bind_eq hobserver
    (bind_eq hcandidates (bind_eq howner ?_))))
  cases owner <;> rfl

end Reports

end Journal

/-! ### One tracker -/

namespace OutboundTracker

/-- A hash is known to a tracker, up to case. -/
def Knows (t : OutboundTracker) (txHash : String) : Prop :=
  ∃ h ∈ t.hashes, foldCase h.txHash = foldCase txHash

theorem contains_iff_knows {t : OutboundTracker} {txHash : String} :
    t.contains txHash = true ↔ t.Knows txHash := by
  simp [contains, Knows]

/-- The tracker after a report. -/
def entered (t : OutboundTracker) (report : HashReport) : OutboundTracker :=
  if t.contains report.txHash then t else t.add report

end OutboundTracker

section Recorded

variable {b : Backend} {r : Recorder b} {l : Ledger} {config : SettlementConfig}
  {m : OutboundHashReport}

/-- **A report changes one tracker at most**, if its hash is known or there is room for it. -/
theorem Journal.exists_enterHash {key : String} {tracker : OutboundTracker} {max : Nat}
    (h : Records r l) (htracker : tracker = (l (.outboundTracker key m.chainId m.nonce)).getD
      (.fresh key m.chainId m.nonce))
    (horderly : tracker.Orderly ⟨⟨key, m.chainId⟩, m.nonce⟩ max)
    (hroom : tracker.Knows m.txHash ∨ tracker.hashes.length < config.maxTrackerHashes.toNat) :
    ∃ r', enterHash config r m tracker = .ok r' ∧
      contents r' = Function.update (contents r)
        (Key.outboundTracker key m.chainId m.nonce).bytes
        (some (Record.encode (tracker.entered ⟨m.txHash, m.creator.account⟩))) := by
  by_cases hknown : tracker.contains m.txHash = true
  · refine ⟨r, if_pos hknown, (Function.update_eq_self_iff.2 ?_).symm⟩
    rw [OutboundTracker.entered, if_pos hknown]
    -- A tracker with a hash in it is stored.
    cases hstored : l (.outboundTracker key m.chainId m.nonce) with
    | none =>
      rw [htracker, hstored] at hknown
      simp [OutboundTracker.contains, OutboundTracker.fresh] at hknown
    | some stored =>
      rw [hstored, Option.getD_some] at htracker
      rw [h (.outboundTracker key m.chainId m.nonce), Key.folded, hstored, htracker]
      rfl
  · have hlt := hroom.resolve_left fun h => hknown (OutboundTracker.contains_iff_knows.2 h)
    obtain ⟨r', hput⟩ : ∃ r', putRecord r (Key.outboundTracker key m.chainId m.nonce).bytes
        (tracker.add ⟨m.txHash, m.creator.account⟩) = .ok r' := ⟨_, rfl⟩
    refine ⟨r', (if_neg hknown).trans ((if_neg (Nat.not_le.2 hlt)).trans ?_), ?_⟩
    · refine storeError_lift_settlement_eq_ok_iff.2 ?_
      change putRecord r (Key.outboundTracker tracker.signingKey tracker.chainId
        tracker.nonce).bytes _ = _
      rw [horderly.signingKey_eq, horderly.chainId_eq, horderly.nonce_eq]
      exact hput
    · rw [contents_putRecord hput, OutboundTracker.entered, if_neg hknown]

end Recorded

/-! ### Worlds that are reached -/

section Runs

variable {γ : Type} [Gateway γ] {service : Service} {w : World γ}

omit [Gateway γ] in
theorem World.Sound.isPending_iff (h : w.Sound) (hworks : w.store.Works) (lane : Lane)
    (nonce : UInt64) : Registry.IsPending w.store lane.signingKey lane.chainId nonce ↔
      (w.accounts.nonces lane).pending.contains nonce = true := by
  have hread := h.pendingNonces_eq lane
  rw [hworks.restored_eq] at hread
  rw [Registry.IsPending, hread, NonceSet.contains, List.contains_iff_mem]
  simp

/-- **The last key is found for which a nonce is pending**, if there is one. -/
theorem Reachable.exists_owner (h : Reachable service w) (hworks : w.store.Works)
    (chainId : ChainId) (nonce : UInt64) :
    ∃ candidates owner,
      Journal.candidateKeys (Recorder.start w.store) none = .ok candidates ∧
      Journal.findOwner (Recorder.start w.store) chainId nonce candidates
        = .ok (owner.map SigningKey.pubkey) ∧
      (owner = none → ∀ key, w.store.ledger.Recalls key →
        ¬Registry.IsPending w.store key.pubkey chainId nonce) ∧
      ∀ key, owner = some key → w.store.ledger.Recalls key ∧
        Registry.IsPending w.store key.pubkey chainId nonce ∧
        ∀ other, w.store.ledger.Recalls other →
          Registry.IsPending w.store other.pubkey chainId nonce →
          other = key ∨ other.historyKey.bytes < key.historyKey.bytes := by
  have hsound := h.sound
  have hrecords : Records (Recorder.start w.store) w.store.ledger := hsound.records
  obtain ⟨entries, hscan, hordered⟩ :=
    (Recorder.start w.store).exists_scan hworks KeyRange.keyHistory.bytes
  obtain ⟨history, hhistory, hmem, hsorted⟩ := Registry.exists_sorted_history
    (s := Recorder.start w.store) (h.intact.congr rfl) hrecords hsound.legible h.keysFiled hscan
    hordered
  let waits (key : String) : Bool := (w.accounts.nonces ⟨key, chainId⟩).pending.contains nonce
  have hwaits (key : SigningKey) :
      Registry.IsPending w.store key.pubkey chainId nonce ↔ waits key.pubkey = true :=
    hsound.isPending_iff hworks ⟨key.pubkey, chainId⟩ nonce
  have hcandidates : Journal.candidateKeys (Recorder.start w.store) none
      = .ok (history.reverse.map SigningKey.pubkey) :=
    bind_eq (registryError_lift_eq_ok_iff.2 hhistory) rfl
  have howner : Journal.findOwner (Recorder.start w.store) chainId nonce
      (history.reverse.map SigningKey.pubkey)
        = .ok ((history.reverse.map SigningKey.pubkey).find? waits) :=
    Journal.findOwner_eq fun key _ => Journal.ownsUnsettled_eq hworks hrecords hsound.legible
      hsound.accounts ⟨⟨key, chainId⟩, nonce⟩
  rw [List.find?_map] at howner
  refine ⟨_, _, hcandidates, howner, fun hnone key hkey hpending => ?_, fun key hkey => ?_⟩
  · exact List.find?_eq_none.1 hnone key (List.mem_reverse.2 ((hmem key).2 hkey))
      ((hwaits key).1 hpending)
  · obtain ⟨hlisted, hpending, hlast⟩ := last_of_find?_reverse hsorted hkey
    exact ⟨(hmem key).1 hlisted, (hwaits key).2 hpending, fun other hother hwaiting =>
      hlast other ((hmem other).2 hother) ((hwaits other).1 hwaiting)⟩

/-- What becomes of a report that finds its key: it is refused if the tracker is full and does not
know the hash, and otherwise it changes this tracker at most. -/
theorem World.Sound.execute_report (h : w.Sound)
    (htracked : w.trackers.Sound w.accounts service.settlement.maxTrackerHashes.toNat)
    (hworks : w.store.Works) {m : OutboundHashReport} {key : String} {tracker : OutboundTracker}
    (htracker : tracker = w.trackers.of ⟨⟨key, m.chainId⟩, m.nonce⟩)
    (hreport : Journal.addOutboundTracker service.settlement (Recorder.start w.store) m
      = Journal.enterHash service.settlement (Recorder.start w.store) m tracker) :
    (¬tracker.Knows m.txHash →
      service.settlement.maxTrackerHashes.toNat ≤ tracker.hashes.length →
      (service.execute w (.addOutboundTracker m)).answer = .error (.settlement (.trackerFull
        m.chainId m.nonce service.settlement.maxTrackerHashes)) ∧
      (service.execute w (.addOutboundTracker m)).world.store = w.store) ∧
    (tracker.Knows m.txHash ∨
        tracker.hashes.length < service.settlement.maxTrackerHashes.toNat →
      (service.execute w (.addOutboundTracker m)).answer = .ok .done ∧
      contents (service.execute w (.addOutboundTracker m)).world.store
        = Function.update (contents w.store) (Key.outboundTracker key m.chainId m.nonce).bytes
          (some (Record.encode (tracker.entered ⟨m.txHash, m.creator.account⟩)))) := by
  have hrecords : Records (Recorder.start w.store) w.store.ledger := h.records
  constructor
  · intro hunknown hfull
    refine Service.execute_of_failed hworks.accepts ?_
    have hnot : ¬tracker.contains m.txHash = true :=
      fun hcontains => hunknown (OutboundTracker.contains_iff_knows.1 hcontains)
    rw [Service.handle, hreport, Journal.enterHash, if_neg hnot, if_pos hfull]
    rfl
  · intro hroom
    obtain ⟨r', hentered, hcontents⟩ := Journal.exists_enterHash hrecords htracker
      (htracker ▸ htracked.orderly_of _) hroom
    have hhandled : (service.handle w.gateway (Recorder.start w.store) (.addOutboundTracker m)).1
        = .ok (.done, r', .none) := by
      rw [Service.handle, hreport, hentered]
      rfl
    obtain ⟨hanswer, hstore⟩ := Service.execute_of_handled hworks.accepts hhandled
    rw [hstore, r'.contents_written]
    exact ⟨hanswer, hcontents⟩

/-- **A report that names no key finds the last one for which the nonce is pending.** In a world
that is reached and whose store works, a report that is admitted is refused for want of a pending
outbound transaction exactly if no key of the history has the nonce among those that are listed as
pending on the chain. Otherwise it is about the last key of the history that has: there is no such
key of a greater height, and as long as the lengths of public keys can be written in front of them,
none of the same height whose public key is longer, or as long and greater. The report is refused
then only if the tracker of this key is full and does not know the hash, up to case. Else the hash
is in this tracker afterwards, and nothing else has changed. -/
theorem Reachable.report_finds_last_key (h : Reachable service w) (hworks : w.store.Works)
    {m : OutboundHashReport} (hadmits : Journal.AdmitsReport w.store m)
    (hunnamed : m.signingKey = none) :
    let reply := service.execute w (.addOutboundTracker m)
    let max := service.settlement.maxTrackerHashes
    ∃ history, Registry.keyHistory w.store = .ok history ∧
      (reply.answer = .error (.settlement (.noPendingOutbound m.chainId m.nonce)) ↔
        ∀ key ∈ history, ¬Registry.IsPending w.store key.pubkey m.chainId m.nonce) ∧
      ((∃ key ∈ history, Registry.IsPending w.store key.pubkey m.chainId m.nonce) →
        ∃ owner ∈ history, Registry.IsPending w.store owner.pubkey m.chainId m.nonce ∧
          (∀ other ∈ history, Registry.IsPending w.store other.pubkey m.chainId m.nonce →
            other.keygenHeight ≤ owner.keygenHeight ∧
            (Bytes.IsShort other.pubkey → Bytes.IsShort owner.pubkey →
              other = owner ∨ other.Precedes owner)) ∧
          ∃ stored, Journal.outboundTracker? w.store owner.pubkey m.chainId m.nonce = .ok stored ∧
            let tracker := stored.getD (.fresh owner.pubkey m.chainId m.nonce)
            (¬tracker.Knows m.txHash → max.toNat ≤ tracker.hashes.length →
              reply.answer = .error (.settlement (.trackerFull m.chainId m.nonce max)) ∧
              reply.world.store = w.store) ∧
            (tracker.Knows m.txHash ∨ tracker.hashes.length < max.toNat →
              reply.answer = .ok .done ∧
              contents reply.world.store = Function.update (contents w.store)
                (Key.outboundTracker owner.pubkey m.chainId m.nonce).bytes
                (some (Record.encode (tracker.entered ⟨m.txHash, m.creator.account⟩))))) := by
  intro reply max
  have hsound := h.sound
  obtain ⟨history, hhistory, hmem, -⟩ := h.exists_sorted_history
  rw [hworks.restored_eq] at hhistory
  obtain ⟨candidates, owner, hcandidates, howner, hnone, hsome⟩ :=
    h.exists_owner hworks m.chainId m.nonce
  rw [← hunnamed] at hcandidates
  have hreport := Journal.addOutboundTracker_eq service.settlement (s := Recorder.start w.store)
    ⟨hadmits.txHash_ne, hadmits.isServed, hadmits.isObserver⟩ hcandidates howner
  refine ⟨history, hhistory, ?_⟩
  cases owner with
  | none =>
    have hfailed : (service.handle w.gateway (Recorder.start w.store) (.addOutboundTracker m)).1
        = .error (.settlement (.noPendingOutbound m.chainId m.nonce)) := by
      rw [Service.handle, hreport]
      rfl
    have hpending (key : SigningKey) (hkey : key ∈ history) :
        ¬Registry.IsPending w.store key.pubkey m.chainId m.nonce :=
      hnone rfl key ((hmem key).1 hkey)
    refine ⟨iff_of_true (Service.execute_of_failed hworks.accepts hfailed).1 hpending, ?_⟩
    rintro ⟨key, hkey, hwaits⟩
    exact absurd hwaits (hpending key hkey)
  | some owner =>
    obtain ⟨hrecalled, hpending, hlast⟩ := hsome owner rfl
    have hlisted := (hmem owner).2 hrecalled
    have hstored := hsound.outboundTracker?_eq ⟨⟨owner.pubkey, m.chainId⟩, m.nonce⟩
    rw [hworks.restored_eq] at hstored
    have hread : Journal.outboundTracker? (Recorder.start w.store) owner.pubkey m.chainId m.nonce
        = .ok (w.trackers ⟨⟨owner.pubkey, m.chainId⟩, m.nonce⟩) := hstored
    rw [Option.map_some, Option.elim_some, hread] at hreport
    obtain ⟨hfull, hentered⟩ := hsound.execute_report h.trackers_sound hworks rfl hreport
    refine ⟨iff_of_false (fun hanswer => ?_) fun hnone => hnone owner hlisted hpending, fun _ =>
      ⟨owner, hlisted, hpending, fun other hother hwaits => ?_, _, hstored, hfull, hentered⟩⟩
    -- The report is accepted, or refused because the tracker is full.
    · by_cases hroom : (w.trackers.of ⟨⟨owner.pubkey, m.chainId⟩, m.nonce⟩).Knows m.txHash ∨
          (w.trackers.of ⟨⟨owner.pubkey, m.chainId⟩, m.nonce⟩).hashes.length < max.toNat
      · cases (hentered hroom).1.symm.trans hanswer
      · rw [not_or, Nat.not_lt] at hroom
        cases (hfull hroom.1 hroom.2).1.symm.trans hanswer
    · have hbefore := hlast other ((hmem other).1 hother) hwaits
      constructor
      · rcases hbefore with rfl | hlt
        · exact UInt64.le_refl _
        · exact Key.height_le_of_keyHistory_lt hlt
      · exact fun hshort hshort' => hbefore.imp_right (Key.keyHistory_lt_iff hshort hshort').1

end Runs

/-! ### One nonce of two keys -/

namespace Sample

/-- After the deposit another key is made the current one, and there is another deposit. -/
def sharingCalls : List Call := [
  .registerKey ⟨"newer key", 2, 2⟩ true,
  .voteInbound ⟨2, 2⟩ { deposit with inboundHash := "0xAC" }]

/-- The world in which both keys have their first nonce open. -/
def sharing : World ScriptedGateway :=
  service.after world sharingCalls

/-- The report names no key, and goes to the newer one. -/
theorem sighting_of_newer_key :
    Registry.IsPending sharing.store "key" chainId 0 ∧
    (service.execute sharing (.addOutboundTracker sighting)).answer = .ok .done ∧
    contents (service.execute sharing (.addOutboundTracker sighting)).world.store
      = Function.update (contents sharing.store)
        (Key.outboundTracker "newer key" chainId 0).bytes
        (some (Record.encode (⟨"newer key", chainId, 0, [⟨"0xCD", "observer"⟩]⟩ :
          OutboundTracker))) := by
  have hevaluated :
      (∀ t ∈ service.turnsOf world sharingCalls,
        (service.execute t.world t.call).world.store.Addressable) ∧
      sharing.store.rejectsWrites = false ∧ sharing.store.unreadable = none ∧
      Registry.supportedChain sharing.store chainId
        = .ok (⟨chainId, "external", .evm⟩, .ofThreshold chainId 50) ∧
      Registry.observerSet sharing.store = .ok (.ofList [observer]) ∧
      observer ∈ (ObserverSet.ofList [observer]).members ∧
      Registry.keyHistory sharing.store = .ok [⟨"key", 1, 1⟩, ⟨"newer key", 2, 2⟩] ∧
      (Registry.pendingNonces sharing.store "key" chainId).map NonceSet.toList = .ok [0] ∧
      (Registry.pendingNonces sharing.store "newer key" chainId).map NonceSet.toList = .ok [0] ∧
      Journal.outboundTracker? sharing.store "newer key" chainId 0 = .ok none := by
    decide +kernel
  obtain ⟨hstores, haccepts, hreadable, hserved, hobservers, hmember, hkeys, hfirst, hsecond,
    htracker⟩ := hevaluated
  have hpending {key : String}
      (h : (Registry.pendingNonces sharing.store key chainId).map NonceSet.toList = .ok [0]) :
      Registry.IsPending sharing.store key chainId 0 := by
    obtain ⟨pending, hread, heq⟩ := map_eq_ok_iff.1 h
    exact ⟨pending, hread, by simp [heq]⟩
  have hreached : Reachable service sharing := ⟨start, _, rfl, run.calls sharingCalls hstores⟩
  obtain ⟨history, hhistory, -, hfound⟩ := Reachable.report_finds_last_key hreached
    ⟨haccepts, hreadable⟩ (m := sighting)
    ⟨by decide, ⟨_, hserved⟩, ⟨_, hobservers, hmember⟩⟩ rfl
  obtain rfl := Except.ok.inj (hkeys.symm.trans hhistory)
  obtain ⟨owner, howner, -, hlast, stored, hstored, -, hentered⟩ :=
    hfound ⟨_, List.mem_cons_self, hpending hfirst⟩
  have hnewest := (hlast ⟨"newer key", 2, 2⟩ (by simp) (hpending hsecond)).1
  obtain rfl : owner = ⟨"newer key", 2, 2⟩ := by
    rcases List.mem_cons.1 howner with rfl | hmem
    · exact absurd hnewest (by decide)
    · exact List.mem_singleton.1 hmem
  obtain rfl := Except.ok.inj (htracker.symm.trans hstored)
  exact ⟨hpending hfirst, hentered (.inr (by decide))⟩

end Sample

end Settlement
