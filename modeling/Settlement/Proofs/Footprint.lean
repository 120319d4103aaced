import Settlement.Proofs.Transitions
import Settlement.Proofs.Voting

/-!
# What transitions write

Every transition writes under keys of a few families, and what it writes under a key is a record of
the type that belongs to the key (`Settlement.Touches`). Casting a vote and pruning write ballots;
a vote that is decided writes transactions, nonces, marks of events and inbound trackers besides;
only votes on outbound transactions and migrations write marks of fund migrations, and only these
votes and reports write outbound trackers; and governance writes its settings.

Of a vote the keys are known one by one. It writes its ballot. On an inbound transaction, what comes
after that are the mark and the tracker of the event, the transaction, and a nonce on one of its two
lanes (`Settlement.Journal.links_of_voteInbound`); on an outbound transaction, it is what is about
the attempt in flight and its revert (`Settlement.Journal.touches_renewed_of_voteOutbound`).

Whatever a transition does not write it leaves alone (`Settlement.Touches.keeps`). The marks of fund
migrations are followed by name (`Settlement.Marks`).
-/

namespace Settlement

/-! ### Families of keys -/

/-- Whether a key is one under which a setting is kept. -/
def Key.IsGoverned : Key → Prop
  | .observerSet | .chain _ | .chainParams _ | .switches | .currentKey => True
  | _ => False

/-- Whether a key is one that governance writes: a setting, or an entry in the history of keys. -/
def Key.IsAdministered : Key → Prop
  | .keyHistory _ _ => True
  | k => k.IsGoverned

/-- Whether a key is one under which ballots and their height entries are kept. -/
def Key.IsPoll : Key → Prop
  | .ballot _ | .ballotByHeight _ _ => True
  | _ => False

/-- Whether a key is one of the tracker of an outbound transaction. -/
def Key.IsOutboundTracker : Key → Prop
  | .outboundTracker _ _ _ => True
  | _ => False

/-- Whether a key is one of the tracker of an inbound transaction. -/
def Key.IsInboundTracker : Key → Prop
  | .inboundTracker _ _ => True
  | _ => False

/-- Whether a key is one of the mark of a fund migration. -/
def Key.IsMigration : Key → Prop
  | .fundMigration _ => True
  | _ => False

/-- Whether a key is one that every vote may write. -/
def Key.IsTransacted : Key → Prop
  | .ballot _ | .ballotByHeight _ _ | .cctx _ | .nonces _ _ | .nonceOwner _ _ _
  | .finalizedInbound _ _ _ | .inboundTracker _ _ => True
  | _ => False

/-- Whether a key is one under which a transaction is entered with its nonces. -/
def Key.IsEntered : Key → Prop
  | .cctx _ | .nonces _ _ | .nonceOwner _ _ _ => True
  | _ => False

/-- Whether a key is one under which a nonce of a lane is reserved: that of the nonces of the lane,
or that of the owner of one. -/
def Lane.IsReservedUnder (lane : Lane) (k : Key) : Prop :=
  k = .nonces lane.signingKey lane.chainId ∨
    ∃ nonce, k = .nonceOwner lane.signingKey lane.chainId nonce

/-- Whether a key is that of the tracker of an attempt. -/
def Attempt.IsTrackedUnder (a : Attempt) (k : Key) : Prop :=
  ∃ nonce, a.nonce = some nonce ∧ k = .outboundTracker a.signingKey a.chainId nonce

/-- Whether a key is one under which an attempt is released: that of the nonces of its lane, or that
of its tracker. -/
def Attempt.IsReleasedUnder (a : Attempt) (k : Key) : Prop :=
  k = .nonces a.signingKey a.chainId ∨ a.IsTrackedUnder k

/-- Whether a key is one under which the nonce of an attempt is reserved: that of the nonces of its
lane, or that of the owner of the nonce. -/
def Attempt.IsAssignedUnder (a : Attempt) (k : Key) : Prop :=
  k = .nonces a.signingKey a.chainId ∨
    ∃ nonce, a.nonce = some nonce ∧ k = .nonceOwner a.signingKey a.chainId nonce

/-- The lane on which a transaction is reverted. -/
def Cctx.revertLane (c : Cctx) : Lane :=
  ⟨c.outbound.signingKey, c.inbound.senderChain⟩

/-- A transaction without a revert has become one that waits for its revert, on the lane on which
it is reverted. -/
structure Cctx.StartsRevert (c d : Cctx) (r : Attempt) : Prop where
  unreverted : c.revert = none
  status_eq : d.status = .pendingRevert
  revert_eq : d.revert = some r
  lane_eq : r.lane = c.revertLane

/-- Whether a key is one under which the nonce of a revert is reserved that a transaction has
started. -/
def Cctx.IsRevertedUnder (c d : Cctx) (k : Key) : Prop :=
  ∃ r, c.StartsRevert d r ∧ r.IsAssignedUnder k

/-- Whether a key is that of a ballot after a vote, or that of its entry if the vote has created
it. -/
def Registry.VoteOutcome.IsFiledUnder (outcome : VoteOutcome) (height : UInt64) (k : Key) : Prop :=
  k = .ballot outcome.ballot.index ∨
    outcome.isNew = true ∧ k = .ballotByHeight height outcome.ballot.index

/-- Whether a key is that of the mark of an event or that of the tracker of its transaction. -/
def InboundVote.IsMarkedUnder (m : InboundVote) (k : Key) : Prop :=
  k = (Key.finalizedInbound m.senderChain m.inboundHash m.eventIndex).folded ∨
    k = (Key.inboundTracker m.senderChain m.inboundHash).folded

/-- Whether a key is one under which a transaction is opened with a signing key: its own, or one
under which a nonce is reserved for it. -/
def InboundVote.IsOpenedUnder (m : InboundVote) (signingKey : String) (k : Key) : Prop :=
  k = .cctx m.digest ∨ Lane.IsReservedUnder ⟨signingKey, m.receiverChain⟩ k ∨
    Lane.IsReservedUnder ⟨signingKey, m.senderChain⟩ k

/-- Whether a key is one under which the attempt in flight of a transaction is settled: its own, one
under which a revert is reserved or the attempt released, or that of the mark of its migration if
there is one. -/
def Cctx.IsSettledUnder (c : Cctx) (named : Prop) (k : Key) : Prop :=
  k = .cctx c.index ∨ c.revertLane.IsReservedUnder k ∨ c.current.IsReleasedUnder k ∨
    named ∧ k = .fundMigration c.outbound.chainId

/-- Whether a key is one under which a transaction becomes another one by the deciding vote on its
attempt in flight: its own, one under which the attempt is released, one under which the revert is
reserved that is started, or that of the mark of its migration if there is one and the transaction
has ended. -/
def Cctx.IsRenewedUnder (c d : Cctx) (named : Prop) (k : Key) : Prop :=
  k = .cctx c.index ∨ c.current.IsReleasedUnder k ∨
    c.status = .pendingOutbound ∧ c.IsRevertedUnder d k ∨
    d.status.isTerminal = true ∧ named ∧ k = .fundMigration c.outbound.chainId

theorem InboundVote.IsMarkedUnder.isTransacted {m : InboundVote} {k : Key}
    (h : m.IsMarkedUnder k) : k.IsTransacted := by
  rcases h with rfl | rfl <;> trivial

theorem Lane.IsReservedUnder.isEntered {lane : Lane} {k : Key} (h : lane.IsReservedUnder k) :
    k.IsEntered := by
  rcases h with rfl | ⟨nonce, rfl⟩ <;> trivial

theorem Registry.VoteOutcome.IsFiledUnder.isPoll {outcome : VoteOutcome} {height : UInt64} {k : Key}
    (h : outcome.IsFiledUnder height k) : k.IsPoll := by
  rcases h with rfl | ⟨-, rfl⟩ <;> trivial

theorem InboundVote.IsOpenedUnder.isEntered {m : InboundVote} {signingKey : String} {k : Key}
    (h : m.IsOpenedUnder signingKey k) : k.IsEntered := by
  rcases h with rfl | hreceiver | hsender
  · trivial
  · exact hreceiver.isEntered
  · exact hsender.isEntered

theorem Attempt.IsAssignedUnder.isReservedUnder {a : Attempt} {k : Key}
    (h : a.IsAssignedUnder k) : a.lane.IsReservedUnder k :=
  h.imp_right fun ⟨nonce, _, hk⟩ => ⟨nonce, hk⟩

/-- A revert is reserved on its lane. -/
theorem Cctx.IsRevertedUnder.isReservedUnder {c d : Cctx} {k : Key} (h : c.IsRevertedUnder d k) :
    c.revertLane.IsReservedUnder k := by
  obtain ⟨r, hstarts, hassigned⟩ := h
  exact hstarts.lane_eq ▸ hassigned.isReservedUnder

theorem Cctx.IsRenewedUnder.isSettledUnder {c d : Cctx} {named : Prop} {k : Key}
    (h : c.IsRenewedUnder d named k) : c.IsSettledUnder named k := by
  rcases h with hown | hreleased | ⟨-, hreverted⟩ | ⟨-, hmarked⟩
  · exact .inl hown
  · exact .inr (.inr (.inl hreleased))
  · exact .inr (.inl hreverted.isReservedUnder)
  · exact .inr (.inr (.inr hmarked))

theorem Attempt.IsReleasedUnder.isEntered_or {a : Attempt} {k : Key} (h : a.IsReleasedUnder k) :
    k.IsEntered ∨ a.IsTrackedUnder k := by
  rcases h with rfl | htracked
  · exact .inl trivial
  · exact .inr htracked

namespace Key

variable {k : Key}

theorem IsGoverned.isAdministered (h : k.IsGoverned) : k.IsAdministered := by
  cases k <;> trivial

theorem IsPoll.isTransacted (h : k.IsPoll) : k.IsTransacted := by
  cases k <;> trivial

theorem IsEntered.isTransacted (h : k.IsEntered) : k.IsTransacted := by
  cases k <;> trivial

theorem isOutboundTracker_of_isTrackedUnder {a : Attempt} (h : a.IsTrackedUnder k) :
    k.IsOutboundTracker := by
  obtain ⟨nonce, -, rfl⟩ := h
  trivial

theorem of_isSettledUnder {c : Cctx} {named : Prop} (h : c.IsSettledUnder named k) :
    k.IsEntered ∨ k.IsOutboundTracker ∨ k.IsMigration := by
  rcases h with rfl | hreserved | hreleased | ⟨-, rfl⟩
  · exact .inl trivial
  · exact .inl hreserved.isEntered
  · exact hreleased.isEntered_or.imp_right fun htracked =>
      .inl (isOutboundTracker_of_isTrackedUnder htracked)
  · exact .inr (.inr trivial)

@[simp]
theorem folded_folded (k : Key) : k.folded.folded = k.folded := by
  cases k <;> simp [folded]

end Key

/-! ### Writes under some keys -/

section Stores

variable {σ γ : Type} [WritableStore σ] [LawfulStore σ] {s s' s'' : σ} {P W W' : Key → Prop}

/-- From the first store to the second, only what is under keys of some families changes, and what
is new under one of them is a record of its type. -/
def Touches {τ : Type} [WritableStore τ] [LawfulStore τ] (W : Key → Prop) (s : σ) (t : τ) : Prop :=
  ∀ bs, contents t bs = contents s bs ∨
    (∀ k : Key, k.bytes = bs → W k.folded) ∧ (contents t bs = none ∨
      ∃ (k : Key) (v : k.folded.Value), k.bytes = bs ∧ contents t bs = some (Record.encode v))

namespace Touches

theorem refl (s : σ) : Touches W s s :=
  fun _ => .inl rfl

theorem trans (h : Touches W s s') (h' : Touches W s' s'') : Touches W s s'' := by
  intro bs
  rcases h' bs with hsame' | hnew'
  · rw [hsame']
    exact h bs
  · exact .inr hnew'

theorem mono (h : Touches W s s') (hW : ∀ k : Key, W k → W' k) : Touches W' s s' :=
  fun bs => (h bs).imp id fun ⟨hkeys, hnew⟩ => ⟨fun k hk => hW _ (hkeys k hk), hnew⟩

/-- Only the contents matter. -/
theorem congr {τ υ : Type} [WritableStore τ] [LawfulStore τ] [WritableStore υ] [LawfulStore υ]
    {t : τ} {u : υ} (h : Touches W s s') (ht : contents t = contents s)
    (hu : contents u = contents s') : Touches W t u := by
  intro bs
  rw [ht, hu]
  exact h bs

/-- What is not among the keys is as it was. -/
theorem contents_eq (h : Touches W s s') {k : Key} (hk : ¬W k.folded) :
    contents s' k.bytes = contents s k.bytes :=
  (h k.bytes).resolve_right fun hnew => hk (hnew.1 k rfl)

/-- In a place that is no key nothing appears. -/
theorem contents_eq_none (h : Touches W s s') {bs : Bytes} (hbs : ∀ k : Key, k.bytes ≠ bs)
    (hnone : contents s bs = none) : contents s' bs = none := by
  rcases h bs with hsame | ⟨-, hremoved | ⟨k, v, hk, -⟩⟩
  · exact hsame.trans hnone
  · exact hremoved
  · exact absurd hk (hbs k)

end Touches

theorem touches_put (k : Key) (hk : W k.folded) {v : k.folded.Value}
    (h : putRecord s k.bytes v = .ok s') : Touches W s s' := by
  intro bs
  rw [contents_putRecord h]
  by_cases hbs : bs = k.bytes
  · subst hbs
    refine .inr ⟨fun j hj => ?_, .inr ⟨k, v, rfl, Function.update_self ..⟩⟩
    rwa [Key.bytes_eq_iff.1 hj]
  · exact .inl (Function.update_of_ne hbs ..)

/-- Bytes that are no key may be removed as well. -/
theorem touches_deleteBytes {bs : Bytes} (hbs : ∀ k : Key, k.bytes = bs → W k.folded)
    (h : deleteRecord s bs = .ok s') : Touches W s s' := by
  intro bs'
  rw [contents_deleteRecord h]
  by_cases heq : bs' = bs
  · subst heq
    exact .inr ⟨hbs, .inl (Function.update_self ..)⟩
  · exact .inl (Function.update_of_ne heq ..)

theorem touches_delete (k : Key) (hk : W k.folded) (h : deleteRecord s k.bytes = .ok s') :
    Touches W s s' :=
  touches_deleteBytes (fun j hj => by rwa [Key.bytes_eq_iff.1 hj]) h

/-! ### What is kept -/

/-- A value under one of two equal keys is one under the other, with the same record. -/
theorem exists_encode_eq {k j : Key} (h : k = j) (v : k.Value) :
    ∃ w : j.Value, Record.encode w = Record.encode v := by
  subst h
  exact ⟨v, rfl⟩

/-- **What is not written stays as it is.** -/
theorem Touches.keeps (h : Touches W s s') (hP : ∀ k, P k → ¬W k.folded) : Keeps P s s' := by
  intro l hl
  -- Under every key there is what was there before, or nothing, or a record of its type.
  have hnew (k : Key) : ∃ o : Option k.Value, k.folded = k →
      contents s' k.bytes = o.map Record.encode ∧ (¬W k → o = l k) := by
    rcases h k.bytes with hsame | ⟨hkeys, hnone | ⟨j, v, hj, hv⟩⟩
    · refine ⟨l k, fun hk => ⟨?_, fun _ => rfl⟩⟩
      have hheld := hl k
      rw [hk] at hheld
      rw [hsame, hheld]
    · exact ⟨none, fun hk => ⟨hnone, fun hW => absurd (hk ▸ hkeys k rfl) hW⟩⟩
    · by_cases hk : k.folded = k
      · obtain ⟨w, hw⟩ := exists_encode_eq ((Key.bytes_eq_iff.1 hj).trans hk) v
        exact ⟨some w, fun _ => ⟨by rw [hv, ← hw]; rfl, fun hW => absurd (hk ▸ hkeys k rfl) hW⟩⟩
      · exact ⟨none, fun heq => absurd heq hk⟩
  choose l' hl' using hnew
  refine ⟨l', fun k => ?_, fun k hk => (hl' k.folded k.folded_folded).2 (hP k hk)⟩
  rw [← (hl' k.folded k.folded_folded).1, Key.bytes_folded]

/-- What is written under other keys leaves the books as they are. -/
theorem Touches.keeps_booked (h : Touches W s s') (hW : ∀ k, W k → ¬k.IsBooked) :
    Keeps Key.IsBooked s s' :=
  h.keeps fun k hbooked hwritten => hW _ hwritten (k.isBooked_folded.2 hbooked)

/-! ### Governance -/

namespace Registry

theorem touches_setObserverSet {observers : ObserverSet}
    (h : setObserverSet s observers = .ok s') : Touches Key.IsAdministered s s' :=
  touches_put .observerSet trivial (storeError_lift_eq_ok_iff.1 h)

theorem touches_addObserver {id : ObserverId} (h : addObserver s id = .ok s') :
    Touches Key.IsAdministered s s' := by
  obtain ⟨observers, -, h⟩ := bind_eq_ok_iff.1 h
  split at h
  · simp at h
  · exact touches_setObserverSet h

theorem touches_replaceObserver {old new : ObserverId}
    (h : replaceObserver s old new = .ok s') : Touches Key.IsAdministered s s' := by
  obtain ⟨observers, -, h⟩ := bind_eq_ok_iff.1 h
  obtain ⟨-, h⟩ := guard_eq_ok_iff.1 h
  simp only at h
  split at h
  · simp at h
  · exact touches_setObserverSet h

theorem touches_setChainParams {params : ChainParams} (h : setChainParams s params = .ok s') :
    Touches Key.IsAdministered s s' := by
  obtain ⟨-, h⟩ := guard_eq_ok_iff.1 h
  exact touches_put (.chainParams params.chainId) trivial (storeError_lift_eq_ok_iff.1 h)

theorem touches_registerChain {chain : Chain} {params : ChainParams}
    (h : registerChain s chain params = .ok s') : Touches Key.IsAdministered s s' := by
  obtain ⟨stored, -, h⟩ := bind_eq_ok_iff.1 h
  obtain ⟨-, h⟩ := guard_eq_ok_iff.1 h
  obtain ⟨s₁, hchain, hparams⟩ := bind_eq_ok_iff.1 h
  have hset : Touches Key.IsAdministered s s₁ :=
    touches_put (.chain chain.chainId) trivial (storeError_lift_eq_ok_iff.1 hchain)
  exact hset.trans (touches_setChainParams hparams)

theorem touches_updateChainParams {params : ChainParams}
    (h : updateChainParams s params = .ok s') : Touches Key.IsAdministered s s' := by
  obtain ⟨stored, -, h⟩ := bind_eq_ok_iff.1 h
  obtain ⟨-, h⟩ := guard_eq_ok_iff.1 h
  exact touches_setChainParams h

theorem touches_setSwitches {switches : Switches} (h : setSwitches s switches = .ok s') :
    Touches Key.IsAdministered s s' :=
  touches_put .switches trivial (storeError_lift_eq_ok_iff.1 h)

theorem touches_setCurrentKey {key : SigningKey} (h : setCurrentKey s key = .ok s') :
    Touches Key.IsAdministered s s' :=
  touches_put .currentKey trivial (storeError_lift_eq_ok_iff.1 h)

theorem touches_registerKey {key : SigningKey} {makeCurrent : Bool}
    (h : registerKey s key makeCurrent = .ok s') : Touches Key.IsAdministered s s' := by
  obtain ⟨s₁, hkey, h⟩ := bind_eq_ok_iff.1 h
  obtain ⟨history, -, hkey⟩ := bind_eq_ok_iff.1 hkey
  obtain ⟨-, hkey⟩ := guard_eq_ok_iff.1 hkey
  have happended : Touches Key.IsAdministered s s₁ :=
    touches_put (.keyHistory key.keygenHeight key.pubkey) trivial
      (storeError_lift_eq_ok_iff.1 hkey)
  rcases ite_eq_ok_iff.1 h with ⟨-, h⟩ | ⟨-, h⟩
  · exact happended.trans (touches_setCurrentKey h)
  · cases h
    exact happended

theorem touches_activateKey {pubkey : String} (h : activateKey s pubkey = .ok s') :
    Touches Key.IsAdministered s s' := by
  obtain ⟨history, -, h⟩ := bind_eq_ok_iff.1 h
  split at h
  · simp at h
  · exact touches_setCurrentKey h

end Registry

/-! ### Ballots and nonces -/

namespace Registry

/-- A vote is entered on its ballot, which is created with its height entry if it is new. -/
theorem touches_castVote {policy : StalePolicy} {request : VoteRequest} {height : UInt64}
    {outcome : VoteOutcome} (h : castVote policy s request height = .ok (outcome, s')) :
    Touches (outcome.IsFiledUnder height) s s' := by
  obtain ⟨observers, chain, params, stored, hlinks⟩ := links_of_castVote h
  cases hlinks.ends with
  | late => exact .refl _
  | @opened after _ _ _ _ hentry hset =>
    exact (touches_put (.ballotByHeight height after.index) (.inr ⟨rfl, rfl⟩)
      (storeError_lift_eq_ok_iff.1 hentry)).trans
      (touches_put (.ballot after.index) (.inl rfl) (storeError_lift_eq_ok_iff.1 hset))
  | @counted _ after _ _ _ _ hset =>
    exact touches_put (.ballot after.index) (.inl rfl) (storeError_lift_eq_ok_iff.1 hset)

theorem Removes.touches (h : Removes s s') : Touches Key.IsPoll s s' := by
  cases h with
  | ballot h => exact touches_delete (.ballot _) trivial h
  | entry hbs h =>
    refine touches_deleteBytes (fun k heq => ?_) h
    obtain ⟨height, index, rfl⟩ := KeyRange.exists_ballotByHeight (heq ▸ hbs)
    trivial

theorem touches_of_removes (h : Relation.ReflTransGen Removes s s') : Touches Key.IsPoll s s' := by
  induction h with
  | refl => exact .refl _
  | tail _ hremoves ih => exact ih.trans hremoves.touches

theorem touches_pruneBallots {maxHeight : UInt64} {n : Nat}
    (h : pruneBallots s maxHeight = .ok (n, s')) : Touches Key.IsPoll s s' :=
  touches_of_removes (removes_of_pruneBallots h)

theorem touches_reserveNonce {signingKey : String} {chainId : ChainId} {nonce : UInt64}
    (h : reserveNonce s signingKey chainId = .ok (nonce, s')) :
    Touches (· = .nonces signingKey chainId) s s' := by
  obtain ⟨stored, -, h⟩ := bind_eq_ok_iff.1 h
  obtain ⟨s₁, hput, h⟩ := bind_eq_ok_iff.1 h
  cases h
  exact touches_put (.nonces signingKey chainId) rfl (storeError_lift_eq_ok_iff.1 hput)

theorem touches_releaseNonce {signingKey : String} {chainId : ChainId} {nonce : UInt64}
    (h : releaseNonce s signingKey chainId nonce = .ok s') :
    Touches (· = .nonces signingKey chainId) s s' := by
  obtain ⟨stored, -, h⟩ := bind_eq_ok_iff.1 h
  split at h
  · split at h
    · simp at h
    · rcases ite_eq_ok_iff.1 h with ⟨-, h⟩ | ⟨-, h⟩
      · exact touches_put (.nonces signingKey chainId) rfl (storeError_lift_eq_ok_iff.1 h)
      · cases h
        exact .refl _
  · cases h
    exact .refl _

end Registry

/-! ### The steps of a transition -/

namespace Progress

variable {p p₁ p' : Progress σ} {block : Block} {message : String}

/-- A transition goes on with the same transaction, whose first attempt stays on its lane, and
writes under some keys only. -/
structure Writes (W : Key → Prop) (p p' : Progress σ) : Prop where
  index_eq : p'.cctx.index = p.cctx.index
  lane_eq : p'.cctx.outbound.lane = p.cctx.outbound.lane
  touches : Touches W p.store p'.store

theorem Writes.trans (h : Writes W p p₁) (h' : Writes W p₁ p') : Writes W p p' :=
  ⟨h'.index_eq.trans h.index_eq, h'.lane_eq.trans h.lane_eq, h.touches.trans h'.touches⟩

theorem Writes.mono (h : Writes W p p') (hW : ∀ k : Key, W k → W' k) : Writes W' p p' :=
  ⟨h.index_eq, h.lane_eq, h.touches.mono hW⟩

/-- A change of state writes nothing. -/
theorem writes_advance {next : CctxStatus} (h : p.advance next message block = .ok p') :
    Writes W p p' := by
  obtain ⟨hstore, report, -, hcctx⟩ := eq_of_advance h
  refine ⟨by rw [hcctx], by rw [hcctx], ?_⟩
  rw [hstore]
  exact .refl _

/-- The attempt in flight may change if it stays on its lane. -/
theorem writes_updateCurrent (f : Attempt → Attempt) (hf : ∀ a : Attempt, (f a).lane = a.lane)
    (effects : Effects) : Writes W p ⟨p.store, p.cctx.updateCurrent f, effects⟩ :=
  ⟨p.cctx.index_updateCurrent f, Cctx.lane_outbound_updateCurrent hf, .refl _⟩

theorem writes_abort (h : p.abort message block = .ok p') : Writes W p p' :=
  (writes_updateCurrent .execute (fun _ => rfl) p.effects).trans (writes_advance h)

/-- A nonce is reserved for the attempt in flight. -/
theorem writes_assignNonce (h : p.assignNonce = .ok p') :
    Writes p'.cctx.current.IsAssignedUnder p p' := by
  obtain ⟨⟨nonce, s₁⟩, hreserve, h⟩ := bind_eq_ok_iff.1 h
  obtain ⟨s₂, hset, h⟩ := bind_eq_ok_iff.1 h
  cases h
  let a : Attempt := { p.cctx.current with nonce := some nonce }
  have hnonces : Touches a.IsAssignedUnder p.store s₁ :=
    (Registry.touches_reserveNonce (registryError_lift_eq_ok_iff.1 hreserve)).mono fun _ => .inl
  have howner : Touches a.IsAssignedUnder s₁ s₂ :=
    touches_put (.nonceOwner _ _ _) (.inr ⟨nonce, rfl, rfl⟩)
      (storeError_lift_eq_ok_iff.1 (registryError_lift_eq_ok_iff.1 hset))
  refine ⟨p.cctx.index_updateCurrent _, Cctx.lane_outbound_updateCurrent fun _ => rfl, ?_⟩
  rw [Progress.emit, Cctx.setNonce, Cctx.current_updateCurrent]
  exact hnonces.trans howner

/-- A nonce is assigned, and the state changes with it. -/
theorem writes_send {next : CctxStatus}
    (h : (do let p ← p.assignNonce; p.advance next message block) = .ok p') :
    Writes p.cctx.current.lane.IsReservedUnder p p' := by
  obtain ⟨p₁, hassign, hadvance⟩ := bind_eq_ok_iff.1 h
  obtain ⟨nonce, hcctx⟩ := exists_nonce_of_assignNonce hassign
  have hlane : p₁.cctx.current.lane = p.cctx.current.lane := by
    rw [hcctx, Cctx.setNonce, Cctx.current_updateCurrent]
    rfl
  exact ((writes_assignNonce hassign).mono fun _ hk => hlane ▸ hk.isReservedUnder).trans
    (writes_advance hadvance)

/-- A revert is started, and a nonce is reserved for it. -/
theorem writes_revert {c : Cctx} {gasLimit : UInt64}
    (hrevert : p.cctx.addRevert gasLimit = .ok c)
    (h : (do let p ← { p with cctx := c }.assignNonce; p.advance .pendingRevert message block)
      = .ok p') : Writes (p.cctx.IsRevertedUnder p'.cctx) p p' := by
  obtain ⟨hnone, rfl⟩ := Cctx.eq_of_addRevert hrevert
  obtain ⟨p₁, hassign, hadvance⟩ := bind_eq_ok_iff.1 h
  obtain ⟨nonce, hcctx⟩ := exists_nonce_of_assignNonce hassign
  have hwrites := (writes_assignNonce hassign).trans (writes_advance hadvance)
  obtain ⟨-, report, hreport, hcctx'⟩ := eq_of_advance hadvance
  refine ⟨hwrites.index_eq, hwrites.lane_eq, hwrites.touches.mono fun k hk => ?_⟩
  rw [hcctx] at hk hcctx'
  rw [hcctx']
  exact ⟨_, ⟨hnone, hreport, rfl, rfl⟩, hk⟩

theorem touches_save (h : p.save = .ok p') :
    Touches (· = .cctx p.cctx.index) p.store p'.store := by
  obtain ⟨_, -, h⟩ := bind_eq_ok_iff.1 h
  obtain ⟨s₁, hset, h⟩ := bind_eq_ok_iff.1 h
  cases h
  exact touches_put (.cctx p.cctx.index) rfl (storeError_lift_settlement_eq_ok_iff.1 hset)

end Progress

/-! ### Transitions of the settlement -/

namespace Journal

variable {p p' : Progress σ} {policy : StalePolicy} {config : SettlementConfig} {block : Block}
  {receipt receipt' : VoteReceipt} {effects : Effects}

theorem touches_finish (h : finish receipt p = .ok (receipt', s', effects)) :
    Touches (· = .cctx p.cctx.index) p.store s' := by
  obtain ⟨p₁, hsave, h⟩ := bind_eq_ok_iff.1 h
  cases h
  exact Progress.touches_save hsave

/-- Marking an event and removing the tracker of its transaction writes under their two keys. -/
theorem touches_marked {m : InboundVote} {s₁ s₂ s₃ : σ}
    (hmarked : setFinalized s₁ ⟨m.senderChain, m.inboundHash, m.eventIndex, block.height⟩ = .ok s₂)
    (hremoved : removeInboundTracker s₂ m.senderChain m.inboundHash = .ok s₃) :
    Touches m.IsMarkedUnder s₁ s₃ := by
  have hmarked : Touches m.IsMarkedUnder s₁ s₂ :=
    touches_put (.finalizedInbound _ _ _) (.inl rfl)
      (storeError_lift_settlement_eq_ok_iff.1 hmarked)
  exact hmarked.trans (touches_delete (.inboundTracker _ _) (.inr rfl)
    (storeError_lift_settlement_eq_ok_iff.1 hremoved))

theorem writes_startRevert {message : String}
    (h : startRevert config p message block = .ok p') :
    p.Writes p.cctx.revertLane.IsReservedUnder p' := by
  rw [startRevert] at h
  split at h
  · exact Progress.writes_abort h
  · next c hrevert =>
    exact (Progress.writes_revert hrevert h).mono fun _ hk => hk.isReservedUnder

theorem writes_settleDeposit {d : Destination} {answer : DepositAnswer}
    (h : settleDeposit config p d answer block = .ok p') :
    p.Writes (fun k => p.cctx.current.lane.IsReservedUnder k ∨ p.cctx.revertLane.IsReservedUnder k)
      p' := by
  rw [settleDeposit.eq_def] at h
  split at h
  · rcases ite_eq_ok_iff.1 h with ⟨-, h⟩ | ⟨-, h⟩
    · obtain ⟨hindex, hlane, htouches⟩ := Progress.writes_advance h
      exact ⟨hindex, hlane, htouches⟩
    · exact (Progress.writes_send h).mono fun _ => .inl
  · rcases ite_eq_ok_iff.1 h with ⟨-, h⟩ | ⟨-, h⟩
    · exact (writes_startRevert h).mono fun _ => .inr
    · exact Progress.writes_abort h

/-- Whatever the gateway answers, a deposit reserves a nonce at most. -/
theorem writes_deposit [Gateway γ] {g : γ} (h : (deposit config g p block).1 = .ok p') :
    p.Writes (fun k => p.cctx.current.lane.IsReservedUnder k ∨ p.cctx.revertLane.IsReservedUnder k)
      p' := by
  rw [deposit] at h
  split at h
  · exact Progress.writes_abort h
  · exact writes_settleDeposit h

/-- The links of a vote that is accepted: the vote is cast, and if it is the deciding one, its event
is marked and the tracker of its transaction removed, before a transaction may be entered. -/
theorem links_of_voteInbound [Gateway γ] {g g' : γ} {m : InboundVote}
    (h : voteInbound policy config g s block m = (.ok (receipt, s', effects), g')) :
    ∃ outcome s₁, Registry.castVote policy s
        ⟨m.digest, .inbound, m.senderChain, m.creator, .yes⟩ block.height = .ok (outcome, s₁) ∧
      receipt.finalized = outcome.finalized ∧
      (outcome.finalized = false ∧ s' = s₁ ∨ outcome.finalized = true ∧
        ∃ (signingKey : String) (s₂ s₃ : σ),
          setFinalized s₁ ⟨m.senderChain, m.inboundHash, m.eventIndex, block.height⟩ = .ok s₂ ∧
          removeInboundTracker s₂ m.senderChain m.inboundHash = .ok s₃ ∧
          Touches (m.IsOpenedUnder signingKey) s₃ s') := by
  obtain ⟨hintake, -⟩ | ⟨receipt₀, p, p', hintake, hdeposit, hfinish⟩ := intake_of_voteInbound h
  · obtain ⟨key, outcome, s₁, hlinks⟩ := links_of_intake hintake
    refine ⟨outcome, s₁, hlinks.cast_eq, ?_⟩
    cases hlinks.ends with
    | pending hpending => exact ⟨rfl, .inl ⟨hpending, rfl⟩⟩
    | failed hdecided hmarked hremoved =>
      exact ⟨rfl, .inr ⟨hdecided, key.pubkey, _, _, hmarked, hremoved, .refl _⟩⟩
  · obtain ⟨key, outcome, s₁, hlinks⟩ := links_of_intake hintake
    refine ⟨outcome, s₁, hlinks.cast_eq, ?_⟩
    cases hlinks.ends with
    | opened hdecided hmarked hremoved =>
      have htells : VoteReceipt.Tells
          ⟨m.digest, outcome.isNew, outcome.finalized, none, none⟩ outcome := ⟨rfl, rfl⟩
      have hwrites := writes_deposit (congrArg Prod.fst hdeposit)
      refine ⟨(tells_of_finish htells hfinish).1.finalized_eq, .inr ⟨hdecided, key.pubkey, _, _,
        hmarked, hremoved, (hwrites.touches.mono fun _ => .inr).trans ?_⟩⟩
      exact (touches_finish hfinish).mono fun _ hk =>
        .inl (hk.trans (congrArg Key.cctx hwrites.index_eq))

theorem touches_voteInbound [Gateway γ] {g g' : γ} {m : InboundVote}
    (h : voteInbound policy config g s block m = (.ok (receipt, s', effects), g')) :
    Touches Key.IsTransacted s s' := by
  obtain ⟨outcome, s₁, hcast, -, hends⟩ := links_of_voteInbound h
  have hvote : Touches Key.IsTransacted s s₁ :=
    (Registry.touches_castVote hcast).mono fun _ hk => hk.isPoll.isTransacted
  rcases hends with ⟨-, rfl⟩ | ⟨-, signingKey, s₂, s₃, hmarked, hremoved, hopened⟩
  · exact hvote
  · exact hvote.trans (((touches_marked hmarked hremoved).mono fun _ hk => hk.isTransacted).trans
      (hopened.mono fun _ hk => hk.isEntered.isTransacted))

/-- Settling an attempt writes nothing, unless a revert follows the first attempt. -/
theorem writes_settle {ballot : Ballot} (h : settle config p ballot block = .ok p') :
    p.Writes (fun k => p.cctx.status = .pendingOutbound ∧ p.cctx.IsRevertedUnder p'.cctx k)
      p' := by
  rw [settle] at h
  split at h
  · rw [settleSuccess] at h
    rcases ite_eq_ok_iff.1 h with ⟨-, h⟩ | ⟨-, h⟩
    · exact (Progress.writes_updateCurrent .execute (fun _ => rfl) _).trans
        (Progress.writes_advance h)
    · exact (Progress.writes_updateCurrent .execute (fun _ => rfl) _).trans
        (Progress.writes_advance h)
  · rw [settleFailure] at h
    split at h
    · next hstatus =>
      rcases ite_eq_ok_iff.1 h with ⟨-, h⟩ | ⟨-, h⟩
      · exact Progress.writes_abort h
      · split at h
        · exact Progress.writes_abort h
        · next c hrevert =>
          exact (Progress.writes_revert hrevert h).mono fun _ hk => ⟨hstatus, hk⟩
    · exact Progress.writes_abort h
    · cases h
  · cases h

/-- Releasing an attempt concerns its nonce and its tracker. -/
theorem touches_releaseAttempt {attempt : Attempt} (h : releaseAttempt s attempt = .ok s') :
    Touches attempt.IsReleasedUnder s s' := by
  rw [releaseAttempt] at h
  split at h
  · cases h
    exact .refl _
  · next nonce hnonce =>
    obtain ⟨s₁, hrelease, h⟩ := bind_eq_ok_iff.1 h
    exact ((Registry.touches_releaseNonce (registryError_lift_eq_ok_iff.1 hrelease)).mono
      fun _ => .inl).trans (touches_delete (.outboundTracker _ _ _) (.inr ⟨nonce, hnonce, rfl⟩)
        (storeError_lift_settlement_eq_ok_iff.1 h))

/-- The mark that is held for a chain names a transaction. -/
def MarkNames (s : σ) (chainId : ChainId) (index : Digest) : Prop :=
  ∃ held migration, contents s (Key.fundMigration chainId).bytes = some held ∧
    Record.decode held = .ok migration ∧ FundMigration.cctxIndex migration = index

/-- Only a mark that names the transaction is cleared, once the transaction has ended. -/
theorem touches_clearMigration {c : Cctx} (h : clearMigration s c = .ok s') :
    Touches (fun k => c.status.isTerminal = true ∧ MarkNames s c.outbound.chainId c.index ∧
      k = .fundMigration c.outbound.chainId) s s' := by
  rcases ite_eq_ok_iff.1 h with ⟨-, h⟩ | ⟨hterminal, h⟩
  · cases h
    exact .refl _
  · obtain ⟨stored, hstored, h⟩ := bind_eq_ok_iff.1 h
    split at h
    · cases h
      exact .refl _
    · rcases ite_eq_ok_iff.1 h with ⟨hnamed, h⟩ | ⟨-, h⟩
      · obtain ⟨bs, hheld, hdecode⟩ := exists_of_getRecord
          (storeError_lift_eq_ok_iff.1 (registryError_lift_eq_ok_iff.1 hstored))
        exact touches_delete (.fundMigration _)
          ⟨by simpa using hterminal, ⟨bs, _, hheld, hdecode, hnamed⟩, rfl⟩
          (storeError_lift_eq_ok_iff.1 (registryError_lift_eq_ok_iff.1 h))
      · cases h
        exact .refl _

/-- The transaction is stored as it is then. -/
theorem contents_of_finish (h : finish receipt p = .ok (receipt', s', effects)) :
    contents s' (Key.cctx p.cctx.index).bytes = some (Record.encode p.cctx) := by
  obtain ⟨p₁, hsave, h⟩ := bind_eq_ok_iff.1 h
  cases h
  obtain ⟨s₁, hset, rfl⟩ := Progress.eq_of_save hsave
  rw [contents_putRecord (storeError_lift_settlement_eq_ok_iff.1 hset)]
  exact Function.update_self ..

/-- The tracker of a settled attempt is removed, and what comes after that is not about trackers. -/
theorem contents_of_released {attempt : Attempt} {s₁ s₂ s₃ : σ}
    (hrelease : releaseAttempt s₁ attempt = .ok s₂) (hclear : clearMigration s₂ p.cctx = .ok s₃)
    (hfinish : finish receipt { p with store := s₃ } = .ok (receipt', s', effects)) {k : Key}
    (hk : attempt.IsTrackedUnder k) : contents s' k.bytes = none := by
  obtain ⟨nonce, hnonce, rfl⟩ := hk
  rw [releaseAttempt, hnonce] at hrelease
  obtain ⟨s₀, -, hremove⟩ := bind_eq_ok_iff.1 hrelease
  rw [(touches_finish hfinish).contents_eq (k := .outboundTracker _ _ _) (by rintro ⟨⟩),
    (touches_clearMigration hclear).contents_eq (k := .outboundTracker _ _ _)
      (by rintro ⟨-, -, ⟨⟩⟩),
    contents_deleteRecord (storeError_lift_settlement_eq_ok_iff.1 hremove)]
  exact Function.update_self ..

/-- What was observed of an attempt leaves the lanes of the transaction alone. -/
theorem lanes_of_observe {c c₁ : Cctx} {m : OutboundVote} {status : BallotStatus}
    (h : (c.updateCurrent fun a => { a with ballotIndex := some m.digest }).observe m status
      = .ok c₁) :
    c₁.index = c.index ∧ c₁.outbound.lane = c.outbound.lane ∧ c₁.revertLane = c.revertLane := by
  obtain ⟨rfl, -⟩ := eq_of_observe h
  rw [Cctx.updateCurrent_updateCurrent]
  have hlane := c.lane_outbound_updateCurrent
    (f := Cctx.observed m ∘ fun a => { a with ballotIndex := some m.digest }) fun _ => rfl
  refine ⟨c.index_updateCurrent _, hlane, ?_⟩
  rw [Cctx.revertLane, Cctx.revertLane, c.inbound_updateCurrent]
  exact congrArg (Lane.mk · c.inbound.senderChain) (congrArg Lane.signingKey hlane)

/-- What was observed of an attempt does not matter for the revert that follows it. -/
theorem isRevertedUnder_of_observe {c c₁ d : Cctx} {m : OutboundVote} {status : BallotStatus}
    (h : (c.updateCurrent fun a => { a with ballotIndex := some m.digest }).observe m status
      = .ok c₁) {k : Key} (hk : c₁.status = .pendingOutbound ∧ c₁.IsRevertedUnder d k) :
    c.status = .pendingOutbound ∧ c.IsRevertedUnder d k := by
  obtain ⟨hstatus, r, hstarts, hassigned⟩ := hk
  obtain ⟨-, -, hlane⟩ := lanes_of_observe h
  obtain ⟨rfl, -⟩ := eq_of_observe h
  rw [Cctx.updateCurrent_updateCurrent] at hstatus hstarts hlane
  rw [Cctx.status_updateCurrent] at hstatus
  have hnone : c.revert = none := by
    have hreverting := congrArg Option.isSome hstarts.unreverted
    exact Option.isNone_iff_eq_none.1
      (Option.isSome_eq_false_iff.1 ((c.isReverting_updateCurrent _).symm.trans hreverting))
  exact ⟨hstatus, r, ⟨hnone, hstarts.status_eq, hstarts.revert_eq, hstarts.lane_eq.trans hlane⟩,
    hassigned⟩

/-- **A vote is cast, and if it is the deciding one, the transaction becomes another one**, under
the keys that belong to this step. The tracker of the attempt that was in flight is gone then. -/
theorem touches_renewed_of_voteOutbound {m : OutboundVote}
    (h : voteOutbound policy config s block m = .ok (receipt, s', effects)) :
    ∃ c outcome s₁, cctx? s m.cctxIndex = .ok (some c) ∧ checkAttempt c m = .ok () ∧
      Registry.castVote policy s
        ⟨m.digest, .outbound, m.chainId, m.creator, m.vote⟩ block.height = .ok (outcome, s₁) ∧
      receipt.Tells outcome ∧
      (outcome.finalized = false ∧ s' = s₁ ∨ outcome.finalized = true ∧
        ∃ d : Cctx, contents s' (Key.cctx c.index).bytes = some (Record.encode d) ∧
          (∀ k, c.current.IsTrackedUnder k → contents s' k.bytes = none) ∧
          Touches (c.IsRenewedUnder d (MarkNames s c.outbound.chainId c.index)) s₁ s') := by
  obtain ⟨c, outcome, s₁, hstored, hcheck, hcast, hlinks⟩ := links_of_voteOutbound h
  refine ⟨c, outcome, s₁, hstored, hcheck, hcast, ?_⟩
  rcases hlinks with ⟨hpending, rfl, htells, -⟩ |
    ⟨hfinalized, c₁, p, s₂, s₃, receipt₁, hobserve, hsettle, hrelease, hclear, htells, hfinish⟩
  · exact ⟨htells, .inl ⟨hpending, rfl⟩⟩
  obtain ⟨hindex, hlane, -⟩ := lanes_of_observe hobserve
  have hwrites := writes_settle hsettle
  have hreleased := touches_releaseAttempt hrelease
  have hcleared := touches_clearMigration hclear
  have hchain : p.cctx.outbound.chainId = c.outbound.chainId :=
    congrArg Lane.chainId (hwrites.lane_eq.trans hlane)
  have hown : p.cctx.index = c.index := hwrites.index_eq.trans hindex
  have hheld := contents_of_finish hfinish
  refine ⟨(tells_of_finish htells hfinish).1, .inr ⟨hfinalized, p.cctx, hown ▸ hheld,
    fun _ => contents_of_released hrelease hclear hfinish, ?_⟩⟩
  rw [hchain, hown] at hcleared
  -- The marks are as they were before the vote until one of them may be cleared.
  have hmark : contents s₂ (Key.fundMigration c.outbound.chainId).bytes
      = contents s (Key.fundMigration c.outbound.chainId).bytes := by
    rw [hreleased.contents_eq (k := .fundMigration _) fun hk =>
        Key.isOutboundTracker_of_isTrackedUnder (hk.isEntered_or.resolve_left id),
      hwrites.touches.contents_eq (k := .fundMigration _) fun hk =>
        hk.2.isReservedUnder.isEntered,
      (Registry.touches_castVote hcast).contents_eq (k := .fundMigration _) fun hk => hk.isPoll]
  rw [MarkNames, hmark] at hcleared
  have hsettled : Touches (c.IsRenewedUnder p.cctx (MarkNames s c.outbound.chainId c.index))
      s₁ s₃ :=
    ((hwrites.touches.mono fun _ hk =>
        .inr (.inr (.inl (isRevertedUnder_of_observe hobserve hk)))).trans
      (hreleased.mono fun _ hk => .inr (.inl hk))).trans
      (hcleared.mono fun _ hk => .inr (.inr (.inr hk)))
  exact hsettled.trans
    ((touches_finish hfinish).mono fun _ hk => .inl (hk.trans (congrArg Key.cctx hown)))

/-- A vote is cast, and what comes after that is about the transaction and what it had. -/
theorem touches_settled_of_voteOutbound {m : OutboundVote}
    (h : voteOutbound policy config s block m = .ok (receipt, s', effects)) :
    ∃ c outcome s₁, cctx? s m.cctxIndex = .ok (some c) ∧ Registry.castVote policy s
        ⟨m.digest, .outbound, m.chainId, m.creator, m.vote⟩ block.height = .ok (outcome, s₁) ∧
      Touches (c.IsSettledUnder (MarkNames s c.outbound.chainId c.index)) s₁ s' := by
  obtain ⟨c, outcome, s₁, hstored, -, hcast, -, hends⟩ := touches_renewed_of_voteOutbound h
  refine ⟨c, outcome, s₁, hstored, hcast, ?_⟩
  rcases hends with ⟨-, rfl⟩ | ⟨-, d, -, -, hrenewed⟩
  · exact .refl _
  · exact hrenewed.mono fun _ hk => hk.isSettledUnder

theorem touches_voteOutbound {m : OutboundVote}
    (h : voteOutbound policy config s block m = .ok (receipt, s', effects)) :
    Touches (fun k => (k.IsPoll ∨ k.IsEntered) ∨ k.IsOutboundTracker ∨ k.IsMigration) s s' := by
  obtain ⟨c, outcome, s₁, -, hcast, hsettled⟩ := touches_settled_of_voteOutbound h
  exact ((Registry.touches_castVote hcast).mono fun _ hk => .inl (.inl hk.isPoll)).trans
    (hsettled.mono fun _ hk => (Key.of_isSettledUnder hk).imp_left .inr)

/-- Until the chain is marked, a migration enters its transaction. -/
theorem MigrationLinks.touches {chainId : ChainId} {amount : U256} {index : Digest}
    {current newer : SigningKey} {p₁ p₂ p₃ : Progress σ}
    (h : MigrationLinks config s block chainId amount current newer index p₁ p₂ p₃ s' effects) :
    Touches Key.IsEntered s p₃.store := by
  obtain ⟨chain, hassign⟩ := h.assigned
  obtain ⟨message, -, hadvance⟩ := h.advanced
  have hsent := (Progress.writes_assignNonce hassign).trans (Progress.writes_advance hadvance)
  exact (hsent.touches.mono fun _ hk => hk.isReservedUnder.isEntered).trans
    ((Progress.touches_save h.saved).mono fun _ hk => hk ▸ trivial)

theorem touches_migrateFunds {chainId : ChainId} {amount : U256} {index : Digest}
    (h : migrateFunds config s block chainId amount = .ok (index, s', effects)) :
    Touches (fun k => k.IsEntered ∨ k.IsMigration) s s' := by
  obtain ⟨current, newer, p₁, p₂, p₃, hlinks⟩ := links_of_migrateFunds h
  have hmarked : Touches Key.IsMigration p₃.store s' :=
    touches_put (.fundMigration _) trivial (storeError_lift_eq_ok_iff.1 hlinks.marked)
  exact (hlinks.touches.mono fun _ => .inl).trans (hmarked.mono fun _ => .inr)

theorem touches_addInboundTracker {m : InboundHashReport}
    (h : addInboundTracker s m = .ok s') : Touches Key.IsInboundTracker s s' :=
  touches_put (.inboundTracker m.chainId m.txHash) trivial
    (storeError_lift_settlement_eq_ok_iff.1 (set_of_addInboundTracker h))

theorem touches_addOutboundTracker {m : OutboundHashReport}
    (h : addOutboundTracker config s m = .ok s') : Touches Key.IsOutboundTracker s s' := by
  obtain ⟨_, _, hlinks⟩ := links_of_addOutboundTracker h
  rcases hlinks.entered with rfl | ⟨-, -, hset⟩
  · exact .refl _
  · exact touches_put (.outboundTracker _ _ _) trivial
      (storeError_lift_settlement_eq_ok_iff.1 hset)

end Journal

/-! ### Marks of fund migrations -/

/-- The marks of fund migrations in a ledger. -/
def Ledger.migrations (l : Ledger) : ChainId → Option FundMigration :=
  fun chainId => l (.fundMigration chainId)

/-- The store holds these marks of fund migrations. -/
def Marks (s : σ) (marks : ChainId → Option FundMigration) : Prop :=
  ∀ chainId, contents s (Key.fundMigration chainId).bytes
    = (marks chainId).map Record.encode

section Marks

variable {held : ChainId → Option FundMigration} {chainId : ChainId}

/-- Only the contents matter. -/
theorem Marks.congr {τ : Type} [WritableStore τ] [LawfulStore τ] {t : τ} (h : Marks s held)
    (ht : contents t = contents s) : Marks t held := fun chainId => by
  rw [ht]
  exact h chainId

theorem Records.marks {l : Ledger} (h : Records s l) : Marks s l.migrations :=
  fun chainId => h (.fundMigration chainId)

theorem Touches.marks (h : Touches W s s') (hW : ∀ chainId, ¬W (.fundMigration chainId))
    (hmarks : Marks s held) : Marks s' held := fun chainId => by
  rw [h.contents_eq (k := .fundMigration chainId) (hW chainId)]
  exact hmarks chainId

/-- A mark has no lengths, so that it can always be read. -/
theorem Registry.eq_of_fundMigration? (h : Marks s held) {stored : Option FundMigration}
    (hstored : fundMigration? s chainId = .ok stored) : stored = held chainId :=
  getRecord_of_contents (h chainId)
    (fun migration _ => (⟨trivial, trivial, trivial⟩ : Fits migration))
    (storeError_lift_eq_ok_iff.1 hstored)

/-- A mark that names a transaction is one of those that are held. -/
theorem Marks.exists_of_markNames (h : Marks s held) {index : Digest}
    (hnames : Journal.MarkNames s chainId index) :
    ∃ f, held chainId = some f ∧ f.cctxIndex = index := by
  obtain ⟨bs, migration, hbs, hdecode, hindex⟩ := hnames
  obtain ⟨f, hf, rfl⟩ := Option.map_eq_some_iff.1 ((h chainId).symm.trans hbs)
  rw [Record.decode_encode (⟨trivial, trivial, trivial⟩ : Fits f)] at hdecode
  cases hdecode
  exact ⟨migration, hf, hindex⟩

theorem Key.fundMigration_bytes_ne {c d : ChainId} (h : c ≠ d) :
    (Key.fundMigration c).bytes ≠ (Key.fundMigration d).bytes := fun hbytes =>
  h (Key.fundMigration.inj ((Key.bytes_eq_iff (k := .fundMigration c)).1 hbytes))

/-- Where one mark is written or removed, the others stay. -/
theorem Marks.update (h : Marks s held) {o : Option FundMigration}
    (hcontents : contents s' = Function.update (contents s) (Key.fundMigration chainId).bytes
      (o.map Record.encode)) : Marks s' (Function.update held chainId o) := by
  intro d
  rw [hcontents]
  rcases eq_or_ne d chainId with rfl | hne
  · rw [Function.update_self, Function.update_self]
  · rw [Function.update_of_ne (Key.fundMigration_bytes_ne hne), Function.update_of_ne hne]
    exact h d

theorem Registry.marks_setFundMigration (h : Marks s held) {migration : FundMigration}
    (hset : setFundMigration s migration = .ok s') :
    Marks s' (Function.update held migration.chainId (some migration)) :=
  h.update (contents_putRecord (storeError_lift_eq_ok_iff.1 hset))

theorem Registry.marks_removeFundMigration (h : Marks s held)
    (hremove : removeFundMigration s chainId = .ok s') :
    Marks s' (Function.update held chainId none) :=
  h.update (contents_deleteRecord (storeError_lift_eq_ok_iff.1 hremove))

/-- The marks once a transaction has changed its state: when it has ended, it takes the mark that
names it with it. -/
def Cctx.clear (c : Cctx) (marks : ChainId → Option FundMigration) :
    ChainId → Option FundMigration :=
  if c.status.isTerminal = true ∧
      (marks c.outbound.chainId).map FundMigration.cctxIndex = some c.index then
    Function.update marks c.outbound.chainId none
  else marks

/-- What has ended takes no other mark with it, and adds none. -/
theorem Cctx.eq_of_clear {c : Cctx} {f : FundMigration} (h : c.clear held chainId = some f) :
    held chainId = some f := by
  rw [clear] at h
  split at h
  · rw [Function.update_apply] at h
    split at h
    · cases h
    · exact h
  · exact h

theorem Journal.marks_clearMigration (h : Marks s held) {c : Cctx}
    (hclear : clearMigration s c = .ok s') : Marks s' (c.clear held) := by
  rw [Cctx.clear]
  rcases ite_eq_ok_iff.1 hclear with ⟨hopen, hclear⟩ | ⟨hterminal, hclear⟩
  · cases hclear
    rwa [if_neg fun hboth => by simp [hboth.1] at hopen]
  obtain ⟨stored, hstored, hclear⟩ := bind_eq_ok_iff.1 hclear
  rw [← Registry.eq_of_fundMigration? h (registryError_lift_eq_ok_iff.1 hstored)]
  split at hclear
  · cases hclear
    rwa [if_neg (by simp)]
  · next migration _ =>
    rcases ite_eq_ok_iff.1 hclear with ⟨hnamed, hclear⟩ | ⟨hother, hclear⟩
    · rw [if_pos ⟨by simpa using hterminal, congrArg some hnamed⟩]
      exact Registry.marks_removeFundMigration h (registryError_lift_eq_ok_iff.1 hclear)
    · cases hclear
      rwa [if_neg fun hboth => hother (Option.some.inj hboth.2)]

end Marks

end Stores

/-! ### The committed store -/

/-- What is not written reads as before. -/
theorem Touches.ledger_eq {b b' : Backend} {W : Key → Prop} (h : Touches W b b') {k : Key}
    (hk : ¬W k.folded) : b'.ledger k.folded = b.ledger k.folded := by
  have hsame : b'.entries.find? k.bytes = b.entries.find? k.bytes := h.contents_eq hk
  rw [Backend.ledger, Backend.ledger, Key.bytes_folded, hsame]

/-- The marks that a store holds are those of its ledger. -/
theorem Marks.ledger {b : Backend} {marks : ChainId → Option FundMigration} (h : Marks b marks) :
    b.ledger.migrations = marks := by
  funext chainId
  have hheld : b.entries.find? (Key.fundMigration chainId).bytes
    = (marks chainId).map Record.encode := h chainId
  rw [Ledger.migrations, Backend.ledger, hheld]
  cases marks chainId with
  | none => rfl
  | some migration =>
    have hfits : Fits migration := ⟨trivial, trivial, trivial⟩
    rw [Option.map_some, Option.bind_some, Record.decode_encode hfits]
    rfl

end Settlement
