import Settlement.Proofs.Releases
import Settlement.Proofs.SettledHistory

/-!
# Funding of the stability pool

The pool is asked after a call is committed, and may refuse. It is asked once for every vote that
ends a transaction by the success of an attempt which leaves a fee for unused gas, and for nothing
else (`Settlement.World.Sound.requests_eq`). Nothing that is stored or answered depends on what the
pool does with it (`Settlement.Service.transcript_eq`).

Main statement: `Settlement.Run.pool_funding_exact`.
-/

namespace Settlement

variable {γ : Type}

/-! ### What is owed -/

/-- A call is an accepted vote on an outbound transaction, and has brought a transaction into one
of the states in which it has ended by a success. -/
structure Service.Ends [Gateway γ] (service : Service) (t : Turn γ) (m : OutboundVote) (d : Cctx) :
    Prop where
  call_eq : ∃ block, t.call = .voteOutbound block m
  accepted : ∃ answer, (service.execute t.world t.call).answer = .ok answer
  moved : ∃ x c, t.world.Stores x c ∧ (service.execute t.world t.call).world.Stores x d ∧
    d.status ≠ c.status
  status_eq : d.status = .outboundMined ∨ d.status = .reverted

/-- The chain and the amount that are owed to the pool for a turn: if its vote changes the state of
the transaction, what the transaction owes in the new state. -/
def Service.owed [Gateway γ] (service : Service) (t : Turn γ) : Option (ChainId × U256) :=
  match t.call with
  | .voteOutbound _ m =>
    if service.changesStatus m.cctxIndex t then
      ((service.execute t.world t.call).world.accounts.cctx m.cctxIndex).bind fun d =>
        (d.owes service.settlement.poolPercent).map fun f => (f.chainId, f.amount)
    else none
  | _ => none

/-- The requests to the pool that are made in a turn. -/
def Service.requested [Gateway γ] (service : Service) (t : Turn γ) : List PoolRequest :=
  (service.execute t.world t.call).world.pool.requests.drop t.world.pool.requests.length

theorem Cctx.owes_eq_some_iff {c : Cctx} {percent : UInt8} {f : PoolFunding} :
    c.owes percent = some f ↔ (c.status = .outboundMined ∨ c.status = .reverted) ∧
      ∃ amount, c.current.unusedFee? percent = some amount ∧
        f = ⟨c.index, c.current.chainId, amount⟩ := by
  rw [owes]
  split
  · next hend =>
    rw [and_iff_right hend, Option.map_eq_some_iff]
    exact exists_congr fun _ => and_congr_right fun _ => eq_comm
  · next hend => simp [hend]

/-! ### The attempt that is settled -/

/-- No state comes after itself. -/
theorem Cctx.MovesOn.status_ne {c d : Cctx} (h : c.MovesOn d) : d.status ≠ c.status := by
  intro hsame
  have hlt := CctxStatus.remaining_lt_of_canBecome h.canBecome
  rw [hsame] at hlt
  exact Nat.lt_irrefl _ hlt

/-- The attempt in flight stays in flight, if no revert is put behind it. -/
theorem Cctx.Retains.current {c d : Cctx} (h : c.Retains d)
    (hreverting : d.isReverting = c.isReverting) : c.current.Retains d.current := by
  cases hrevert : c.revert with
  | none =>
    have hnone : d.revert = none := by
      rw [isReverting, isReverting, hrevert] at hreverting
      exact Option.not_isSome_iff_eq_none.1 (by rw [hreverting]; decide)
    rw [current_eq_outbound hrevert, current_eq_outbound hnone]
    exact h.outbound
  | some r =>
    obtain ⟨r', hr', hretains⟩ := h.revert r hrevert
    rwa [current_eq_revert hrevert, current_eq_revert hr']

/-- Once a transaction has ended by a success, its last attempt is executed. -/
theorem Cctx.Formed.isExecuted_current {c : Cctx} (h : c.Formed)
    (hstatus : c.status = .outboundMined ∨ c.status = .reverted) : c.current.isExecuted = true := by
  have hstage := h.isAt
  rcases hstatus with hstatus | hstatus
  · rw [hstatus] at hstage
    rw [current_eq_outbound hstage.1]
    exact hstage.2
  · rw [hstatus] at hstage
    obtain ⟨-, r, hr, hexecuted⟩ := hstage
    rwa [current_eq_revert hr]

/-! ### One turn -/

section Turns

variable [Gateway γ] {service : Service} {w : World γ} {call : Call} {block : Block}
  {m : OutboundVote} {c d : Cctx}

/-- A vote on an outbound transaction leaves all transactions alone, or settles the attempt in
flight of one and leaves the others alone. -/
theorem World.Sound.voteOutbound_cctx (h : w.Sound)
    (hstore : (service.execute w (.voteOutbound block m)).world.store.Addressable) :
    (service.execute w (.voteOutbound block m)).world.accounts.cctx = w.accounts.cctx ∨
      ∃ c d lane ballot, w.accounts.cctx m.cctxIndex = some c ∧
        c.openTicket? = some ⟨⟨c.current.signingKey, m.chainId⟩, m.nonce⟩ ∧
        Journal.OutboundSettled w.accounts m c d lane ballot ∧
        ∀ x, (service.execute w (.voteOutbound block m)).world.accounts.cctx x
          = if x = m.cctxIndex then some d else w.accounts.cctx x := by
  obtain ⟨effects, hdelivers, -, -⟩ := h.delivers hstore
  generalize (service.execute w (.voteOutbound block m)).world.accounts = b at hdelivers
  cases hdelivers with
  | quiet hcctx => exact .inl hcctx
  | settlement hcctx hopen hsettled =>
    refine .inr ⟨_, _, _, _, hcctx, hopen, hsettled, fun x => ?_⟩
    rw [Accounts.Renews.renew_cctx, hsettled.settles.index_eq, h.accounts.index_eq _ _ hcctx]
    rfl

/-- Nothing is owed unless a transaction has changed. -/
theorem Service.owed_eq_none (hcctx : (service.execute w call).world.accounts.cctx
    = w.accounts.cctx) : service.owed ⟨w, call⟩ = none := by
  rw [owed.eq_def]
  split
  · refine if_neg fun hchanges => ?_
    rw [changesStatus, World.statusOf, World.statusOf, hcctx, decide_eq_true_iff] at hchanges
    exact hchanges rfl
  · rfl

/-- What is owed when an attempt is settled. -/
theorem Service.owed_of_settled (hc : w.accounts.cctx m.cctxIndex = some c)
    (hd : (service.execute w (.voteOutbound block m)).world.accounts.cctx m.cctxIndex = some d)
    (hmovesOn : c.MovesOn d) : service.owed ⟨w, .voteOutbound block m⟩ =
      (d.owes service.settlement.poolPercent).map fun f => (f.chainId, f.amount) := by
  have hchanges : service.changesStatus m.cctxIndex ⟨w, .voteOutbound block m⟩ = true := by
    refine decide_eq_true fun hsame => hmovesOn.status_ne ?_
    rw [World.statusOf, World.statusOf, hd, hc] at hsame
    exact Option.some.inj hsame
  simp only [owed, hchanges, if_true, hd, Option.bind_some]

/-- **What a turn owes is the credit that is released with it.** -/
theorem World.Sound.owed_eq (h : w.Sound) {effects : Effects}
    (hdelivers : Journal.Delivers service.settlement.poolPercent (.fresh w.store : Draft)
      w.store.ledger call (service.execute w call).world.accounts effects) :
    service.owed ⟨w, call⟩ = effects.funding.map fun f => (f.chainId, f.amount) := by
  generalize hafter : (service.execute w call).world.accounts = b at hdelivers
  cases hdelivers with
  | quiet hcctx => exact Service.owed_eq_none (hafter ▸ hcctx)
  | report | migration => rfl
  | settlement hcctx hopen hsettled =>
    refine Service.owed_of_settled hcctx ?_ hsettled.movesOn
    rw [hafter, Accounts.Renews.renew_cctx, if_pos]
    exact (hsettled.settles.index_eq.trans (h.accounts.index_eq _ _ hcctx)).symm

/-- **In a turn the pool is asked for what is owed**, and for nothing else. -/
theorem World.Sound.requests_eq (h : w.Sound)
    (hstore : (service.execute w call).world.store.Addressable) :
    (service.execute w call).world.pool.requests = w.pool.requests ++
      (service.owed ⟨w, call⟩).toList.map fun p => ⟨p.1, p.2, !w.pool.isFailing⟩ := by
  obtain ⟨effects, hdelivers, -, hpool⟩ := h.delivers hstore
  rw [hpool, h.owed_eq hdelivers, World.release]
  cases effects.funding with
  | none => exact (List.append_nil _).symm
  | some f => rfl

theorem World.Sound.requested_eq (h : w.Sound)
    (hstore : (service.execute w call).world.store.Addressable) :
    service.requested ⟨w, call⟩ =
      (service.owed ⟨w, call⟩).toList.map fun p => ⟨p.1, p.2, !w.pool.isFailing⟩ := by
  rw [Service.requested, h.requests_eq hstore, List.drop_left]

/-- What ends a transaction by a success settles its attempt in flight. -/
theorem World.Sound.settled_of_ends (h : w.Sound)
    (hstore : (service.execute w call).world.store.Addressable)
    (hends : service.Ends ⟨w, call⟩ m d) : ∃ c lane ballot,
      w.accounts.cctx m.cctxIndex = some c ∧
      c.openTicket? = some ⟨⟨c.current.signingKey, m.chainId⟩, m.nonce⟩ ∧
      Journal.OutboundSettled w.accounts m c d lane ballot ∧
      (service.execute w call).world.accounts.cctx m.cctxIndex = some d := by
  obtain ⟨⟨block, rfl⟩, -, ⟨x, e, he, hd, hne⟩, -⟩ := hends
  rw [h.stores_iff] at he
  rw [(h.execute hstore).1.stores_iff] at hd
  rcases h.voteOutbound_cctx hstore with hsame | ⟨c, d', lane, ballot, hc, hopen, hsettled, hcctx⟩
  · rw [hsame, he] at hd
    exact absurd (congrArg Cctx.status (Option.some.inj hd).symm) hne
  by_cases hx : x = m.cctxIndex
  · rw [hcctx, if_pos hx] at hd
    cases hd
    exact ⟨c, lane, ballot, hc, hopen, hsettled, by rw [hcctx, if_pos rfl]⟩
  · rw [hcctx, if_neg hx, he] at hd
    exact absurd (congrArg Cctx.status (Option.some.inj hd).symm) hne

/-- What settles an attempt by a success ends its transaction. -/
theorem World.Sound.ends_of_settled (h : w.Sound)
    (hstore : (service.execute w (.voteOutbound block m)).world.store.Addressable)
    (hc : w.accounts.cctx m.cctxIndex = some c)
    (hd : (service.execute w (.voteOutbound block m)).world.accounts.cctx m.cctxIndex = some d)
    (hmovesOn : c.MovesOn d) (hstatus : d.status = .outboundMined ∨ d.status = .reverted) :
    service.Ends ⟨w, .voteOutbound block m⟩ m d := by
  refine ⟨⟨block, rfl⟩, ?_, ⟨m.cctxIndex, c, h.stores_iff.2 hc,
    (h.execute hstore).1.stores_iff.2 hd, hmovesOn.status_ne⟩, hstatus⟩
  cases hanswer : (service.execute w (.voteOutbound block m)).answer with
  | ok answer => exact ⟨answer, rfl⟩
  | error e =>
    -- A vote that is refused would have left the transaction as it was.
    rw [World.accounts, Service.store_eq_of_error hanswer] at hd
    exact absurd (congrArg Cctx.status (Option.some.inj (hd.symm.trans hc))) hmovesOn.status_ne

/-- **What is owed**: for a vote that ends a transaction by a success, the share of the fee for the
gas that its last attempt has not used, for the chain of this attempt. -/
theorem World.Sound.owed_eq_some_iff (h : w.Sound)
    (hstore : (service.execute w call).world.store.Addressable) {chainId : ChainId}
    {amount : U256} : service.owed ⟨w, call⟩ = some (chainId, amount) ↔
      ∃ m d, service.Ends ⟨w, call⟩ m d ∧ d.current.chainId = chainId ∧
        d.current.unusedFee? service.settlement.poolPercent = some amount := by
  constructor
  · intro howed
    obtain ⟨block, m, rfl⟩ : ∃ block m, call = .voteOutbound block m := by
      rw [Service.owed.eq_def] at howed
      split at howed
      · next block m hcall => exact ⟨block, m, hcall⟩
      · cases howed
    rcases h.voteOutbound_cctx hstore with hsame | ⟨c, d, lane, ballot, hc, -, hsettled, hcctx⟩
    · rw [Service.owed_eq_none hsame] at howed
      cases howed
    have hd := (hcctx m.cctxIndex).trans (if_pos rfl)
    rw [Service.owed_of_settled hc hd hsettled.movesOn] at howed
    obtain ⟨f, hf, heq⟩ := Option.map_eq_some_iff.1 howed
    obtain ⟨hstatus, amount', hfee, rfl⟩ := Cctx.owes_eq_some_iff.1 hf
    cases heq
    exact ⟨m, d, h.ends_of_settled hstore hc hd hsettled.movesOn hstatus, rfl, hfee⟩
  · rintro ⟨m, d, hends, rfl, hfee⟩
    obtain ⟨c, lane, ballot, hc, -, hsettled, hd⟩ := h.settled_of_ends hstore hends
    obtain ⟨block, rfl⟩ := hends.call_eq
    rw [Service.owed_of_settled hc hd hsettled.movesOn]
    exact Option.map_eq_some_iff.2
      ⟨_, Cctx.owes_eq_some_iff.2 ⟨hends.status_eq, _, hfee, rfl⟩, rfl⟩

/-- The last attempt of a transaction that has ended is the one that the vote was about. -/
theorem World.Sound.current_of_ends (h : w.Sound)
    (hstore : (service.execute w call).world.store.Addressable)
    (hends : service.Ends ⟨w, call⟩ m d) : d.current.chainId = m.chainId ∧
      d.current.nonce = some m.nonce ∧ d.current.isExecuted = true := by
  obtain ⟨c, lane, ballot, hc, hopen, hsettled, -⟩ := h.settled_of_ends hstore hends
  obtain ⟨-, hchain, hnonce⟩ := Attempt.ticket?_eq_some_iff.1 (Cctx.eq_of_openTicket? hopen).1
  have hreverting : d.isReverting = c.isReverting := by
    refine hsettled.reverts.resolve_left fun hpending => ?_
    rcases hends.status_eq with hstatus | hstatus <;> simp [hpending] at hstatus
  have hretains := hsettled.movesOn.toRetains.current hreverting
  exact ⟨hretains.chainId_eq.trans hchain, hretains.nonce_eq.trans hnonce,
    (hsettled.formed (h.accounts.formed _ _ hc)).isExecuted_current hends.status_eq⟩

end Turns

/-! ### What the pool does is not seen -/

/-- A call, and what happens to the store and to the gateway before it is made. -/
structure Round (γ : Type) where
  outside : Backend × γ → Backend × γ
  call : Call

/-- The world on which the call of a round is made, with a pool that refuses or does not. -/
def World.before (w : World γ) (r : Round γ) (poolFails : Bool) : World γ where
  store := (r.outside (w.store, w.gateway)).1
  gateway := (r.outside (w.store, w.gateway)).2
  pool := { w.pool with isFailing := poolFails }

section Rounds

variable [Gateway γ] (service : Service)

/-- What is seen of rounds: the answer to every call, and the store after it. -/
def Service.transcript : World γ → List (Round γ × Bool) → List (Except CallError Answer × Backend)
  | _, [] => []
  | w, (r, poolFails) :: rounds =>
    let reply := service.execute (w.before r poolFails) r.call
    (reply.answer, reply.world.store) :: transcript reply.world rounds

/-- A call does not look at the pool. -/
theorem Service.execute_congr {w w' : World γ} (hstore : w.store = w'.store)
    (hgateway : w.gateway = w'.gateway) (c : Call) :
    (service.execute w c).answer = (service.execute w' c).answer ∧
      (service.execute w c).world.store = (service.execute w' c).world.store ∧
      (service.execute w c).world.gateway = (service.execute w' c).world.gateway := by
  rw [execute_eq, execute_eq, ← hstore, ← hgateway, World.conclude, World.conclude, ← hstore]
  cases (service.handle w.gateway (.fresh w.store : Draft) c).1 with
  | error e => exact ⟨rfl, rfl, rfl⟩
  | ok result =>
    obtain ⟨answer, draft, effects⟩ := result
    dsimp only
    cases draft.commit <;> exact ⟨rfl, rfl, rfl⟩

/-- **What is seen of rounds does not depend on when the pool refuses.** -/
theorem Service.transcript_eq {w w' : World γ} {rounds rounds' : List (Round γ × Bool)}
    (hstore : w.store = w'.store) (hgateway : w.gateway = w'.gateway)
    (hsame : rounds.map Prod.fst = rounds'.map Prod.fst) :
    service.transcript w rounds = service.transcript w' rounds' := by
  induction rounds generalizing w w' rounds' with
  | nil =>
    obtain rfl := List.map_eq_nil_iff.1 hsame.symm
    rfl
  | cons entry rounds ih =>
    obtain ⟨r, poolFails⟩ := entry
    cases rounds' with
    | nil => cases hsame
    | cons entry' rounds' =>
      obtain ⟨r', poolFails'⟩ := entry'
      obtain ⟨rfl, hrest⟩ := List.cons.inj hsame
      have hbefore : (w.before r poolFails).store = (w'.before r poolFails').store ∧
          (w.before r poolFails).gateway = (w'.before r poolFails').gateway := by
        simp only [World.before, hstore, hgateway, and_self]
      obtain ⟨hanswer, hstore', hgateway'⟩ := service.execute_congr hbefore.1 hbefore.2 r.call
      rw [transcript, transcript, ih hstore' hgateway' hrest, hanswer, hstore']

end Rounds

/-! ### All calls -/

section Runs

variable [Gateway γ] {service : Service} {w w₀ : World γ} {turns : List (Turn γ)}

/-- **The pool is asked for exactly what is owed, and what it does with it changes nothing.** In a
run from an empty store, the chains and amounts for which the pool is asked are, in the order of
the calls, those that are owed for the turns. Something is owed for a turn exactly if an accepted
vote on an outbound transaction has brought a transaction into one of the states in which it has
ended by a success, and its last attempt as it is stored then leaves a fee for unused gas. It is
owed to the chain of this attempt, and this is the attempt that the vote was about. In every turn
the requests that were made before stay, and a new one is credited unless the pool refuses.

If the same calls are made and the same happens outside, then the answers are the same and so is
the store after every call, whenever the pool refuses. -/
theorem Run.pool_funding_exact (hrun : Run service w₀ turns w)
    (hempty : w₀.store.entries = .empty) :
    (turns.flatMap service.requested).map (fun r => (r.chainId, r.amount))
      = turns.filterMap service.owed ∧
    (∀ t ∈ turns, (service.execute t.world t.call).world.pool.requests
        = t.world.pool.requests ++ service.requested t ∧
      (∀ r ∈ service.requested t, r.credited = !t.world.pool.isFailing) ∧
      (∀ chainId amount, service.owed t = some (chainId, amount) ↔
        ∃ m d, service.Ends t m d ∧ d.current.chainId = chainId ∧
          d.current.unusedFee? service.settlement.poolPercent = some amount) ∧
      ∀ m d, service.Ends t m d → d.current.chainId = m.chainId ∧
        d.current.nonce = some m.nonce ∧ d.current.isExecuted = true) ∧
    ∀ (v v' : World γ) (rounds rounds' : List (Round γ × Bool)), v.store = v'.store →
      v.gateway = v'.gateway → rounds.map Prod.fst = rounds'.map Prod.fst →
      service.transcript v rounds = service.transcript v' rounds' := by
  have h₀ := World.sound_of_entries_eq_empty hempty
  have hasked : ∀ t ∈ turns, (service.requested t).map (fun r => (r.chainId, r.amount))
      = (service.owed t).toList :=
    hrun.forall_turns h₀ fun w c hsound hstore => by
      rw [hsound.requested_eq hstore, List.map_map]
      exact List.map_id _
  refine ⟨?_, hrun.forall_turns h₀ fun w c hsound hstore => ⟨?_, fun r hr => ?_,
    fun chainId amount => hsound.owed_eq_some_iff hstore,
    fun m d => hsound.current_of_ends hstore⟩, fun v v' rounds rounds' => service.transcript_eq⟩
  · rw [List.map_flatMap, List.filterMap_eq_flatMap_toList]
    exact List.flatMap_congr hasked
  · rw [hsound.requested_eq hstore]
    exact hsound.requests_eq hstore
  · rw [hsound.requested_eq hstore] at hr
    obtain ⟨p, -, rfl⟩ := List.mem_map.1 hr
    rfl

end Runs

/-! ### A deposit that is paid out -/

namespace Sample

/-- The deposit is paid out with less gas than was granted. -/
def payout : OutboundVote :=
  { failure with gasUsed := 20000, gasPrice := .ofNat 10, outcome := .success }

/-- The turns up to there. -/
def payoutTurns : List (Turn ScriptedGateway) :=
  service.turnsOf start calls ++ [⟨world, .voteOutbound ⟨2, 2⟩ payout⟩]

/-- What is left of the gas is owed to the chain, less a share of five percent. Nobody sees it if
the pool refuses that. -/
theorem funding_of_payout :
    (payoutTurns.flatMap service.requested).map (fun r => (r.chainId, r.amount))
      = [(chainId, .ofNat 9500)] ∧
    service.transcript world [(⟨id, .voteOutbound ⟨2, 2⟩ payout⟩, true)]
      = service.transcript world [(⟨id, .voteOutbound ⟨2, 2⟩ payout⟩, false)] := by
  have hevaluated :
      (service.execute world (.voteOutbound ⟨2, 2⟩ payout)).world.store.Addressable ∧
      payoutTurns.filterMap service.owed = [(chainId, .ofNat 9500)] := by decide +kernel
  obtain ⟨hstore, howed⟩ := hevaluated
  obtain ⟨hasked, -, hsame⟩ := Run.pool_funding_exact (run.call _ hstore) rfl
  exact ⟨hasked.trans howed, hsame _ _ _ _ rfl rfl rfl⟩

end Sample

end Settlement
