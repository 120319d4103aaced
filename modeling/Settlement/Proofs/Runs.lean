import Settlement.Proofs.Calls

/-!
# Runs

A run is a sequence of calls on one world, in any order. Between two calls everything but the
stored entries may change: the store may come to fail or work again, the gateway may answer
differently, and so may the pool (`Settlement.Run.outside`). All that is asked of a run is that
the stores in it are addressable. That also bounds nonces: every nonce that was issued has an
entry of its own, so the next one is always a number of 64 bits.

Main statements: every world that is reached from an empty store is in order
(`Settlement.Reachable.sound`), and nothing is lost on the way from one world to a later one
(`Settlement.Run.extends`).
-/

namespace Settlement

variable {γ : Type}

/-- The accounts that are stored in a world. -/
def World.accounts (w : World γ) : Accounts :=
  w.store.ledger.accounts

/-- The ballots that are stored in a world. -/
def World.ballots (w : World γ) : Digest → Option Ballot :=
  w.store.ledger.ballots

/-- The observers that are stored in a world. -/
def World.observers (w : World γ) : ObserverSet :=
  w.store.ledger.observers

/-- A call with the world on which it is made. -/
structure Turn (γ : Type) where
  world : World γ
  call : Call

/-- The turns that some calls take, one after the other. -/
def Service.turnsOf [Gateway γ] (service : Service) : World γ → List Call → List (Turn γ)
  | _, [] => []
  | w, c :: calls => ⟨w, c⟩ :: turnsOf service (service.execute w c).world calls

/-- The world after some calls. -/
def Service.after [Gateway γ] (service : Service) : World γ → List Call → World γ
  | w, [] => w
  | w, c :: calls => after service (service.execute w c).world calls

/-- From the first world, the calls lead to the second. -/
inductive Run [Gateway γ] (service : Service) (w₀ : World γ) : List (Turn γ) → World γ → Prop
  /-- No call has been made. -/
  | start : Run service w₀ [] w₀
  /-- A call is made, whether it is refused or not. -/
  | call {turns : List (Turn γ)} {w : World γ} (h : Run service w₀ turns w) (c : Call)
      (hstore : (service.execute w c).world.store.Addressable) :
      Run service w₀ (turns ++ [⟨w, c⟩]) (service.execute w c).world
  /-- Something else changes than the entries of the store. -/
  | outside {turns : List (Turn γ)} {w w' : World γ} (h : Run service w₀ turns w)
      (hentries : w'.store.entries = w.store.entries) : Run service w₀ turns w'

/-- A world to which calls on an empty store lead. -/
def Reachable [Gateway γ] (service : Service) (w : World γ) : Prop :=
  ∃ w₀ turns, w₀.store.entries = .empty ∧ Run service w₀ turns w

/-! ### Worlds in order -/

/-- The store can be read, and what it holds is in order. -/
structure World.Sound (w : World γ) : Prop where
  addressable : w.store.Addressable
  records : Records w.store w.store.ledger
  ballotsFiled : BallotsFiled w.ballots
  accounts : w.accounts.Sound

namespace World

variable {w w' : World γ}

theorem Sound.legible (h : w.Sound) : w.store.ledger.Legible :=
  h.addressable.legible h.records

/-- Only the entries of the store matter. -/
theorem ledger_eq_of_entries_eq (h : w'.store.entries = w.store.entries) :
    w'.store.ledger = w.store.ledger := by
  funext k
  rw [Backend.ledger, Backend.ledger, h]

theorem accounts_eq_of_entries_eq (h : w'.store.entries = w.store.entries) :
    w'.accounts = w.accounts :=
  congrArg Ledger.accounts (ledger_eq_of_entries_eq h)

theorem Sound.congr (h : w.Sound) (hentries : w'.store.entries = w.store.entries) : w'.Sound := by
  have hledger := ledger_eq_of_entries_eq hentries
  have hcontents : contents w'.store = contents w.store := congrArg ByteMap.find? hentries
  refine ⟨⟨hentries ▸ h.addressable.length_lt, hentries ▸ h.addressable.value_lt⟩, ?_, ?_, ?_⟩
  · exact hledger ▸ h.records.congr hcontents
  · rw [ballots, hledger]
    exact h.ballotsFiled
  · exact accounts_eq_of_entries_eq hentries ▸ h.accounts

theorem ledger_eq_empty (h : w.store.entries = .empty) : w.store.ledger = Ledger.empty := by
  funext k
  rw [Backend.ledger, h]
  rfl

theorem sound_of_entries_eq_empty (h : w.store.entries = .empty) : w.Sound := by
  have hledger := ledger_eq_empty h
  refine ⟨⟨by rw [h]; decide, by rw [h]; rintro _ ⟨⟩⟩, fun k => ?_, ?_, ?_⟩
  · rw [hledger]
    exact congrArg (ByteMap.find? · k.bytes) h
  · rw [ballots, hledger]
    rintro _ _ ⟨⟩
  · rw [accounts, hledger]
    exact Accounts.sound_empty

end World

/-- Books that are kept in an addressable store are those of its ledger. -/
theorem Books.ledger {b : Backend} {a : Accounts} {ballots : Digest → Option Ballot}
    (h : Books b a ballots) (hb : b.Addressable) :
    Records b b.ledger ∧ b.ledger.accounts = a ∧ b.ledger.ballots = ballots := by
  obtain ⟨l, hl, rfl, rfl⟩ := h
  have heq := hl.ledger_eq hb
  exact ⟨hl.ledger hb, Ledger.accounts_congr fun k _ => heq k, funext fun i => heq (.ballot i)⟩

/-- An owner of a ticket has an entry in the store. -/
theorem isSome_of_owner {b : Backend} (h : Records b b.ledger) {t : Ticket}
    (howner : (b.ledger.accounts.owner t).isSome) :
    (b.entries.find?
      (Key.nonceOwner t.lane.signingKey t.lane.chainId t.nonce).bytes).isSome := by
  have hheld := h (.nonceOwner t.lane.signingKey t.lane.chainId t.nonce)
  change b.entries.find? _ = _ at hheld
  rw [hheld, Option.isSome_map]
  exact howner

/-- **There is a nonce after the next one**, if the store has an entry besides those of the owners
of the nonces up to there. -/
theorem next_lt_of_entry {b : Backend} {a : Accounts} (hb : b.Addressable)
    (h : Records b b.ledger) (hnumbered : a.Numbered) (hextends : a.Extends b.ledger.accounts)
    {lane : Lane} {k : Key} (hfound : (b.entries.find? k.bytes).isSome)
    (hother : ∀ n < (a.nonces lane).next,
      k.folded ≠ Key.nonceOwner lane.signingKey lane.chainId n) :
    (a.nonces lane).next.toNat + 1 < UInt64.size := by
  have hlt := (a.nonces lane).next.toNat_lt
  have hword {i : Nat} (hi : i < (a.nonces lane).next.toNat) : (UInt64.ofNat i).toNat = i :=
    UInt64.toNat_ofNat_of_lt' (Nat.lt_trans hi hlt)
  have hnext {i : Nat} (hi : i < (a.nonces lane).next.toNat) :
      UInt64.ofNat i < (a.nonces lane).next := by
    rw [UInt64.lt_iff_toNat_lt, hword hi]
    exact hi
  -- Every nonce up to the next one has an entry of its own, and there is the one besides them.
  refine hb.count_lt (f := fun i => if i < (a.nonces lane).next.toNat then
    .nonceOwner lane.signingKey lane.chainId (UInt64.ofNat i) else k)
    (fun i hi j hj heq => ?_) fun i hi => ?_
  · have hkey := Key.bytes_eq_iff.1 heq
    split at hkey
    · next hbelow =>
      split at hkey
      · next hbelow' =>
        have hnonce := (Key.nonceOwner.inj hkey).2.2
        rw [← hword hbelow, hnonce, hword hbelow']
      · exact absurd hkey.symm (hother _ (hnext hbelow))
    · split at hkey
      · next hbelow' => exact absurd hkey (hother _ (hnext hbelow'))
      · omega
  · split
    · next hbelow =>
      refine isSome_of_owner (t := ⟨lane, UInt64.ofNat i⟩) h ?_
      have howner := (hnumbered.owner_isSome_iff ⟨lane, UInt64.ofNat i⟩).2 (hnext hbelow)
      obtain ⟨o, ho⟩ := Option.isSome_iff_exists.1 howner
      rw [hextends.owner _ o ho]
      rfl
    · exact hfound

/-- **There is a nonce after every one that has an owner.** -/
theorem next_lt_of_owner {b : Backend} {a : Accounts} (hb : b.Addressable)
    (h : Records b b.ledger) (hnumbered : a.Numbered) (hextends : a.Extends b.ledger.accounts)
    {lane : Lane} (hissued : (b.ledger.accounts.owner (a.nextTicket lane)).isSome) :
    (a.nonces lane).next.toNat + 1 < UInt64.size := by
  refine next_lt_of_entry hb h hnumbered hextends (isSome_of_owner h hissued) fun n hn heq => ?_
  rw [← (Key.nonceOwner.inj heq).2.2] at hn
  exact UInt64.lt_irrefl _ hn

/-- Where a transaction is stored, there is always a nonce after the next one. -/
theorem World.Sound.room {w : World γ} (h : w.Sound) {x : Digest} {c : Cctx}
    (hc : w.accounts.cctx x = some c) (lane : Lane) :
    (w.accounts.nonces lane).next.toNat + 1 < UInt64.size := by
  refine next_lt_of_entry (k := .cctx x) h.addressable h.records h.accounts.toNumbered (.refl _)
    ?_ (by rintro n - ⟨⟩)
  have hheld : w.store.entries.find? (Key.cctx x).bytes = _ := h.records (.cctx x)
  rw [hheld, Option.isSome_map]
  exact Option.isSome_iff_exists.2 ⟨c, hc⟩

section Runs

variable [Gateway γ] {service : Service} {w w' w₀ : World γ} {turns : List (Turn γ)}

/-- **A call leads from a world in order to a world in order**, by one step of the accounts. -/
theorem World.Sound.execute (h : w.Sound) {c : Call}
    (hstore : (service.execute w c).world.store.Addressable) :
    (service.execute w c).world.Sound ∧
      w.accounts.Step (Service.settledBy c (service.execute w c).answer)
        (service.execute w c).world.accounts := by
  obtain ⟨a, ballots, hstep, hpolled, hbooks⟩ := Service.advances_execute service h.records
    h.legible h.ballotsFiled h.accounts.toFiled c
  obtain ⟨hrecords, rfl, rfl⟩ := hbooks.ledger hstore
  have hextends := Accounts.Sound.extends_of_step h.accounts hstep
  refine ⟨⟨hstore, hrecords, hpolled.filed h.ballotsFiled, ?_⟩, hstep⟩
  exact h.accounts.step hstep fun lane hissued =>
    next_lt_of_owner hstore hrecords h.accounts.toNumbered hextends hissued

/-- **Of the ballots a call makes what its vote makes of them.** -/
theorem World.Sound.polled (h : w.Sound) {c : Call}
    (hstore : (service.execute w c).world.store.Addressable) :
    Polled service.observers.stalePolicy w.store.ledger c (service.execute w c).answer
      (service.execute w c).world.ballots := by
  obtain ⟨a, ballots, -, hpolled, hbooks⟩ := Service.advances_execute service h.records
    h.legible h.ballotsFiled h.accounts.toFiled c
  obtain ⟨-, -, rfl⟩ := hbooks.ledger hstore
  exact hpolled

/-- A call decides no other ballot than the one that it is a vote on. -/
theorem World.Sound.ballotsFollow (h : w.Sound) {c : Call}
    (hstore : (service.execute w c).world.store.Addressable) :
    BallotsFollow (Service.decidedBy c (service.execute w c).answer) w.ballots
      (service.execute w c).world.ballots :=
  Service.follow_of_polled (h.polled hstore)

/-- A run leads from a world in order to a world in order. -/
theorem Run.sound (h : Run service w₀ turns w) (h₀ : w₀.Sound) : w.Sound := by
  induction h with
  | start => exact h₀
  | call _ c hstore ih => exact (ih.execute hstore).1
  | outside _ hentries ih => exact ih.congr hentries

/-- What holds of every call on a world in order holds of all turns of a run. -/
theorem Run.forall_turns (h : Run service w₀ turns w) (h₀ : w₀.Sound) {P : Turn γ → Prop}
    (hcall : ∀ (w : World γ) c, w.Sound → (service.execute w c).world.store.Addressable →
      P ⟨w, c⟩) : ∀ t ∈ turns, P t := by
  induction h with
  | start => exact List.forall_mem_nil _
  | call hrun c hstore ih =>
    refine List.forall_mem_append.2 ⟨ih, List.forall_mem_singleton.2 ?_⟩
    exact hcall _ c (hrun.sound h₀) hstore
  | outside _ _ ih => exact ih

/-- **Nothing is lost in a run.** -/
theorem Run.extends (h : Run service w₀ turns w) (h₀ : w₀.Sound) :
    w₀.accounts.Extends w.accounts := by
  induction h with
  | start => exact .refl _
  | call hrun c hstore ih =>
    have hsound := hrun.sound h₀
    exact ih.trans (hsound.accounts.extends_of_step (hsound.execute hstore).2)
  | outside _ hentries ih =>
    rw [World.accounts_eq_of_entries_eq hentries]
    exact ih

/-- **Every world that is reached from an empty store is in order.** -/
theorem Reachable.sound (h : Reachable service w) : w.Sound := by
  obtain ⟨w₀, turns, hempty, hrun⟩ := h
  exact hrun.sound (World.sound_of_entries_eq_empty hempty)

/-- Calls that are made one after the other are a run. -/
theorem Run.calls (h : Run service w₀ turns w) (calls : List Call)
    (hstores : ∀ t ∈ service.turnsOf w calls,
      (service.execute t.world t.call).world.store.Addressable) :
    Run service w₀ (turns ++ service.turnsOf w calls) (service.after w calls) := by
  induction calls generalizing w turns with
  | nil => rwa [Service.turnsOf, List.append_nil]
  | cons c calls ih =>
    have hcall := h.call c (hstores _ List.mem_cons_self)
    have hrest := ih hcall fun t ht => hstores t (List.mem_cons_of_mem _ ht)
    rwa [List.append_assoc] at hrest

end Runs

end Settlement
