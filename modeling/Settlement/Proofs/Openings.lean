import Settlement.Proofs.Releases

/-!
# How transactions come and go on

A call leaves the stored transactions alone, opens one, or settles the attempt in flight of one
(`Settlement.World.Sound.transacts`). What is opened comes from the message of the call, under whose
digest it is entered, and is signed with the key that is current. Every transaction that is stored
was opened so in some turn of the run (`Settlement.Run.openedIn`).
-/

namespace Settlement

variable {γ : Type}

/-- A transaction comes from what is reported or moved in a turn, and has its digest for an
index. -/
inductive Cctx.ComesFrom (c : Cctx) : Turn γ → Prop
  | report {w : World γ} {block : Block} {m : InboundVote} (hindex : c.index = m.digest)
      (horigin : c.inbound.origin = m.origin) (hcoin : c.inbound.coinType ≠ .cmd) :
      ComesFrom c ⟨w, .voteInbound block m⟩
  | migration {w : World γ} {block : Block} {chainId : ChainId} {amount : U256}
      {current newer : SigningKey}
      (hcurrent : Registry.currentKey (Overlay.fresh w.store : Draft) = .ok current)
      (hnewer : Registry.newerKey? (Overlay.fresh w.store : Draft) = .ok (some newer))
      (hindex : c.index
        = (Journal.migrationPreimage chainId amount current newer block.height).digest) :
      ComesFrom c ⟨w, .migrateFunds block chainId amount⟩

/-- What a transaction comes from stays the same when an attempt is settled. -/
theorem Cctx.ComesFrom.of_settles {c d : Cctx} {t : Turn γ} {opened : Option Ticket}
    (h : c.ComesFrom t) (hsettles : c.Settles d opened) : d.ComesFrom t := by
  cases h with
  | report hindex horigin hcoin =>
    refine .report (hsettles.index_eq.trans hindex) ?_ ?_
    · rwa [hsettles.inbound_eq]
    · rwa [hsettles.inbound_eq]
  | migration hcurrent hnewer hindex =>
    exact .migration hcurrent hnewer (hsettles.index_eq.trans hindex)

/-- A transaction was opened in a turn: nothing was stored under its index before, and something was
after it. It comes from there, and is signed with the key that was current then. -/
structure Cctx.OpenedIn [Gateway γ] (c : Cctx) (service : Service) (t : Turn γ) : Prop where
  comesFrom : c.ComesFrom t
  absent : Journal.cctx? t.world.store.restored c.index = .ok none
  stored : ∃ d, (service.execute t.world t.call).world.Stores c.index d
  signed : ∃ current, Registry.currentKey? t.world.store.restored = .ok (some current) ∧
    c.outbound.signingKey = current.pubkey

theorem Cctx.OpenedIn.of_settled [Gateway γ] {service : Service} {a : Accounts} {m : OutboundVote}
    {c d : Cctx} {lane : Option Lane} {ballot : Ballot} {t : Turn γ} (h : c.OpenedIn service t)
    (hsettled : Journal.OutboundSettled a m c d lane ballot) : d.OpenedIn service t := by
  have hindex : d.index = c.index := hsettled.settles.index_eq
  obtain ⟨current, hcurrent, hsigned⟩ := h.signed
  exact ⟨h.comesFrom.of_settles hsettled.settles, hindex ▸ h.absent, hindex ▸ h.stored, current,
    hcurrent, hsettled.movesOn.outbound.signingKey_eq.trans hsigned⟩

namespace Accounts

/-- What a turn makes of transactions and of the owners of tickets. -/
inductive Transacts (a : Accounts) (t : Turn γ) (b : Accounts) : Prop
  /-- Nothing. -/
  | keep (hcctx : b.cctx = a.cctx) (howner : b.owner = a.owner) : Transacts a t b
  /-- A transaction is opened and signed with the current key. -/
  | opens {c : Cctx} {lane : Option Lane} {key : SigningKey}
      (hkey : t.world.store.ledger .currentKey = some key)
      (hsigned : c.outbound.signingKey = key.pubkey) (hcomes : c.ComesFrom t)
      (hopens : a.Opens c lane) (hcctx : b.cctx = (a.renew c lane none).cctx)
      (howner : b.owner = (a.renew c lane none).owner) : Transacts a t b
  /-- The attempt in flight is settled. -/
  | settles {block : Block} {m : OutboundVote} {c d : Cctx} {lane : Option Lane}
      {closed : Option Ticket} {ballot : Ballot} (hcall : t.call = .voteOutbound block m)
      (hc : a.cctx m.cctxIndex = some c) (hindex : d.index = m.cctxIndex)
      (hsettled : Journal.OutboundSettled a m c d lane ballot)
      (hb : b = a.renew d lane closed) : Transacts a t b

end Accounts

variable [Gateway γ] {service : Service} {w : World γ} {call : Call}

/-- **A call opens a transaction from its message, settles an attempt, or leaves all transactions
alone.** -/
theorem World.Sound.transacts (h : w.Sound)
    (hstore : (service.execute w call).world.store.Addressable) :
    w.accounts.Transacts ⟨w, call⟩ (service.execute w call).world.accounts := by
  obtain ⟨effects, hdelivers, -, -⟩ := h.delivers hstore
  generalize (service.execute w call).world.accounts = b at hdelivers
  cases hdelivers with
  | quiet hcctx howner => exact .keep hcctx howner
  | report hcoin henters =>
    exact .opens henters.current_eq henters.signingKey_eq
      (.report henters.index_eq henters.origin_eq (henters.coinType_eq ▸ hcoin)) henters.opens
      (Accounts.Renews.renew_mark_cctx ..) (Accounts.Renews.renew_mark_owner ..)
  | migration hcurrent hnewer htaken =>
    exact .opens htaken.current_eq htaken.signingKey_eq
      (.migration hcurrent hnewer (htaken.index_eq.trans htaken.digest_eq)) htaken.opens rfl rfl
  | settlement hcctx hopen hsettled =>
    exact .settles rfl hcctx (hsettled.settles.index_eq.trans (h.accounts.index_eq _ _ hcctx))
      hsettled rfl

/-- **Every transaction that is stored was opened in a turn of the run.** -/
theorem Run.openedIn {w₀ : World γ} {turns : List (Turn γ)} (hrun : Run service w₀ turns w)
    (hempty : w₀.store.entries = .empty) {x : Digest} {c : Cctx}
    (hc : w.accounts.cctx x = some c) : ∃ t ∈ turns, c.OpenedIn service t := by
  have h₀ := World.sound_of_entries_eq_empty hempty
  induction hrun generalizing c with
  | start =>
    rw [World.accounts, World.ledger_eq_empty hempty] at hc
    cases hc
  | @call turns w hrun call hstore ih =>
    have hsound := hrun.sound h₀
    have hearlier {c : Cctx} (hc : w.accounts.cctx x = some c) :
        ∃ t ∈ turns ++ [⟨w, call⟩], c.OpenedIn service t := by
      obtain ⟨t, ht, hopened⟩ := ih hc
      exact ⟨t, List.mem_append_left _ ht, hopened⟩
    rcases hsound.transacts hstore with ⟨hcctx, -⟩ | ⟨hkey, hsigned, hcomes, hopens, hcctx, -⟩ |
      ⟨-, hbefore, hindex, hsettled, hb⟩
    · exact hearlier (hcctx ▸ hc)
    · have hstored := (hsound.execute hstore).1.stores_iff.2 hc
      rw [hcctx] at hc
      obtain ⟨rfl, rfl⟩ | ⟨-, hc⟩ := Accounts.Renews.eq_or_of_renew hc
      · have habsent := (hsound.cctx?_eq _).trans (congrArg Except.ok hopens.absent)
        exact ⟨_, List.mem_append_right _ List.mem_cons_self, hcomes, habsent, ⟨_, hstored⟩, _,
          hsound.currentKey?_eq.trans (congrArg Except.ok hkey), hsigned⟩
      · exact hearlier hc
    · rw [hb] at hc
      obtain ⟨hx, rfl⟩ | ⟨-, hc⟩ := Accounts.Renews.eq_or_of_renew hc
      · obtain ⟨t, ht, hopened⟩ := hearlier (hx.trans hindex ▸ hbefore)
        exact ⟨t, ht, hopened.of_settled hsettled⟩
      · exact hearlier hc
  | outside _ hentries ih =>
    rw [World.accounts_eq_of_entries_eq hentries] at hc
    exact ih hc

end Settlement
