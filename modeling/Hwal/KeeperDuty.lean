/-
What keepers are for: a position whose trigger is met does not outlive one pass of a
keeper.  Whoever else acts meanwhile can only get there first, unless it is somebody who
may move the price, the triggers or the fee receiver.
-/
import Hwal.KeeperBot
import Hwal.Coherence

namespace Hwal

open Guard

/-- A tick at this price would fire; when it comes makes no difference. -/
def Position.DueAt (position : Position) (price : UInt64) : Prop :=
  ∀ now, (position.observe price now).firstHit price ≠ triggerNone

instance (position : Position) (price : UInt64) : Decidable (position.DueAt price) :=
  decidable_of_iff ((position.observe price 0).firstHit price ≠ triggerNone)
    ⟨fun h _ => h, fun h => h 0⟩

/-- The calls that may call a tick off: another price for the feed, other triggers for the
position, other settings. -/
def Action.Disturbs (key feedKey : Pubkey) (action : Action) : Prop :=
  action.WritesPrice feedKey ∨
    (∃ tx accs stopPrice takeProfitPrice trailingOffset, action =
      .invoke tx (.updateTriggers accs stopPrice takeProfitPrice trailingOffset) ∧
        accs.position = key) ∨
    ∃ tx accs newAdmin newFeeReceiver newFeeBps newKeeperRewardBps, action =
      .invoke tx (.updateConfig accs newAdmin newFeeReceiver newFeeBps newKeeperRewardBps)

/-- The settlement at `key` is to come or over: everything a tick needs is in place. -/
structure Expected (rt : Runtime) (feeReceiver key feedKey : Pubkey) (price : UInt64)
    (lastUpdated : Int64) (w : World) : Prop where
  receiver : w.feeReceiverAt rt.configAddress = some feeReceiver
  feed : ∃ feed, w.feeds feedKey = some feed ∧ feed.price = price ∧
    feed.lastUpdated = lastUpdated
  position : ∃ position, w.positions key = some position ∧ position.feed = feedKey ∧
    (position.status = statusOpen → position.DueAt price)

section Step

variable {rt : Runtime} {w : World} {feeReceiver key feedKey : Pubkey} {price : UInt64}
  {lastUpdated : Int64} {action : Action}

theorem receiver_kept (hundisturbed : ¬ action.Disturbs key feedKey)
    (h : w.feeReceiverAt rt.configAddress = some feeReceiver) :
    (step rt w action).feeReceiverAt rt.configAddress = some feeReceiver := by
  rcases step_effect rt w action with heffect | hsame
  · have hat := heffect.atConfig rt.configAddress
    rcases Option.map_eq_some_iff.mp h with ⟨config, hconfig, rfl⟩
    rw [hconfig] at hat
    rw [World.feeReceiverAt]
    generalize (step rt w action).configs rt.configAddress = after at hat ⊢
    cases hat with
    | kept => rfl
    | changed account heff =>
        exact absurd (Or.inr (Or.inr ⟨_, _, _, _, _, _, rfl⟩)) hundisturbed
    | opened account heff => rfl
    | settled account heff => rfl
    | cancelled account heff => rfl
  · rw [hsame, h]

/-- A registration leaves the price of a feed alone. -/
theorem price_kept (hundisturbed : ¬ action.Disturbs key feedKey)
    (h : ∃ feed, w.feeds feedKey = some feed ∧ feed.price = price ∧
      feed.lastUpdated = lastUpdated) :
    ∃ feed, (step rt w action).feeds feedKey = some feed ∧ feed.price = price ∧
      feed.lastUpdated = lastUpdated := by
  rcases h with ⟨feed, hfeed, rfl, rfl⟩
  rcases step_effect rt w action with heffect | hsame
  · have hat := heffect.atFeed feedKey
    rw [hfeed] at hat
    generalize (step rt w action).feeds feedKey = after at hat ⊢
    cases hat with
    | kept writes => exact ⟨feed, rfl, rfl, rfl⟩
    | pushed account heff => exact absurd (Or.inl account) hundisturbed
    | registered account heff => exact ⟨_, rfl, rfl, rfl⟩
    | verified account heff => exact absurd (Or.inl account) hundisturbed
  · exact ⟨feed, by rw [hsame, hfeed], rfl, rfl⟩

/-- A tick that goes through finds the position due, so that it does not leave it open. -/
theorem due_kept (hundisturbed : ¬ action.Disturbs key feedKey)
    (h : Expected rt feeReceiver key feedKey price lastUpdated w) :
    ∃ position, (step rt w action).positions key = some position ∧
      position.feed = feedKey ∧ (position.status = statusOpen → position.DueAt price) := by
  rcases h.position with ⟨position, hposition, hfeedKey, hdue⟩
  rcases h.feed with ⟨feed, hfeed, hprice, -⟩
  rcases step_effect rt w action with heffect | hsame
  · have hat := heffect.atPosition key
    rw [hposition] at hat
    generalize (step rt w action).positions key = after at hat ⊢
    cases hat with
    | kept pays => exact ⟨position, rfl, hfeedKey, hdue⟩
    | retargeted account heff =>
        exact absurd (Or.inr (Or.inl ⟨_, _, _, _, _, rfl, account⟩)) hundisturbed
    | @ticked tx accs config seen _ _ account heff =>
        have hseen : seen = feed := by
          have hloaded := heff.accounts.feed_loaded
          rw [heff.accounts.feed_matches, hfeedKey, hfeed] at hloaded
          exact (Option.some.inj hloaded).symm
        have hopen := (tickPrice_eq_ok_iff.mp heff.guards).1
        have hquiet := heff.quiet
        rw [hseen, hprice] at hquiet
        exact absurd hquiet (hdue hopen _)
    | settled account heff =>
        refine ⟨_, rfl, hfeedKey, ?_⟩
        intro hopen
        rw [fired_status] at hopen
        exact absurd hopen (by decide)
    | cancelled account heff =>
        refine ⟨_, rfl, hfeedKey, ?_⟩
        intro hopen
        rw [cancelled_status] at hopen
        exact absurd hopen (by decide)
    | delegated account heff => exact ⟨_, rfl, hfeedKey, hdue⟩
    | undelegated account heff => exact ⟨_, rfl, hfeedKey, hdue⟩
  · exact ⟨position, by rw [hsame, hposition], hfeedKey, hdue⟩

theorem Expected.step (h : Expected rt feeReceiver key feedKey price lastUpdated w)
    (hundisturbed : ¬ action.Disturbs key feedKey) :
    Expected rt feeReceiver key feedKey price lastUpdated (step rt w action) :=
  ⟨receiver_kept hundisturbed h.receiver, price_kept hundisturbed h.feed,
    due_kept hundisturbed h⟩

theorem Expected.run {actions : List Action}
    (h : Expected rt feeReceiver key feedKey price lastUpdated w)
    (hundisturbed : ∀ action ∈ actions, ¬ action.Disturbs key feedKey) :
    Expected rt feeReceiver key feedKey price lastUpdated (runFrom rt w actions) := by
  induction actions generalizing w with
  | nil => exact h
  | cons action rest ih =>
      exact ih (h.step (hundisturbed action List.mem_cons_self))
        fun later hlater => hundisturbed later (List.mem_cons_of_mem action hlater)

end Step

/-! ### The keeper's own tick -/

/-- A price that fires a trigger lies below the threshold that would not fit. -/
theorem not_overflows_of_dueAt {position : Position} (hsound : position.Sound)
    {price : UInt64} (hprice : 0 < price.toNat) (hdue : position.DueAt price) :
    ¬ position.ThresholdOverflows price := by
  intro hover
  have hshort : (position.observe price 0).side ≠ sideLong := (sideShort_iff hsound).mp hover.1
  rcases (observe_stuck_iff hsound hprice 0).mpr hover with ⟨hstop, htake, -, hrange⟩
  rw [if_neg hshort] at hrange
  apply hdue 0
  apply firstHit_eq_none_iff.mpr
  refine ⟨hstop, htake, ?_⟩
  rintro ⟨-, htrailing⟩
  rw [if_neg hshort] at htrailing
  have hlt := price.toNat_lt
  omega

section Pass

variable {rt : Runtime} {w : World} {bot : KeeperBot} {listed : Listed} {price : UInt64}
  {lastUpdated : Int64}

/-- The keeper's tick closes the position, or finds it closed. -/
theorem closed_of_tick (hreach : ReachableWithSupply rt w)
    (hkeeper : rt.canSign bot.keeper = true) (hconfig : bot.config = rt.configAddress)
    {position : Position} (hposition : w.positions listed.publicKey = some position)
    (hterms : SameTerms listed.account position)
    (hexpected : Expected rt bot.feeReceiver listed.publicKey position.feed price lastUpdated w)
    {now : Int64} (hfresh : now.toInt - lastUpdated.toInt ≤ 120) :
    ∃ after, (step rt w (bot.tick listed now)).positions listed.publicKey = some after ∧
      after.status ≠ statusOpen := by
  by_cases hopen : position.status = statusOpen
  · have hinv := reachable_invariant hreach.reachable
    rcases Option.map_eq_some_iff.mp hexpected.receiver with ⟨config, hloaded, hreceiver⟩
    rcases hexpected.feed with ⟨feed, hfeed, rfl, rfl⟩
    have hdue : position.DueAt feed.price := by
      rcases hexpected.position with ⟨found, hfound, -, hdue⟩
      obtain rfl := Option.some.inj (hfound.symm.trans hposition)
      exact hdue hopen
    have hprice := hinv.feeds _ _ hfeed
    have hguards : tickPrice position feed now = .ok feed.price :=
      tickPrice_eq_ok_iff.mpr ⟨hopen, UInt64.lt_iff_toNat_lt.mpr hprice, hfresh, rfl⟩
    have hfits := not_overflows_of_dueAt (hinv.positions _ _ hposition).shape hprice hdue
    have hverdict : bot.verdict config.feeReceiver feed position now =
        .ok (position.ticked feed.price now) := by
      simp [KeeperBot.verdict, requireAddress, hreceiver, hguards, hfits]
    have hyields := KeeperBot.yields_verdict hinv (reachable_supply hreach) hkeeper hconfig
      hloaded hposition hfeed hterms now
    rw [hverdict] at hyields
    rcases hyields with ⟨w', hok, hrewritten⟩
    refine ⟨_, by rw [step_of_ok hok, hrewritten.positions, Function.update_self], ?_⟩
    rw [Position.ticked, if_neg (hdue now), fired_status]
    decide
  · exact ⟨position, closed_step hposition hopen _, hopen⟩

/-- Up to the tick the settlement stays expected, and after it the position stays closed. -/
theorem closes_in_pass (hreach : ReachableWithSupply rt w)
    (hkeeper : rt.canSign bot.keeper = true) (hconfig : bot.config = rt.configAddress)
    {pending : List Listed} {actions : List Action} (hpass : bot.Pass pending actions)
    (hmem : listed ∈ pending)
    (hposition : w.positions listed.publicKey = some listed.account)
    (hexpected : Expected rt bot.feeReceiver listed.publicKey listed.account.feed price
      lastUpdated w)
    (hundisturbed : ∀ action ∈ actions,
      ¬ action.Disturbs listed.publicKey listed.account.feed)
    (hfresh : ∀ now, bot.tick listed now ∈ actions → now.toInt - lastUpdated.toInt ≤ 120) :
    ∃ after, (runFrom rt w actions).positions listed.publicKey = some after ∧
      after.status ≠ statusOpen := by
  rcases hpass.exists_tick hmem with ⟨before, now, later, rfl⟩
  have hreached := hexpected.run fun action haction =>
    hundisturbed action (List.mem_append_left _ haction)
  rcases sameTerms_run rt hposition before with ⟨current, hcurrent, hterms⟩
  rw [← hterms.feed] at hreached
  rcases closed_of_tick (hreach.run before) hkeeper hconfig hcurrent hterms hreached
    (hfresh now (List.mem_append_right _ List.mem_cons_self)) with ⟨after, hafter, hclosed⟩
  rw [runFrom, Transition.run_append, Transition.run_cons]
  exact ⟨after, closed_run hafter hclosed later, hclosed⟩

end Pass

/-- A keeper that started when the fee receiver was the present one makes a pass over a
listing with a position whose trigger the price has met. If the price is fresh when the
tick for it lands and nobody moves the price, the triggers or the settings meanwhile, the
position is closed at the end of the pass, by this tick or before it, whoever else acts
and in whatever order. -/
theorem due_position_closes (rt : Runtime) (lamports : Lamports)
    (earlier middle : List Action) {keeper : Pubkey} {bot : KeeperBot}
    {listing : List Listed} {actions : List Action}
    (hsupply : Ledger.SupplyAtMost (2 ^ 64 - 1) lamports)
    (hkeeper : rt.canSign keeper = true)
    (hstart : KeeperBot.start rt (runFrom rt (World.genesis lamports) earlier) keeper =
      some bot)
    (hlisting : Lists (runFrom rt (World.genesis lamports) (earlier ++ middle)) listing)
    (hpass : bot.Pass (openOf listing) actions) {key : Pubkey} {position : Position}
    {feed : PriceFeed}
    (hposition : (runFrom rt (World.genesis lamports) (earlier ++ middle)).positions key =
      some position)
    (hfeed : (runFrom rt (World.genesis lamports) (earlier ++ middle)).feeds position.feed =
      some feed)
    (hreceiver : (runFrom rt (World.genesis lamports) (earlier ++ middle)).feeReceiverAt
      rt.configAddress = some bot.feeReceiver)
    (hdue : position.DueAt feed.price)
    (hundisturbed : ∀ action ∈ actions, ¬ action.Disturbs key position.feed)
    (hfresh : ∀ now, bot.tick ⟨key, position⟩ now ∈ actions →
      now.toInt - feed.lastUpdated.toInt ≤ 120) :
    ∃ after, (runFrom rt (World.genesis lamports) (earlier ++ middle ++ actions)).positions
        key = some after ∧
      (after.status = statusTriggered ∨ after.status = statusCancelled) := by
  have hreach : ReachableWithSupply rt
      (runFrom rt (World.genesis lamports) (earlier ++ middle)) := ⟨lamports, _, hsupply, rfl⟩
  have hclosed : ∃ after, (runFrom rt (runFrom rt (World.genesis lamports)
      (earlier ++ middle)) actions).positions key = some after ∧
        after.status ≠ statusOpen := by
    by_cases hopen : position.status = statusOpen
    · have hmem : (⟨key, position⟩ : Listed) ∈ openOf listing := by
        rw [openOf, List.mem_filter]
        exact ⟨(hlisting key position).mpr hposition, by simp [hopen]⟩
      have hexpected : Expected rt bot.feeReceiver key position.feed feed.price
          feed.lastUpdated (runFrom rt (World.genesis lamports) (earlier ++ middle)) :=
        ⟨hreceiver, ⟨feed, hfeed, rfl, rfl⟩, position, hposition, rfl, fun _ => hdue⟩
      rcases Option.map_eq_some_iff.mp hstart with ⟨_, -, rfl⟩
      exact closes_in_pass hreach hkeeper rfl hpass hmem hposition hexpected hundisturbed
        hfresh
    · exact ⟨position, closed_run hposition hopen actions, hopen⟩
  have hrun : runFrom rt (runFrom rt (World.genesis lamports) (earlier ++ middle)) actions =
      runFrom rt (World.genesis lamports) (earlier ++ middle ++ actions) :=
    (Transition.run_append ..).symm
  rw [hrun] at hclosed
  rcases hclosed with ⟨after, hafter, hnotOpen⟩
  have hsound := ((reachable_invariant ⟨lamports, _, rfl⟩).positions _ _ hafter).shape
  exact ⟨after, hafter, hsound.status.resolve_left hnotOpen⟩

open Localnet in
/-- The stop is reached, alice moves some money, and the keeper's tick closes her position. -/
theorem due_position_closes_stopReached :
    ∃ record, (runFrom cluster (World.genesis funds) (launch ++ stopReached)).positions
        Localnet.position = some record ∧
      ∃ after, (runFrom cluster (World.genesis funds) (launch ++ stopReached ++
          [.transfer alice admin 1000, launchedBot.tick ⟨Localnet.position, record⟩
            1007])).positions Localnet.position = some after ∧
        (after.status = statusTriggered ∨ after.status = statusCancelled) := by
  have hfields : ((runFrom cluster (World.genesis funds) (launch ++ stopReached)).positions
      Localnet.position).map (fun p => (p.status, p.feed, decide (p.DueAt 89000000))) =
        some (statusOpen, Localnet.feed, true) := by decide +kernel
  have hprices : ((runFrom cluster (World.genesis funds) (launch ++ stopReached)).feeds
      Localnet.feed).map (fun f => (f.price, f.lastUpdated)) = some (89000000, 1006) := by
    decide +kernel
  rcases Option.map_eq_some_iff.mp hfields with ⟨record, hrecord, hvalues⟩
  rcases Option.map_eq_some_iff.mp hprices with ⟨stored, hstored, hprice⟩
  simp only [Prod.mk.injEq, decide_eq_true_eq] at hvalues hprice
  rcases hvalues with ⟨hopen, hfeedKey, hdue⟩
  have hpass : launchedBot.Pass (openOf [⟨Localnet.position, record⟩])
      [.transfer alice admin 1000, launchedBot.tick ⟨Localnet.position, record⟩ 1007] := by
    simp only [openOf, hopen, decide_true, List.filter_cons_of_pos, List.filter_nil]
    exact .other _ (.tick _ _ .done)
  have hkeeper : cluster.canSign Localnet.keeper = true := by decide
  have hstart : KeeperBot.start cluster (runFrom cluster (World.genesis funds) launch)
      Localnet.keeper = some launchedBot := by decide +kernel
  have hreceiver : (runFrom cluster (World.genesis funds) (launch ++ stopReached)).feeReceiverAt
      cluster.configAddress = some launchedBot.feeReceiver := by decide +kernel
  refine ⟨record, hrecord, due_position_closes cluster funds launch stopReached funds_supply
    hkeeper hstart (lists_stopReached hrecord) hpass hrecord (hfeedKey ▸ hstored) hreceiver
    (hprice.1 ▸ hdue) ?_ ?_⟩
  · simp [Action.Disturbs, Action.WritesPrice, KeeperBot.tick]
  · intro now hmem
    rcases List.mem_cons.mp hmem with htransfer | htick
    · contradiction
    · have htime := congrArg Action.time (List.mem_singleton.mp htick)
      have hnow : now = 1007 := Option.some.inj htime
      rw [hnow, hprice.2]
      decide

end Hwal
