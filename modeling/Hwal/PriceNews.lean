/-
What a trigger waits for.  A position that was looked at and left open is not fired by
looking again: it takes another price, on the far side of a trigger, or other triggers.
-/
import Hwal.SettlementDeltas

namespace Hwal

open Guard

/-- A tick on the position at `key` that went through at this price. -/
def SeesPrice (rt : Runtime) (key : Pubkey) (price : UInt64) (m : Moment) : Prop :=
  Succeeded rt m ∧ ∃ tx accs feed, m.action = .invoke tx (.tickPosition accs) ∧
    accs.position = key ∧ m.before.feeds accs.feed = some feed ∧ feed.price = price

/-- A deposit into the position at `key` at this entry price. -/
def EntersAt (rt : Runtime) (key : Pubkey) (price : UInt64) (m : Moment) : Prop :=
  Succeeded rt m ∧ ∃ tx accs args feed, m.action = .invoke tx (.openPosition accs args) ∧
    accs.position = key ∧ m.before.feeds accs.feed = some feed ∧ feed.price = price

/-- The program saw the position and a price together, and left the position open. -/
def LeftOpenAt (rt : Runtime) (key : Pubkey) (price : UInt64) (m : Moment) : Prop :=
  (SeesPrice rt key price m ∨ EntersAt rt key price m) ∧
    (m.after.positions key).map Position.status = some statusOpen

/-- An `update_triggers` on the position at `key` that went through. -/
def Retargets (rt : Runtime) (key : Pubkey) (m : Moment) : Prop :=
  Succeeded rt m ∧ ∃ tx accs stopPrice takeProfitPrice trailingOffset,
    m.action = .invoke tx (.updateTriggers accs stopPrice takeProfitPrice trailingOffset) ∧
      accs.position = key

/-- The second price is worse than the first for a position of this side. -/
def Adverse (side : UInt8) (price price' : UInt64) : Prop :=
  if side = sideLong then price'.toNat < price.toNat else price.toNat < price'.toNat

/-- The extreme has taken this price in, and no trigger answers to it. -/
structure Position.Calm (position : Position) (price : UInt64) : Prop where
  seen : position.advanceExtreme price = position.trailingExtreme
  quiet : position.firstHit price = triggerNone

namespace Position.Calm

variable {position : Position} {price : UInt64}

theorem advanceExtreme_twice (position : Position) (price : UInt64) (now : Int64) :
    (position.observe price now).advanceExtreme price =
      (position.observe price now).trailingExtreme := by
  simp only [observe, advanceExtreme]
  split
  · split
    · split <;> simp_all
    · split <;> simp_all
  · rfl

theorem of_observe {now : Int64}
    (h : (position.observe price now).firstHit price = triggerNone) :
    (position.observe price now).Calm price :=
  ⟨advanceExtreme_twice position price now, h⟩

/-- Looking again at the same price finds nothing new. -/
theorem observe_eq (h : position.Calm price) (now : Int64) :
    position.observe price now =
      { position with lastTickAt := now, tickCount := position.tickCount.saturatingAdd 1 } := by
  rw [observe, h.seen]

theorem quiet_again (h : position.Calm price) (now : Int64) :
    (position.observe price now).firstHit price = triggerNone := by
  rw [h.observe_eq now]
  exact h.quiet

theorem observe (h : position.Calm price) (now : Int64) :
    (position.observe price now).Calm price :=
  of_observe (h.quiet_again now)

/-- A deposit is made on the right side of its triggers. -/
theorem of_open {accs : OpenPosition} {args : OpenPositionArgs} {entryPrice : UInt64}
    (h : TriggersPlaced args.side entryPrice args.stopPrice args.takeProfitPrice
      args.trailingOffset) (now : Int64) (bump : UInt8) :
    (newPosition accs args entryPrice now bump).Calm entryPrice := by
  constructor
  · simp [advanceExtreme, newPosition]
  · apply firstHit_eq_none_iff.mpr
    refine ⟨?_, ?_, ?_⟩
    · rintro ⟨hpos, hhit⟩
      have hset : 0 < args.stopPrice := UInt64.lt_iff_toNat_lt.mpr hpos
      by_cases hside : args.side = sideLong
      · have hplaced := UInt64.lt_iff_toNat_lt.mp (h.stop_long hside hset)
        simp only [newPosition, hside, ↓reduceIte] at hhit
        omega
      · have hplaced := UInt64.lt_iff_toNat_lt.mp (h.stop_short hside hset)
        simp only [newPosition, hside, ↓reduceIte] at hhit
        omega
    · rintro ⟨hpos, hhit⟩
      have hset : 0 < args.takeProfitPrice := UInt64.lt_iff_toNat_lt.mpr hpos
      by_cases hside : args.side = sideLong
      · have hplaced := UInt64.lt_iff_toNat_lt.mp (h.takeProfit_long hside hset)
        simp only [newPosition, hside, ↓reduceIte] at hhit
        omega
      · have hplaced := UInt64.lt_iff_toNat_lt.mp (h.takeProfit_short hside hset)
        simp only [newPosition, hside, ↓reduceIte] at hhit
        omega
    · rintro ⟨hpos, hhit⟩
      by_cases hside : args.side = sideLong
      · simp only [newPosition, hside, ↓reduceIte] at hpos hhit
        omega
      · simp only [newPosition, hside, ↓reduceIte] at hpos hhit
        omega

/-! ### Which way the price went -/

section Fires

variable {price' : UInt64} {now : Int64}

theorem stop_adverse (h : position.Calm price)
    (hhit : (position.observe price' now).StopHit price') :
    Adverse position.side price price' := by
  have hquiet := (firstHit_eq_none_iff.mp h.quiet).1
  rcases hhit with ⟨hpos, hhit⟩
  simp only [StopHit, not_and] at hquiet
  have hfar := hquiet hpos
  unfold Adverse
  by_cases hside : position.side = sideLong
  · simp only [Position.observe, hside, ↓reduceIte] at hhit hfar ⊢
    omega
  · simp only [Position.observe, hside, ↓reduceIte] at hhit hfar ⊢
    omega

theorem takeProfit_favourable (h : position.Calm price)
    (hhit : (position.observe price' now).TakeProfitHit price') :
    Adverse position.side price' price := by
  have hquiet := (firstHit_eq_none_iff.mp h.quiet).2.1
  rcases hhit with ⟨hpos, hhit⟩
  simp only [TakeProfitHit, not_and] at hquiet
  have hfar := hquiet hpos
  unfold Adverse
  by_cases hside : position.side = sideLong
  · simp only [Position.observe, hside, ↓reduceIte] at hhit hfar ⊢
    omega
  · simp only [Position.observe, hside, ↓reduceIte] at hhit hfar ⊢
    omega

/-- The new price itself is too close to its own extreme, so the old extreme decides. -/
theorem trailing_adverse (h : position.Calm price) (hsound : position.Sound)
    (hhit : (position.observe price' now).TrailingHit price') :
    Adverse position.side price price' := by
  have hquiet := (firstHit_eq_none_iff.mp h.quiet).2.2
  rcases hhit with ⟨hpos, hhit⟩
  simp only [TrailingHit, not_and] at hquiet
  have hfar := hquiet hpos
  have hoff : 0 < position.trailingOffset.toNat := hpos
  unfold Adverse
  by_cases hside : position.side = sideLong
  · have hextreme := advanceExtreme_long price' hoff hside
    simp only [Position.observe, hside, ↓reduceIte] at hhit hfar ⊢
    omega
  · have hextreme := advanceExtreme_short price' hoff hside (hsound.extreme_short hside).1
    simp only [Position.observe, hside, ↓reduceIte] at hhit hfar ⊢
    omega

/-- A calm position that fires has seen the price move: in its favour for the take-profit,
against it for the stop and for the trailing stop. -/
theorem fires (h : position.Calm price) (hsound : position.Sound)
    (hfires : (position.observe price' now).firstHit price' ≠ triggerNone) :
    if (position.observe price' now).firstHit price' = triggerTakeProfit then
      Adverse position.side price' price
    else Adverse position.side price price' := by
  have hstopCode : triggerStopLoss ≠ triggerTakeProfit := by decide
  have htrailingCode : triggerTrailing ≠ triggerTakeProfit := by decide
  by_cases hstop : (position.observe price' now).StopHit price'
  · rw [firstHit, if_pos hstop, if_neg hstopCode]
    exact h.stop_adverse hstop
  · by_cases htakeProfit : (position.observe price' now).TakeProfitHit price'
    · rw [firstHit, if_neg hstop, if_pos htakeProfit, if_pos rfl]
      exact h.takeProfit_favourable htakeProfit
    · by_cases htrailing : (position.observe price' now).TrailingHit price'
      · rw [firstHit, if_neg hstop, if_neg htakeProfit, if_pos htrailing, if_neg htrailingCode]
        exact h.trailing_adverse hsound htrailing
      · exact absurd (firstHit_eq_none_iff.mpr ⟨hstop, htakeProfit, htrailing⟩) hfires

end Fires

end Position.Calm

/-! ### Runs -/

section Runs

variable {rt : Runtime} {w : World} {key : Pubkey} {price : UInt64} {position : Position}

/-- What a look leaves open is calm. -/
theorem calm_of_leftOpenAt {look : Action}
    (h : LeftOpenAt rt key price ⟨w, look, step rt w look⟩) :
    ∃ position, (step rt w look).positions key = some position ∧ position.Calm price ∧
      position.status ≠ statusTriggered := by
  rcases h with ⟨hlooked, hopen⟩
  rcases Option.map_eq_some_iff.mp hopen with ⟨position, hposition, hstatus⟩
  have hnotTriggered : position.status ≠ statusTriggered := by
    rw [hstatus]
    decide
  refine ⟨position, hposition, ?_, hnotTriggered⟩
  rcases hlooked with ⟨hok, tx, accs, feed, haction, rfl, hfeed, rfl⟩ |
    ⟨hok, tx, accs, args, feed, haction, rfl, hfeed, rfl⟩
  · dsimp only at haction hfeed hposition
    subst haction
    have heffect := attempt_effect hok
    dsimp only at heffect
    generalize step rt w (.invoke tx (.tickPosition accs)) = w' at heffect hposition
    cases heffect with
    | tickRecorded heff =>
        rw [heff.positions, Function.update_self] at hposition
        obtain rfl := Option.some.inj hposition
        obtain rfl := Option.some.inj (heff.accounts.feed_loaded.symm.trans hfeed)
        exact .of_observe heff.quiet
    | positionSettled heff =>
        rw [heff.positions, Function.update_self] at hposition
        obtain rfl := Option.some.inj hposition
        exact absurd rfl hnotTriggered
  · dsimp only at haction hfeed hposition
    subst haction
    have heffect := attempt_effect hok
    dsimp only at heffect
    generalize step rt w (.invoke tx (.openPosition accs args)) = w' at heffect hposition
    cases heffect with
    | positionOpened heff =>
        rw [heff.positions, Function.update_self] at hposition
        obtain rfl := Option.some.inj hposition
        obtain rfl := Option.some.inj (heff.feed_loaded.symm.trans hfeed)
        exact .of_open heff.checked.placed _ _

/-- A step that neither shows the position another price nor changes its triggers. -/
theorem calm_step (hposition : w.positions key = some position) (hcalm : position.Calm price)
    (hstatus : position.status ≠ statusTriggered) {action : Action}
    (hprice : ∀ seen, SeesPrice rt key seen ⟨w, action, step rt w action⟩ → seen = price)
    (hkept : ¬ Retargets rt key ⟨w, action, step rt w action⟩) :
    ∃ position', (step rt w action).positions key = some position' ∧
      position'.Calm price ∧ position'.status ≠ statusTriggered := by
  rcases step_cases rt w action with hok | hsame
  · have hat := (attempt_effect hok).atPosition key
    rw [hposition] at hat
    generalize hafter : (step rt w action).positions key = after at hat
    cases hat with
    | kept pays => exact ⟨position, rfl, hcalm, hstatus⟩
    | retargeted account heff => exact absurd ⟨hok, _, _, _, _, _, rfl, account⟩ hkept
    | ticked account heff =>
        have hseen := hprice _ ⟨hok, _, _, _, rfl, account, heff.accounts.feed_loaded, rfl⟩
        rw [hseen]
        exact ⟨_, rfl, hcalm.observe _, hstatus⟩
    | settled account heff =>
        have hseen := hprice _ ⟨hok, _, _, _, rfl, account, heff.accounts.feed_loaded, rfl⟩
        have hfires := heff.fires
        rw [hseen] at hfires
        exact absurd (hcalm.quiet_again _) hfires
    | cancelled account heff =>
        have hcancelled : statusCancelled ≠ statusTriggered := by decide
        exact ⟨_, rfl, ⟨hcalm.seen, hcalm.quiet⟩, hcancelled⟩
    | delegated account heff => exact ⟨_, rfl, ⟨hcalm.seen, hcalm.quiet⟩, hstatus⟩
    | undelegated account heff => exact ⟨_, rfl, ⟨hcalm.seen, hcalm.quiet⟩, hstatus⟩
  · rw [hsame]
    exact ⟨position, hposition, hcalm, hstatus⟩

theorem calm_run (hposition : w.positions key = some position) (hcalm : position.Calm price)
    (hstatus : position.status ≠ statusTriggered) {later : List Action}
    (hprice : ∀ m ∈ historyFrom rt w later, ∀ seen, SeesPrice rt key seen m → seen = price)
    (hkept : ∀ m ∈ historyFrom rt w later, ¬ Retargets rt key m) :
    (∀ m ∈ historyFrom rt w later, ¬ FiresAt rt key m) ∧
      ∃ position', (runFrom rt w later).positions key = some position' ∧
        position'.Calm price := by
  induction later generalizing w position with
  | nil => exact ⟨by simp, position, hposition, hcalm⟩
  | cons action rest ih =>
      simp only [historyFrom, Transition.trace, List.forall_mem_cons] at hprice hkept ⊢
      rcases calm_step hposition hcalm hstatus hprice.1 hkept.1 with
        ⟨position', hposition', hcalm', hstatus'⟩
      rcases ih hposition' hcalm' hstatus' hprice.2 hkept.2 with ⟨hnever, hend⟩
      refine ⟨⟨?_, hnever⟩, hend⟩
      rintro ⟨-, -, -, -, -, htriggered⟩
      dsimp only at htriggered
      rw [hposition'] at htriggered
      exact hstatus' (Option.some.inj htriggered)

end Runs

/-- A look at a position that leaves it open settles the matter for that price. As long as
ticks see no other price and nobody changes the triggers, none of them fires, however often
keepers try; and the first tick that does fire has seen the price move since, in the
position's favour if it is the take-profit and against it if it is a stop. -/
theorem trigger_needs_news (rt : Runtime) (lamports : Lamports) (earlier middle : List Action)
    (look : Action) {key : Pubkey} {price : UInt64} :
    let w := runFrom rt (World.genesis lamports) earlier
    let looked := step rt w look
    LeftOpenAt rt key price ⟨w, look, looked⟩ →
    (∀ m ∈ historyFrom rt looked middle, ∀ seen, SeesPrice rt key seen m → seen = price) →
    (∀ m ∈ historyFrom rt looked middle, ¬ Retargets rt key m) →
    (∀ m ∈ historyFrom rt looked middle, ¬ FiresAt rt key m) ∧
      ∀ (fire : Action) (price' : UInt64) (fired : Position),
        let w' := runFrom rt looked middle
        SeesPrice rt key price' ⟨w', fire, step rt w' fire⟩ →
        (step rt w' fire).positions key = some fired →
        fired.status = statusTriggered →
        if fired.triggerReason = triggerTakeProfit then Adverse fired.side price' price
        else Adverse fired.side price price' := by
  intro w looked hlook hprice hkept
  rcases calm_of_leftOpenAt hlook with ⟨position, hposition, hcalm, hstatus⟩
  rcases calm_run hposition hcalm hstatus hprice hkept with
    ⟨hnever, before, hbefore, hcalmBefore⟩
  refine ⟨hnever, ?_⟩
  intro fire price' fired w' hsees hfired htriggered
  have hreach : Reachable rt w' := by
    have hlooked : Reachable rt looked := (Reachable.run ⟨lamports, earlier, rfl⟩ [look])
    exact hlooked.run middle
  have hsound := ((reachable_invariant hreach).positions _ _ hbefore).shape
  rcases hsees with ⟨hok, tx, accs, feed, haction, rfl, hfeed, rfl⟩
  dsimp only at haction hfeed
  subst haction
  have heffect := attempt_effect hok
  dsimp only at heffect
  generalize step rt w' (.invoke tx (.tickPosition accs)) = w'' at heffect hfired
  cases heffect with
  | tickRecorded heff =>
      rw [heff.positions, Function.update_self] at hfired
      obtain rfl := Option.some.inj hfired
      have hopen := (tickPrice_eq_ok_iff.mp heff.guards).1
      have hsame : statusOpen = statusTriggered := hopen.symm.trans htriggered
      exact absurd hsame (by decide)
  | positionSettled heff =>
      rw [heff.positions, Function.update_self] at hfired
      obtain rfl := Option.some.inj hfired
      obtain rfl := Option.some.inj (heff.accounts.feed_loaded.symm.trans hfeed)
      obtain rfl := Option.some.inj (heff.accounts.position_loaded.symm.trans hbefore)
      exact hcalmBefore.fires hsound heff.fires

section Waiting

open Localnet

/-- A tick at the entry price, then a lower price. -/
def waiting : List Action := [tick feeReceiver 1004, push 80000000 1005]

theorem leftOpenAt_deposit {w : World}
    (hfeed : (w.feeds feed).map PriceFeed.price = some 100000000)
    (hok : (attempt cluster w deposit).isOk = true)
    (hopen : ((step cluster w deposit).positions position).map Position.status =
      some statusOpen) :
    LeftOpenAt cluster position 100000000 ⟨w, deposit, step cluster w deposit⟩ := by
  rcases Option.map_eq_some_iff.mp hfeed with ⟨record, hrecord, hprice⟩
  refine ⟨Or.inr ⟨succeeded_of_isOk hok, ?_⟩, hopen⟩
  exact ⟨_, _, _, record, rfl, rfl, hrecord, hprice⟩

theorem waiting_shows {w : World}
    (hfeed : (w.feeds feed).map PriceFeed.price = some 100000000) :
    ∀ m ∈ historyFrom cluster w waiting,
      (∀ seen, SeesPrice cluster position seen m → seen = 100000000) ∧
        ¬ Retargets cluster position m := by
  intro m hm
  rcases List.mem_pair.mp hm with rfl | rfl
  · constructor
    · rintro seen ⟨-, tx, accs, record, haction, -, hrecord, rfl⟩
      injection haction with _ hix
      injection hix with haccs
      dsimp only at hrecord
      rw [← haccs] at hrecord
      rw [hrecord] at hfeed
      exact Option.some.inj hfeed
    · rintro ⟨-, tx, accs, stop, take, offset, haction, -⟩
      injection haction with _ hix
      contradiction
  · constructor
    · rintro seen ⟨-, tx, accs, record, haction, -⟩
      injection haction with _ hix
      contradiction
    · rintro ⟨-, tx, accs, stop, take, offset, haction, -⟩
      injection haction with _ hix
      contradiction

/-- The first tick sees the entry price again and does not fire, the second one sees a
lower price, and what fires is not the take-profit. -/
theorem trigger_needs_news_waiting :
    let looked := step cluster (runFrom cluster (World.genesis funds) launch) deposit
    (∀ m ∈ historyFrom cluster looked waiting, ¬ FiresAt cluster position m) ∧
      ∃ fired, (step cluster (runFrom cluster looked waiting)
          (tick feeReceiver 1006)).positions position = some fired ∧
        fired.status = statusTriggered ∧
        if fired.triggerReason = triggerTakeProfit then Adverse fired.side 80000000 100000000
        else Adverse fired.side 100000000 80000000 := by
  have hfeed : ((runFrom cluster (World.genesis funds) launch).feeds feed).map
      PriceFeed.price = some 100000000 := by decide +kernel
  have hok : (attempt cluster (runFrom cluster (World.genesis funds) launch)
      deposit).isOk = true := by decide +kernel
  have hopen : ((step cluster (runFrom cluster (World.genesis funds) launch)
      deposit).positions position).map Position.status = some statusOpen := by decide +kernel
  have hfeedLooked : ((step cluster (runFrom cluster (World.genesis funds) launch)
      deposit).feeds feed).map PriceFeed.price = some 100000000 := by decide +kernel
  have hfired : ((step cluster (runFrom cluster (step cluster
      (runFrom cluster (World.genesis funds) launch) deposit) waiting)
      (tick feeReceiver 1006)).positions position).map Position.status =
        some statusTriggered := by decide +kernel
  have hticked : (attempt cluster (runFrom cluster (step cluster
      (runFrom cluster (World.genesis funds) launch) deposit) waiting)
      (tick feeReceiver 1006)).isOk = true := by decide +kernel
  have hlower : ((runFrom cluster (step cluster
      (runFrom cluster (World.genesis funds) launch) deposit) waiting).feeds feed).map
        PriceFeed.price = some 80000000 := by decide +kernel
  rcases Option.map_eq_some_iff.mp hfired with ⟨fired, hposition, hstatus⟩
  rcases Option.map_eq_some_iff.mp hlower with ⟨record, hrecord, hprice⟩
  have hshows := waiting_shows hfeedLooked
  have hnews := trigger_needs_news cluster funds launch waiting deposit
    (leftOpenAt_deposit hfeed hok hopen) (fun m hm => (hshows m hm).1)
    (fun m hm => (hshows m hm).2)
  refine ⟨hnews.1, fired, hposition, hstatus, ?_⟩
  exact hnews.2 (tick feeReceiver 1006) 80000000 fired
    ⟨succeeded_of_isOk hticked, _, _, record, rfl, rfl, hrecord, hprice⟩ hposition hstatus

end Waiting

end Hwal
