/-
When the order of evaluation decides: never between the stop and the take-profit, and,
while the triggers stay as they were at the opening, never between the take-profit and
the trailing stop.
-/
import Hwal.Invariants
import Hwal.PriceHistory

namespace Hwal

open Guard

/-! ### Placed triggers -/

/-- The triggers of a position relative to its entry price, off or on its proper side. -/
structure Position.AroundEntry (position : Position) : Prop where
  long : position.side = sideLong →
    (position.stopPrice = 0 ∨ position.stopPrice < position.entryPrice) ∧
      (position.takeProfitPrice = 0 ∨ position.entryPrice < position.takeProfitPrice)
  short : position.side = sideShort →
    (position.stopPrice = 0 ∨ position.entryPrice < position.stopPrice) ∧
      (position.takeProfitPrice = 0 ∨ position.takeProfitPrice < position.entryPrice)
  trailing : position.trailingOffset < position.entryPrice

theorem off_or_pos (price : UInt64) : price = 0 ∨ 0 < price := by
  by_cases hzero : price = 0
  · exact Or.inl hzero
  · exact Or.inr (UInt64.pos_iff_ne_zero.mpr hzero)

theorem Position.Sound.aroundEntry {position : Position} (h : position.Sound) :
    position.AroundEntry := by
  constructor
  case long =>
    intro hside
    exact ⟨(off_or_pos _).imp_right (h.placed.stop_long hside),
      (off_or_pos _).imp_right (h.placed.takeProfit_long hside)⟩
  case short =>
    intro hside
    have hshort : position.side ≠ sideLong := by
      rw [hside]
      decide
    exact ⟨(off_or_pos _).imp_right (h.placed.stop_short hshort),
      (off_or_pos _).imp_right (h.placed.takeProfit_short hshort)⟩
  case trailing =>
    rcases off_or_pos position.trailingOffset with hoff | hon
    · rw [hoff]
      exact UInt64.lt_iff_toNat_lt.mpr h.entry_pos
    · exact h.placed.trailing hon

/-- The entry price lies between the two, so no price reaches both. -/
theorem Position.Sound.not_stop_and_takeProfit {position : Position} (h : position.Sound)
    (price : UInt64) : ¬ (position.StopHit price ∧ position.TakeProfitHit price) := by
  rintro ⟨⟨hstop, hreached⟩, htake, hreached'⟩
  by_cases hside : position.side = sideLong
  · rw [if_pos hside] at hreached hreached'
    have hbelow := UInt64.lt_iff_toNat_lt.mp
      (h.placed.stop_long hside (UInt64.lt_iff_toNat_lt.mpr hstop))
    have habove := UInt64.lt_iff_toNat_lt.mp
      (h.placed.takeProfit_long hside (UInt64.lt_iff_toNat_lt.mpr htake))
    omega
  · rw [if_neg hside] at hreached hreached'
    have habove := UInt64.lt_iff_toNat_lt.mp
      (h.placed.stop_short hside (UInt64.lt_iff_toNat_lt.mpr hstop))
    have hbelow := UInt64.lt_iff_toNat_lt.mp
      (h.placed.takeProfit_short hside (UInt64.lt_iff_toNat_lt.mpr htake))
    omega

/-! ### The take-profit ahead of the extreme -/

/-- A step that leaves the triggers of the position at `key` as they were. -/
def TriggersKept (key : Pubkey) (m : Moment) : Prop :=
  ∀ before after, m.before.positions key = some before → m.after.positions key = some after →
    after.stopPrice = before.stopPrice ∧ after.takeProfitPrice = before.takeProfitPrice ∧
      after.trailingOffset = before.trailingOffset

/-- While the position is open its extreme has not reached its take-profit. -/
def Position.TargetAhead (position : Position) : Prop :=
  position.status = statusOpen → 0 < position.takeProfitPrice.toNat →
    if position.side = sideLong then
      position.trailingExtreme.toNat < position.takeProfitPrice.toNat
    else position.takeProfitPrice.toNat < position.trailingExtreme.toNat

section Observe

variable {position : Position} {price : UInt64}

/-- A price that has not reached the take-profit moves no extreme there. -/
theorem Position.TargetAhead.observe (h : position.TargetAhead) (hsound : position.Sound)
    (now : Int64) (hmiss : ¬ (position.observe price now).TakeProfitHit price) :
    (position.observe price now).TargetAhead := by
  intro hopen htarget
  have hold := h hopen htarget
  change if position.side = sideLong then
      (position.advanceExtreme price).toNat < position.takeProfitPrice.toNat
    else position.takeProfitPrice.toNat < (position.advanceExtreme price).toNat
  have hunreached : ¬ (0 < position.takeProfitPrice.toNat ∧ if position.side = sideLong then
      position.takeProfitPrice.toNat ≤ price.toNat
    else price.toNat ≤ position.takeProfitPrice.toNat) := hmiss
  by_cases hoff : position.trailingOffset.toNat = 0
  · rw [advanceExtreme_of_off price hoff]
    exact hold
  · have hon := Nat.pos_of_ne_zero hoff
    by_cases hside : position.side = sideLong
    · rw [if_pos hside] at hold hunreached ⊢
      rw [advanceExtreme_long price hon hside]
      have htarget' : 0 < position.takeProfitPrice.toNat := htarget
      omega
    · rw [if_neg hside] at hold hunreached ⊢
      rw [advanceExtreme_short price hon hside (hsound.extreme_short hside).1]
      have htarget' : 0 < position.takeProfitPrice.toNat := htarget
      omega

/-- The price that reaches the take-profit is itself the new extreme. -/
theorem Position.TargetAhead.not_takeProfit_and_trailing (h : position.TargetAhead)
    (hsound : position.Sound) (hopen : position.status = statusOpen) (now : Int64) :
    ¬ ((position.observe price now).TakeProfitHit price ∧
      (position.observe price now).TrailingHit price) := by
  rintro ⟨⟨htarget, hreached⟩, hon, hfallen⟩
  have hold := h hopen htarget
  have hoffset : 0 < position.trailingOffset.toNat := hon
  by_cases hside : position.side = sideLong
  · have hreached' : position.takeProfitPrice.toNat ≤ price.toNat := by
      simpa [Position.observe, hside] using hreached
    have hfallen' : price.toNat + position.trailingOffset.toNat ≤
        (position.advanceExtreme price).toNat := by
      simpa [Position.observe, hside] using hfallen
    rw [if_pos hside] at hold
    rw [advanceExtreme_long price hoffset hside] at hfallen'
    omega
  · have hreached' : price.toNat ≤ position.takeProfitPrice.toNat := by
      simpa [Position.observe, hside] using hreached
    have hfallen' : (position.advanceExtreme price).toNat + position.trailingOffset.toNat ≤
        price.toNat := by
      simpa [Position.observe, hside] using hfallen
    rw [if_neg hside] at hold
    rw [advanceExtreme_short price hoffset hside (hsound.extreme_short hside).1] at hfallen'
    omega

end Observe

section Step

variable {rt : Runtime} {w w' : World} {action : Action} {key : Pubkey} {position : Position}

/-- Only `update_triggers` changes triggers. -/
theorem triggersKept_of_not_update (hok : attempt rt w action = .ok w')
    (hnot : ∀ tx accs stopPrice takeProfitPrice trailingOffset, action =
      .invoke tx (.updateTriggers accs stopPrice takeProfitPrice trailingOffset) →
        accs.position ≠ key) :
    TriggersKept key ⟨w, action, w'⟩ := by
  intro before after hbefore hafter
  have hat := (attempt_effect hok).atPosition key
  dsimp only at hbefore hafter
  rw [hbefore, hafter] at hat
  cases hat with
  | kept pays => exact ⟨rfl, rfl, rfl⟩
  | retargeted account heff => exact absurd account (hnot _ _ _ _ _ rfl)
  | ticked account heff => exact ⟨rfl, rfl, rfl⟩
  | settled account heff => exact ⟨rfl, rfl, rfl⟩
  | cancelled account heff => exact ⟨rfl, rfl, rfl⟩
  | delegated account heff => exact ⟨rfl, rfl, rfl⟩
  | undelegated account heff => exact ⟨rfl, rfl, rfl⟩

theorem newPosition_targetAhead {accs : OpenPosition} {args : OpenPositionArgs}
    {feed : PriceFeed} {now : Int64} (h : OpenChecked feed now args) (bump : UInt8) :
    (newPosition accs args feed.price now bump).TargetAhead := by
  intro _ htarget
  have hpos : 0 < args.takeProfitPrice := UInt64.lt_iff_toNat_lt.mpr htarget
  by_cases hside : args.side = sideLong
  · have hlong : (newPosition accs args feed.price now bump).side = sideLong := hside
    rw [if_pos hlong]
    exact UInt64.lt_iff_toNat_lt.mp (h.placed.takeProfit_long hside hpos)
  · have hshort : (newPosition accs args feed.price now bump).side ≠ sideLong := hside
    rw [if_neg hshort]
    exact UInt64.lt_iff_toNat_lt.mp (h.placed.takeProfit_short hside hpos)

theorem keeps_targetAhead (hinv : Invariant rt w) (hok : attempt rt w action = .ok w')
    (hkept : TriggersKept key ⟨w, action, w'⟩)
    (h : ∀ before, w.positions key = some before → before.TargetAhead)
    (hposition : w'.positions key = some position) : position.TargetAhead := by
  have hsound (before : Position) (hbefore : w.positions key = some before) : before.Sound :=
    (hinv.positions key before hbefore).shape
  have hsame (before : Position) (hbefore : w.positions key = some before) :=
    hkept before position hbefore hposition
  have hat := (attempt_effect hok).atPosition key
  rw [hposition] at hat
  generalize w.positions key = record at hat h hsound hsame
  cases hat with
  | kept pays => exact h _ rfl
  | opened account heff => exact newPosition_targetAhead heff.checked _
  | @retargeted tx accs stop take offset before _ account heff =>
      rcases hsame before rfl with ⟨-, htake, hoffset⟩
      have hextreme := retarget_trailingExtreme before stop take offset
      rw [retarget_trailingOffset] at hoffset
      rw [retarget_takeProfitPrice] at htake
      rw [if_pos hoffset] at hextreme
      rw [retarget_frame, hextreme, htake]
      exact h before rfl
  | @ticked tx accs config feed before _ account heff =>
      have hmiss := (firstHit_eq_none_iff.mp heff.quiet).2.1
      exact (h before rfl).observe (hsound before rfl) tx.unixTimestamp hmiss
  | settled account heff =>
      intro hopen
      rw [fired_status] at hopen
      exact absurd hopen (by decide)
  | cancelled account heff =>
      intro hopen
      rw [cancelled_status] at hopen
      exact absurd hopen (by decide)
  | delegated account heff =>
      have hold := h _ rfl
      exact hold
  | undelegated account heff =>
      have hold := h _ rfl
      exact hold

end Step

/-! ### Whole runs -/

section Runs

variable (rt : Runtime) (lamports : Lamports) (actions : List Action) (key : Pubkey)

theorem targetAhead_of_run
    (hkept : ∀ m ∈ historyFrom rt (World.genesis lamports) actions, TriggersKept key m)
    {position : Position}
    (h : (runFrom rt (World.genesis lamports) actions).positions key = some position) :
    position.TargetAhead := by
  induction actions using List.reverseRecOn generalizing position with
  | nil => contradiction
  | append_singleton earlier action ih =>
      rw [historyFrom_snoc] at hkept
      rw [runFrom_snoc] at h
      have hearlier := fun m hm => hkept m (List.mem_append_left _ hm)
      have hlast := hkept _ (List.mem_append_right _ List.mem_cons_self)
      rcases step_cases rt (runFrom rt (World.genesis lamports) earlier) action with hok | hsame
      · have hreach : Reachable rt (runFrom rt (World.genesis lamports) earlier) :=
          ⟨lamports, earlier, rfl⟩
        have hinv := reachable_invariant hreach
        exact keeps_targetAhead hinv hok hlast (fun before hbefore => ih hearlier hbefore) h
      · rw [hsame] at h
        exact ih hearlier h

/-- The steps up to a tick are a run of their own, so its record has the target ahead. -/
theorem sound_and_ahead_of_tickInput
    (hkept : ∀ m ∈ historyFrom rt (World.genesis lamports) actions, TriggersKept key m)
    {m : Moment} (hm : m ∈ historyFrom rt (World.genesis lamports) actions)
    {position : Position} {price : UInt64}
    (hinput : tickInput rt key m = some (position, price)) :
    position.Sound ∧ position.TargetAhead := by
  have hloaded := (loaded_of_tickInput hinput).1
  have hinv := invariant_of_mem_history hm
  have hsound := (hinv.positions key position hloaded).shape
  rcases (Transition.mem_trace_iff (step rt)).mp hm with
    ⟨earlier, later, hactions, hbefore, -⟩
  have hearlier := Transition.forall_mem_earlier (step rt) hkept hactions
  rw [hbefore] at hloaded
  exact ⟨hsound, targetAhead_of_run rt lamports earlier key hearlier hloaded⟩

theorem firstHit_eq_takeProfit_iff {position : Position} {price : UInt64}
    (h : ¬ (position.StopHit price ∧ position.TakeProfitHit price)) :
    position.firstHit price = triggerTakeProfit ↔ position.TakeProfitHit price := by
  constructor
  · intro hfirst
    by_contra hmiss
    rw [Position.firstHit, if_neg hmiss] at hfirst
    split at hfirst
    · exact absurd hfirst (by decide)
    · split at hfirst
      · exact absurd hfirst (by decide)
      · exact absurd hfirst (by decide)
  · intro hhit
    have hstop : ¬ position.StopHit price := fun hs => h ⟨hs, hhit⟩
    rw [Position.firstHit, if_neg hstop, if_pos hhit]

/-- Without a call of `update_triggers` the triggers stay as they were. -/
theorem triggersKept_of_run (w : World)
    (hnot : ∀ tx accs stopPrice takeProfitPrice trailingOffset,
      .invoke tx (.updateTriggers accs stopPrice takeProfitPrice trailingOffset) ∈ actions →
        accs.position ≠ key) :
    ∀ m ∈ historyFrom rt w actions, TriggersKept key m := by
  intro m hm
  have hmem := action_mem_of_mem_history hm
  rcases (Transition.mem_trace_iff (step rt)).mp hm with ⟨earlier, later, -, -, hafter⟩
  rcases m with ⟨before, action, after⟩
  dsimp only at hafter hmem
  subst hafter
  rcases step_cases rt before action with hok | hsame
  · apply triggersKept_of_not_update hok
    rintro tx accs stop take offset rfl
    exact hnot tx accs stop take offset hmem
  · intro position position' hposition hposition'
    dsimp only at hposition hposition'
    rw [hsame, hposition] at hposition'
    rw [← Option.some.inj hposition']
    exact ⟨rfl, rfl, rfl⟩

/-- Stop and take-profit lie on either side of the entry price and never hold together;
and at every tick of a run that left the triggers alone, the take-profit and the trailing
condition do not hold together either, so the take-profit is recorded whenever it holds. -/
theorem evaluation_order :
    (∀ position, (runFrom rt (World.genesis lamports) actions).positions key = some position →
      position.AroundEntry ∧
        ∀ price, ¬ (position.StopHit price ∧ position.TakeProfitHit price)) ∧
    ((∀ m ∈ historyFrom rt (World.genesis lamports) actions, TriggersKept key m) →
      ∀ m ∈ historyFrom rt (World.genesis lamports) actions, ∀ position price now,
        tickInput rt key m = some (position, price) →
        ¬ ((position.observe price now).TakeProfitHit price ∧
            (position.observe price now).TrailingHit price) ∧
          ((position.observe price now).firstHit price = triggerTakeProfit ↔
            (position.observe price now).TakeProfitHit price)) := by
  constructor
  · intro position hposition
    have hreach : Reachable rt (runFrom rt (World.genesis lamports) actions) :=
      ⟨lamports, actions, rfl⟩
    have hinv := reachable_invariant hreach
    have hsound := (hinv.positions key position hposition).shape
    exact ⟨hsound.aroundEntry, hsound.not_stop_and_takeProfit⟩
  · intro hkept m hm position price now hinput
    have hopen := (loaded_of_tickInput hinput).2
    rcases sound_and_ahead_of_tickInput rt lamports actions key hkept hm hinput with
      ⟨hsound, hahead⟩
    have hnotBoth : ¬ ((position.observe price now).StopHit price ∧
        (position.observe price now).TakeProfitHit price) :=
      hsound.not_stop_and_takeProfit price
    exact ⟨hahead.not_takeProfit_and_trailing hsound hopen now,
      firstHit_eq_takeProfit_iff hnotBoth⟩

end Runs

section Target

open Localnet

/-- A long position with all three triggers, whose price rises through its target. -/
def risingPrices : List Action :=
  launch ++ [.invoke (tx alice 1003)
      (.openPosition ⟨alice, config, feed, position, systemProgramId⟩
        ⟨1, 0, 50000000, 90000000, 120000000, 5000000⟩),
    push 115000000 1004, tick feeReceiver 1005, push 121000000 1006]

/-- The tick at 121 meets the take-profit alone, though trailing is on. -/
theorem evaluation_order_risingPrices :
    ∃ position', tickInput cluster position (momentAt cluster (World.genesis funds)
        risingPrices (tick feeReceiver 1007)) = some (position', 121000000) ∧
      (position'.observe 121000000 1007).TakeProfitHit 121000000 ∧
      ¬ (position'.observe 121000000 1007).TrailingHit 121000000 := by
  have hkept : ∀ m ∈ historyFrom cluster (World.genesis funds)
      (risingPrices ++ [tick feeReceiver 1007]), TriggersKept position m := by
    apply triggersKept_of_run
    intro caller accs stop take offset hmem
    simp [risingPrices, launch, push, tick] at hmem
  have htick := momentAt_mem_history cluster (World.genesis funds) risingPrices []
    (tick feeReceiver 1007)
  have hinput : (tickInput cluster position (momentAt cluster (World.genesis funds)
      risingPrices (tick feeReceiver 1007))).map (fun input => (input.2,
        decide ((input.1.observe 121000000 1007).TakeProfitHit 121000000))) =
          some (121000000, true) := by decide +kernel
  rcases Option.map_eq_some_iff.mp hinput with ⟨⟨position', price⟩, hfound, hvalues⟩
  simp only [Prod.mk.injEq, decide_eq_true_eq] at hvalues
  rcases hvalues with ⟨rfl, htake⟩
  have hnot := ((evaluation_order cluster funds (risingPrices ++ [tick feeReceiver 1007])
    position).2 hkept _ htick position' 121000000 1007 hfound).1
  exact ⟨position', hfound, htake, fun htrail => hnot ⟨htake, htrail⟩⟩

end Target

end Hwal
