/-
The price-dependent half of `tick_position`: the guards before a price is
read, the trailing extreme, and the three trigger conditions in their fixed
order, together with an exact reading of the outcome over unbounded numbers.
-/
import Hwal.PositionInstructions

namespace Hwal

open Guard

/-- The guards of `tick_position`, up to the price it goes on with. -/
def tickPrice (position : Position) (feed : PriceFeed) (now : Int64) :
    Except ProgramError UInt64 := do
  require (position.status = statusOpen) (.hwal .positionNotOpen)
  require (feed.price > 0) (.hwal .priceFeedZero)
  requireFresh feed now
  return feed.price

theorem tickPrice_eq_ok_iff {position : Position} {feed : PriceFeed} {now : Int64}
    {price : UInt64} :
    tickPrice position feed now = .ok price ↔
      position.status = statusOpen ∧ 0 < feed.price ∧
        now.toInt - feed.lastUpdated.toInt ≤ 120 ∧ feed.price = price := by
  simp only [tickPrice, bind_eq_ok_iff, require_eq_ok_iff, requireFresh_eq_ok_iff,
    exists_and_left, exists_const, pure_eq_ok_iff]

/-- The extreme after a price is seen; it only moves while trailing is on. -/
def Position.advanceExtreme (position : Position) (price : UInt64) : UInt64 :=
  if position.trailingOffset > 0 then
    if position.side = sideLong then
      if price > position.trailingExtreme then price else position.trailingExtreme
    else if price < position.trailingExtreme ∨ position.trailingExtreme = 0 then price
    else position.trailingExtreme
  else position.trailingExtreme

/-- What every tick that passes the guards writes before it evaluates. -/
def Position.observe (position : Position) (price : UInt64) (now : Int64) : Position :=
  { position with
    lastTickAt := now
    tickCount := position.tickCount.saturatingAdd 1
    trailingExtreme := position.advanceExtreme price }

/-- The trailing comparison, reached only when neither price trigger is hit. -/
def evaluateTrailing (position : Position) (price : UInt64) : Except ProgramError UInt8 :=
  if position.trailingOffset > 0 then
    if position.side = sideLong then do
      let threshold ← okOr (position.trailingExtreme.checkedSub position.trailingOffset)
        (.hwal .trailingUnderflow)
      return if price ≤ threshold then triggerTrailing else triggerNone
    else do
      let threshold ← okOr (position.trailingExtreme.checkedAdd position.trailingOffset)
        (.hwal .mathOverflow)
      return if price ≥ threshold then triggerTrailing else triggerNone
  else .ok triggerNone

/-- First match wins: stop-loss, take-profit, trailing. -/
def evaluateTrigger (position : Position) (price : UInt64) : Except ProgramError UInt8 :=
  if position.side = sideLong then
    if position.stopPrice > 0 ∧ price ≤ position.stopPrice then .ok triggerStopLoss
    else if position.takeProfitPrice > 0 ∧ price ≥ position.takeProfitPrice then
      .ok triggerTakeProfit
    else evaluateTrailing position price
  else if position.stopPrice > 0 ∧ price ≥ position.stopPrice then .ok triggerStopLoss
  else if position.takeProfitPrice > 0 ∧ price ≤ position.takeProfitPrice then
    .ok triggerTakeProfit
  else evaluateTrailing position price

/-! ### The three conditions over unbounded numbers -/

/-- The stop condition of the position's side. -/
def Position.StopHit (position : Position) (price : UInt64) : Prop :=
  0 < position.stopPrice.toNat ∧
    if position.side = sideLong then price.toNat ≤ position.stopPrice.toNat
    else position.stopPrice.toNat ≤ price.toNat

def Position.TakeProfitHit (position : Position) (price : UInt64) : Prop :=
  0 < position.takeProfitPrice.toNat ∧
    if position.side = sideLong then position.takeProfitPrice.toNat ≤ price.toNat
    else price.toNat ≤ position.takeProfitPrice.toNat

def Position.TrailingHit (position : Position) (price : UInt64) : Prop :=
  0 < position.trailingOffset.toNat ∧
    if position.side = sideLong then
      price.toNat + position.trailingOffset.toNat ≤ position.trailingExtreme.toNat
    else position.trailingExtreme.toNat + position.trailingOffset.toNat ≤ price.toNat

instance (position : Position) (price : UInt64) : Decidable (position.StopHit price) := by
  unfold Position.StopHit
  infer_instance

instance (position : Position) (price : UInt64) :
    Decidable (position.TakeProfitHit price) := by
  unfold Position.TakeProfitHit
  infer_instance

instance (position : Position) (price : UInt64) :
    Decidable (position.TrailingHit price) := by
  unfold Position.TrailingHit
  infer_instance

/-- The first condition that holds, as the trigger code it is recorded under. -/
def Position.firstHit (position : Position) (price : UInt64) : UInt8 :=
  if position.StopHit price then triggerStopLoss
  else if position.TakeProfitHit price then triggerTakeProfit
  else if position.TrailingHit price then triggerTrailing
  else triggerNone

theorem firstHit_eq_none_iff {position : Position} {price : UInt64} :
    position.firstHit price = triggerNone ↔
      ¬ position.StopHit price ∧ ¬ position.TakeProfitHit price ∧
        ¬ position.TrailingHit price := by
  have hstopLoss : triggerStopLoss ≠ triggerNone := by decide
  have htakeProfit : triggerTakeProfit ≠ triggerNone := by decide
  have htrailing : triggerTrailing ≠ triggerNone := by decide
  by_cases hs : position.StopHit price
  · simp only [Position.firstHit, hs, ↓reduceIte, hstopLoss, not_true_eq_false, false_and]
  · by_cases ht : position.TakeProfitHit price
    · simp only [Position.firstHit, hs, ht, ↓reduceIte, htakeProfit, not_true_eq_false,
        false_and, and_false]
    · by_cases hr : position.TrailingHit price
      · simp only [Position.firstHit, hs, ht, hr, ↓reduceIte, htrailing, not_true_eq_false,
          and_false]
      · simp only [Position.firstHit, hs, ht, hr, ↓reduceIte, not_false_eq_true, and_self]

/-- The trailing threshold does not fit the machine word. -/
def Position.ThresholdOutOfRange (position : Position) : Prop :=
  0 < position.trailingOffset.toNat ∧
    if position.side = sideLong then
      position.trailingExtreme.toNat < position.trailingOffset.toNat
    else 2 ^ 64 ≤ position.trailingExtreme.toNat + position.trailingOffset.toNat

/-- The error a threshold out of range is reported with. -/
def Position.thresholdError (position : Position) : ProgramError :=
  if position.side = sideLong then .hwal .trailingUnderflow else .hwal .mathOverflow

/-- A threshold the evaluation needs and cannot compute. -/
def Position.Stuck (position : Position) (price : UInt64) : Prop :=
  ¬ position.StopHit price ∧ ¬ position.TakeProfitHit price ∧ position.ThresholdOutOfRange

theorem advanceExtreme_of_off {position : Position} (price : UInt64)
    (h : position.trailingOffset.toNat = 0) :
    position.advanceExtreme price = position.trailingExtreme := by
  have hoff : ¬ position.trailingOffset > 0 := by
    rw [gt_iff_lt, UInt64.lt_iff_toNat_lt, UInt64.toNat_zero]
    omega
  simp [Position.advanceExtreme, hoff]

theorem advanceExtreme_long {position : Position} (price : UInt64)
    (hoff : 0 < position.trailingOffset.toNat) (hside : position.side = sideLong) :
    (position.advanceExtreme price).toNat =
      max position.trailingExtreme.toNat price.toNat := by
  have hpos : position.trailingOffset > 0 := UInt64.lt_iff_toNat_lt.mpr hoff
  simp only [Position.advanceExtreme, hpos, hside, ↓reduceIte]
  by_cases hup : price > position.trailingExtreme
  · have hlt := UInt64.lt_iff_toNat_lt.mp hup
    simp only [hup, ↓reduceIte]
    omega
  · have hle := UInt64.le_iff_toNat_le.mp (UInt64.not_lt.mp hup)
    simp only [hup, ↓reduceIte]
    omega

theorem advanceExtreme_short {position : Position} (price : UInt64)
    (hoff : 0 < position.trailingOffset.toNat) (hside : position.side ≠ sideLong)
    (hextreme : 0 < position.trailingExtreme.toNat) :
    (position.advanceExtreme price).toNat =
      min position.trailingExtreme.toNat price.toNat := by
  have hpos : position.trailingOffset > 0 := UInt64.lt_iff_toNat_lt.mpr hoff
  have hnonzero : position.trailingExtreme ≠ 0 := by
    intro hzero
    rw [hzero, UInt64.toNat_zero] at hextreme
    omega
  simp only [Position.advanceExtreme, hpos, hside, hnonzero, or_false, ↓reduceIte]
  by_cases hdown : price < position.trailingExtreme
  · have hlt := UInt64.lt_iff_toNat_lt.mp hdown
    simp only [hdown, ↓reduceIte]
    omega
  · have hle := UInt64.le_iff_toNat_le.mp (UInt64.not_lt.mp hdown)
    simp only [hdown, ↓reduceIte]
    omega

/-- The trailing comparison, when the threshold can be computed. -/
theorem evaluateTrailing_eq (position : Position) (price : UInt64)
    (hrange : ¬ position.ThresholdOutOfRange) :
    evaluateTrailing position price =
      .ok (if position.TrailingHit price then triggerTrailing else triggerNone) := by
  by_cases hoff : position.trailingOffset > 0
  · have hpos : 0 < position.trailingOffset.toNat := UInt64.lt_iff_toNat_lt.mp hoff
    by_cases hside : position.side = sideLong
    · have hfits : position.trailingOffset.toNat ≤ position.trailingExtreme.toNat := by
        simpa [Position.ThresholdOutOfRange, hside, hpos] using hrange
      obtain ⟨threshold, hsub⟩ :
          ∃ t, position.trailingExtreme.checkedSub position.trailingOffset = some t := by
        refine Option.ne_none_iff_exists'.mp fun hnone => ?_
        have := UInt64.checkedSub_eq_none_iff.mp hnone
        omega
      have hvalue := UInt64.checkedSub_eq_some_iff.mp hsub
      have hiff : price ≤ threshold ↔ position.TrailingHit price := by
        rw [UInt64.le_iff_toNat_le, Position.TrailingHit]
        simp only [hside, hpos, ↓reduceIte, true_and]
        omega
      simp only [evaluateTrailing, hoff, hside, ↓reduceIte, hsub, okOr_some, ok_bind, hiff]
      rfl
    · have hfits :
          position.trailingExtreme.toNat + position.trailingOffset.toNat < 2 ^ 64 := by
        simpa [Position.ThresholdOutOfRange, hside, hpos] using hrange
      obtain ⟨threshold, hadd⟩ :
          ∃ t, position.trailingExtreme.checkedAdd position.trailingOffset = some t := by
        refine Option.ne_none_iff_exists'.mp fun hnone => ?_
        have := UInt64.checkedAdd_eq_none_iff.mp hnone
        omega
      have hvalue := UInt64.checkedAdd_eq_some_iff.mp hadd
      have hiff : price ≥ threshold ↔ position.TrailingHit price := by
        rw [ge_iff_le, UInt64.le_iff_toNat_le, Position.TrailingHit]
        simp only [hside, hpos, ↓reduceIte, true_and]
        omega
      simp only [evaluateTrailing, hoff, hside, ↓reduceIte, hadd, okOr_some, ok_bind, hiff]
      rfl
  · have hzero : position.trailingOffset.toNat = 0 := by
      have := UInt64.le_iff_toNat_le.mp (UInt64.not_lt.mp hoff)
      simpa using this
    simp [evaluateTrailing, hoff, Position.TrailingHit, hzero]

theorem evaluateTrailing_eq_error (position : Position) (price : UInt64)
    (hrange : position.ThresholdOutOfRange) :
    evaluateTrailing position price = .error position.thresholdError := by
  obtain ⟨hpos, hout⟩ := hrange
  have hoff : position.trailingOffset > 0 := UInt64.lt_iff_toNat_lt.mpr hpos
  by_cases hside : position.side = sideLong
  · simp only [hside, ↓reduceIte] at hout
    have hsub := UInt64.checkedSub_eq_none_iff.mpr hout
    simp only [evaluateTrailing, hoff, hside, ↓reduceIte, hsub, okOr_none, error_bind,
      Position.thresholdError]
  · simp only [hside, ↓reduceIte] at hout
    have hadd := UInt64.checkedAdd_eq_none_iff.mpr hout
    simp only [evaluateTrailing, hoff, hside, ↓reduceIte, hadd, okOr_none, error_bind,
      Position.thresholdError]

/-- The order of evaluation, with the machine comparisons read as numbers. -/
theorem evaluateTrigger_unfold (position : Position) (price : UInt64) :
    evaluateTrigger position price =
      if position.StopHit price then .ok triggerStopLoss
      else if position.TakeProfitHit price then .ok triggerTakeProfit
      else evaluateTrailing position price := by
  have hstop : position.stopPrice > 0 ↔ 0 < position.stopPrice.toNat :=
    UInt64.lt_iff_toNat_lt
  have htake : position.takeProfitPrice > 0 ↔ 0 < position.takeProfitPrice.toNat :=
    UInt64.lt_iff_toNat_lt
  by_cases hside : position.side = sideLong <;>
    simp only [evaluateTrigger, Position.StopHit, Position.TakeProfitHit, hside, ↓reduceIte,
      hstop, htake, ge_iff_le, UInt64.le_iff_toNat_le]

/-- Evaluation finds exactly the first condition that holds. -/
theorem evaluateTrigger_eq_firstHit {position : Position} {price : UInt64}
    (h : ¬ position.Stuck price) :
    evaluateTrigger position price = .ok (position.firstHit price) := by
  rw [evaluateTrigger_unfold, Position.firstHit]
  by_cases hstop : position.StopHit price
  · simp only [hstop, ↓reduceIte]
  · by_cases htake : position.TakeProfitHit price
    · simp only [hstop, htake, ↓reduceIte]
    · have hrange : ¬ position.ThresholdOutOfRange := fun hr => h ⟨hstop, htake, hr⟩
      simp only [hstop, htake, ↓reduceIte]
      exact evaluateTrailing_eq position price hrange

theorem evaluateTrigger_eq_error {position : Position} {price : UInt64}
    (h : position.Stuck price) :
    evaluateTrigger position price = .error position.thresholdError := by
  obtain ⟨hstop, htake, hrange⟩ := h
  rw [evaluateTrigger_unfold]
  simp only [hstop, htake, ↓reduceIte]
  exact evaluateTrailing_eq_error position price hrange

theorem evaluateTrigger_eq_ok_iff {position : Position} {price : UInt64} {trigger : UInt8} :
    evaluateTrigger position price = .ok trigger ↔
      ¬ position.Stuck price ∧ position.firstHit price = trigger := by
  by_cases h : position.Stuck price
  · simp [evaluateTrigger_eq_error h, h]
  · simp [evaluateTrigger_eq_firstHit h, h]

end Hwal
