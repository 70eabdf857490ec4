/-
The price history of one position: every tick that got past the guards is an
attempt, with the three conditions over unbounded numbers and the extreme over
all attempted prices.  The one field the code keeps is shown to follow that
extreme, and one tick to decide what the history decides.
-/
import Hwal.Lifecycle
import Hwal.Progress

namespace Hwal

open Guard

/-! ### The condition over a history -/

/-- A tick that got past the accounts and the guards: its price, the triggers in
force, and every price attempted since the offset last changed, its own included. -/
structure Attempt where
  price : Nat
  stop : Nat
  takeProfit : Nat
  offset : Nat
  window : List Nat
deriving DecidableEq, Repr

/-- The best price for the side among the entry price and a window of prices. -/
def extremeOf (side : UInt8) (entry : Nat) (window : List Nat) : Nat :=
  if side = sideLong then window.foldl max entry else window.foldl min entry

namespace Attempt

variable (attempt : Attempt) (side : UInt8) (entry : Nat)

def StopHit : Prop :=
  0 < attempt.stop ∧
    if side = sideLong then attempt.price ≤ attempt.stop else attempt.stop ≤ attempt.price

def TakeProfitHit : Prop :=
  0 < attempt.takeProfit ∧
    if side = sideLong then attempt.takeProfit ≤ attempt.price
    else attempt.price ≤ attempt.takeProfit

def TrailingHit : Prop :=
  0 < attempt.offset ∧
    if side = sideLong then
      (attempt.price : Int) ≤ extremeOf side entry attempt.window - attempt.offset
    else (extremeOf side entry attempt.window : Int) + attempt.offset ≤ attempt.price

instance : Decidable (attempt.StopHit side) := by
  unfold StopHit
  infer_instance

instance : Decidable (attempt.TakeProfitHit side) := by
  unfold TakeProfitHit
  infer_instance

instance : Decidable (attempt.TrailingHit side entry) := by
  unfold TrailingHit
  infer_instance

/-- The first condition that holds, as the reason it is recorded under. -/
def outcome : UInt8 :=
  if attempt.StopHit side then triggerStopLoss
  else if attempt.TakeProfitHit side then triggerTakeProfit
  else if attempt.TrailingHit side entry then triggerTrailing
  else triggerNone

end Attempt

/-! ### The history of one position -/

/-- The position and the price a tick of `key` evaluates, when it gets that far. -/
def tickInput (rt : Runtime) (key : Pubkey) (m : Moment) : Option (Position × UInt64) :=
  match m.action with
  | .invoke tx (.tickPosition accs) =>
      if accs.position = key ∧ tx.authentic rt = true ∧ tx.precompilesPass rt = true then
        match accs.tryAccounts rt m.before tx with
        | .ok (_, feed, position) =>
            match tickPrice position feed tx.unixTimestamp with
            | .ok price => some (position, price)
            | .error _ => none
        | .error _ => none
      else none
  | _ => none

def offsetAt (key : Pubkey) (w : World) : Option UInt64 :=
  (w.positions key).map Position.trailingOffset

/-- What an observer of the run has written down about one position. -/
structure Watch where
  window : List Nat
  attempts : List Attempt
deriving DecidableEq, Repr

def Position.attempt (position : Position) (price : UInt64) (window : List Nat) : Attempt :=
  { price := price.toNat
    stop := position.stopPrice.toNat
    takeProfit := position.takeProfitPrice.toNat
    offset := position.trailingOffset.toNat
    window := window }

def Watch.record (watch : Watch) (position : Position) (price : UInt64) : Watch :=
  let window := watch.window ++ [price.toNat]
  ⟨window, watch.attempts ++ [position.attempt price window]⟩

/-- An attempt extends the window; a changed offset empties it. -/
def Watch.next (rt : Runtime) (key : Pubkey) (watch : Watch) (m : Moment) : Watch :=
  match tickInput rt key m with
  | some (position, price) => watch.record position price
  | none =>
      if offsetAt key m.after = offsetAt key m.before then watch
      else { watch with window := [] }

def watch (rt : Runtime) (key : Pubkey) (history : List Moment) : Watch :=
  history.foldl (Watch.next rt key) ⟨[], []⟩

theorem watch_snoc (rt : Runtime) (key : Pubkey) (history : List Moment) (m : Moment) :
    watch rt key (history ++ [m]) = (watch rt key history).next rt key m := by
  rw [watch, List.foldl_append]
  rfl

/-! ### The stored extreme follows the history -/

theorem extremeOf_snoc (side : UInt8) (entry : Nat) (window : List Nat) (price : Nat) :
    extremeOf side entry (window ++ [price]) =
      if side = sideLong then max (extremeOf side entry window) price
      else min (extremeOf side entry window) price := by
  by_cases hside : side = sideLong
  · simp [extremeOf, hside]
  · simp [extremeOf, hside]

/-- The stored extreme is the extreme over the window, except that a short position
whose threshold does not fit may have missed prices: it missed none that matter. -/
def Position.Follows (position : Position) (window : List Nat) : Prop :=
  0 < position.trailingOffset.toNat →
    if position.side = sideLong then
      position.trailingExtreme.toNat = extremeOf position.side position.entryPrice.toNat window
    else
      extremeOf position.side position.entryPrice.toNat window ≤
          position.trailingExtreme.toNat ∧
        (position.trailingExtreme.toNat =
            extremeOf position.side position.entryPrice.toNat window ∨
          2 ^ 64 ≤ extremeOf position.side position.entryPrice.toNat window +
            position.trailingOffset.toNat)

theorem Position.Follows.of_entry {position : Position}
    (h : position.trailingExtreme = position.entryPrice) : position.Follows [] := by
  intro _
  have hnil : extremeOf position.side position.entryPrice.toNat [] =
      position.entryPrice.toNat := by
    simp [extremeOf]
  rw [hnil, h]
  split
  · rfl
  · exact ⟨Nat.le_refl _, Or.inl rfl⟩

section Observe

variable {position : Position} {window : List Nat} {price : UInt64}

/-- Seeing a price keeps the stored extreme in step with the window. -/
theorem Position.Follows.observe (h : position.Follows window) (hsound : position.Sound)
    (now : Int64) : (position.observe price now).Follows (window ++ [price.toNat]) := by
  intro hoff
  have hold := h hoff
  change 0 < position.trailingOffset.toNat at hoff
  change if position.side = sideLong then
      (position.advanceExtreme price).toNat =
        extremeOf position.side position.entryPrice.toNat (window ++ [price.toNat])
    else extremeOf position.side position.entryPrice.toNat (window ++ [price.toNat]) ≤
        (position.advanceExtreme price).toNat ∧
      ((position.advanceExtreme price).toNat =
          extremeOf position.side position.entryPrice.toNat (window ++ [price.toNat]) ∨
        2 ^ 64 ≤ extremeOf position.side position.entryPrice.toNat (window ++ [price.toNat]) +
          position.trailingOffset.toNat)
  rw [extremeOf_snoc]
  by_cases hside : position.side = sideLong
  · rw [if_pos hside] at hold ⊢
    rw [if_pos hside, advanceExtreme_long price hoff hside, hold]
  · rw [if_neg hside] at hold ⊢
    rw [if_neg hside, advanceExtreme_short price hoff hside (hsound.extreme_short hside).1]
    omega

/-- A tick that aborts on the threshold leaves the record behind the window, but
only where the window's threshold does not fit either. -/
theorem Position.Follows.stuck (h : position.Follows window) (hsound : position.Sound)
    (hover : position.ThresholdOverflows price) :
    position.Follows (window ++ [price.toNat]) := by
  intro hoff
  have hold := h hoff
  have hside := (sideShort_iff hsound).mp hover.1
  have hout := hover.2.2.2.2
  rw [if_neg hside] at hold ⊢
  rw [extremeOf_snoc, if_neg hside]
  omega

/-- When the threshold fits, the extreme is exact. -/
theorem Position.Follows.exact_of_fits (h : position.Follows window)
    (hoff : 0 < position.trailingOffset.toNat)
    (hfits : ¬ position.ThresholdOutOfRange) :
    position.trailingExtreme.toNat =
      extremeOf position.side position.entryPrice.toNat window := by
  have hold := h hoff
  by_cases hside : position.side = sideLong
  · rw [if_pos hside] at hold
    exact hold
  · rw [if_neg hside] at hold
    rcases hold.2 with hexact | hfar
    · exact hexact
    · exfalso
      apply hfits
      refine ⟨hoff, ?_⟩
      rw [if_neg hside]
      omega

/-- When the threshold of the history fits, the extreme is exact as well. -/
theorem Position.Follows.exact_of_window_fits (h : position.Follows window)
    (hoff : 0 < position.trailingOffset.toNat)
    (hroom : extremeOf position.side position.entryPrice.toNat window +
      position.trailingOffset.toNat < 2 ^ 64) :
    position.trailingExtreme.toNat =
      extremeOf position.side position.entryPrice.toNat window := by
  have hold := h hoff
  by_cases hside : position.side = sideLong
  · rw [if_pos hside] at hold
    exact hold
  · rw [if_neg hside] at hold
    omega

/-- Past its guards and with a threshold that fits, a tick decides exactly what the
history decides. -/
theorem Position.Follows.outcome_eq_firstHit (h : position.Follows window)
    (hsound : position.Sound) (now : Int64)
    (hstuck : ¬ (position.observe price now).Stuck price) :
    (position.attempt price (window ++ [price.toNat])).outcome position.side
        position.entryPrice.toNat =
      (position.observe price now).firstHit price := by
  have hstop : (position.attempt price (window ++ [price.toNat])).StopHit position.side ↔
      (position.observe price now).StopHit price := Iff.rfl
  have htake : (position.attempt price (window ++ [price.toNat])).TakeProfitHit position.side ↔
      (position.observe price now).TakeProfitHit price := Iff.rfl
  rw [Attempt.outcome, Position.firstHit]
  by_cases hs : (position.observe price now).StopHit price
  · rw [if_pos hs, if_pos (hstop.mpr hs)]
  · rw [if_neg hs, if_neg (fun hh => hs (hstop.mp hh))]
    by_cases ht : (position.observe price now).TakeProfitHit price
    · rw [if_pos ht, if_pos (htake.mpr ht)]
    · rw [if_neg ht, if_neg (fun hh => ht (htake.mp hh))]
      have hfits : ¬ (position.observe price now).ThresholdOutOfRange :=
        fun hr => hstuck ⟨hs, ht, hr⟩
      have htrail : (position.attempt price (window ++ [price.toNat])).TrailingHit position.side
          position.entryPrice.toNat ↔ (position.observe price now).TrailingHit price := by
        by_cases hoff : 0 < position.trailingOffset.toNat
        · have hexact := (h.observe hsound now).exact_of_fits hoff hfits
          change (position.advanceExtreme price).toNat = extremeOf position.side
            position.entryPrice.toNat (window ++ [price.toNat]) at hexact
          change (0 < position.trailingOffset.toNat ∧ if position.side = sideLong then
              (price.toNat : Int) ≤ extremeOf position.side position.entryPrice.toNat
                (window ++ [price.toNat]) - position.trailingOffset.toNat
            else (extremeOf position.side position.entryPrice.toNat
                (window ++ [price.toNat]) : Int) + position.trailingOffset.toNat ≤
              price.toNat) ↔
            (0 < position.trailingOffset.toNat ∧ if position.side = sideLong then
              price.toNat + position.trailingOffset.toNat ≤
                (position.advanceExtreme price).toNat
            else (position.advanceExtreme price).toNat + position.trailingOffset.toNat ≤
              price.toNat)
          rw [← hexact]
          by_cases hside : position.side = sideLong
          · rw [if_pos hside, if_pos hside]
            omega
          · rw [if_neg hside, if_neg hside]
            omega
        · exact ⟨fun hh => absurd hh.1 hoff, fun hh => absurd hh.1 hoff⟩
      by_cases hr : (position.observe price now).TrailingHit price
      · rw [if_pos hr, if_pos (htrail.mpr hr)]
      · rw [if_neg hr, if_neg (fun hh => hr (htrail.mp hh))]

/-- After a tick that goes through, the stored extreme is the one of the history; only a
short position closed by its stop or its take-profit, its threshold past `u64`, may end
with another. -/
theorem Position.Follows.exact_after_tick (h : position.Follows window)
    (hsound : position.Sound) (now : Int64)
    (hstuck : ¬ (position.observe price now).Stuck price)
    (hoff : 0 < position.trailingOffset.toNat)
    (hknown : position.side = sideLong ∨
      ((position.observe price now).firstHit price ≠ triggerStopLoss ∧
        (position.observe price now).firstHit price ≠ triggerTakeProfit) ∨
      extremeOf position.side position.entryPrice.toNat (window ++ [price.toNat]) +
        position.trailingOffset.toNat < 2 ^ 64) :
    (position.advanceExtreme price).toNat =
      extremeOf position.side position.entryPrice.toNat (window ++ [price.toNat]) := by
  have hobserved : (position.observe price now).Follows (window ++ [price.toNat]) :=
    h.observe hsound now
  rcases hknown with hlong | ⟨hnotStop, hnotTake⟩ | hroom
  · apply hobserved.exact_of_fits hoff
    intro hrange
    have hside : (position.observe price now).side = sideLong := hlong
    have hextreme := advanceExtreme_long price hoff hlong
    have hentry := hsound.extreme_long hlong
    have hplaced := UInt64.lt_iff_toNat_lt.mp
      (hsound.placed.trailing (UInt64.lt_iff_toNat_lt.mpr hoff))
    have hbelow := hrange.2
    rw [if_pos hside] at hbelow
    change (position.advanceExtreme price).toNat < position.trailingOffset.toNat at hbelow
    omega
  · apply hobserved.exact_of_fits hoff
    intro hrange
    apply hstuck
    refine ⟨fun hs => hnotStop ?_, fun ht => ?_, hrange⟩
    · rw [Position.firstHit, if_pos hs]
    · by_cases hs : (position.observe price now).StopHit price
      · exact hnotStop (by rw [Position.firstHit, if_pos hs])
      · exact hnotTake (by rw [Position.firstHit, if_neg hs, if_pos ht])
  · exact hobserved.exact_of_window_fits hoff hroom

/-- Where the code aborts, none of the three conditions holds. -/
theorem Position.Follows.outcome_of_overflow (h : position.Follows window)
    (hsound : position.Sound) (hover : position.ThresholdOverflows price) :
    (position.attempt price (window ++ [price.toNat])).outcome position.side
        position.entryPrice.toNat = triggerNone := by
  have hside := (sideShort_iff hsound).mp hover.1
  have hoff := hover.2.2.2.1
  have hout := hover.2.2.2.2
  have hbehind := h.stuck hsound hover hoff
  rw [if_neg hside] at hbehind
  have hprice := price.toNat_lt
  have hstop : ¬ (position.attempt price (window ++ [price.toNat])).StopHit position.side :=
    hover.2.1
  have htake : ¬ (position.attempt price (window ++ [price.toNat])).TakeProfitHit
      position.side := hover.2.2.1
  have htrail : ¬ (position.attempt price (window ++ [price.toNat])).TrailingHit position.side
      position.entryPrice.toNat := by
    rintro ⟨-, hhit⟩
    rw [if_neg hside] at hhit
    dsimp only [Position.attempt] at hhit
    omega
  rw [Attempt.outcome, if_neg hstop, if_neg htake, if_neg htrail]

end Observe

theorem tickInput_eq_some_iff {rt : Runtime} {key : Pubkey} {m : Moment}
    {position : Position} {price : UInt64} :
    tickInput rt key m = some (position, price) ↔
      ∃ (tx : Tx) (accs : TickPosition) (config : Config) (feed : PriceFeed),
        m.action = .invoke tx (.tickPosition accs) ∧ accs.position = key ∧
        tx.authentic rt = true ∧ tx.precompilesPass rt = true ∧
        TickAccounts accs rt m.before tx config feed position ∧
        tickPrice position feed tx.unixTimestamp = .ok feed.price ∧ feed.price = price := by
  constructor
  · intro h
    unfold tickInput at h
    split at h
    · rename_i tx accs haction
      split at h
      · rename_i hrun
        split at h
        · rename_i config feed loaded htry
          split at h
          · rename_i found hprice
            have hsame := (tickPrice_eq_ok_iff.mp hprice).2.2.2
            simp only [Option.some.injEq, Prod.mk.injEq] at h
            rcases h with ⟨rfl, rfl⟩
            rw [← hsame] at hprice
            exact ⟨tx, accs, config, feed, haction, hrun.1, hrun.2.1, hrun.2.2,
              tickPosition_tryAccounts_eq_ok_iff.mp htry, hprice, hsame⟩
          · contradiction
        · contradiction
      · contradiction
    · contradiction
  · rintro ⟨tx, accs, config, feed, haction, hkey, htx, hpre, haccs, hprice, rfl⟩
    have htry := tickPosition_tryAccounts_eq_ok_iff.mpr haccs
    simp only [tickInput, haction, hkey, htx, hpre, and_self, ↓reduceIte, htry, hprice]

/-- The evaluation reads the stored record, and only while it is open. -/
theorem loaded_of_tickInput {rt : Runtime} {key : Pubkey} {m : Moment} {position : Position}
    {price : UInt64} (h : tickInput rt key m = some (position, price)) :
    m.before.positions key = some position ∧ position.status = statusOpen := by
  rcases tickInput_eq_some_iff.mp h with
    ⟨tx, accs, config, feed, -, haccount, -, -, haccs, hguards, -⟩
  have hloaded := haccs.position_loaded
  rw [haccount] at hloaded
  exact ⟨hloaded, (tickPrice_eq_ok_iff.mp hguards).1⟩

/-- A tick that goes through is an attempt at the price it evaluated. -/
theorem tickInput_of_ok {rt : Runtime} {w w' : World} {tx : Tx} {accs : TickPosition}
    {config : Config} {feed : PriceFeed} {position : Position}
    (hok : attempt rt w (.invoke tx (.tickPosition accs)) = .ok w')
    (heff : TickEvaluated rt w tx accs config feed position) :
    tickInput rt accs.position ⟨w, .invoke tx (.tickPosition accs), w'⟩ =
      some (position, feed.price) := by
  rcases attempt_invoke_eq_ok_iff.mp hok with ⟨htx, hpre, -⟩
  exact tickInput_eq_some_iff.mpr ⟨tx, accs, config, feed, rfl, rfl, htx, hpre,
    heff.accounts, heff.guards, rfl⟩

end Hwal
