/-
Rounded-down quotients of a list of amounts.  What rounding takes from the pieces is
their remainders, and these are carried back in whole: a split never gains, and loses
less than one unit a piece.
-/
import Mathlib.Algebra.BigOperators.Group.List.Basic
import Mathlib.Algebra.Order.Ring.Nat

namespace FloorDivision

variable {d : Nat} {amounts : List Nat}

/-- Euclidean division, summed. -/
theorem sum_div_mod (d : Nat) (amounts : List Nat) :
    d * (amounts.map (· / d)).sum + (amounts.map (· % d)).sum = amounts.sum := by
  induction amounts with
  | nil => rfl
  | cons amount rest ih =>
      have hsplit := Nat.div_add_mod amount d
      simp only [List.map_cons, List.sum_cons, Nat.mul_add]
      omega

/-- The quotient of the whole is that of the pieces and what their remainders carry. -/
theorem sum_div_eq (hd : 0 < d) (amounts : List Nat) :
    amounts.sum / d = (amounts.map (· / d)).sum + (amounts.map (· % d)).sum / d := by
  calc amounts.sum / d
      = (d * (amounts.map (· / d)).sum + (amounts.map (· % d)).sum) / d := by
        rw [sum_div_mod]
    _ = (amounts.map (· / d)).sum + (amounts.map (· % d)).sum / d :=
        Nat.mul_add_div hd _ _

theorem sum_mod_lt (hd : 0 < d) (hne : amounts ≠ []) :
    (amounts.map (· % d)).sum < amounts.length * d := by
  induction amounts with
  | nil => contradiction
  | cons amount rest ih =>
      have hmod := Nat.mod_lt amount hd
      simp only [List.map_cons, List.sum_cons, List.length_cons, Nat.add_mul, Nat.one_mul]
      by_cases hrest : rest = []
      · subst hrest
        simpa using hmod
      · have hlater := ih hrest
        omega

theorem sum_div_le (hd : 0 < d) (amounts : List Nat) :
    (amounts.map (· / d)).sum ≤ amounts.sum / d := by
  rw [sum_div_eq hd]
  exact Nat.le_add_right _ _

theorem div_lt_sum_div_add_length (hd : 0 < d) (hne : amounts ≠ []) :
    amounts.sum / d < (amounts.map (· / d)).sum + amounts.length := by
  have hcarry : (amounts.map (· % d)).sum / d < amounts.length :=
    Nat.div_lt_of_lt_mul (by rw [Nat.mul_comm]; exact sum_mod_lt hd hne)
  rw [sum_div_eq hd]
  omega

end FloorDivision
