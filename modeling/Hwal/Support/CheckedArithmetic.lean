/-
Checked, saturating and widening integer arithmetic on the fixed-width types,
as Rust's standard library documents it.  Every operation comes with one exact
reading over the unbounded integers; later proofs use only these readings.
-/
import Mathlib.Algebra.Ring.Int.Defs
import Mathlib.Algebra.Ring.Nat

namespace UInt64

/-- `u64::checked_add`. -/
def checkedAdd (a b : UInt64) : Option UInt64 :=
  if a.toNat + b.toNat < 2 ^ 64 then some (a + b) else none

/-- `u64::checked_sub`. -/
def checkedSub (a b : UInt64) : Option UInt64 :=
  if b ≤ a then some (a - b) else none

/-- `u64::saturating_add`. -/
def saturatingAdd (a b : UInt64) : UInt64 :=
  if a.toNat + b.toNat < 2 ^ 64 then a + b else UInt64.ofNat (2 ^ 64 - 1)

/-- `u64::saturating_sub`. -/
def saturatingSub (a b : UInt64) : UInt64 :=
  if b ≤ a then a - b else 0

theorem checkedAdd_eq_some_iff {a b c : UInt64} :
    checkedAdd a b = some c ↔ a.toNat + b.toNat = c.toNat := by
  have hc := c.toNat_lt
  by_cases hfits : a.toNat + b.toNat < 2 ^ 64
  · have hsum : (a + b).toNat = a.toNat + b.toNat := by
      rw [UInt64.toNat_add, Nat.mod_eq_of_lt hfits]
    simp only [checkedAdd, hfits, ↓reduceIte, Option.some.injEq]
    rw [← hsum, UInt64.toNat_inj]
  · simp only [checkedAdd, hfits, ↓reduceIte, reduceCtorEq, false_iff]
    omega

theorem checkedAdd_eq_none_iff {a b : UInt64} :
    checkedAdd a b = none ↔ 2 ^ 64 ≤ a.toNat + b.toNat := by
  simp only [checkedAdd, ite_eq_right_iff, reduceCtorEq, imp_false, Nat.not_lt]

theorem checkedSub_eq_some_iff {a b c : UInt64} :
    checkedSub a b = some c ↔ a.toNat = c.toNat + b.toNat := by
  by_cases hle : b ≤ a
  · have hdiff : (a - b).toNat = a.toNat - b.toNat := UInt64.toNat_sub_of_le a b hle
    have hnat : b.toNat ≤ a.toNat := UInt64.le_iff_toNat_le.mp hle
    simp only [checkedSub, hle, ↓reduceIte, Option.some.injEq]
    rw [← UInt64.toNat_inj, hdiff]
    omega
  · have hnat : ¬ b.toNat ≤ a.toNat := fun h => hle (UInt64.le_iff_toNat_le.mpr h)
    simp only [checkedSub, hle, ↓reduceIte, reduceCtorEq, false_iff]
    omega

theorem checkedSub_eq_none_iff {a b : UInt64} :
    checkedSub a b = none ↔ a.toNat < b.toNat := by
  simp only [checkedSub, ite_eq_right_iff, reduceCtorEq, imp_false, UInt64.not_le,
    UInt64.lt_iff_toNat_lt]

@[simp] theorem toNat_saturatingAdd (a b : UInt64) :
    (saturatingAdd a b).toNat = min (a.toNat + b.toNat) (2 ^ 64 - 1) := by
  by_cases hfits : a.toNat + b.toNat < 2 ^ 64
  · simp only [saturatingAdd, hfits, ↓reduceIte, UInt64.toNat_add]
    omega
  · simp only [saturatingAdd, hfits, ↓reduceIte, UInt64.toNat_ofNat']
    omega

theorem saturatingAdd_zero (a : UInt64) : saturatingAdd a 0 = a := by
  have ha := a.toNat_lt
  rw [← UInt64.toNat_inj, toNat_saturatingAdd, UInt64.toNat_zero]
  omega

/-- Two saturated increments may be made in either order. -/
theorem saturatingAdd_right_comm (a b c : UInt64) :
    saturatingAdd (saturatingAdd a b) c = saturatingAdd (saturatingAdd a c) b := by
  simp only [← UInt64.toNat_inj, toNat_saturatingAdd]
  omega

@[simp] theorem toNat_saturatingSub (a b : UInt64) :
    (saturatingSub a b).toNat = a.toNat - b.toNat := by
  by_cases hle : b ≤ a
  · simp only [saturatingSub, hle, ↓reduceIte, UInt64.toNat_sub_of_le a b hle]
  · have hnat : a.toNat < b.toNat := by
      simpa [UInt64.lt_iff_toNat_lt] using hle
    simp only [saturatingSub, hle, ↓reduceIte, UInt64.toNat_zero]
    omega

/-- `u64::try_from` on a wider unsigned value. -/
def tryFromNat (value : Nat) : Option UInt64 :=
  if value < 2 ^ 64 then some (UInt64.ofNat value) else none

theorem tryFromNat_eq_some_iff {value : Nat} {c : UInt64} :
    tryFromNat value = some c ↔ value = c.toNat := by
  have hc := c.toNat_lt
  by_cases hfits : value < 2 ^ 64
  · simp only [tryFromNat, hfits, ↓reduceIte, Option.some.injEq]
    rw [← UInt64.toNat_inj, UInt64.toNat_ofNat', Nat.mod_eq_of_lt hfits]
  · simp only [tryFromNat, hfits, ↓reduceIte, reduceCtorEq, false_iff]
    omega

/-! The same quantity in a unit `k` times finer.  With `k` positive every comparison of two
quantities comes out the same in either unit. -/

def Scaled (k : Nat) (a a' : UInt64) : Prop := a'.toNat = k * a.toNat

instance (k : Nat) (a a' : UInt64) : Decidable (Scaled k a a') :=
  inferInstanceAs (Decidable (a'.toNat = k * a.toNat))

section Scaled

variable {k : Nat} {a a' b b' : UInt64}

theorem Scaled.zero (k : Nat) : Scaled k 0 0 := (Nat.mul_zero k).symm

theorem Scaled.lt_iff (hk : 0 < k) (ha : Scaled k a a') (hb : Scaled k b b') :
    a' < b' ↔ a < b := by
  rw [UInt64.lt_iff_toNat_lt, UInt64.lt_iff_toNat_lt, ha, hb, Nat.mul_lt_mul_left hk]

theorem Scaled.pos_iff (hk : 0 < k) (ha : Scaled k a a') : 0 < a' ↔ 0 < a :=
  (Scaled.zero k).lt_iff hk ha

theorem Scaled.eq_iff (hk : 0 < k) (ha : Scaled k a a') (hb : Scaled k b b') :
    a' = b' ↔ a = b := by
  rw [← UInt64.toNat_inj, ← UInt64.toNat_inj, ha, hb, Nat.mul_right_inj (by omega)]

theorem Scaled.le (hk : 0 < k) (ha : Scaled k a a') : a.toNat ≤ a'.toNat := by
  rw [ha]
  exact Nat.le_mul_of_pos_left _ hk

end Scaled

end UInt64

/-! A saturated running total is the saturation of the exact total: no increment
is lost before the cap and none is counted after it. -/

theorem min_add_min_cap (total step cap : Nat) :
    min (min total cap + step) cap = min (total + step) cap := by
  omega

namespace U128

/-- `u128::checked_mul`, on values held as natural numbers. -/
def checkedMul (a b : Nat) : Option Nat :=
  if a * b < 2 ^ 128 then some (a * b) else none

/-- `u128::checked_div`, on values held as natural numbers. -/
def checkedDiv (a b : Nat) : Option Nat :=
  if b = 0 then none else some (a / b)

theorem checkedMul_eq_some_of_lt {a b : Nat} (h : a * b < 2 ^ 128) :
    checkedMul a b = some (a * b) :=
  if_pos h

end U128

namespace Int64

/-- `i64::saturating_sub`. -/
def saturatingSub (a b : Int64) : Int64 :=
  Int64.ofIntClamp (a.toInt - b.toInt)

theorem toInt_saturatingSub (a b : Int64) :
    (saturatingSub a b).toInt =
      max (-2 ^ 63) (min (a.toInt - b.toInt) (2 ^ 63 - 1)) := by
  have hmin : Int64.minValue.toInt = -2 ^ 63 := rfl
  have hmax : Int64.maxValue.toInt = 2 ^ 63 - 1 := rfl
  unfold saturatingSub Int64.ofIntClamp
  split
  · split
    · rw [Int64.toInt_ofIntLE]
      omega
    · omega
  · omega

/-- Below the top of the range the saturation is invisible to a comparison. -/
theorem saturatingSub_le_iff {a b c : Int64} (hc : c.toInt < 2 ^ 63 - 1) :
    saturatingSub a b ≤ c ↔ a.toInt - b.toInt ≤ c.toInt := by
  have hlow := c.le_toInt
  rw [Int64.le_iff_toInt_le, toInt_saturatingSub]
  omega

theorem zero_le_saturatingSub_iff {a b : Int64} :
    0 ≤ saturatingSub a b ↔ b.toInt ≤ a.toInt := by
  rw [Int64.le_iff_toInt_le, toInt_saturatingSub, Int64.toInt_zero]
  omega

end Int64
