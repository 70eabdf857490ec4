/-
Byte strings: little-endian numbers, slices, and the scan over all windows of a
given width.  A scan for one pattern is exactly a search for it as a contiguous
part of the data.
-/
import Mathlib.Algebra.Ring.Nat
import Mathlib.Data.List.Infix

namespace Bytes

/-- The number a little-endian byte string denotes. -/
def leToNat : List UInt8 → Nat
  | [] => 0
  | byte :: rest => byte.toNat + 256 * leToNat rest

/-- The `width` low bytes of a number, least significant first. -/
def natToLe : Nat → Nat → List UInt8
  | 0, _ => []
  | width + 1, value => UInt8.ofNat value :: natToLe width (value / 256)

@[simp] theorem length_natToLe (width value : Nat) : (natToLe width value).length = width := by
  induction width generalizing value with
  | zero => rfl
  | succ width ih => simp [natToLe, ih]

theorem leToNat_natToLe (width value : Nat) (h : value < 256 ^ width) :
    leToNat (natToLe width value) = value := by
  induction width generalizing value with
  | zero =>
      simp only [Nat.pow_zero, Nat.lt_one_iff] at h
      simp [natToLe, leToNat, h]
  | succ width ih =>
      have hquot : value / 256 < 256 ^ width := by
        rw [Nat.pow_succ] at h
        exact Nat.div_lt_of_lt_mul (by omega)
      simp only [natToLe, leToNat, ih _ hquot, UInt8.toNat_ofNat']
      omega

theorem leToNat_lt (bytes : List UInt8) : leToNat bytes < 256 ^ bytes.length := by
  induction bytes with
  | nil => exact Nat.one_pos
  | cons byte rest ih =>
      have hbyte := byte.toNat_lt
      rw [leToNat, List.length_cons, Nat.pow_succ]
      omega

/-- Every byte string is the little-endian form of the number it denotes. -/
theorem natToLe_leToNat {bytes : List UInt8} {width : Nat} (h : bytes.length = width) :
    natToLe width (leToNat bytes) = bytes := by
  subst h
  induction bytes with
  | nil => rfl
  | cons byte rest ih =>
      have hbyte := byte.toNat_lt
      have hquot : (byte.toNat + 256 * leToNat rest) / 256 = leToNat rest := by omega
      have hlow : UInt8.ofNat (byte.toNat + 256 * leToNat rest) = byte := by
        rw [← UInt8.toNat_inj, UInt8.toNat_ofNat']
        omega
      rw [leToNat, List.length_cons, natToLe, hquot, hlow, ih]

section Slices

variable {α : Type _}

/-- `data[start..start + size]` when it lies inside the data. -/
def slice? (data : List α) (start size : Nat) : Option (List α) :=
  if start + size ≤ data.length then some ((data.drop start).take size) else none

theorem slice?_eq_some_iff {data part : List α} {start size : Nat} :
    slice? data start size = some part ↔
      ∃ before after, data = before ++ part ++ after ∧
        before.length = start ∧ part.length = size := by
  constructor
  · intro h
    by_cases hfits : start + size ≤ data.length
    · simp only [slice?, hfits, ↓reduceIte, Option.some.injEq] at h
      refine ⟨data.take start, (data.drop start).drop size, ?_, ?_, ?_⟩
      · rw [← h, List.append_assoc, List.take_append_drop, List.take_append_drop]
      · rw [List.length_take]
        omega
      · rw [← h, List.length_take, List.length_drop]
        omega
    · simp [slice?, hfits] at h
  · rintro ⟨before, after, rfl, rfl, rfl⟩
    have hfits : before.length + part.length ≤ (before ++ part ++ after).length := by
      simp only [List.length_append]
      omega
    simp [slice?]

theorem exists_slice_of_isInfix {data part : List α} (h : part <:+: data) :
    ∃ start, slice? data start part.length = some part := by
  rcases h with ⟨before, after, hdata⟩
  exact ⟨before.length, slice?_eq_some_iff.mpr ⟨before, after, hdata.symm, rfl, rfl⟩⟩

/-- All contiguous parts of length `width`, from the left. -/
def windows (data : List α) (width : Nat) : List (List α) :=
  (List.range (data.length + 1 - width)).map fun start => (data.drop start).take width

theorem mem_windows_iff {data part : List α} :
    part ∈ windows data part.length ↔ part <:+: data := by
  simp only [windows, List.mem_map, List.mem_range]
  constructor
  · rintro ⟨start, _, hpart⟩
    refine ⟨data.take start, (data.drop start).drop part.length, ?_⟩
    have hsplit := List.take_append_drop part.length (data.drop start)
    rw [hpart] at hsplit
    rw [List.append_assoc, hsplit, List.take_append_drop]
  · rintro ⟨before, after, rfl⟩
    refine ⟨before.length, ?_, ?_⟩
    · simp only [List.length_append]
      omega
    · simp

theorem any_windows_iff [BEq α] [LawfulBEq α] {data part : List α} :
    (windows data part.length).any (fun window => window == part) = true ↔
      part <:+: data := by
  rw [List.any_eq_true, ← mem_windows_iff]
  constructor
  · rintro ⟨window, hmem, heq⟩
    rwa [eq_of_beq heq] at hmem
  · intro hmem
    exact ⟨part, hmem, beq_self_eq_true part⟩

end Slices

end Bytes
