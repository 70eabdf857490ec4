/-
Two guarded computations side by side: they end alike when both raise the same error
or both return related results.  The rules follow the shape of the computations, so
that two runs of one program are compared guard by guard.
-/
import Hwal.Support.Guards

namespace Guard

variable {ε α β γ δ : Type _}

/-- The same error on both sides, or related results. -/
inductive Coupled (R : α → β → Prop) : Except ε α → Except ε β → Prop where
  | ok {a b} (h : R a b) : Coupled R (.ok a) (.ok b)
  | error (e : ε) : Coupled R (.error e) (.error e)

section Rules

variable {R : α → β → Prop} {S : γ → δ → Prop} {x : Except ε α} {y : Except ε β}

theorem Coupled.refl {T : α → α → Prop} (h : ∀ a, T a a) (x : Except ε α) :
    Coupled T x x := by
  cases x with
  | ok a => exact .ok (h a)
  | error e => exact .error e

theorem Coupled.mono {R' : α → β → Prop} (h : Coupled R x y) (himp : ∀ a b, R a b → R' a b) :
    Coupled R' x y := by
  cases h with
  | ok hab => exact .ok (himp _ _ hab)
  | error e => exact .error e

/-- Compare the first parts, then the rest from related results. -/
theorem Coupled.bind {f : α → Except ε γ} {g : β → Except ε δ} (h : Coupled R x y)
    (hrest : ∀ a b, R a b → Coupled S (f a) (g b)) : Coupled S (x >>= f) (y >>= g) := by
  cases h with
  | ok hab => exact hrest _ _ hab
  | error e => exact .error e

theorem Coupled.pure {a : α} {b : β} (h : R a b) :
    Coupled (ε := ε) R (Pure.pure a) (Pure.pure b) := .ok h

/-- Both sides begin with the same computation. -/
theorem Coupled.same_bind {z : Except ε α} {f : α → Except ε γ} {g : α → Except ε δ}
    (hrest : ∀ a, z = .ok a → Coupled S (f a) (g a)) : Coupled S (z >>= f) (z >>= g) := by
  cases z with
  | ok a => exact hrest a rfl
  | error e => exact .error e

/-- Both sides pass the same guard first. -/
theorem Coupled.same_guard {guard : Except ε Unit} {z : Except ε γ} {z' : Except ε δ}
    (hrest : Coupled S z z') :
    Coupled S (guard >>= fun _ => z) (guard >>= fun _ => z') :=
  Coupled.same_bind fun _ _ => hrest

/-- Two guards that hold together. -/
theorem Coupled.require {condition condition' : Prop} [Decidable condition]
    [Decidable condition'] (h : condition' ↔ condition) (error : ε) :
    Coupled (fun _ _ => True) (Guard.require condition error)
      (Guard.require condition' error) := by
  unfold Guard.require
  simp only [h]
  split
  · exact .ok trivial
  · exact .error error

/-- Two computations compared with one third computation, compared with each other. -/
theorem Coupled.through {z : Except ε γ} {P : α → γ → Prop} {Q : β → γ → Prop}
    (hx : Coupled P x z) (hy : Coupled Q y z) (hrel : ∀ a b c, P a c → Q b c → R a b) :
    Coupled R x y := by
  cases hx with
  | ok hab =>
      cases hy with
      | ok hbc => exact .ok (hrel _ _ _ hab hbc)
  | error e =>
      cases hy with
      | error e => exact .error e

theorem Coupled.of_ok {a : α} (h : Coupled R (.ok a) y) : ∃ b, y = .ok b ∧ R a b := by
  cases h with
  | ok hab => exact ⟨_, rfl, hab⟩

theorem Coupled.of_ok_right {b : β} (h : Coupled R x (.ok b)) : ∃ a, x = .ok a ∧ R a b := by
  cases h with
  | ok hab => exact ⟨_, rfl, hab⟩

theorem Coupled.error_iff (h : Coupled R x y) (e : ε) : x = .error e ↔ y = .error e := by
  cases h with
  | ok hab => simp
  | error e' => simp

theorem Coupled.of_error {e : ε} (h : Coupled R (.error e) y) : y = .error e :=
  (h.error_iff e).mp rfl

theorem Coupled.of_error_right {e : ε} (h : Coupled R x (.error e)) : x = .error e :=
  (h.error_iff e).mpr rfl

end Rules

end Guard
