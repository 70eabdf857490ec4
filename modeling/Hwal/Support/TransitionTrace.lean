/-
Runs of a deterministic transition function over a list of actions, with the
history each run leaves behind.  The rules below package the two inductions a
safety argument needs: one over states, one over states together with the
actions that led there.
-/
import Mathlib.Data.List.Induction
import Mathlib.Algebra.BigOperators.Ring.Finset

namespace Transition

universe u v

variable {S : Type u} {A : Type v} (step : S → A → S)

/-- The state after a list of actions. -/
def run (s : S) (actions : List A) : S :=
  actions.foldl step s

/-- One executed action with the states around it. -/
structure Moment (S : Type u) (A : Type v) where
  before : S
  action : A
  after : S

/-- Every executed action of a run, oldest first. -/
def trace (s : S) : List A → List (Moment S A)
  | [] => []
  | action :: rest => ⟨s, action, step s action⟩ :: trace (step s action) rest

@[simp] theorem run_nil (s : S) : run step s [] = s := rfl

@[simp] theorem run_cons (s : S) (action : A) (rest : List A) :
    run step s (action :: rest) = run step (step s action) rest := rfl

theorem run_append (s : S) (first second : List A) :
    run step s (first ++ second) = run step (run step s first) second := by
  simp [run]

theorem run_snoc (s : S) (actions : List A) (action : A) :
    run step s (actions ++ [action]) = step (run step s actions) action := by
  simp [run]

@[simp] theorem trace_nil (s : S) : trace step s [] = [] := rfl

theorem trace_append (s : S) (first second : List A) :
    trace step s (first ++ second) =
      trace step s first ++ trace step (run step s first) second := by
  induction first generalizing s with
  | nil => rfl
  | cons action rest ih =>
      simp only [List.cons_append, trace, run_cons, ih]

theorem trace_snoc (s : S) (actions : List A) (action : A) :
    trace step s (actions ++ [action]) =
      trace step s actions ++
        [⟨run step s actions, action, step (run step s actions) action⟩] := by
  rw [trace_append]
  rfl

/-- What holds of every moment of a run holds of every moment of its earlier part. -/
theorem forall_mem_earlier {P : Moment S A → Prop} {s : S} {actions earlier later : List A}
    (h : ∀ m ∈ trace step s actions, P m) (hactions : actions = earlier ++ later) :
    ∀ m ∈ trace step s earlier, P m := by
  intro m hm
  apply h m
  rw [hactions, trace_append]
  exact List.mem_append_left _ hm

/-- A moment belongs to a run exactly when a prefix of the actions leads up to it. -/
theorem mem_trace_iff {s : S} {actions : List A} {m : Moment S A} :
    m ∈ trace step s actions ↔
      ∃ earlier later, actions = earlier ++ m.action :: later ∧
        m.before = run step s earlier ∧ m.after = step m.before m.action := by
  induction actions generalizing s with
  | nil => simp
  | cons action rest ih =>
      simp only [trace, List.mem_cons, ih]
      constructor
      · rintro (rfl | ⟨earlier, later, hrest, hbefore, hafter⟩)
        · exact ⟨[], rest, rfl, rfl, rfl⟩
        · exact ⟨action :: earlier, later, by rw [hrest]; rfl, hbefore, hafter⟩
      · rintro ⟨earlier, later, hactions, hbefore, hafter⟩
        cases earlier with
        | nil =>
            simp only [List.nil_append, List.cons.injEq] at hactions
            obtain ⟨rfl, -⟩ := hactions
            left
            obtain ⟨b, a, c⟩ := m
            simp only [run_nil] at hbefore hafter ⊢
            rw [hafter, hbefore]
        | cons head earlier =>
            simp only [List.cons_append, List.cons.injEq] at hactions
            obtain ⟨rfl, hrest⟩ := hactions
            exact Or.inr ⟨earlier, later, hrest, hbefore, hafter⟩

/-- What holds at the start and is kept by every action holds after every run. -/
theorem run_invariant {Inv : S → Prop} {s : S} (start : Inv s)
    (keep : ∀ t action, Inv t → Inv (step t action)) (actions : List A) :
    Inv (run step s actions) := by
  induction actions generalizing s with
  | nil => exact start
  | cons action rest ih => exact ih (keep s action start)

/-! What happens only where something is not done yet, and does it for good, happens at
most once. -/

section Once

variable {step} {Inv Done : S → Prop} {P : Moment S A → Prop} {s : S}

theorem trace_none_of_done (keep : ∀ t action, Inv t → Inv (step t action))
    (stays : ∀ t action, Inv t → Done t → Done (step t action))
    (needs : ∀ t action, Inv t → P ⟨t, action, step t action⟩ → ¬ Done t)
    (start : Inv s) (done : Done s) (actions : List A) :
    ∀ m ∈ trace step s actions, ¬ P m := by
  induction actions generalizing s with
  | nil => simp
  | cons action rest ih =>
      simp only [trace, List.forall_mem_cons]
      constructor
      · intro hP
        exact needs s action start hP done
      · exact ih (keep s action start) (stays s action start done)

theorem trace_pairwise_once (keep : ∀ t action, Inv t → Inv (step t action))
    (stays : ∀ t action, Inv t → Done t → Done (step t action))
    (needs : ∀ t action, Inv t → P ⟨t, action, step t action⟩ → ¬ Done t)
    (leaves : ∀ t action, Inv t → P ⟨t, action, step t action⟩ → Done (step t action))
    (start : Inv s) (actions : List A) :
    (trace step s actions).Pairwise fun m m' => ¬ (P m ∧ P m') := by
  induction actions generalizing s with
  | nil => exact List.Pairwise.nil
  | cons action rest ih =>
      simp only [trace, List.pairwise_cons]
      constructor
      · rintro m' hm' ⟨hfirst, hsecond⟩
        have hdone := leaves s action start hfirst
        exact trace_none_of_done keep stays needs (keep s action start) hdone rest m' hm' hsecond
      · exact ih (keep s action start)

end Once

section Totals

variable (f : Moment S A → Nat)

/-- The sum of a quantity over all moments of a run. -/
def total (s : S) (actions : List A) : Nat :=
  ((trace step s actions).map f).sum

end Totals

end Transition
