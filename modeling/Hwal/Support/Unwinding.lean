/-
What an observer of a system can notice.  A view that some actions leave alone, and that
the others change in a way that depends on the view alone, is decided by those others: take
the rest out of a run, or put any number of them in, and at the end it is the same.
-/
import Hwal.Support.TransitionTrace

namespace Transition

universe u v w

variable {S : Type u} {A : Type v} {V : Type w}

/-- The watched actions change the view by what it shows, and no other action changes it. -/
structure Unwinding (step : S → A → S) (Inv : S → Prop) (view : S → V) (watched : A → Prop) :
    Prop where
  keeps : ∀ s action, Inv s → Inv (step s action)
  unwatched : ∀ s action, Inv s → ¬ watched action → view (step s action) = view s
  alike : ∀ s t action, Inv s → Inv t → watched action → view s = view t →
    view (step s action) = view (step t action)

namespace Unwinding

variable {step : S → A → S} {Inv : S → Prop} {view : S → V} {watched : A → Prop}
  [DecidablePred watched]

/-- A run shows what the run of its watched actions shows, from any state with that view. -/
theorem view_run (h : Unwinding step Inv view watched) {s t : S} (hs : Inv s) (ht : Inv t)
    (hview : view s = view t) (actions : List A) :
    view (run step s actions) = view (run step t (actions.filter (watched ·))) := by
  induction actions generalizing s t with
  | nil => exact hview
  | cons action rest ih =>
      by_cases hwatched : watched action
      · rw [List.filter_cons_of_pos (by simpa using hwatched)]
        exact ih (h.keeps s action hs) (h.keeps t action ht)
          (h.alike s t action hs ht hwatched hview)
      · rw [List.filter_cons_of_neg (by simpa using hwatched)]
        exact ih (h.keeps s action hs) ht ((h.unwatched s action hs hwatched).trans hview)

/-- Two runs with the same watched actions show the same. -/
theorem view_run_eq (h : Unwinding step Inv view watched) {s : S} (hs : Inv s)
    {actions others : List A} (hsame : actions.filter (watched ·) = others.filter (watched ·)) :
    view (run step s actions) = view (run step s others) := by
  rw [h.view_run hs hs rfl actions, hsame, ← h.view_run hs hs rfl others]

end Unwinding

end Transition
