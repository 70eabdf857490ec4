/-
Systems that announce what they do.  Where every step appends its events to a log and
changes some picture of the state by exactly those events, a reader of the log rebuilds
the picture: from the start, or from any earlier picture and the part of the log after it.
The same for events read off the steps of a run, together with the rule that let each of
them happen.
-/
import Hwal.Support.TransitionTrace

namespace EventSourcing

universe u v w x

variable {S : Type u} {A : Type v} {E : Type w} {V : Type x}

/-- The picture after reading some events. -/
def replay (apply : V → E → V) (picture : V) (events : List E) : V :=
  events.foldl apply picture

@[simp] theorem replay_nil (apply : V → E → V) (picture : V) :
    replay apply picture [] = picture := rfl

theorem replay_append (apply : V → E → V) (picture : V) (first second : List E) :
    replay apply picture (first ++ second) = replay apply (replay apply picture first) second :=
  List.foldl_append

/-- The log gains `events`, and the picture changes by them and by nothing else. -/
structure Announced (log : S → List E) (view : S → V) (apply : V → E → V) (s s' : S)
    (events : List E) : Prop where
  log_eq : log s' = log s ++ events
  view_eq : view s' = replay apply (view s) events

section Runs

variable {step : S → A → S} {log : S → List E} {view : S → V} {apply : V → E → V}
  {Inv : S → Prop}

theorem Announced.rfl (s : S) : Announced log view apply s s [] :=
  ⟨(List.append_nil _).symm, Eq.refl _⟩

theorem Announced.trans {s t r : S} {first second : List E}
    (h : Announced log view apply s t first) (h' : Announced log view apply t r second) :
    Announced log view apply s r (first ++ second) :=
  ⟨by rw [h'.log_eq, h.log_eq, List.append_assoc],
    by rw [h'.view_eq, h.view_eq, replay_append]⟩

/-- A run announces what its steps announce, in order. -/
theorem run_announced (keep : ∀ s action, Inv s → Inv (step s action))
    (announce : ∀ s action, Inv s →
      ∃ events, Announced log view apply s (step s action) events)
    {s : S} (start : Inv s) (actions : List A) :
    ∃ events, Announced log view apply s (Transition.run step s actions) events := by
  induction actions generalizing s with
  | nil => exact ⟨[], Announced.rfl s⟩
  | cons action rest ih =>
      rcases announce s action start with ⟨first, hfirst⟩
      rcases ih (keep s action start) with ⟨second, hsecond⟩
      exact ⟨first ++ second, hfirst.trans hsecond⟩

/-- Reading what a log gained catches up with the state. -/
theorem Announced.catch_up {s s' : S} {events : List E}
    (h : Announced log view apply s s' events) :
    view s' = replay apply (view s) ((log s').drop (log s).length) := by
  rw [h.view_eq, h.log_eq, List.drop_left]

end Runs

/-! ### Lawful events -/

section Lawful

variable (apply : V → E → V) (allowed : V → E → Prop)

/-- Every event is allowed by the picture it meets. -/
def Lawful (picture : V) (events : List E) : Prop :=
  ∀ earlier event later, events = earlier ++ event :: later →
    allowed (replay apply picture earlier) event

variable {apply allowed}

theorem Lawful.nil (picture : V) : Lawful apply allowed picture [] := by
  intro earlier event later h
  simp at h

theorem Lawful.snoc {picture : V} {events : List E} (h : Lawful apply allowed picture events)
    {event : E} (hlast : allowed (replay apply picture events) event) :
    Lawful apply allowed picture (events ++ [event]) := by
  intro earlier other later hsplit
  rcases List.eq_nil_or_concat later with rfl | ⟨front, last, rfl⟩
  · rcases List.append_inj' hsplit rfl with ⟨rfl, hsame⟩
    rw [← List.head_eq_of_cons_eq hsame]
    exact hlast
  · rw [List.concat_eq_append, ← List.cons_append, ← List.append_assoc] at hsplit
    exact h earlier other front (List.append_inj' hsplit rfl).1

/-- Events read off the moments of a run: the picture is their replay, and they are
lawful, where each step that shows an event follows the rules and no other step changes the
picture. -/
theorem run_lawful {step : S → A → S} {view : S → V}
    {read : Transition.Moment S A → Option E} {Inv : S → Prop}
    (keep : ∀ s action, Inv s → Inv (step s action))
    (silent : ∀ s action, Inv s → read ⟨s, action, step s action⟩ = none →
      view (step s action) = view s)
    (follow : ∀ s action event, Inv s → read ⟨s, action, step s action⟩ = some event →
      allowed (view s) event ∧ view (step s action) = apply (view s) event)
    {s : S} (start : Inv s) (actions : List A) :
    view (Transition.run step s actions) =
        replay apply (view s) ((Transition.trace step s actions).filterMap read) ∧
      Lawful apply allowed (view s) ((Transition.trace step s actions).filterMap read) := by
  induction actions using List.reverseRecOn with
  | nil => exact ⟨rfl, Lawful.nil _⟩
  | append_singleton earlier action ih =>
      rcases ih with ⟨hview, hlawful⟩
      have hinv := Transition.run_invariant step start keep earlier
      rw [Transition.run_snoc, Transition.trace_snoc, List.filterMap_append]
      cases hread : read ⟨Transition.run step s earlier, action,
          step (Transition.run step s earlier) action⟩ with
      | none =>
          rw [silent _ action hinv hread, List.filterMap_cons_none hread, List.filterMap_nil,
            List.append_nil]
          exact ⟨hview, hlawful⟩
      | some event =>
          rcases follow _ action event hinv hread with ⟨hallowed, happly⟩
          rw [List.filterMap_cons_some hread, List.filterMap_nil]
          rw [hview] at hallowed happly
          refine ⟨?_, hlawful.snoc hallowed⟩
          rw [happly, replay_append]
          rfl

end Lawful

end EventSourcing
