/-
Batches of fallible actions that take effect together or not at all.  Whatever batches a
system is given, it goes where the single-step machine goes on the actions of those that
committed, one after another, with no action of another batch in between.
-/
import Hwal.Support.Guards
import Hwal.Support.TransitionTrace

namespace Transition

universe u v w x

variable {S : Type u} {A : Type v} {ε : Type w} {T : Type x}

/-- Every action of a batch in turn; the first failure undoes them all, and a batch that
does not even read as actions does nothing. -/
def commit (attempt : S → A → Except ε S) (read : T → Option (List A)) (s : S) (batch : T) :
    S :=
  match read batch with
  | none => s
  | some actions =>
      match actions.foldlM attempt s with
      | .ok s' => s'
      | .error _ => s

/-- What a batch leaves if it goes through: it reads as actions, and each of them takes
effect where it stands. -/
def attemptBatch (attempt : S → A → Except ε S) (read : T → Option (List A)) (s : S)
    (batch : T) : Option S :=
  (read batch).bind fun actions => (actions.foldlM attempt s).toOption

/-- The batches of a list that go through, each tried where the ones before it lead. -/
def committed (attempt : S → A → Except ε S) (read : T → Option (List A)) :
    S → List T → List T
  | _, [] => []
  | s, batch :: rest =>
      match attemptBatch attempt read s batch with
      | some s' => batch :: committed attempt read s' rest
      | none => committed attempt read s rest

section Refinement

variable {attempt : S → A → Except ε S} {step : S → A → S} {read : T → Option (List A)}

theorem commit_of_none {s : S} {batch : T} (h : read batch = none) :
    commit attempt read s batch = s := by
  rw [commit, h]

theorem commit_of_ok {s s' : S} {batch : T} {actions : List A}
    (h : read batch = some actions) (hok : actions.foldlM attempt s = .ok s') :
    commit attempt read s batch = s' := by
  simp only [commit, h, hok]

theorem commit_of_error {s : S} {batch : T} {actions : List A} {error : ε}
    (h : read batch = some actions) (herror : actions.foldlM attempt s = .error error) :
    commit attempt read s batch = s := by
  simp only [commit, h, herror]

/-- A batch that goes through is a run in which every action takes effect. -/
theorem run_of_foldlM (agree : ∀ s action s', attempt s action = .ok s' → step s action = s')
    {s s' : S} {actions : List A} (h : actions.foldlM attempt s = .ok s') :
    s' = run step s actions ∧
      ∀ m ∈ trace step s actions, attempt m.before m.action = .ok m.after := by
  induction actions generalizing s with
  | nil => exact ⟨(Except.ok.inj h).symm, by simp⟩
  | cons action rest ih =>
      rw [List.foldlM_cons] at h
      cases hfirst : attempt s action with
      | error error =>
          rw [hfirst] at h
          contradiction
      | ok t =>
          have hstep := agree s action t hfirst
          rw [hfirst] at h
          rcases ih h with ⟨hrun, hall⟩
          rw [run_cons, trace, hstep]
          refine ⟨hrun, ?_⟩
          intro m hm
          rcases List.mem_cons.mp hm with rfl | hm
          · exact hfirst
          · exact hall m hm

theorem attemptBatch_eq_some_iff {s s' : S} {batch : T} :
    attemptBatch attempt read s batch = some s' ↔
      ∃ actions, read batch = some actions ∧ actions.foldlM attempt s = .ok s' := by
  simp only [attemptBatch, Option.bind_eq_some_iff, Guard.toOption_eq_some_iff]

theorem commit_eq_getD (s : S) (batch : T) :
    commit attempt read s batch = (attemptBatch attempt read s batch).getD s := by
  cases hread : read batch with
  | none =>
      rw [commit_of_none hread, attemptBatch, hread]
      rfl
  | some actions =>
      cases hactions : actions.foldlM attempt s with
      | error error =>
          rw [commit_of_error hread hactions, attemptBatch, hread, Option.bind_some, hactions]
          rfl
      | ok s' =>
          rw [commit_of_ok hread hactions, attemptBatch, hread, Option.bind_some, hactions]
          rfl

theorem committed_cons_of_some {s s' : S} {batch : T} {rest : List T}
    (h : attemptBatch attempt read s batch = some s') :
    committed attempt read s (batch :: rest) = batch :: committed attempt read s' rest := by
  rw [committed, h]

theorem committed_cons_of_none {s : S} {batch : T} {rest : List T}
    (h : attemptBatch attempt read s batch = none) :
    committed attempt read s (batch :: rest) = committed attempt read s rest := by
  rw [committed, h]

/-- Which batches go through after some others depends on the state those lead to. -/
theorem committed_append (s : S) (earlier later : List T) :
    committed attempt read s (earlier ++ later) =
      committed attempt read s earlier ++
        committed attempt read (run (commit attempt read) s earlier) later := by
  induction earlier generalizing s with
  | nil => rfl
  | cons batch rest ih =>
      rw [List.cons_append, run_cons, commit_eq_getD]
      cases hbatch : attemptBatch attempt read s batch with
      | none =>
          rw [committed_cons_of_none hbatch, committed_cons_of_none hbatch, ih]
          rfl
      | some s' =>
          rw [committed_cons_of_some hbatch, committed_cons_of_some hbatch, ih]
          rfl

theorem committed_sublist (s : S) (batches : List T) :
    (committed attempt read s batches).Sublist batches := by
  induction batches generalizing s with
  | nil => exact List.Sublist.refl _
  | cons batch rest ih =>
      cases hbatch : attemptBatch attempt read s batch with
      | none =>
          rw [committed_cons_of_none hbatch]
          exact (ih s).cons batch
      | some s' =>
          rw [committed_cons_of_some hbatch]
          exact (ih s').cons_cons batch

/-- Batches simulate the single-step machine: the actions of the committed ones, in the
order of their batches, all taking effect. -/
theorem run_commit (agree : ∀ s action s', attempt s action = .ok s' → step s action = s')
    (s : S) (batches : List T) :
    let actions := (committed attempt read s batches).flatMap fun batch =>
      (read batch).getD []
    run (commit attempt read) s batches = run step s actions ∧
      ∀ m ∈ trace step s actions, attempt m.before m.action = .ok m.after := by
  induction batches generalizing s with
  | nil => exact ⟨rfl, by simp [committed]⟩
  | cons batch rest ih =>
      rw [run_cons, commit_eq_getD]
      cases hbatch : attemptBatch attempt read s batch with
      | none =>
          rw [committed_cons_of_none hbatch]
          exact ih s
      | some s' =>
          rcases attemptBatch_eq_some_iff.mp hbatch with ⟨actions, hread, hactions⟩
          rcases run_of_foldlM agree hactions with ⟨rfl, hfirst⟩
          rcases ih (run step s actions) with ⟨hrun, hall⟩
          rw [committed_cons_of_some hbatch, List.flatMap_cons, hread, Option.getD_some,
            Option.getD_some]
          refine ⟨by rw [hrun, run_append], ?_⟩
          intro m hm
          rw [trace_append] at hm
          rcases List.mem_append.mp hm with hm | hm
          · exact hfirst m hm
          · exact hall m hm

end Refinement

end Transition
