/-
Actions on a store of named cells, each with the cells it looks at and the cells it may
change.  An action does not notice what others do elsewhere, so that every schedule that
keeps the order of the actions that touch each other's cells is the same run.
-/
import Hwal.Support.Coupling
import Mathlib.Data.List.Perm.Basic
import Mathlib.Data.Set.Function

namespace Footprint

universe u v w x y z

variable {S : Type u} {K : Type v} {V : Type w} {E : Type x} {A : Type y} {ε : Type z}

/-- What is seen of a state: a value in each cell, and everything put out so far. -/
structure View (S : Type u) (K : Type v) (V : Type w) (E : Type x) where
  cell : S → K → V
  log : S → List E

/-- The cells an action looks at, and those of them it may change. -/
structure Cells (K : Type v) where
  reads : Set K
  writes : Set K
  writes_read : writes ⊆ reads

/-- Neither changes what the other looks at. -/
def Cells.Apart (c d : Cells K) : Prop :=
  (∀ k ∈ c.writes, k ∉ d.reads) ∧ ∀ k ∈ d.writes, k ∉ c.reads

theorem Cells.Apart.symm {c d : Cells K} (h : c.Apart d) : d.Apart c := ⟨h.2, h.1⟩

/-- The same values in these cells. -/
abbrev Agree (view : View S K V E) (keys : Set K) (s t : S) : Prop :=
  Set.EqOn (view.cell s) (view.cell t) keys

/-- From `s` and `t`, two states that agree on these cells and put out the same. -/
structure Alike (view : View S K V E) (keys : Set K) (s t s' t' : S) : Prop where
  agree : Agree view keys s' t'
  output : ∃ out, view.log s' = view.log s ++ out ∧ view.log t' = view.log t ++ out

/-- A computation that depends on the cells it looks at only, and changes none but those
it may change. -/
structure Local (view : View S K V E) (act : S → Except ε S) (cells : Cells K) : Prop where
  alike : ∀ {s t}, Agree view cells.reads s t →
    Guard.Coupled (Alike view cells.reads s t) (act s) (act t)
  frame : ∀ {s s'}, act s = .ok s' → ∀ k, k ∉ cells.writes → view.cell s' k = view.cell s k

section Rules

variable {view : View S K V E} {cells : Cells K}

/-- Looking at more cells, or being allowed to change more of them, does no harm. -/
theorem Local.mono {act : S → Except ε S} {cells' : Cells K} (h : Local view act cells)
    (hreads : cells.reads ⊆ cells'.reads) (hwrites : cells.writes ⊆ cells'.writes) :
    Local view act cells' := by
  constructor
  case frame =>
    intro s s' hact k hk
    exact h.frame hact k fun hmem => hk (hwrites hmem)
  case alike =>
    intro s t hagree
    have hcoupled := h.alike (Set.EqOn.mono hreads hagree)
    have hframe (r r' : S) (hact : act r = .ok r') (k : K) (hk : k ∉ cells.reads) :
        view.cell r' k = view.cell r k :=
      h.frame hact k fun hmem => hk (cells.writes_read hmem)
    cases hs : act s with
    | error error =>
        rw [hs] at hcoupled
        rw [hcoupled.of_error]
        exact .error error
    | ok s' =>
        rw [hs] at hcoupled
        rcases hcoupled.of_ok with ⟨t', ht, halike⟩
        rw [ht]
        refine .ok ⟨?_, halike.output⟩
        intro k hk
        by_cases hread : k ∈ cells.reads
        · exact halike.agree hread
        · rw [hframe s s' hs k hread, hframe t t' ht k hread, hagree hk]

theorem Local.pure (view : View S K V E) (cells : Cells K) :
    Local view (Except.ok (ε := ε)) cells where
  alike hagree := .ok ⟨hagree, [], by simp, by simp⟩
  frame hact k _ := by rw [← Except.ok.inj hact]

theorem Local.bind {first second : S → Except ε S} (hfirst : Local view first cells)
    (hsecond : Local view second cells) :
    Local view (fun s => first s >>= second) cells := by
  constructor
  case frame =>
    intro s s' hact k hk
    rcases Guard.bind_eq_ok_iff.mp hact with ⟨t, ht, hs'⟩
    rw [hsecond.frame hs' k hk, hfirst.frame ht k hk]
  case alike =>
    intro s t hagree
    apply (hfirst.alike hagree).bind
    rintro s₁ t₁ ⟨hagree₁, out, hs₁, ht₁⟩
    apply (hsecond.alike hagree₁).mono
    rintro s₂ t₂ ⟨hagree₂, out', hs₂, ht₂⟩
    refine ⟨hagree₂, out ++ out', ?_, ?_⟩
    · rw [hs₂, hs₁, List.append_assoc]
    · rw [ht₂, ht₁, List.append_assoc]

/-- Telling errors in other words changes nothing else. -/
theorem Local.mapError {ε' : Type*} {act : S → Except ε S} (h : Local view act cells)
    (f : ε → ε') : Local view (fun s => (act s).mapError f) cells := by
  constructor
  case frame =>
    intro s s' hact k hk
    cases hs : act s with
    | error error =>
        rw [hs] at hact
        contradiction
    | ok t =>
        rw [hs] at hact
        obtain rfl := Except.ok.inj hact
        exact h.frame hs k hk
  case alike =>
    intro s t hagree
    have hcoupled := h.alike hagree
    generalize act s = outcome at hcoupled ⊢
    generalize act t = outcome' at hcoupled ⊢
    cases hcoupled with
    | ok halike => exact .ok halike
    | error error => exact .error (f error)

/-- One action after another, until one fails. -/
theorem Local.foldlM {attempt : S → A → Except ε S} {actions : List A}
    (h : ∀ action ∈ actions, Local view (fun s => attempt s action) cells) :
    Local view (fun s => actions.foldlM attempt s) cells := by
  induction actions with
  | nil => exact Local.pure view cells
  | cons action rest ih =>
      simp only [List.foldlM_cons]
      exact (h action List.mem_cons_self).bind
        (ih fun other hother => h other (List.mem_cons_of_mem _ hother))

end Rules

/-! ### Runs -/

section Runs

variable (attempt : S → A → Except ε S)

/-- The state after an attempt; a failed one changes nothing. -/
def after (s : S) (action : A) : S :=
  match attempt s action with
  | .ok s' => s'
  | .error _ => s

/-- The error of an attempt that failed. -/
def verdict (s : S) (action : A) : Option ε :=
  match attempt s action with
  | .ok _ => none
  | .error error => some error

/-- What became of each action of a run. -/
def verdicts (s : S) : List A → List (A × Option ε)
  | [] => []
  | action :: rest => (action, verdict attempt s action) :: verdicts (after attempt s action) rest

/-- Two runs that leave the same in every cell, come to the same verdict on every action,
and put out the same, in some order. -/
structure SameRun (view : View S K V E) (s t : S) (actions actions' : List A) : Prop where
  cell : ∀ k, view.cell (actions.foldl (after attempt) s) k =
    view.cell (actions'.foldl (after attempt) t) k
  verdicts : (verdicts attempt s actions).Perm (verdicts attempt t actions')
  output : ∃ out out', view.log (actions.foldl (after attempt) s) = view.log s ++ out ∧
    view.log (actions'.foldl (after attempt) t) = view.log t ++ out' ∧ out.Perm out'

end Runs

section Schedules

variable {view : View S K V E} {attempt : S → A → Except ε S} {cells : A → Cells K}
  (hlocal : ∀ action, Local view (fun s => attempt s action) (cells action))

include hlocal

/-- An attempt from states that agree on what it looks at. -/
theorem after_alike {keys : Set K} {s t : S} {action : A}
    (hkeys : (cells action).reads ⊆ keys) (hagree : Agree view keys s t) :
    Alike view keys s t (after attempt s action) (after attempt t action) ∧
      verdict attempt s action = verdict attempt t action := by
  have hwide : Local view (fun s => attempt s action)
      ⟨keys, (cells action).writes, fun k hk => hkeys ((cells action).writes_read hk)⟩ :=
    (hlocal action).mono hkeys (fun _ hk => hk)
  have hcoupled := hwide.alike hagree
  simp only [after, verdict]
  generalize attempt s action = outcome at hcoupled ⊢
  generalize attempt t action = outcome' at hcoupled ⊢
  cases hcoupled with
  | ok halike => exact ⟨halike, rfl⟩
  | error error => exact ⟨⟨hagree, [], by simp, by simp⟩, rfl⟩

theorem after_frame {s : S} {action : A} {k : K} (hk : k ∉ (cells action).writes) :
    view.cell (after attempt s action) k = view.cell s k := by
  cases hact : attempt s action with
  | ok s' =>
      rw [after, hact]
      exact (hlocal action).frame hact k hk
  | error error => rw [after, hact]

/-- What no action of a run may change is as it was. -/
theorem run_frame {s : S} {actions : List A} {k : K}
    (hk : ∀ action ∈ actions, k ∉ (cells action).writes) :
    view.cell (actions.foldl (after attempt) s) k = view.cell s k := by
  induction actions generalizing s with
  | nil => rfl
  | cons action rest ih =>
      have hrest := ih (s := after attempt s action)
        fun other hother => hk other (List.mem_cons_of_mem _ hother)
      exact hrest.trans (after_frame hlocal (hk action List.mem_cons_self))

/-- Nothing an action looks at is changed by one that is apart from it. -/
theorem agree_of_apart {s : S} {first second : A}
    (hapart : (cells first).Apart (cells second)) :
    Agree view (cells second).reads s (after attempt s first) := by
  intro k hk
  exact (after_frame hlocal (fun hwritten => hapart.1 _ hwritten hk)).symm

/-- The same actions from states that agree on every cell. -/
theorem sameRun_of_agree {s t : S} (hagree : Agree view Set.univ s t) (actions : List A) :
    SameRun attempt view s t actions actions := by
  induction actions generalizing s t with
  | nil => exact ⟨fun _ => hagree trivial, .refl _, [], [], by simp, by simp, .refl _⟩
  | cons action rest ih =>
      rcases after_alike hlocal (Set.subset_univ _) hagree with
        ⟨⟨hnext, out, hs, ht⟩, hverdict⟩
      rcases ih hnext with ⟨hcell, hverdicts, out₁, out₂, hout₁, hout₂, hperm⟩
      refine ⟨hcell, ?_, out ++ out₁, out ++ out₂, ?_, ?_, hperm.append_left out⟩
      · rw [verdicts, verdicts, hverdict]
        exact hverdicts.cons _
      · rw [List.foldl_cons, hout₁, hs, List.append_assoc]
      · rw [List.foldl_cons, hout₂, ht, List.append_assoc]

/-- Two actions that are apart, either first. -/
theorem sameRun_swap {first second : A} (hapart : (cells first).Apart (cells second)) (s : S)
    (rest : List A) :
    SameRun attempt view s s (first :: second :: rest) (second :: first :: rest) := by
  rcases after_alike hlocal (fun _ hk => hk) (agree_of_apart hlocal (s := s) hapart) with
    ⟨⟨hsecond, out, hout, hout'⟩, hverdict⟩
  rcases after_alike hlocal (fun _ hk => hk)
      (agree_of_apart hlocal (s := s) hapart.symm) with
    ⟨⟨hfirst, out₁, hout₁, hout₁'⟩, hverdict₁⟩
  have hsame : Agree view Set.univ (after attempt (after attempt s first) second)
      (after attempt (after attempt s second) first) := by
    intro k _
    by_cases hk : k ∈ (cells second).writes
    · have hread := (cells second).writes_read hk
      have hother : k ∉ (cells first).writes := fun hwritten => hapart.1 k hwritten hread
      rw [after_frame hlocal hother]
      exact (hsecond hread).symm
    · rw [after_frame hlocal hk]
      by_cases hk' : k ∈ (cells first).writes
      · exact hfirst ((cells first).writes_read hk')
      · rw [after_frame hlocal hk', after_frame hlocal hk', after_frame hlocal hk]
  rcases sameRun_of_agree hlocal hsame rest with
    ⟨hcell, hverdicts, tail, tail', htail, htail', hperm⟩
  refine ⟨hcell, ?_, out₁ ++ out ++ tail, out ++ out₁ ++ tail', ?_, ?_, ?_⟩
  · simp only [verdicts, ← hverdict, ← hverdict₁]
    exact (hverdicts.cons _).cons _ |>.trans (.swap _ _ _)
  · simp only [List.foldl_cons] at htail ⊢
    rw [htail, hout', hout₁, List.append_assoc, List.append_assoc, List.append_assoc]
  · simp only [List.foldl_cons] at htail' ⊢
    rw [htail', hout₁', hout, List.append_assoc, List.append_assoc, List.append_assoc]
  · exact List.perm_append_comm.append hperm

omit hlocal in
theorem SameRun.trans {s t r : S} {actions actions' actions'' : List A}
    (h : SameRun attempt view s t actions actions')
    (h' : SameRun attempt view t r actions' actions'') :
    SameRun attempt view s r actions actions'' := by
  rcases h with ⟨hcell, hverdicts, out, out', hout, hout', hperm⟩
  rcases h' with ⟨hcell', hverdicts', out₁, out₁', hout₁, hout₁', hperm'⟩
  obtain rfl : out' = out₁ := List.append_cancel_left (hout'.symm.trans hout₁)
  exact ⟨fun k => (hcell k).trans (hcell' k), hverdicts.trans hverdicts',
    out, out₁', hout, hout₁', hperm.trans hperm'⟩

omit hlocal in
theorem SameRun.cons {s : S} {action : A} {actions actions' : List A}
    (hout : ∃ out, view.log (after attempt s action) = view.log s ++ out)
    (h : SameRun attempt view (after attempt s action) (after attempt s action)
      actions actions') :
    SameRun attempt view s s (action :: actions) (action :: actions') := by
  rcases h with ⟨hcell, hverdicts, out, out', hs, ht, hperm⟩
  rcases hout with ⟨first, hfirst⟩
  refine ⟨hcell, hverdicts.cons _, first ++ out, first ++ out', ?_, ?_,
    hperm.append_left first⟩
  · rw [List.foldl_cons, hs, hfirst, List.append_assoc]
  · rw [List.foldl_cons, ht, hfirst, List.append_assoc]

theorem log_after (s : S) (action : A) :
    ∃ out, view.log (after attempt s action) = view.log s ++ out := by
  have hself : Agree view Set.univ s s := fun _ _ => rfl
  have hreads : (cells action).reads ⊆ Set.univ := Set.subset_univ _
  rcases after_alike hlocal hreads hself with ⟨⟨-, out, hout, -⟩, -⟩
  exact ⟨out, hout⟩

/-! ### Schedules that keep the order of conflicting actions -/

/-- An action may come later than actions that are apart from it. -/
theorem sameRun_postpone {action : A} {earlier later : List A}
    (hapart : ∀ other ∈ earlier, (cells action).Apart (cells other)) (s : S) :
    SameRun attempt view s s (action :: (earlier ++ later)) (earlier ++ action :: later) := by
  induction earlier generalizing s with
  | nil => exact sameRun_of_agree hlocal (fun _ _ => rfl) _
  | cons head rest ih =>
      have hswap := sameRun_swap hlocal (hapart head List.mem_cons_self) s (rest ++ later)
      have hrest := ih (fun other hother => hapart other (List.mem_cons_of_mem _ hother))
        (after attempt s head)
      exact hswap.trans (hrest.cons (log_after hlocal s head))

omit hlocal in
/-- In a list without repetition, what stands before `action` does not come after it. -/
theorem not_before {action other : A} {earlier later : List A}
    (hnodup : (earlier ++ action :: later).Nodup) (hother : other ∈ earlier) :
    ¬ [action, other].Sublist (earlier ++ action :: later) := by
  intro hsub
  have hdistinct := (List.nodup_append.mp hnodup).2.2
  rcases List.sublist_append_iff.mp hsub with ⟨front, back, hsplit, hfront, hback⟩
  cases front with
  | nil =>
      obtain rfl : back = [action, other] := hsplit.symm
      have hmem : other ∈ action :: later := hback.subset (by simp)
      exact hdistinct other hother other hmem rfl
  | cons head tail =>
      have hhead : head = action := (List.cons.inj hsplit).1.symm
      have hmem : action ∈ earlier := hhead ▸ hfront.subset List.mem_cons_self
      exact hdistinct action hmem action List.mem_cons_self rfl

omit hlocal in
/-- A pair in order that does not mention `action` is in order without it. -/
theorem before_of_ne {action first second : A} {earlier later : List A}
    (hfirst : first ≠ action) (hsecond : second ≠ action)
    (h : [first, second].Sublist (earlier ++ action :: later)) :
    [first, second].Sublist (earlier ++ later) := by
  rcases List.sublist_append_iff.mp h with ⟨front, back, hsplit, hfront, hback⟩
  rw [hsplit]
  apply hfront.append
  rcases List.sublist_cons_iff.mp hback with hlater | ⟨tail, rfl, -⟩
  · exact hlater
  · have hmem : action ∈ [first, second] := by rw [hsplit]; simp
    rcases List.mem_pair.mp hmem with rfl | rfl
    · exact absurd rfl hfirst
    · exact absurd rfl hsecond

/-- Two schedules of the same actions that order all conflicting ones alike. -/
theorem sameRun_of_keeps {order order' : List A} (hperm : order.Perm order')
    (hnodup : order.Nodup)
    (hkeeps : ∀ first second, ¬ (cells first).Apart (cells second) →
      [first, second].Sublist order → [first, second].Sublist order') (s : S) :
    SameRun attempt view s s order order' := by
  induction order generalizing order' s with
  | nil =>
      rw [hperm.nil_eq]
      exact sameRun_of_agree hlocal (fun _ _ => rfl) _
  | cons action rest ih =>
      rcases List.append_of_mem (hperm.subset List.mem_cons_self) with ⟨earlier, later, rfl⟩
      have hnodup' := hperm.nodup hnodup
      have hrest : rest.Perm (earlier ++ later) :=
        (hperm.trans List.perm_middle).cons_inv
      rw [List.nodup_cons] at hnodup
      have hapart : ∀ other ∈ earlier, (cells action).Apart (cells other) := by
        intro other hother
        by_contra hconflict
        have hmem : other ∈ rest := hrest.mem_iff.mpr (List.mem_append_left _ hother)
        have hbefore : [action, other].Sublist (action :: rest) :=
          (List.singleton_sublist.mpr hmem).cons_cons action
        exact not_before hnodup' hother (hkeeps action other hconflict hbefore)
      have hkeepsRest : ∀ first second, ¬ (cells first).Apart (cells second) →
          [first, second].Sublist rest → [first, second].Sublist (earlier ++ later) := by
        intro first second hconflict hbefore
        have hne : ∀ other ∈ [first, second], other ≠ action := by
          rintro other hother rfl
          exact hnodup.1 (hbefore.subset hother)
        apply before_of_ne (hne first (by simp)) (hne second (by simp))
        exact hkeeps first second hconflict (hbefore.cons action)
      have htail := ih hrest hnodup.2 hkeepsRest (after attempt s action)
      exact (htail.cons (log_after hlocal s action)).trans
        (sameRun_postpone hlocal hapart s)

end Schedules

end Footprint
