/-
The fields of a position agree with its status in every reachable state, its
timestamps are in order while the clock is, and a closed position stays as it is.
-/
import Hwal.Invariants

namespace Hwal

open Guard

/-! ### Status, collateral and reason -/

/-- The fields the five position instructions write one by one, read together. -/
structure Position.Coherent (position : Position) : Prop where
  deposit : position.status = statusOpen → minCollateralLamports ≤ position.collateral
  reason : position.status = statusTriggered → position.triggerReason = triggerStopLoss ∨
    position.triggerReason = triggerTakeProfit ∨ position.triggerReason = triggerTrailing
  unsettled : position.status = statusOpen → position.settledAt = 0

theorem firstHit_cases {position : Position} {price : UInt64}
    (h : position.firstHit price ≠ triggerNone) :
    position.firstHit price = triggerStopLoss ∨ position.firstHit price = triggerTakeProfit ∨
      position.firstHit price = triggerTrailing := by
  unfold Position.firstHit at h ⊢
  split
  · exact Or.inl rfl
  · split
    · exact Or.inr (Or.inl rfl)
    · split
      · exact Or.inr (Or.inr rfl)
      · rename_i hstop htake htrail
        rw [if_neg hstop, if_neg htake, if_neg htrail] at h
        exact absurd rfl h

section Step

variable {rt : Runtime} {w w' : World} {action : Action} {key : Pubkey} {position : Position}

theorem keeps_coherent (hok : attempt rt w action = .ok w')
    (h : ∀ before, w.positions key = some before → before.Coherent)
    (hposition : w'.positions key = some position) : position.Coherent := by
  have hat := (attempt_effect hok).atPosition key
  generalize hbefore : w.positions key = before at hat h
  rw [hposition] at hat
  cases hat with
  | kept pays => exact h _ rfl
  | opened account heff =>
      constructor
      case deposit => exact fun _ => heff.checked.collateral
      case reason =>
        intro htriggered
        have hopen : statusOpen = statusTriggered := htriggered
        exact absurd hopen (by decide)
      case unsettled => exact fun _ => rfl
  | retargeted account heff =>
      have hold := h _ rfl
      rw [retarget_frame]
      exact ⟨hold.deposit, hold.reason, hold.unsettled⟩
  | ticked account heff =>
      have hold := h _ rfl
      exact ⟨hold.deposit, hold.reason, hold.unsettled⟩
  | settled account heff =>
      constructor
      case deposit => exact fun hopen => absurd hopen (by rw [fired_status]; decide)
      case reason => exact fun _ => firstHit_cases heff.fires
      case unsettled => exact fun hopen => absurd hopen (by rw [fired_status]; decide)
  | cancelled account heff =>
      constructor
      case deposit => exact fun hopen => absurd hopen (by rw [cancelled_status]; decide)
      case reason => exact fun htriggered => absurd htriggered (by rw [cancelled_status]; decide)
      case unsettled => exact fun hopen => absurd hopen (by rw [cancelled_status]; decide)
  | delegated account heff =>
      have hold := h _ rfl
      exact ⟨hold.deposit, hold.reason, hold.unsettled⟩
  | undelegated account heff =>
      have hold := h _ rfl
      exact ⟨hold.deposit, hold.reason, hold.unsettled⟩

end Step

theorem reachable_coherent {rt : Runtime} {w : World} (h : Reachable rt w) {key : Pubkey}
    {position : Position} (hposition : w.positions key = some position) :
    position.Coherent := by
  have hinv : ∀ position, w.positions key = some position → position.Coherent := by
    rcases h with ⟨lamports, actions, rfl⟩
    apply @Transition.run_invariant _ _ (step rt)
      (fun w => ∀ position, w.positions key = some position → position.Coherent)
    · intro position hposition
      contradiction
    · intro w action hold position hposition
      rcases step_cases rt w action with hok | hsame
      · exact keeps_coherent hok hold hposition
      · rw [hsame] at hposition
        exact hold position hposition
  exact hinv position hposition

/-- Holding collateral and being open are the same thing. -/
theorem open_iff_collateral {position : Position} (hsound : position.Sound)
    (h : position.Coherent) :
    position.status = statusOpen ↔ minCollateralLamports ≤ position.collateral := by
  constructor
  · exact h.deposit
  · intro hcollateral
    by_contra hclosed
    rw [hsound.emptied hclosed] at hcollateral
    exact absurd hcollateral (by decide)

/-- A trigger is recorded exactly by a settlement. -/
theorem triggered_iff_reason {position : Position} (hsound : position.Sound)
    (h : position.Coherent) :
    position.status = statusTriggered ↔ position.triggerReason = triggerStopLoss ∨
      position.triggerReason = triggerTakeProfit ∨
        position.triggerReason = triggerTrailing := by
  constructor
  · exact h.reason
  · intro hreason
    by_contra hne
    rw [hsound.reason.mpr hne] at hreason
    exact absurd hreason (by decide)

/-! ### Timestamps -/

/-- The timestamps of a position, among the times a run has seen. -/
structure Position.InOrder (times : List Int64) (position : Position) : Prop where
  opened : position.openedAt.toInt ≤ position.lastTickAt.toInt
  seen : position.lastTickAt ∈ times
  settled : position.status ≠ statusOpen →
    position.lastTickAt.toInt ≤ position.settledAt.toInt

theorem Position.InOrder.mono {times times' : List Int64} {position : Position}
    (h : position.InOrder times) (hsub : times ⊆ times') : position.InOrder times' :=
  ⟨h.opened, hsub h.seen, h.settled⟩

section Step

variable {rt : Runtime} {w w' : World} {action : Action} {key : Pubkey} {position : Position}
  {times : List Int64}

/-- One step at a time that is not before any time seen so far. -/
theorem keeps_inOrder (hok : attempt rt w action = .ok w')
    (hlater : ∀ now, action.time = some now → ∀ time ∈ times, time.toInt ≤ now.toInt)
    (h : ∀ before, w.positions key = some before → before.InOrder times)
    (hposition : w'.positions key = some position) :
    position.InOrder (times ++ action.time.toList) := by
  have hat := (attempt_effect hok).atPosition key
  generalize hbefore : w.positions key = before at hat h
  rw [hposition] at hat
  have hold (before' : Position) (hsame : before = some before') :
      before'.InOrder (times ++ action.time.toList) :=
    (h before' hsame).mono (List.subset_append_left _ _)
  cases hat with
  | kept pays => exact hold _ rfl
  | opened account heff =>
      exact ⟨Int.le_refl _, List.mem_append_right _ List.mem_cons_self,
        fun hclosed => absurd rfl hclosed⟩
  | retargeted account heff =>
      have hbefore := hold _ rfl
      rw [retarget_frame]
      exact ⟨hbefore.opened, hbefore.seen, hbefore.settled⟩
  | ticked account heff =>
      have hbefore := h _ rfl
      have hopen := (tickPrice_eq_ok_iff.mp heff.guards).1
      have hnow := hlater _ rfl _ hbefore.seen
      exact ⟨Int.le_trans hbefore.opened hnow, List.mem_append_right _ List.mem_cons_self,
        fun hclosed => absurd hopen hclosed⟩
  | settled account heff =>
      have hbefore := h _ rfl
      have hnow := hlater _ rfl _ hbefore.seen
      exact ⟨Int.le_trans hbefore.opened hnow, List.mem_append_right _ List.mem_cons_self,
        fun _ => Int.le_refl _⟩
  | cancelled account heff =>
      have hbefore := h _ rfl
      have hnow := hlater _ rfl _ hbefore.seen
      exact ⟨hbefore.opened, List.mem_append_left _ hbefore.seen, fun _ => hnow⟩
  | delegated account heff =>
      have hbefore := hold _ rfl
      exact ⟨hbefore.opened, hbefore.seen, hbefore.settled⟩
  | undelegated account heff =>
      have hbefore := hold _ rfl
      exact ⟨hbefore.opened, hbefore.seen, hbefore.settled⟩

end Step

theorem inOrder_of_run (rt : Runtime) (lamports : Lamports) (actions : List Action)
    (hclock : ClockMonotone actions) {key : Pubkey} {position : Position}
    (hposition : (runFrom rt (World.genesis lamports) actions).positions key = some position) :
    position.InOrder (actions.filterMap Action.time) := by
  induction actions using List.reverseRecOn generalizing position with
  | nil => contradiction
  | append_singleton earlier action ih =>
      have htimes : (earlier ++ [action]).filterMap Action.time =
          earlier.filterMap Action.time ++ action.time.toList := by
        rw [List.filterMap_append]
        cases htime : action.time with
        | none => simp [htime]
        | some now => simp [htime]
      rw [ClockMonotone, htimes, List.pairwise_append] at hclock
      rcases hclock with ⟨hearlier, -, hlater⟩
      rw [htimes]
      rw [runFrom_snoc] at hposition
      rcases step_cases rt (runFrom rt (World.genesis lamports) earlier) action with
        hok | hsame
      · apply keeps_inOrder hok _ _ hposition
        · intro now hnow time htime
          apply hlater time htime now
          rw [hnow]
          exact List.mem_cons_self
        · intro before hbefore
          exact ih hearlier hbefore
      · rw [hsame] at hposition
        exact (ih hearlier hposition).mono (List.subset_append_left _ _)

/-! ### Closed for good -/

/-- The instructions that act on the position at `key`. -/
def Instruction.ActsOn (key : Pubkey) : Instruction → Prop
  | .tickPosition accs => accs.position = key
  | .cancelPosition accs => accs.position = key
  | .updateTriggers accs _ _ _ => accs.position = key
  | .delegatePosition accs => accs.position = key
  | .undelegatePosition accs => accs.position = key
  | _ => False

section Closed

variable {rt : Runtime} {w w' : World} {action : Action} {key : Pubkey} {position : Position}

/-- Whatever acts on a position finds it open. -/
theorem open_of_actsOn {tx : Tx} {ix : Instruction} (hix : ix.ActsOn key)
    (hok : attempt rt w (.invoke tx ix) = .ok w') (hposition : w.positions key = some position) :
    position.status = statusOpen := by
  have hloaded (loaded : Position) (hload : w.positions key = some loaded) :
      loaded = position := Option.some.inj (hload.symm.trans hposition)
  cases attempt_effect hok with
  | configCreated => exact hix.elim
  | configChanged => exact hix.elim
  | feedCreated => exact hix.elim
  | feedPushed => exact hix.elim
  | feedRegistered => exact hix.elim
  | feedVerified => exact hix.elim
  | positionOpened => exact hix.elim
  | triggersChanged heff =>
      subst hix
      rw [← hloaded _ heff.loaded]
      exact heff.status
  | tickRecorded heff =>
      subst hix
      rw [← hloaded _ heff.accounts.position_loaded]
      exact (tickPrice_eq_ok_iff.mp heff.guards).1
  | positionSettled heff =>
      subst hix
      rw [← hloaded _ heff.accounts.position_loaded]
      exact (tickPrice_eq_ok_iff.mp heff.guards).1
  | positionCancelled heff =>
      subst hix
      rw [← hloaded _ heff.accounts.position_loaded]
      exact heff.status
  | delegated heff =>
      subst hix
      rw [← hloaded _ heff.loaded]
      exact heff.status
  | undelegated heff =>
      subst hix
      rw [← hloaded _ heff.loaded]
      exact heff.status

/-- What does not act on a position leaves its record alone. -/
theorem kept_of_not_actsOn (hok : attempt rt w action = .ok w')
    (hposition : w.positions key = some position)
    (hacts : ∀ tx ix, action = .invoke tx ix → ¬ ix.ActsOn key) :
    w'.positions key = some position := by
  have hat := (attempt_effect hok).atPosition key
  rw [hposition] at hat
  generalize w'.positions key = after at hat ⊢
  cases hat with
  | kept pays => rfl
  | retargeted account heff => exact absurd account (hacts _ _ rfl)
  | ticked account heff => exact absurd account (hacts _ _ rfl)
  | settled account heff => exact absurd account (hacts _ _ rfl)
  | cancelled account heff => exact absurd account (hacts _ _ rfl)
  | delegated account heff => exact absurd account (hacts _ _ rfl)
  | undelegated account heff => exact absurd account (hacts _ _ rfl)

theorem refused_when_closed (hposition : w.positions key = some position)
    (hclosed : position.status ≠ statusOpen) (tx : Tx) {ix : Instruction}
    (hix : ix.ActsOn key) :
    (∃ error, attempt rt w (.invoke tx ix) = .error error) ∧
      step rt w (.invoke tx ix) = w := by
  rcases ok_or_error (attempt rt w (.invoke tx ix)) with ⟨w', hok⟩ | ⟨error, herror⟩
  · exact absurd (open_of_actsOn hix hok hposition) hclosed
  · exact ⟨⟨error, herror⟩, step_of_error herror⟩

theorem closed_step (hposition : w.positions key = some position)
    (hclosed : position.status ≠ statusOpen) (action : Action) :
    (step rt w action).positions key = some position := by
  rcases step_effect rt w action with heffect | hsame
  · have hat := heffect.atPosition key
    rw [hposition] at hat
    generalize (step rt w action).positions key = after at hat ⊢
    cases hat with
    | kept pays => rfl
    | retargeted account heff => exact absurd heff.status hclosed
    | ticked account heff => exact absurd (tickPrice_eq_ok_iff.mp heff.guards).1 hclosed
    | settled account heff => exact absurd (tickPrice_eq_ok_iff.mp heff.guards).1 hclosed
    | cancelled account heff => exact absurd heff.status hclosed
    | delegated account heff => exact absurd heff.status hclosed
    | undelegated account heff => exact absurd heff.status hclosed
  · rw [hsame, hposition]

theorem closed_run (hposition : w.positions key = some position)
    (hclosed : position.status ≠ statusOpen) (later : List Action) :
    (runFrom rt w later).positions key = some position := by
  induction later generalizing w with
  | nil => exact hposition
  | cons action rest ih => exact ih (closed_step hposition hclosed action)

end Closed

/-- Every position of every reachable state: its fields agree with its status, its
timestamps are in order as long as the clock of the run is, and once closed it never
changes and refuses every instruction that acts on it. -/
theorem lifecycle_coherent (rt : Runtime) (lamports : Lamports) (actions : List Action)
    (hclock : ClockMonotone actions) {key : Pubkey} {position : Position}
    (hposition : (runFrom rt (World.genesis lamports) actions).positions key = some position) :
    (position.side = sideLong ∨ position.side = sideShort) ∧
    (position.status = statusOpen ∨ position.status = statusTriggered ∨
      position.status = statusCancelled) ∧
    (position.status = statusOpen ↔ minCollateralLamports ≤ position.collateral) ∧
    (position.status ≠ statusOpen → position.collateral = 0) ∧
    (position.status = statusTriggered ↔ position.triggerReason = triggerStopLoss ∨
      position.triggerReason = triggerTakeProfit ∨
        position.triggerReason = triggerTrailing) ∧
    (position.status ≠ statusTriggered → position.triggerReason = triggerNone) ∧
    (position.status = statusOpen → position.settledAt = 0) ∧
    (position.status ≠ statusOpen → position.openedAt.toInt ≤ position.lastTickAt.toInt ∧
      position.lastTickAt.toInt ≤ position.settledAt.toInt) ∧
    (position.status ≠ statusOpen → ∀ later,
      (runFrom rt (runFrom rt (World.genesis lamports) actions) later).positions key =
          some position ∧
        ∀ (tx : Tx) (ix : Instruction), ix.ActsOn key →
          (∃ error, attempt rt (runFrom rt (runFrom rt (World.genesis lamports) actions) later)
            (.invoke tx ix) = .error error) ∧
          step rt (runFrom rt (runFrom rt (World.genesis lamports) actions) later)
              (.invoke tx ix) =
            runFrom rt (runFrom rt (World.genesis lamports) actions) later) := by
  have hreach : Reachable rt (runFrom rt (World.genesis lamports) actions) :=
    ⟨lamports, actions, rfl⟩
  have hsound := ((reachable_invariant hreach).positions key position hposition).shape
  have hcoherent := reachable_coherent hreach hposition
  have horder := inOrder_of_run rt lamports actions hclock hposition
  refine ⟨hsound.side, hsound.status, open_iff_collateral hsound hcoherent, hsound.emptied,
    triggered_iff_reason hsound hcoherent, hsound.reason.mpr, hcoherent.unsettled,
    fun hclosed => ⟨horder.opened, horder.settled hclosed⟩, ?_⟩
  intro hclosed later
  have hlater := @closed_run rt _ key position hposition hclosed later
  exact ⟨hlater, fun tx ix hix => refused_when_closed hlater hclosed tx hix⟩

open Localnet in
/-- Alice's position after its stop fired: settled, at the time of the tick. -/
theorem lifecycle_coherent_settled :
    ∃ closed, (runFrom cluster (World.genesis funds)
        (launch ++ [deposit, push 80000000 1005, tick feeReceiver 1006])).positions position =
          some closed ∧
      closed.collateral = 0 ∧ closed.lastTickAt.toInt ≤ closed.settledAt.toInt ∧
      (runFrom cluster (runFrom cluster (World.genesis funds)
        (launch ++ [deposit, push 80000000 1005, tick feeReceiver 1006]))
          [tick feeReceiver 1007, cancel 1008]).positions position = some closed := by
  have hclock : ClockMonotone
      (launch ++ [deposit, push 80000000 1005, tick feeReceiver 1006]) := by
    unfold ClockMonotone
    decide +kernel
  have hstatus : ((runFrom cluster (World.genesis funds)
      (launch ++ [deposit, push 80000000 1005, tick feeReceiver 1006])).positions
        position).map Position.status = some statusTriggered := by decide +kernel
  rcases Option.map_eq_some_iff.mp hstatus with ⟨closed, hclosed, htriggered⟩
  have hnotOpen : closed.status ≠ statusOpen := by
    rw [htriggered]
    decide
  rcases lifecycle_coherent cluster funds _ hclock hclosed with
    ⟨-, -, -, hempty, -, -, -, htimes, hforever⟩
  exact ⟨closed, hclosed, hempty hnotOpen, (htimes hnotOpen).2,
    (hforever hnotOpen [tick feeReceiver 1007, cancel 1008]).1⟩

end Hwal
