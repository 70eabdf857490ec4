/-
What `er_delegated` means to the program itself: a mark on the position that only
`delegate_position` and `undelegate_position` read.  No other instruction asks whether a
position is delegated: it ticks, settles and cancels the marked one and the unmarked one
alike.
-/
import Hwal.Alike
import Hwal.Lifecycle

namespace Hwal

open Guard

/-- The same position, marked or not. -/
def SameButMark (p q : Position) : Prop :=
  ∃ mark, q = { p with erDelegated := mark }

/-- A call that reads the mark of the position at `key`. -/
def Action.ReadsMark (key : Pubkey) : Action → Prop
  | .invoke _ (.delegatePosition accs) => accs.position = key
  | .invoke _ (.undelegatePosition accs) => accs.position = key
  | _ => False

namespace SameButMark

theorem refl (p : Position) : SameButMark p p := ⟨p.erDelegated, rfl⟩

variable {p q : Position}

theorem sameDeposit (p q : Position) (h : SameButMark p q) : SameDeposit p q := by
  rcases h with ⟨mark, rfl⟩
  exact ⟨⟨rfl, rfl, rfl, rfl⟩, rfl, rfl⟩

theorem sameAccount (p q : Position) (h : SameButMark p q) : SameAccount p q :=
  (sameDeposit p q h).toSameAccount

theorem observe (h : SameButMark p q) (price : UInt64) (now : Int64) :
    SameButMark (p.observe price now) (q.observe price now) := by
  rcases h with ⟨mark, rfl⟩
  exact ⟨mark, rfl⟩

theorem settled (h : SameButMark p q) (trigger : UInt8) (now : Int64) :
    SameButMark (p.settled trigger now) (q.settled trigger now) := by
  rcases h with ⟨mark, rfl⟩
  exact ⟨mark, rfl⟩

theorem cancelled (h : SameButMark p q) (now : Int64) :
    SameButMark (p.cancelled now) (q.cancelled now) := by
  rcases h with ⟨mark, rfl⟩
  exact ⟨mark, rfl⟩

theorem retarget (h : SameButMark p q) (stopPrice takeProfitPrice trailingOffset : UInt64) :
    SameButMark (p.retarget stopPrice takeProfitPrice trailingOffset)
      (q.retarget stopPrice takeProfitPrice trailingOffset) := by
  rcases h with ⟨mark, rfl⟩
  refine ⟨mark, ?_⟩
  simp only [Position.retarget]
  split <;> rfl

theorem evaluateTrigger_eq (h : SameButMark p q) (price : UInt64) :
    evaluateTrigger q price = evaluateTrigger p price := by
  rcases h with ⟨mark, rfl⟩
  rfl

end SameButMark

section Instructions

variable {key : Pubkey} {w v : World} {rt : Runtime} {tx : Tx}

theorem updateTriggersHandler_marked {p q : Position} (h : SameButMark p q)
    (stopPrice takeProfitPrice trailingOffset : UInt64) :
    Coupled SameButMark (updateTriggersHandler p stopPrice takeProfitPrice trailingOffset)
      (updateTriggersHandler q stopPrice takeProfitPrice trailingOffset) := by
  have hretarget := h.retarget stopPrice takeProfitPrice trailingOffset
  rcases h with ⟨mark, rfl⟩
  unfold updateTriggersHandler
  apply Coupled.same_guard
  apply Coupled.same_guard
  exact .pure hretarget

theorem updateTriggers_marked (h : AlikeBut SameButMark key w v) {accs : UpdateTriggers}
    (hkey : accs.position = key) (stopPrice takeProfitPrice trailingOffset : UInt64) :
    Coupled (AlikeBut SameButMark key)
      (updateTriggers rt w tx accs stopPrice takeProfitPrice trailingOffset)
      (updateTriggers rt v tx accs stopPrice takeProfitPrice trailingOffset) := by
  subst hkey
  apply updateTriggers_coupled SameButMark.sameAccount (h.loadPosition SameButMark.refl)
  · intro p q hpq
    exact updateTriggersHandler_marked hpq _ _ _
  · intro p q hpq
    exact (h.store_position hpq).emit _ _

theorem cancelPosition_marked (h : AlikeBut SameButMark key w v) {accs : CancelPosition}
    (hkey : accs.position = key) :
    Coupled (AlikeBut SameButMark key) (cancelPosition rt w tx accs)
      (cancelPosition rt v tx accs) := by
  subst hkey
  apply cancelPosition_coupled (.eq rt tx _) h.lamports.symm SameButMark.sameDeposit
    (h.loadConfig _) (h.loadPosition SameButMark.refl)
  rintro config p q lamports _ hpq rfl
  exact (((h.withLamports _).store_position (hpq.cancelled _)).store _ _).emit _ _

theorem tickPosition_marked (h : AlikeBut SameButMark key w v) {accs : TickPosition}
    (hkey : accs.position = key) :
    Coupled (AlikeBut SameButMark key) (tickPosition rt w tx accs)
      (tickPosition rt v tx accs) := by
  subst hkey
  apply tickPosition_coupled (P := Eq) (.eq rt tx _) h.lamports.symm SameButMark.sameDeposit
    (h.loadConfig _) (coupled_eq (h.loadPriceFeed _)) (h.loadPosition SameButMark.refl)
  · rintro feed _ p q rfl hpq -
    have hprice : tickPrice q feed tx.unixTimestamp = tickPrice p feed tx.unixTimestamp := by
      rcases hpq with ⟨mark, rfl⟩
      rfl
    apply (coupled_eq hprice).mono
    rintro price _ rfl
    have hobserved := hpq.observe price tx.unixTimestamp
    exact ⟨rfl, hobserved, hobserved.evaluateTrigger_eq price⟩
  · rintro p q price _ hpq rfl
    exact (h.store_position hpq).emit _ _
  · rintro config p q price _ trigger payout lamports _ hpq rfl rfl
    have hsettled := hpq.settled trigger tx.unixTimestamp
    exact (((h.withLamports _).store_position hsettled).store _ _).emit _ _

/-- The mark makes no difference to any call that does not read it. -/
theorem attempt_marked (h : AlikeBut SameButMark key w v) {action : Action}
    (haction : ¬ action.ReadsMark key) :
    Coupled (AlikeBut SameButMark key) (attempt rt w action) (attempt rt v action) := by
  cases action with
  | transfer src dst amount => exact transfer_alike h src dst amount
  | invoke tx ix =>
      apply invoke_coupled rfl rfl
      by_cases hix : ix.ActsOn key
      · cases ix with
        | updateTriggers accs stopPrice takeProfitPrice trailingOffset =>
            exact updateTriggers_marked h hix _ _ _
        | tickPosition accs => exact tickPosition_marked h hix
        | cancelPosition accs => exact cancelPosition_marked h hix
        | delegatePosition accs => exact absurd hix haction
        | undelegatePosition accs => exact absurd hix haction
        | _ => contradiction
      · exact execute_alike h hix

end Instructions

/-! ### Whole runs -/

theorem run_marked {rt : Runtime} {key : Pubkey} {w v : World}
    (h : AlikeBut SameButMark key w v) {actions : List Action}
    (hunread : ∀ action ∈ actions, ¬ action.ReadsMark key) :
    AlikeBut SameButMark key (runFrom rt w actions) (runFrom rt v actions) := by
  induction actions generalizing w v with
  | nil => exact h
  | cons action rest ih =>
      have hfirst : AlikeBut SameButMark key (step rt w action) (step rt v action) :=
        step_of_coupled h (attempt_marked h (hunread action List.mem_cons_self))
      exact ih hfirst fun later hlater => hunread later (List.mem_cons_of_mem action hlater)

/-- Mark a position as delegated, or take the mark away, in any state, and let anyone do
anything but call `delegate_position` or `undelegate_position` on it: every balance and
every other account stay what they would have been, the position too but for the mark, and
whatever is tried next, of the calls that do not read it, fails with an error exactly when
it would have failed with that error. -/
theorem mark_inert (rt : Runtime) {w : World} {key : Pubkey} {position : Position}
    (hposition : w.positions key = some position) (mark : UInt8) {actions : List Action}
    (hunread : ∀ action ∈ actions, ¬ action.ReadsMark key) :
    let v := w.store key (.position { position with erDelegated := mark })
    let w' := runFrom rt w actions
    let v' := runFrom rt v actions
    v'.lamports = w'.lamports ∧ (∀ k, k ≠ key → v'.accounts k = w'.accounts k) ∧
      (∃ p q, w'.positions key = some p ∧ v'.positions key = some q ∧ SameButMark p q) ∧
      ∀ action, ¬ action.ReadsMark key → ∀ error,
        attempt rt w' action = .error error ↔ attempt rt v' action = .error error := by
  intro v w' v'
  have hstart : AlikeBut SameButMark key w v :=
    (AlikeBut.refl SameButMark key w).store_right
      (World.positions_eq_some_iff.mp hposition) ⟨mark, rfl⟩
  have halike : AlikeBut SameButMark key w' v' := run_marked hstart hunread
  refine ⟨halike.lamports, halike.elsewhere, ?_, ?_⟩
  · rcases positions_persist_run rt hposition actions with ⟨p, hp⟩
    have hloaded := halike.loadPosition SameButMark.refl
    rw [World.loadPosition_eq_ok_iff.mpr hp] at hloaded
    rcases hloaded.of_ok with ⟨q, hq, hpq⟩
    exact ⟨p, q, hp, World.loadPosition_eq_ok_iff.mp hq, hpq⟩
  · intro action haction error
    exact (attempt_marked halike haction).error_iff error

open Localnet in
/-- A position marked as delegated pays the same when its stop is reached. -/
theorem mark_inert_stopReached :
    ∃ record, (runFrom cluster (World.genesis funds) (launch ++ [deposit])).positions position =
        some record ∧
      let w := runFrom cluster (World.genesis funds) (launch ++ [deposit])
      let fires := [push 89000000 1006, tick feeReceiver 1007]
      (runFrom cluster (w.store position (.position { record with erDelegated := 1 }))
        fires).lamports = (runFrom cluster w fires).lamports := by
  have hstored : ((runFrom cluster (World.genesis funds) (launch ++ [deposit])).positions
      position).isSome = true := by decide +kernel
  rcases Option.isSome_iff_exists.mp hstored with ⟨record, hrecord⟩
  refine ⟨record, hrecord, (mark_inert cluster hrecord 1 ?_).1⟩
  simp [push, tick, Action.ReadsMark]

end Hwal
