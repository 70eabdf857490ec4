/-
Every position as a machine of its own.  Past the account constraints a call on a
position is decided by its record and the feed it names alone, and a run of the whole
program, seen at one address, is the run of that machine over the calls made there.
-/
import Hwal.Coherence
import Hwal.Progress
import Hwal.Support.Coupling

namespace Hwal

open Guard

/-! ### The handlers on a record -/

/-- The handler of `tick_position` without the payments. -/
def Position.tick (position : Position) (feed : PriceFeed) (now : Int64) :
    Except ProgramError Position := do
  let price ← tickPrice position feed now
  let seen := position.observe price now
  let trigger ← evaluateTrigger seen price
  return if trigger = triggerNone then seen else seen.settled trigger now

/-- What reaches the handler of a position once signatures and accounts are checked. -/
inductive PositionCall where
  | tick (feed : PriceFeed) (now : Int64)
  | retarget (stopPrice takeProfitPrice trailingOffset : UInt64)
  | cancel (now : Int64)
  | delegate
  | undelegate
deriving DecidableEq, Repr

def Position.handle (position : Position) : PositionCall → Except ProgramError Position
  | .tick feed now => position.tick feed now
  | .retarget stopPrice takeProfitPrice trailingOffset =>
      updateTriggersHandler position stopPrice takeProfitPrice trailingOffset
  | .cancel now => do
      require (position.status = statusOpen) (.hwal .positionNotOpen)
      return position.cancelled now
  | .delegate => do
      require (position.status = statusOpen) (.hwal .positionNotOpen)
      require (position.erDelegated = 0) (.hwal .positionAlreadyDelegated)
      return { position with erDelegated := 1 }
  | .undelegate => do
      require (position.status = statusOpen) (.hwal .positionNotOpen)
      require (position.erDelegated = 1) (.hwal .positionNotDelegated)
      return { position with erDelegated := 0 }

/-- The record after a call; a failed call leaves it alone. -/
def Position.after (position : Position) (call : PositionCall) : Position :=
  match position.handle call with
  | .ok position' => position'
  | .error _ => position

def Position.afterAll (position : Position) (calls : List PositionCall) : Position :=
  calls.foldl Position.after position

theorem after_of_ok {position position' : Position} {call : PositionCall}
    (h : position.handle call = .ok position') : position.after call = position' := by
  rw [Position.after, h]

theorem after_of_error {position : Position} {call : PositionCall} {error : ProgramError}
    (h : position.handle call = .error error) : position.after call = position := by
  rw [Position.after, h]

/-- `P` holds at every call, of the record it finds. -/
def Position.Along (P : Position → PositionCall → Prop) :
    Position → List PositionCall → Prop
  | _, [] => True
  | position, call :: calls => P position call ∧ (position.after call).Along P calls

theorem tick_eq_ok_iff {position position' : Position} {feed : PriceFeed} {now : Int64} :
    position.tick feed now = .ok position' ↔
      tickPrice position feed now = .ok feed.price ∧
        ¬ (position.observe feed.price now).Stuck feed.price ∧
        position' = position.ticked feed.price now := by
  simp only [Position.tick, bind_eq_ok_iff, evaluateTrigger_eq_ok_iff, pure_eq_ok_iff]
  constructor
  · rintro ⟨price, hprice, trigger, ⟨hstuck, rfl⟩, rfl⟩
    obtain rfl := (tickPrice_eq_ok_iff.mp hprice).2.2.2
    exact ⟨hprice, hstuck, rfl⟩
  · rintro ⟨hprice, hstuck, rfl⟩
    exact ⟨feed.price, hprice, _, ⟨hstuck, rfl⟩, rfl⟩

/-! ### The calls of a run -/

/-- The call an instruction makes on the position at `key`, when it gets that far. -/
def Instruction.callOn (rt : Runtime) (w : World) (tx : Tx) (key : Pubkey) :
    Instruction → Option PositionCall
  | .tickPosition accs =>
      if accs.position = key then
        (accs.tryAccounts rt w tx).toOption.map fun found => .tick found.2.1 tx.unixTimestamp
      else none
  | .updateTriggers accs stopPrice takeProfitPrice trailingOffset =>
      if accs.position = key then
        (accs.tryAccounts rt w tx).toOption.map fun _ =>
          .retarget stopPrice takeProfitPrice trailingOffset
      else none
  | .cancelPosition accs =>
      if accs.position = key then
        (accs.tryAccounts rt w tx).toOption.map fun _ => .cancel tx.unixTimestamp
      else none
  | .delegatePosition accs =>
      if accs.position = key then
        (accs.tryAccounts rt w tx).toOption.bind fun position =>
          (rt.invokeDelegation (delegateIx accs position) tx w.lamports).map fun _ => .delegate
      else none
  | .undelegatePosition accs =>
      if accs.position = key then
        (accs.tryAccounts rt w tx).toOption.bind fun _ =>
          (rt.invokeDelegation (undelegateIx accs) tx w.lamports).map fun _ => .undelegate
      else none
  | _ => none

def callAt (rt : Runtime) (key : Pubkey) (w : World) : Action → Option PositionCall
  | .invoke tx ix =>
      if tx.authentic rt = true ∧ tx.precompilesPass rt = true then ix.callOn rt w tx key
      else none
  | .transfer _ _ _ => none

/-- The calls made on the position at `key`, in their order. -/
def callsOf (rt : Runtime) (key : Pubkey) (history : List Moment) : List PositionCall :=
  history.filterMap fun m => callAt rt key m.before m.action

theorem callAt_invoke_eq_some_iff {rt : Runtime} {key : Pubkey} {w : World} {tx : Tx}
    {ix : Instruction} {call : PositionCall} :
    callAt rt key w (.invoke tx ix) = some call ↔
      tx.authentic rt = true ∧ tx.precompilesPass rt = true ∧
        ix.callOn rt w tx key = some call := by
  by_cases h : tx.authentic rt = true ∧ tx.precompilesPass rt = true
  · simp [callAt, h]
  · rw [callAt, if_neg h]
    constructor
    · intro hnone
      contradiction
    · rintro ⟨htx, hpre, -⟩
      exact absurd ⟨htx, hpre⟩ h

/-! ### The program runs the machine -/

/-- The outcome of an instruction and the outcome of the call it makes: the same error,
or a world that holds the new record. -/
abbrev Realises (key : Pubkey) : Except ProgramError World → Except ProgramError Position →
    Prop :=
  Coupled fun w position => w.positions key = some position

section Calls

variable {rt : Runtime} {w : World} {tx : Tx} {config : Config} {position : Position}

theorem TickEvaluated.exists_ok {accs : TickPosition} {feed : PriceFeed}
    (h : TickEvaluated rt w tx accs config feed position) (hinv : Invariant rt w)
    (hsupply : Ledger.SupplyAtMost (2 ^ 64 - 1) w.lamports) :
    ∃ w', tickPosition rt w tx accs = .ok w' := by
  have hsound := (hinv.positions _ _ h.accounts.position_loaded).shape
  apply exists_tickPosition h.accounts h.guards hinv hsupply
  intro hover
  exact h.threshold ((observe_stuck_iff hsound h.price_pos tx.unixTimestamp).mpr hover)

theorem tickPosition_realises {accs : TickPosition} {feed : PriceFeed}
    (haccs : TickAccounts accs rt w tx config feed position) (hinv : Invariant rt w)
    (hsupply : Ledger.SupplyAtMost (2 ^ 64 - 1) w.lamports) :
    Realises accs.position (tickPosition rt w tx accs)
      (position.tick feed tx.unixTimestamp) := by
  have htry := tickPosition_tryAccounts_eq_ok_iff.mpr haccs
  cases htick : position.tick feed tx.unixTimestamp with
  | ok position' =>
      rcases tick_eq_ok_iff.mp htick with ⟨hguards, hstuck, rfl⟩
      have heval : TickEvaluated rt w tx accs config feed position := ⟨haccs, hguards, hstuck⟩
      rcases heval.exists_ok hinv hsupply with ⟨w', hok⟩
      rw [hok]
      rcases tick_written_of_ok hok with ⟨_, _, _, heff, hwritten⟩
      rcases haccs.unique heff.accounts with ⟨rfl, rfl, rfl⟩
      exact .ok hwritten
  | error error =>
      have herror : tickPosition rt w tx accs = .error error := by
        rcases bind_eq_error_iff.mp htick with hguard | ⟨price, hprice, hrest⟩
        · simp only [tickPosition, htry, ok_bind, hguard, error_bind]
        · rcases bind_eq_error_iff.mp hrest with hstuck | ⟨trigger, -, hpure⟩
          · simp only [tickPosition, htry, ok_bind, hprice, hstuck, error_bind]
          · contradiction
      rw [herror]
      exact .error error

theorem cancelPosition_realises {accs : CancelPosition}
    (haccs : CancelAccounts accs rt w tx config position) (hinv : Invariant rt w)
    (hsupply : Ledger.SupplyAtMost (2 ^ 64 - 1) w.lamports) :
    Realises accs.position (cancelPosition rt w tx accs)
      (position.handle (.cancel tx.unixTimestamp)) := by
  have htry := cancelPosition_tryAccounts_eq_ok_iff.mpr haccs
  by_cases hopen : position.status = statusOpen
  · rcases exists_cancelPosition haccs hopen hinv hsupply with ⟨w', hok⟩
    rcases positionCancelled_of_ok hok with ⟨_, loaded, heff⟩
    have hsame : loaded = position :=
      Option.some.inj (heff.accounts.position_loaded.symm.trans haccs.position_loaded)
    subst hsame
    rw [hok, Position.handle, require_of_holds _ hopen]
    apply Coupled.ok
    rw [heff.positions, Function.update_self]
  · simp only [cancelPosition, htry, ok_bind, Position.handle, require, hopen, ↓reduceIte,
      error_bind]
    exact .error _

theorem updateTriggers_realises {accs : UpdateTriggers}
    (htry : accs.tryAccounts rt w tx = .ok position)
    (stopPrice takeProfitPrice trailingOffset : UInt64) :
    Realises accs.position
      (updateTriggers rt w tx accs stopPrice takeProfitPrice trailingOffset)
      (position.handle (.retarget stopPrice takeProfitPrice trailingOffset)) := by
  rw [updateTriggers, htry, ok_bind]
  cases hhandled : updateTriggersHandler position stopPrice takeProfitPrice trailingOffset with
  | ok position' =>
      rw [Position.handle, hhandled, ok_bind]
      exact .ok (World.positions_written _ _)
  | error error =>
      rw [Position.handle, hhandled, error_bind]
      exact .error error

theorem delegatePosition_realises {accs : DelegatePosition} {lamports : Lamports}
    (htry : accs.tryAccounts rt w tx = .ok position)
    (hcpi : rt.invokeDelegation (delegateIx accs position) tx w.lamports = some lamports) :
    Realises accs.position (delegatePosition rt w tx accs) (position.handle .delegate) := by
  rw [delegatePosition, htry, ok_bind, Position.handle]
  apply Coupled.same_guard
  apply Coupled.same_guard
  rw [hcpi, okOr_some, ok_bind]
  exact .ok (World.positions_written _ _)

theorem undelegatePosition_realises {accs : UndelegatePosition} {lamports : Lamports}
    (htry : accs.tryAccounts rt w tx = .ok position)
    (hcpi : rt.invokeDelegation (undelegateIx accs) tx w.lamports = some lamports) :
    Realises accs.position (undelegatePosition rt w tx accs)
      (position.handle .undelegate) := by
  rw [undelegatePosition, htry, ok_bind, Position.handle]
  apply Coupled.same_guard
  apply Coupled.same_guard
  rw [hcpi, okOr_some, ok_bind]
  exact .ok (World.positions_written _ _)

theorem delegatePosition_tryAccounts_loaded {accs : DelegatePosition}
    (h : accs.tryAccounts rt w tx = .ok position) :
    w.positions accs.position = some position := by
  simp only [DelegatePosition.tryAccounts, bind_eq_ok_iff, pure_eq_ok_iff] at h
  rcases h with ⟨-, -, loaded, hload, hrest⟩
  rcases hrest with ⟨-, -, -, -, -, -, -, -, -, -, -, -, -, -, -, -, rfl⟩
  exact World.loadPosition_eq_ok_iff.mp hload

/-- The call an instruction makes decides it. -/
theorem callOn_realises {ix : Instruction} {key : Pubkey} {call : PositionCall}
    (hcall : ix.callOn rt w tx key = some call) (hposition : w.positions key = some position)
    (hinv : Invariant rt w) (hsupply : Ledger.SupplyAtMost (2 ^ 64 - 1) w.lamports) :
    Realises key (execute rt w tx ix) (position.handle call) := by
  have hsame {account : Pubkey} {loaded : Position} (haccount : account = key)
      (hload : w.positions account = some loaded) : loaded = position := by
    rw [haccount, hposition] at hload
    exact (Option.some.inj hload).symm
  cases ix with
  | tickPosition accs =>
      simp only [Instruction.callOn, Option.ite_none_right_eq_some, Option.map_eq_some_iff,
        toOption_eq_some_iff, Prod.exists] at hcall
      rcases hcall with ⟨rfl, config, feed, loaded, htry, rfl⟩
      have haccs := tickPosition_tryAccounts_eq_ok_iff.mp htry
      obtain rfl := hsame rfl haccs.position_loaded
      exact tickPosition_realises haccs hinv hsupply
  | updateTriggers accs stopPrice takeProfitPrice trailingOffset =>
      simp only [Instruction.callOn, Option.ite_none_right_eq_some, Option.map_eq_some_iff,
        toOption_eq_some_iff] at hcall
      rcases hcall with ⟨rfl, loaded, htry, rfl⟩
      obtain rfl := hsame rfl (updateTriggers_tryAccounts_loaded htry)
      exact updateTriggers_realises htry stopPrice takeProfitPrice trailingOffset
  | cancelPosition accs =>
      simp only [Instruction.callOn, Option.ite_none_right_eq_some, Option.map_eq_some_iff,
        toOption_eq_some_iff, Prod.exists] at hcall
      rcases hcall with ⟨rfl, config, loaded, htry, rfl⟩
      have haccs := cancelPosition_tryAccounts_eq_ok_iff.mp htry
      obtain rfl := hsame rfl haccs.position_loaded
      exact cancelPosition_realises haccs hinv hsupply
  | delegatePosition accs =>
      simp only [Instruction.callOn, Option.ite_none_right_eq_some, Option.bind_eq_some_iff,
        Option.map_eq_some_iff, toOption_eq_some_iff] at hcall
      rcases hcall with ⟨rfl, loaded, htry, lamports, hcpi, rfl⟩
      obtain rfl := hsame rfl (delegatePosition_tryAccounts_loaded htry)
      exact delegatePosition_realises htry hcpi
  | undelegatePosition accs =>
      simp only [Instruction.callOn, Option.ite_none_right_eq_some, Option.bind_eq_some_iff,
        Option.map_eq_some_iff, toOption_eq_some_iff] at hcall
      rcases hcall with ⟨rfl, loaded, htry, lamports, hcpi, rfl⟩
      have haccs := undelegatePosition_tryAccounts_eq_ok_iff.mp htry
      obtain rfl := hsame rfl haccs.position_loaded
      exact undelegatePosition_realises htry hcpi
  | initializeConfig => contradiction
  | updateConfig => contradiction
  | initializePriceFeed => contradiction
  | updatePriceFeed => contradiction
  | openPosition => contradiction
  | registerLazerFeed => contradiction
  | updatePriceFeedFromLazer => contradiction

/-- What succeeds on a position has made a call on it. -/
theorem exists_callOn_of_ok {ix : Instruction} {key : Pubkey} {w' : World}
    (hix : ix.ActsOn key) (hok : execute rt w tx ix = .ok w') :
    ∃ call, ix.callOn rt w tx key = some call := by
  cases ix with
  | tickPosition accs =>
      rcases bind_eq_ok_iff.mp hok with ⟨found, htry, -⟩
      have hkey : accs.position = key := hix
      simp only [Instruction.callOn, hkey, ↓reduceIte, htry, Except.toOption, Option.map_some]
      exact ⟨_, rfl⟩
  | updateTriggers accs stopPrice takeProfitPrice trailingOffset =>
      rcases bind_eq_ok_iff.mp hok with ⟨found, htry, -⟩
      have hkey : accs.position = key := hix
      simp only [Instruction.callOn, hkey, ↓reduceIte, htry, Except.toOption, Option.map_some]
      exact ⟨_, rfl⟩
  | cancelPosition accs =>
      rcases bind_eq_ok_iff.mp hok with ⟨found, htry, -⟩
      have hkey : accs.position = key := hix
      simp only [Instruction.callOn, hkey, ↓reduceIte, htry, Except.toOption, Option.map_some]
      exact ⟨_, rfl⟩
  | delegatePosition accs =>
      simp only [execute, delegatePosition, bind_eq_ok_iff, okOr_eq_ok_iff] at hok
      rcases hok with ⟨found, htry, -, -, -, -, lamports, hcpi, -⟩
      have hkey : accs.position = key := hix
      simp only [Instruction.callOn, hkey, ↓reduceIte, htry, Except.toOption, hcpi,
        Option.bind_some, Option.map_some]
      exact ⟨_, rfl⟩
  | undelegatePosition accs =>
      simp only [execute, undelegatePosition, bind_eq_ok_iff, okOr_eq_ok_iff] at hok
      rcases hok with ⟨found, htry, -, -, -, -, lamports, hcpi, -⟩
      have hkey : accs.position = key := hix
      simp only [Instruction.callOn, hkey, ↓reduceIte, htry, Except.toOption, hcpi,
        Option.bind_some, Option.map_some]
      exact ⟨_, rfl⟩
  | initializeConfig => exact hix.elim
  | updateConfig => exact hix.elim
  | initializePriceFeed => exact hix.elim
  | updatePriceFeed => exact hix.elim
  | openPosition => exact hix.elim
  | registerLazerFeed => exact hix.elim
  | updatePriceFeedFromLazer => exact hix.elim

end Calls

/-! ### Runs -/

section Runs

variable {rt : Runtime} {w : World} {key : Pubkey} {position : Position} {action : Action}

theorem call_realises (h : ReachableWithSupply rt w) (hposition : w.positions key = some position)
    {call : PositionCall} (hcall : callAt rt key w action = some call) :
    Realises key (attempt rt w action) (position.handle call) := by
  cases action with
  | transfer src dst amount => contradiction
  | invoke tx ix =>
      rcases callAt_invoke_eq_some_iff.mp hcall with ⟨htx, hpre, hon⟩
      simp only [attempt, require_of_holds _ htx, require_of_holds _ hpre, ok_bind]
      exact callOn_realises hon hposition (reachable_invariant h.reachable)
        (reachable_supply h)

theorem step_of_call (h : ReachableWithSupply rt w) (hposition : w.positions key = some position)
    {call : PositionCall} (hcall : callAt rt key w action = some call) :
    (step rt w action).positions key = some (position.after call) := by
  have hrealises := call_realises h hposition hcall
  cases hhandled : position.handle call with
  | ok position' =>
      rw [hhandled] at hrealises
      rcases hrealises.of_ok_right with ⟨w', hok, hrecord⟩
      rw [step_of_ok hok, hrecord, after_of_ok hhandled]
  | error error =>
      rw [hhandled] at hrealises
      rw [step_of_error hrealises.of_error_right, hposition, after_of_error hhandled]

theorem step_of_no_call (hposition : w.positions key = some position)
    (hcall : callAt rt key w action = none) :
    (step rt w action).positions key = some position := by
  rcases ok_or_error (attempt rt w action) with ⟨w', hok⟩ | ⟨error, herror⟩
  · rw [step_of_ok hok]
    apply kept_of_not_actsOn hok hposition
    rintro tx ix rfl hix
    rcases attempt_invoke_eq_ok_iff.mp hok with ⟨htx, hpre, hexec⟩
    rcases exists_callOn_of_ok hix hexec with ⟨call, hon⟩
    rw [callAt_invoke_eq_some_iff.mpr ⟨htx, hpre, hon⟩] at hcall
    contradiction
  · rw [step_of_error herror, hposition]

theorem callsOf_cons (m : Moment) (history : List Moment) :
    callsOf rt key (m :: history) =
      (callAt rt key m.before m.action).toList ++ callsOf rt key history := by
  rw [callsOf, callsOf, List.filterMap_cons]
  cases callAt rt key m.before m.action <;> rfl

/-- Seen at one address, a run of the program is the run of the machine over its calls. -/
theorem record_of_run (h : ReachableWithSupply rt w)
    (hposition : w.positions key = some position) (actions : List Action) :
    (runFrom rt w actions).positions key =
      some (position.afterAll (callsOf rt key (historyFrom rt w actions))) := by
  induction actions generalizing w position with
  | nil => exact hposition
  | cons action rest ih =>
      change (runFrom rt (step rt w action) rest).positions key = some (position.afterAll
        (callsOf rt key (⟨w, action, step rt w action⟩ :: historyFrom rt (step rt w action) rest)))
      rw [callsOf_cons]
      cases hcall : callAt rt key w action with
      | none => exact ih (h.step action) (step_of_no_call hposition hcall)
      | some call => exact ih (h.step action) (step_of_call h hposition hcall)

/-- What holds at every call of a run holds along the run of the machine. -/
theorem along_iff_of_run {P : Position → PositionCall → Prop} (h : ReachableWithSupply rt w)
    (hposition : w.positions key = some position) (actions : List Action) :
    position.Along P (callsOf rt key (historyFrom rt w actions)) ↔
      ∀ m ∈ historyFrom rt w actions, ∀ before call, m.before.positions key = some before →
        callAt rt key m.before m.action = some call → P before call := by
  induction actions generalizing w position with
  | nil => simp [callsOf, Position.Along]
  | cons action rest ih =>
      change position.Along P (callsOf rt key
          (⟨w, action, step rt w action⟩ :: historyFrom rt (step rt w action) rest)) ↔
        ∀ m ∈ ⟨w, action, step rt w action⟩ :: historyFrom rt (step rt w action) rest, _
      rw [callsOf_cons, List.forall_mem_cons]
      cases hcall : callAt rt key w action with
      | none =>
          have hrest := ih (h.step action) (step_of_no_call hposition hcall)
          simpa [hcall] using hrest
      | some call =>
          have hrest := ih (h.step action) (step_of_call h hposition hcall)
          apply and_congr _ hrest
          constructor
          · rintro hP before found hbefore hfound
            rw [hposition] at hbefore
            cases hbefore
            cases hfound
            exact hP
          · intro hall
            exact hall position call hposition rfl

/-- A call of a run goes through exactly when the record handles it. -/
theorem succeeded_iff_handled (h : ReachableWithSupply rt w) {actions : List Action}
    {m : Moment} (hm : m ∈ historyFrom rt w actions) {before : Position} {call : PositionCall}
    (hbefore : m.before.positions key = some before)
    (hcall : callAt rt key m.before m.action = some call) :
    Succeeded rt m ↔ ∃ position', before.handle call = .ok position' := by
  rcases (Transition.mem_trace_iff (step rt)).mp hm with ⟨earlier, later, -, hrun, hafter⟩
  have hreach : ReachableWithSupply rt m.before := by
    rw [hrun]
    exact h.run earlier
  have hrealises := call_realises hreach hbefore hcall
  constructor
  · intro hok
    rw [show attempt rt m.before m.action = .ok m.after from hok] at hrealises
    rcases hrealises.of_ok with ⟨position', hhandled, -⟩
    exact ⟨position', hhandled⟩
  · rintro ⟨position', hhandled⟩
    rw [hhandled] at hrealises
    rcases hrealises.of_ok_right with ⟨w', hok, -⟩
    rw [Succeeded, hafter, step_of_ok hok, hok]

end Runs

end Hwal
