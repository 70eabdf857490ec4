/-
`open_position` and `update_triggers` check the same triggers in the same way: before
its first tick, a position whose triggers were changed any number of times is the one
that would have been opened with the last triggers accepted.
-/
import Hwal.Coherence
import Hwal.Support.Coupling

namespace Hwal

open Guard

/-- What both instructions set: the two prices and the offset. -/
structure Triggers where
  stopPrice : UInt64
  takeProfitPrice : UInt64
  trailingOffset : UInt64
deriving DecidableEq, Repr

def OpenPositionArgs.triggers (args : OpenPositionArgs) : Triggers :=
  ⟨args.stopPrice, args.takeProfitPrice, args.trailingOffset⟩

/-- The same opening with other triggers. -/
def OpenPositionArgs.withTriggers (args : OpenPositionArgs) (triggers : Triggers) :
    OpenPositionArgs :=
  { args with
    stopPrice := triggers.stopPrice
    takeProfitPrice := triggers.takeProfitPrice
    trailingOffset := triggers.trailingOffset }

@[simp] theorem withTriggers_triggers (args : OpenPositionArgs) :
    args.withTriggers args.triggers = args := rfl

@[simp] theorem withTriggers_nonce (args : OpenPositionArgs) (triggers : Triggers) :
    (args.withTriggers triggers).nonce = args.nonce := rfl

@[simp] theorem withTriggers_collateral (args : OpenPositionArgs) (triggers : Triggers) :
    (args.withTriggers triggers).collateral = args.collateral := rfl

/-- The triggers a moment sets on the position at `key`, if it does. -/
def acceptedTriggersAt (rt : Runtime) (key : Pubkey) (m : Moment) : Option Triggers :=
  match m.action with
  | .invoke _ (.updateTriggers accs stopPrice takeProfitPrice trailingOffset) =>
      if accs.position = key ∧ (attempt rt m.before m.action).isOk = true then
        some ⟨stopPrice, takeProfitPrice, trailingOffset⟩
      else none
  | _ => none

/-- The last triggers accepted, or those of the opening. -/
def lastTriggers (rt : Runtime) (key : Pubkey) (original : Triggers)
    (history : List Moment) : Triggers :=
  (history.filterMap (acceptedTriggersAt rt key)).getLastD original

/-- Nothing but `update_triggers` succeeds on the position at `key` at this moment. -/
def OnlyRetargets (rt : Runtime) (key : Pubkey) (m : Moment) : Prop :=
  Succeeded rt m → ∀ tx ix, m.action = .invoke tx ix → ix.ActsOn key →
    ∃ accs stopPrice takeProfitPrice trailingOffset,
      ix = .updateTriggers accs stopPrice takeProfitPrice trailingOffset

/-- A well-formed call of `update_triggers` by the owner of the position. -/
structure OwnersCall (rt : Runtime) (tx : Tx) (accs : OpenPosition) : Prop where
  authentic : tx.authentic rt = true
  precompiles : tx.precompilesPass rt = true
  signed : accs.owner ∈ tx.signers
  writable : accs.position ∈ tx.writable

/-! ### Both instructions are the one check -/

theorem retarget_newPosition (accs : OpenPosition) (args : OpenPositionArgs)
    (triggers later : Triggers) (entryPrice : UInt64) (now : Int64) (bump : UInt8) :
    (newPosition accs (args.withTriggers triggers) entryPrice now bump).retarget
        later.stopPrice later.takeProfitPrice later.trailingOffset =
      newPosition accs (args.withTriggers later) entryPrice now bump := by
  rw [retarget_frame, retarget_trailingExtreme]
  -- the extreme is at the entry price whether or not the offset restarts it
  have hextreme : (if later.trailingOffset =
      (newPosition accs (args.withTriggers triggers) entryPrice now bump).trailingOffset then
        (newPosition accs (args.withTriggers triggers) entryPrice now bump).trailingExtreme
      else (newPosition accs (args.withTriggers triggers) entryPrice now bump).entryPrice) =
        entryPrice := by
    split <;> rfl
  rw [hextreme]
  rfl

theorem checkOpen_withTriggers {feed : PriceFeed} {now : Int64} {args : OpenPositionArgs}
    (h : OpenChecked feed now args) (triggers : Triggers) :
    checkOpen feed now (args.withTriggers triggers) =
      checkTriggers args.side feed.price triggers.stopPrice triggers.takeProfitPrice
        triggers.trailingOffset := by
  have hfresh : requireFresh feed now = .ok () := requireFresh_eq_ok_iff.mpr h.fresh
  have hside : (args.withTriggers triggers).side = sideLong ∨
      (args.withTriggers triggers).side = sideShort := h.side
  have hcollateral : (args.withTriggers triggers).collateral ≥ minCollateralLamports :=
    h.collateral
  rw [checkOpen, require_of_holds _ hside, ok_bind, require_of_holds _ hcollateral, ok_bind,
    require_of_holds _ h.price_pos, ok_bind, hfresh, ok_bind]
  rfl

section Open

variable {rt : Runtime} {w w' : World} {tx : Tx} {accs : OpenPosition}
  {args : OpenPositionArgs}

/-- Where an opening succeeded, one with other triggers turns on those alone. -/
theorem openPosition_withTriggers (h : openPosition rt w tx accs args = .ok w') :
    ∃ feed bump, w.feeds accs.feed = some feed ∧
      rt.createProgramAddress (.position accs.owner args.nonce) bump = some accs.position ∧
      OpenChecked feed tx.unixTimestamp args ∧
      w'.positions accs.position =
        some (newPosition accs args feed.price tx.unixTimestamp bump) ∧
      ∀ triggers : Triggers,
        Coupled (fun created _ => created.positions accs.position =
            some (newPosition accs (args.withTriggers triggers) feed.price
              tx.unixTimestamp bump))
          (openPosition rt w tx accs (args.withTriggers triggers))
          (checkTriggers args.side feed.price triggers.stopPrice triggers.takeProfitPrice
            triggers.trailingOffset) := by
  simp only [openPosition, bind_eq_ok_iff, Prod.exists] at h
  rcases h with ⟨_, hsigner, config, hconfig, feed, hfeed, _, hsystem, rent, bump, hinit, _,
    hmut, _, hseeds, _, hcheck, lamports, hdeposit, hdone⟩
  have hchecked := checkOpen_eq_ok_iff.mp hcheck
  have hloaded := World.loadPriceFeed_eq_ok_iff.mp hfeed
  have hstored : w.configs accs.config = some config := World.loadConfig_eq_ok_iff.mp hconfig
  have hinitialized := initAccount_eq_ok hinit
  have hwritten (position : Position) (event : Event) :
      ((((w.withLamports lamports).store accs.position (.position position)).store
          accs.config (.config config.countOpened)).emit event).positions accs.position =
        some position := by
    obtain ⟨hunusedConfig, hunusedFeed, -⟩ := World.views_of_unused hinitialized.unused
    have hviews := @views_store_position_config (w.withLamports lamports) accs.position
      accs.config position config config.countOpened hunusedConfig hunusedFeed hstored
    rw [World.emit_positions, hviews.2.2, Function.update_self]
  refine ⟨feed, bump, World.loadPriceFeed_eq_ok_iff.mp hfeed, ?_, hchecked, ?_, ?_⟩
  · rw [hinitialized.address, hinitialized.bump_eq]
    exact rt.create_find _
  · rw [← pure_eq_ok_iff.mp hdone]
    exact hwritten _ _
  · intro triggers
    -- only the trigger check sees the triggers; the stages around it went through before
    simp only [openPosition, withTriggers_nonce, withTriggers_collateral, hsigner, hconfig,
      hfeed, hsystem, hinit, hmut, hseeds, hdeposit, ok_bind,
      checkOpen_withTriggers hchecked]
    cases checkTriggers args.side feed.price triggers.stopPrice triggers.takeProfitPrice
        triggers.trailingOffset with
    | ok u => exact .ok (hwritten _ _)
    | error error => exact .error error

end Open

section Update

variable {rt : Runtime} {w : World} {tx : Tx} {accs : OpenPosition} {args : OpenPositionArgs}
  {current : Triggers} {entryPrice : UInt64} {now : Int64} {bump : UInt8}

theorem updateTriggers_of_opened (hcall : OwnersCall rt tx accs)
    (hseeds : rt.createProgramAddress (.position accs.owner args.nonce) bump =
      some accs.position)
    (hposition : w.positions accs.position =
      some (newPosition accs (args.withTriggers current) entryPrice now bump))
    (triggers : Triggers) :
    Coupled (fun after _ => after.positions accs.position =
        some (newPosition accs (args.withTriggers triggers) entryPrice now bump))
      (attempt rt w (.invoke tx (.updateTriggers ⟨accs.owner, accs.position⟩
        triggers.stopPrice triggers.takeProfitPrice triggers.trailingOffset)))
      (checkTriggers args.side entryPrice triggers.stopPrice triggers.takeProfitPrice
        triggers.trailingOffset) := by
  have htry : UpdateTriggers.tryAccounts ⟨accs.owner, accs.position⟩ rt w tx =
      .ok (newPosition accs (args.withTriggers current) entryPrice now bump) :=
    updateTriggers_tryAccounts_of_loaded hcall.signed hposition rfl hcall.writable hseeds
  have hopen : (newPosition accs (args.withTriggers current) entryPrice now bump).status =
      statusOpen := rfl
  simp only [attempt, require_of_holds _ hcall.authentic,
    require_of_holds _ hcall.precompiles, ok_bind, execute, updateTriggers, htry,
    updateTriggersHandler, require_of_holds _ hopen, retarget_newPosition]
  change Coupled _ ((checkTriggers args.side entryPrice triggers.stopPrice
    triggers.takeProfitPrice triggers.trailingOffset >>= fun _ => pure _) >>= _) _
  cases checkTriggers args.side entryPrice triggers.stopPrice triggers.takeProfitPrice
      triggers.trailingOffset with
  | ok u =>
      exact .ok (World.positions_written _ _)
  | error error => exact .error error

end Update

/-! ### The calls of a run -/

section Accepted

variable {rt : Runtime} {w after : World} {action : Action} {key : Pubkey}

theorem acceptedTriggersAt_of_ok {tx : Tx} {accs : UpdateTriggers}
    {stopPrice takeProfitPrice trailingOffset : UInt64} {w' : World}
    (hok : attempt rt w (.invoke tx (.updateTriggers accs stopPrice takeProfitPrice
      trailingOffset)) = .ok w') (hkey : accs.position = key) :
    acceptedTriggersAt rt key ⟨w, .invoke tx (.updateTriggers accs stopPrice takeProfitPrice
      trailingOffset), after⟩ = some ⟨stopPrice, takeProfitPrice, trailingOffset⟩ := by
  rw [acceptedTriggersAt, hok]
  exact if_pos ⟨hkey, rfl⟩

theorem acceptedTriggersAt_of_error {error : ProgramError}
    (h : attempt rt w action = .error error) :
    acceptedTriggersAt rt key ⟨w, action, after⟩ = none := by
  unfold acceptedTriggersAt
  split
  · rw [h]
    apply if_neg
    rintro ⟨-, hok⟩
    contradiction
  · rfl

theorem acceptedTriggersAt_of_not_actsOn
    (h : ∀ tx ix, action = .invoke tx ix → ¬ ix.ActsOn key) :
    acceptedTriggersAt rt key ⟨w, action, after⟩ = none := by
  unfold acceptedTriggersAt
  split
  · rename_i tx accs stop take offset haction
    exact if_neg fun hset => h _ _ haction hset.1
  · rfl

end Accepted

theorem lastTriggers_snoc (rt : Runtime) (key : Pubkey) (original : Triggers)
    (history : List Moment) (m : Moment) :
    lastTriggers rt key original (history ++ [m]) =
      (acceptedTriggersAt rt key m).getD (lastTriggers rt key original history) := by
  rw [lastTriggers, List.filterMap_append, List.filterMap_cons, List.filterMap_nil]
  cases haccepted : acceptedTriggersAt rt key m with
  | none =>
      rw [List.append_nil]
      rfl
  | some triggers => simp

/-- The record a run of accepted and rejected calls has to keep: opened with the last
triggers accepted, which the check accepts. -/
structure AsOpenedWith (accs : OpenPosition) (args : OpenPositionArgs) (entryPrice : UInt64)
    (now : Int64) (bump : UInt8) (triggers : Triggers) (record : Option Position) :
    Prop where
  record : record =
    some (newPosition accs (args.withTriggers triggers) entryPrice now bump)
  placed : TriggersPlaced args.side entryPrice triggers.stopPrice triggers.takeProfitPrice
    triggers.trailingOffset

section Run

variable {rt : Runtime} {w : World} {accs : OpenPosition} {args : OpenPositionArgs}
  {entryPrice : UInt64} {now : Int64} {bump : UInt8}

theorem AsOpenedWith.step {triggers : Triggers} {action : Action}
    (h : AsOpenedWith accs args entryPrice now bump triggers (w.positions accs.position))
    (honly : OnlyRetargets rt accs.position ⟨w, action, step rt w action⟩) :
    AsOpenedWith accs args entryPrice now bump
      ((acceptedTriggersAt rt accs.position ⟨w, action, step rt w action⟩).getD triggers)
      ((step rt w action).positions accs.position) := by
  rcases ok_or_error (attempt rt w action) with ⟨w', hok⟩ | ⟨error, herror⟩
  · rw [step_of_ok hok] at honly ⊢
    by_cases hacts : ∃ tx ix, action = .invoke tx ix ∧ ix.ActsOn accs.position
    · rcases hacts with ⟨tx, ix, rfl, hix⟩
      rcases honly hok tx ix rfl hix with ⟨updated, stop, take, offset, rfl⟩
      have hkey : updated.position = accs.position := hix
      rcases triggersChanged_of_ok (attempt_invoke_eq_ok_iff.mp hok).2.2 with
        ⟨position, heff⟩
      have hloaded := heff.loaded
      rw [hkey, h.record] at hloaded
      obtain rfl := Option.some.inj hloaded
      rw [acceptedTriggersAt_of_ok hok hkey, Option.getD_some]
      constructor
      case record =>
        rw [heff.positions, hkey, Function.update_self]
        exact congrArg some
          (retarget_newPosition accs args triggers ⟨stop, take, offset⟩ entryPrice now bump)
      case placed => exact heff.placed
    · have hidle : ∀ tx ix, action = .invoke tx ix → ¬ ix.ActsOn accs.position :=
        fun tx ix haction hix => hacts ⟨tx, ix, haction, hix⟩
      rw [acceptedTriggersAt_of_not_actsOn hidle, Option.getD_none]
      exact ⟨kept_of_not_actsOn hok h.record hidle, h.placed⟩
  · rw [step_of_error herror, acceptedTriggersAt_of_error herror, Option.getD_none]
    exact h

theorem asOpenedWith_run {original : Triggers} {actions : List Action}
    (h : AsOpenedWith accs args entryPrice now bump original (w.positions accs.position))
    (honly : ∀ m ∈ historyFrom rt w actions, OnlyRetargets rt accs.position m) :
    AsOpenedWith accs args entryPrice now bump
      (lastTriggers rt accs.position original (historyFrom rt w actions))
      ((runFrom rt w actions).positions accs.position) := by
  induction actions using List.reverseRecOn with
  | nil => exact h
  | append_singleton earlier action ih =>
      rw [historyFrom_snoc] at honly
      rw [historyFrom_snoc, runFrom_snoc, lastTriggers_snoc]
      apply AsOpenedWith.step
      · exact ih fun m hm => honly m (List.mem_append_left _ hm)
      · exact honly _ (List.mem_append_right _ List.mem_cons_self)

end Run

/-- After an opening and any calls of `update_triggers`, some accepted and some not,
the record is that of an opening with the last triggers accepted, and the next call of
the owner ends as an opening with its triggers would have. -/
theorem update_agrees_with_open {rt : Runtime} {w opened : World} {tx : Tx}
    {accs : OpenPosition} {args : OpenPositionArgs}
    (hopen : attempt rt w (.invoke tx (.openPosition accs args)) = .ok opened)
    (actions : List Action)
    (honly : ∀ m ∈ historyFrom rt opened actions, OnlyRetargets rt accs.position m) :
    (∃ created position, attempt rt w (.invoke tx (.openPosition accs (args.withTriggers
          (lastTriggers rt accs.position args.triggers (historyFrom rt opened actions))))) =
        .ok created ∧
      created.positions accs.position = some position ∧
      (runFrom rt opened actions).positions accs.position = some position) ∧
    ∀ m ∈ historyFrom rt opened actions, ∀ caller (triggers : Triggers),
      OwnersCall rt caller accs →
      m.action = .invoke caller (.updateTriggers ⟨accs.owner, accs.position⟩
        triggers.stopPrice triggers.takeProfitPrice triggers.trailingOffset) →
      Coupled (fun after created => ∃ position,
          after.positions accs.position = some position ∧
          created.positions accs.position = some position)
        (attempt rt m.before m.action)
        (attempt rt w (.invoke tx (.openPosition accs (args.withTriggers triggers)))) := by
  rcases attempt_invoke_eq_ok_iff.mp hopen with ⟨htx, hpre, hexec⟩
  rcases openPosition_withTriggers hexec with
    ⟨feed, bump, -, hseeds, hchecked, hrecord, hcoupled⟩
  have hdirect (triggers : Triggers) :
      attempt rt w (.invoke tx (.openPosition accs (args.withTriggers triggers))) =
        openPosition rt w tx accs (args.withTriggers triggers) := by
    simp only [attempt, require_of_holds _ htx, require_of_holds _ hpre, ok_bind, execute]
  have hstart : AsOpenedWith accs args feed.price tx.unixTimestamp bump args.triggers
      (opened.positions accs.position) := ⟨hrecord, hchecked.placed⟩
  constructor
  · have hend := asOpenedWith_run hstart honly
    have hcreated := hcoupled (lastTriggers rt accs.position args.triggers
      (historyFrom rt opened actions))
    rw [(checkTriggers_eq_ok_iff (u := ())).mpr hend.placed] at hcreated
    rcases hcreated.of_ok_right with ⟨created, hok, hsame⟩
    exact ⟨created, _, (hdirect _).trans hok, hsame, hend.record⟩
  · intro m hm caller triggers hcall haction
    rcases (Transition.mem_trace_iff (step rt)).mp hm with
      ⟨earlier, later, hactions, hbefore, -⟩
    have hearlier := Transition.forall_mem_earlier (step rt) honly hactions
    have hend := asOpenedWith_run hstart hearlier
    rw [haction, hbefore, hdirect]
    apply (updateTriggers_of_opened hcall hseeds hend.record triggers).through
      (hcoupled triggers)
    intro after created _ hafter hcreated
    exact ⟨_, hafter, hcreated⟩

section Adjusted

open Localnet

/-- Trailing switched on, a stop above the entry refused, trailing switched off. -/
def adjustments : List Action :=
  [retarget 80000000 0 5000000 1004, push 105000000 1005,
    retarget 110000000 0 5000000 1006, retarget 85000000 130000000 0 1007]

def depositWith (triggers : Triggers) : Action :=
  .invoke (tx alice 1003) (.openPosition ⟨alice, config, feed, position, systemProgramId⟩
    (OpenPositionArgs.withTriggers ⟨1, 0, 50000000, 90000000, 120000000, 0⟩ triggers))

/-- The record ends as an opening with the third call's triggers has it, and the second
call fails exactly as an opening with its own. -/
theorem update_agrees_with_open_adjusted :
    (∃ created position', attempt cluster (runFrom cluster (World.genesis funds) launch)
        (depositWith ⟨85000000, 130000000, 0⟩) = .ok created ∧
      created.positions position = some position' ∧
      (runFrom cluster (runFrom cluster (World.genesis funds) (launch ++ [deposit]))
        adjustments).positions position = some position') ∧
    ∀ error, attempt cluster (runFrom cluster (World.genesis funds)
          (launch ++ [deposit, retarget 80000000 0 5000000 1004, push 105000000 1005]))
        (retarget 110000000 0 5000000 1006) = .error error ↔
      attempt cluster (runFrom cluster (World.genesis funds) launch)
        (depositWith ⟨110000000, 0, 5000000⟩) = .error error := by
  have hopen : attempt cluster (runFrom cluster (World.genesis funds) launch) deposit =
      .ok (runFrom cluster (World.genesis funds) (launch ++ [deposit])) := by
    rw [runFrom_snoc]
    exact succeeded_of_isOk (by decide +kernel)
  have honly : ∀ m ∈ historyFrom cluster
      (runFrom cluster (World.genesis funds) (launch ++ [deposit])) adjustments,
      OnlyRetargets cluster position m := by
    intro m hm _ caller ix haction hix
    have hmem := action_mem_of_mem_history hm
    rw [haction] at hmem
    simp only [adjustments, retarget, push, List.mem_cons, Action.invoke.injEq,
      List.not_mem_nil, or_false] at hmem
    rcases hmem with ⟨-, rfl⟩ | ⟨-, rfl⟩ | ⟨-, rfl⟩ | ⟨-, rfl⟩
    · exact ⟨_, _, _, _, rfl⟩
    · exact hix.elim
    · exact ⟨_, _, _, _, rfl⟩
    · exact ⟨_, _, _, _, rfl⟩
  have hlast : lastTriggers cluster position ⟨90000000, 120000000, 0⟩ (historyFrom cluster
      (runFrom cluster (World.genesis funds) (launch ++ [deposit])) adjustments) =
        ⟨85000000, 130000000, 0⟩ := by decide +kernel
  rcases update_agrees_with_open hopen adjustments honly with ⟨hrecord, hcalls⟩
  constructor
  · have hargs : OpenPositionArgs.triggers ⟨1, 0, 50000000, 90000000, 120000000, 0⟩ =
        ⟨90000000, 120000000, 0⟩ := rfl
    rw [hargs, hlast] at hrecord
    exact hrecord
  · intro error
    have hcaller : OwnersCall cluster (tx alice 1006)
        ⟨alice, config, feed, position, systemProgramId⟩ := by
      constructor <;> decide +kernel
    have hmoment := momentAt_mem_history cluster
      (runFrom cluster (World.genesis funds) (launch ++ [deposit]))
      [retarget 80000000 0 5000000 1004, push 105000000 1005]
      [retarget 85000000 130000000 0 1007] (retarget 110000000 0 5000000 1006)
    exact (hcalls _ hmoment (tx alice 1006) ⟨110000000, 0, 5000000⟩ hcaller rfl).error_iff error

end Adjusted

end Hwal
