/-
Operations on two positions in either order.  Each operation is summed up by what it
adds: one new record, a list of transfers and four counter increments.  Another
position's operation neither enables nor disables it nor changes what it adds, and
additions commute.
-/
import Hwal.SettlementDeltas

namespace Hwal

open Guard

/-! ### Operations and what they add -/

inductive PositionOp where
  | tick (accs : TickPosition)
  | cancel (accs : CancelPosition)
  | retarget (accs : UpdateTriggers) (stopPrice takeProfitPrice trailingOffset : UInt64)
deriving DecidableEq, Repr

def PositionOp.key : PositionOp → Pubkey
  | .tick accs => accs.position
  | .cancel accs => accs.position
  | .retarget accs _ _ _ => accs.position

def PositionOp.instruction : PositionOp → Instruction
  | .tick accs => .tickPosition accs
  | .cancel accs => .cancelPosition accs
  | .retarget accs stopPrice takeProfitPrice trailingOffset =>
      .updateTriggers accs stopPrice takeProfitPrice trailingOffset

/-- Increments of the counters of the config. -/
structure Counts where
  triggered : UInt64
  cancelled : UInt64
  fees : UInt64
  keeperRewards : UInt64
deriving DecidableEq, Repr

def Counts.none : Counts := ⟨0, 0, 0, 0⟩

def Config.count (config : Config) (counts : Counts) : Config :=
  { config with
    totalPositionsTriggered := config.totalPositionsTriggered.saturatingAdd counts.triggered
    totalPositionsCancelled := config.totalPositionsCancelled.saturatingAdd counts.cancelled
    totalFeesCollected := config.totalFeesCollected.saturatingAdd counts.fees
    totalKeeperRewardsPaid :=
      config.totalKeeperRewardsPaid.saturatingAdd counts.keeperRewards }

theorem count_none (config : Config) : config.count Counts.none = config := by
  simp only [Config.count, Counts.none, UInt64.saturatingAdd_zero]

theorem count_comm (config : Config) (a b : Counts) :
    (config.count a).count b = (config.count b).count a := by
  simp only [Config.count, UInt64.saturatingAdd_right_comm _ a.triggered,
    UInt64.saturatingAdd_right_comm _ a.cancelled, UInt64.saturatingAdd_right_comm _ a.fees,
    UInt64.saturatingAdd_right_comm _ a.keeperRewards]

theorem countTriggered_eq (config : Config) (payout : Payout) :
    config.countTriggered payout = config.count ⟨1, 0, payout.fee, payout.keeperReward⟩ := by
  simp only [Config.countTriggered, Config.count, UInt64.saturatingAdd_zero]

theorem countCancelled_eq (config : Config) :
    config.countCancelled = config.count ⟨0, 1, 0, 0⟩ := by
  simp only [Config.countCancelled, Config.count, UInt64.saturatingAdd_zero]

/-- What an operation adds to the state. -/
structure OpDelta where
  record : Position
  transfers : List (Ledger.Transfer Pubkey)
  counts : Counts

/-- The operation takes effect from `w` and adds `delta`. -/
inductive Does (rt : Runtime) (w : World) (tx : Tx) : PositionOp → OpDelta → Prop where
  | ticked {accs config feed position}
      (h : TickEvaluated rt w tx accs config feed position)
      (quiet : (position.observe feed.price tx.unixTimestamp).firstHit feed.price =
        triggerNone) :
      Does rt w tx (.tick accs)
        ⟨position.observe feed.price tx.unixTimestamp, [], Counts.none⟩
  | settled {accs config feed position payout}
      (h : TickEvaluated rt w tx accs config feed position)
      (fires : (position.observe feed.price tx.unixTimestamp).firstHit feed.price ≠
        triggerNone)
      (payout_of : PayoutOf config position.collateral payout) :
      Does rt w tx (.tick accs)
        ⟨position.fired feed.price tx.unixTimestamp, settlementTransfers accs payout,
          ⟨1, 0, payout.fee, payout.keeperReward⟩⟩
  | cancelled {accs config position} (h : CancelAccounts accs rt w tx config position)
      (status : position.status = statusOpen) :
      Does rt w tx (.cancel accs)
        ⟨position.cancelled tx.unixTimestamp,
          [⟨accs.position, accs.owner, position.collateral.toNat⟩], ⟨0, 1, 0, 0⟩⟩
  | retargeted {accs stopPrice takeProfitPrice trailingOffset position record}
      (h : accs.tryAccounts rt w tx = .ok position)
      (handled : updateTriggersHandler position stopPrice takeProfitPrice trailingOffset =
        .ok record) :
      Does rt w tx (.retarget accs stopPrice takeProfitPrice trailingOffset)
        ⟨record, [], Counts.none⟩

/-- `w'` is `w` with `delta` added at `key`. -/
structure Added (delta : OpDelta) (key : Pubkey) (w w' : World) : Prop where
  lamports : Ledger.Moved delta.transfers w.lamports w'.lamports
  configs : ∀ k, w'.configs k = (w.configs k).map fun config => config.count delta.counts
  feeds : w'.feeds = w.feeds
  positions : w'.positions = Function.update w.positions key (some delta.record)

theorem configs_unchanged (w : World) (k : Pubkey) :
    w.configs k = (w.configs k).map fun config => config.count Counts.none := by
  cases w.configs k with
  | none => rfl
  | some config => rw [Option.map_some, count_none]

/-- There is only one config to count in. -/
theorem configs_counted {rt : Runtime} {w : World} (hinv : Invariant rt w) {key : Pubkey}
    {config : Config} (hloaded : w.configs key = some config) (counts : Counts) (k : Pubkey) :
    Function.update w.configs key (some (config.count counts)) k =
      (w.configs k).map fun config => config.count counts := by
  by_cases hkey : k = key
  · rw [hkey, Function.update_self, hloaded, Option.map_some]
  · have hnone : w.configs k = none := by
      by_contra hsome
      rcases Option.ne_none_iff_exists'.mp hsome with ⟨other, hother⟩
      apply hkey
      rw [(hinv.configs _ _ hother).address, (hinv.configs _ _ hloaded).address]
    rw [Function.update_of_ne hkey, hnone, Option.map_none]

/-! ### Taking effect is having a delta -/

section Does

variable {rt : Runtime} {w w' : World} {tx : Tx} {op : PositionOp}

theorem does_of_execute (hinv : Invariant rt w) (h : execute rt w tx op.instruction = .ok w') :
    ∃ delta, Does rt w tx op delta ∧ Added delta op.key w w' := by
  cases op with
  | tick accs =>
      rcases tick_effect_of_ok h with ⟨config, feed, position, heff⟩ |
        ⟨config, feed, position, payout, heff⟩
      · refine ⟨_, .ticked heff.toTickEvaluated heff.quiet, ?_, ?_, heff.feeds, heff.positions⟩
        · rw [heff.lamports]
          exact Ledger.Moved.nil _
        · rw [heff.configs]
          exact configs_unchanged w
      · refine ⟨_, .settled heff.toTickEvaluated heff.fires heff.payout_of, heff.paid, ?_,
          heff.feeds, heff.positions⟩
        rw [heff.configs, countTriggered_eq]
        exact configs_counted hinv heff.accounts.config_loaded _
  | cancel accs =>
      rcases positionCancelled_of_ok h with ⟨config, position, heff⟩
      refine ⟨_, .cancelled heff.accounts heff.status, heff.refunded, ?_, heff.feeds,
        heff.positions⟩
      rw [heff.configs, countCancelled_eq]
      exact configs_counted hinv heff.accounts.config_loaded _
  | retarget accs stopPrice takeProfitPrice trailingOffset =>
      rcases triggersChanged_of_ok h with ⟨position, heff⟩
      change updateTriggers rt w tx accs stopPrice takeProfitPrice trailingOffset = .ok w' at h
      simp only [updateTriggers, bind_eq_ok_iff] at h
      rcases h with ⟨loaded, htry, record, handled, -⟩
      have hloaded : w.positions accs.position = some loaded :=
        updateTriggers_tryAccounts_loaded htry
      obtain rfl := Option.some.inj (heff.loaded.symm.trans hloaded)
      obtain rfl := (updateTriggersHandler_eq_ok_iff.mp handled).2.2
      refine ⟨_, .retargeted htry handled, ?_, ?_, heff.feeds, heff.positions⟩
      · rw [heff.lamports]
        exact Ledger.Moved.nil _
      · rw [heff.configs]
        exact configs_unchanged w

theorem exists_execute_of_does {delta : OpDelta} (hinv : Invariant rt w)
    (hsupply : Ledger.SupplyAtMost (2 ^ 64 - 1) w.lamports) (h : Does rt w tx op delta) :
    ∃ w', execute rt w tx op.instruction = .ok w' := by
  cases h with
  | ticked heval quiet => exact heval.exists_ok hinv hsupply
  | settled heval fires payout_of => exact heval.exists_ok hinv hsupply
  | cancelled haccs status => exact exists_cancelPosition haccs status hinv hsupply
  | retargeted htry handled =>
      simp only [PositionOp.instruction, execute, updateTriggers, htry, handled, ok_bind]
      exact ⟨_, rfl⟩

/-- What an operation adds is determined by the state it starts from. -/
theorem Does.unique {delta delta' : OpDelta} (h : Does rt w tx op delta)
    (h' : Does rt w tx op delta') : delta = delta' := by
  cases h with
  | ticked heval quiet =>
      cases h' with
      | ticked heval' quiet' =>
          rcases heval.accounts.unique heval'.accounts with ⟨rfl, rfl, rfl⟩
          rfl
      | settled heval' fires payout_of =>
          rcases heval.accounts.unique heval'.accounts with ⟨rfl, rfl, rfl⟩
          exact absurd quiet fires
  | settled heval fires payout_of =>
      cases h' with
      | ticked heval' quiet =>
          rcases heval.accounts.unique heval'.accounts with ⟨rfl, rfl, rfl⟩
          exact absurd quiet fires
      | settled heval' fires' payout_of' =>
          rcases heval.accounts.unique heval'.accounts with ⟨rfl, rfl, rfl⟩
          rw [payout_of.unique payout_of']
  | cancelled haccs status =>
      cases h' with
      | cancelled haccs' status' =>
          obtain rfl := Option.some.inj (haccs.position_loaded.symm.trans haccs'.position_loaded)
          rfl
  | retargeted htry handled =>
      cases h' with
      | retargeted htry' handled' =>
          rw [htry] at htry'
          obtain rfl := Except.ok.inj htry'
          rw [handled] at handled'
          rw [Except.ok.inj handled']

end Does

/-! ### Seen from another position -/

/-- The fields of the config an operation depends on. -/
structure SameRates (config config' : Config) : Prop where
  bump : config'.bump = config.bump
  feeReceiver : config'.feeReceiver = config.feeReceiver
  feeBps : config'.feeBps = config.feeBps
  keeperRewardBps : config'.keeperRewardBps = config.keeperRewardBps

/-- What an operation on the position at `key` reads is the same in both worlds. -/
structure SameView (key : Pubkey) (w w' : World) : Prop where
  feeds : w'.feeds = w.feeds
  position : w'.positions key = w.positions key
  configs : ∀ k config, w.configs k = some config →
    ∃ config', w'.configs k = some config' ∧ SameRates config config'

theorem Added.sameView {delta : OpDelta} {key other : Pubkey} {w w' : World}
    (h : Added delta other w w') (hne : key ≠ other) : SameView key w w' ∧ SameView key w' w := by
  have hposition : w'.positions key = w.positions key := by
    rw [h.positions, Function.update_of_ne hne]
  constructor
  · refine ⟨h.feeds, hposition, fun k config hconfig => ?_⟩
    refine ⟨config.count delta.counts, ?_, ⟨rfl, rfl, rfl, rfl⟩⟩
    rw [h.configs, hconfig, Option.map_some]
  · refine ⟨h.feeds.symm, hposition.symm, fun k config hconfig => ?_⟩
    rw [h.configs, Option.map_eq_some_iff] at hconfig
    rcases hconfig with ⟨before, hbefore, rfl⟩
    exact ⟨before, hbefore, ⟨rfl, rfl, rfl, rfl⟩⟩

section View

variable {rt : Runtime} {w w' : World} {tx : Tx}

theorem TickAccounts.of_sameView {accs : TickPosition} {config : Config} {feed : PriceFeed}
    {position : Position} (h : TickAccounts accs rt w tx config feed position)
    (hview : SameView accs.position w w') :
    ∃ config', SameRates config config' ∧
      TickAccounts accs rt w' tx config' feed position := by
  rcases hview.configs _ _ h.config_loaded with ⟨config', hconfig', hrates⟩
  refine ⟨config', hrates, ?_⟩
  constructor
  case keeper_signs => exact h.keeper_signs
  case config_loaded => exact hconfig'
  case feed_loaded =>
    rw [hview.feeds]
    exact h.feed_loaded
  case position_loaded =>
    rw [hview.position]
    exact h.position_loaded
  case keeper_mut => exact h.keeper_mut
  case config_mut => exact h.config_mut
  case config_seeds =>
    rw [hrates.bump]
    exact h.config_seeds
  case feed_matches => exact h.feed_matches
  case position_mut => exact h.position_mut
  case position_seeds => exact h.position_seeds
  case owner_mut => exact h.owner_mut
  case owner_matches => exact h.owner_matches
  case feeReceiver_mut => exact h.feeReceiver_mut
  case feeReceiver_matches =>
    rw [hrates.feeReceiver]
    exact h.feeReceiver_matches

theorem CancelAccounts.of_sameView {accs : CancelPosition} {config : Config}
    {position : Position} (h : CancelAccounts accs rt w tx config position)
    (hview : SameView accs.position w w') :
    ∃ config', CancelAccounts accs rt w' tx config' position := by
  rcases hview.configs _ _ h.config_loaded with ⟨config', hconfig', hrates⟩
  refine ⟨config', ?_⟩
  constructor
  case owner_signs => exact h.owner_signs
  case config_loaded => exact hconfig'
  case position_loaded =>
    rw [hview.position]
    exact h.position_loaded
  case owner_mut => exact h.owner_mut
  case owner_matches => exact h.owner_matches
  case config_mut => exact h.config_mut
  case config_seeds =>
    rw [hrates.bump]
    exact h.config_seeds
  case position_mut => exact h.position_mut
  case position_seeds => exact h.position_seeds

theorem updateTriggers_tryAccounts_of_sameView {accs : UpdateTriggers} {position : Position}
    (h : accs.tryAccounts rt w tx = .ok position) (hview : SameView accs.position w w') :
    accs.tryAccounts rt w' tx = .ok position := by
  have hload : w'.loadPosition accs.position = .ok position := by
    rw [World.loadPosition_eq_ok_iff, hview.position]
    exact updateTriggers_tryAccounts_loaded h
  have hbefore : w.loadPosition accs.position = .ok position :=
    World.loadPosition_eq_ok_iff.mpr (updateTriggers_tryAccounts_loaded h)
  rw [UpdateTriggers.tryAccounts, hbefore] at h
  rw [UpdateTriggers.tryAccounts, hload]
  exact h

theorem PayoutOf.of_sameRates {config config' : Config} {collateral : UInt64}
    {payout : Payout} (h : PayoutOf config collateral payout)
    (hrates : SameRates config config') : PayoutOf config' collateral payout := by
  refine ⟨?_, ?_, h.total⟩
  · rw [hrates.feeBps]
    exact h.fee
  · rw [hrates.keeperRewardBps]
    exact h.keeperReward

/-- An operation adds the same wherever it finds the same to read. -/
theorem Does.of_sameView {op : PositionOp} {delta : OpDelta} (h : Does rt w tx op delta)
    (hview : SameView op.key w w') : Does rt w' tx op delta := by
  cases h with
  | ticked heval quiet =>
      rcases heval.accounts.of_sameView hview with ⟨config', -, haccs⟩
      exact .ticked ⟨haccs, heval.guards, heval.threshold⟩ quiet
  | settled heval fires payout_of =>
      rcases heval.accounts.of_sameView hview with ⟨config', hrates, haccs⟩
      exact .settled ⟨haccs, heval.guards, heval.threshold⟩ fires (payout_of.of_sameRates hrates)
  | cancelled haccs status =>
      rcases haccs.of_sameView hview with ⟨config', haccs'⟩
      exact .cancelled haccs' status
  | retargeted htry handled =>
      exact .retargeted (updateTriggers_tryAccounts_of_sameView htry hview) handled

end View

/-! ### Either order -/

/-- The same balances and the same records; only the order of the log may differ. -/
structure SameState (w w' : World) : Prop where
  lamports : w.lamports = w'.lamports
  configs : w.configs = w'.configs
  feeds : w.feeds = w'.feeds
  positions : w.positions = w'.positions

theorem SameState.refl (w : World) : SameState w w := ⟨rfl, rfl, rfl, rfl⟩

/-- Two additions at different addresses commute. -/
theorem Added.comm {deltaA deltaB : OpDelta} {keyA keyB : Pubkey} (hne : keyA ≠ keyB)
    {w wA wB wAB wBA : World} (hA : Added deltaA keyA w wA) (hAB : Added deltaB keyB wA wAB)
    (hB : Added deltaB keyB w wB) (hBA : Added deltaA keyA wB wBA) : SameState wAB wBA := by
  constructor
  case lamports =>
    have hmoved := hA.lamports.append hAB.lamports
    have hmoved' := hB.lamports.append hBA.lamports
    have hswapped : Ledger.Moved (deltaA.transfers ++ deltaB.transfers) w.lamports
        wBA.lamports := by
      intro k
      have hk := hmoved' k
      rw [Ledger.netDelta_append] at hk ⊢
      omega
    exact hmoved.unique hswapped
  case configs =>
    funext k
    rw [hAB.configs, hBA.configs, hA.configs, hB.configs]
    cases w.configs k with
    | none => rfl
    | some config => simp only [Option.map_some, count_comm config deltaA.counts]
  case feeds => rw [hAB.feeds, hBA.feeds, hA.feeds, hB.feeds]
  case positions =>
    rw [hAB.positions, hBA.positions, hA.positions, hB.positions,
      Function.update_comm hne.symm]

section Attempts

variable {rt : Runtime} {w : World} {tx : Tx} {op : PositionOp}

/-- Succeeding is having something to add, and what is added is that. -/
theorem attempt_op_cases (hinv : Invariant rt w)
    (hsupply : Ledger.SupplyAtMost (2 ^ 64 - 1) w.lamports) :
    (∃ w' delta, attempt rt w (.invoke tx op.instruction) = .ok w' ∧
        tx.authentic rt = true ∧ tx.precompilesPass rt = true ∧ Does rt w tx op delta ∧
        Added delta op.key w w') ∨
      ∃ error, attempt rt w (.invoke tx op.instruction) = .error error ∧
        ¬ (tx.authentic rt = true ∧ tx.precompilesPass rt = true ∧
          ∃ delta, Does rt w tx op delta) := by
  rcases ok_or_error (attempt rt w (.invoke tx op.instruction)) with ⟨w', hok⟩ | ⟨error, herror⟩
  · rcases attempt_invoke_eq_ok_iff.mp hok with ⟨htx, hpre, hexec⟩
    rcases does_of_execute hinv hexec with ⟨delta, hdoes, hadded⟩
    exact Or.inl ⟨w', delta, hok, htx, hpre, hdoes, hadded⟩
  · refine Or.inr ⟨error, herror, ?_⟩
    rintro ⟨htx, hpre, delta, hdoes⟩
    rcases exists_execute_of_does hinv hsupply hdoes with ⟨w', hexec⟩
    rw [attempt_invoke_eq_ok_iff.mpr ⟨htx, hpre, hexec⟩] at herror
    contradiction

end Attempts

section Order

variable {rt : Runtime} {w : World}

/-- Another position's operation neither enables nor disables this one, nor changes what
it adds. -/
theorem outcome_unaffected (h : ReachableWithSupply rt w) {txA : Tx} {a b : PositionOp}
    (hne : a.key ≠ b.key) {wB : World} {deltaB : OpDelta} (hB : Added deltaB b.key w wB)
    (hreach : ReachableWithSupply rt wB) :
    (∃ wA wBA deltaA, attempt rt w (.invoke txA a.instruction) = .ok wA ∧
        attempt rt wB (.invoke txA a.instruction) = .ok wBA ∧ Added deltaA a.key w wA ∧
        Added deltaA a.key wB wBA) ∨
      (∃ error, attempt rt w (.invoke txA a.instruction) = .error error) ∧
        ∃ error, attempt rt wB (.invoke txA a.instruction) = .error error := by
  rcases hB.sameView hne with ⟨hview, hback⟩
  rcases @attempt_op_cases rt w txA a (reachable_invariant h.reachable) (reachable_supply h) with
    ⟨wA, deltaA, hok, htx, hpre, hdoes, hadded⟩ | ⟨error, herror, hnot⟩
  · rcases @attempt_op_cases rt wB txA a (reachable_invariant hreach.reachable)
      (reachable_supply hreach) with ⟨wBA, delta, hok', -, -, hdoes', hadded'⟩ |
      ⟨_, -, hnot⟩
    · obtain rfl := hdoes'.unique (hdoes.of_sameView hview)
      exact Or.inl ⟨wA, wBA, delta, hok, hok', hadded, hadded'⟩
    · exact absurd ⟨htx, hpre, deltaA, hdoes.of_sameView hview⟩ hnot
  · rcases @attempt_op_cases rt wB txA a (reachable_invariant hreach.reachable)
      (reachable_supply hreach) with ⟨_, delta, -, htx, hpre, hdoes, -⟩ | ⟨error', herror', -⟩
    · exact absurd ⟨htx, hpre, delta, hdoes.of_sameView hback⟩ hnot
    · exact Or.inr ⟨⟨error, herror⟩, ⟨error', herror'⟩⟩

theorem op_added_or_failed (h : ReachableWithSupply rt w) (tx : Tx) (op : PositionOp) :
    (∃ w' delta, attempt rt w (.invoke tx op.instruction) = .ok w' ∧
        Added delta op.key w w' ∧ ReachableWithSupply rt w') ∨
      ∃ error, attempt rt w (.invoke tx op.instruction) = .error error := by
  rcases @attempt_op_cases rt w tx op (reachable_invariant h.reachable) (reachable_supply h) with
    ⟨w', delta, hok, -, -, -, hadded⟩ | ⟨error, herror, -⟩
  · have hreach := h.step (.invoke tx op.instruction)
    rw [step_of_ok hok] at hreach
    exact Or.inl ⟨w', delta, hok, hadded, hreach⟩
  · exact Or.inr ⟨error, herror⟩

/-- Two operations on different positions, in any reachable state: each succeeds or fails
regardless of whether the other went first, and both orders end in the same state. -/
theorem order_independent (h : ReachableWithSupply rt w) (txA txB : Tx) (a b : PositionOp)
    (hne : a.key ≠ b.key) :
    (attempt rt (step rt w (.invoke txB b.instruction)) (.invoke txA a.instruction)).isOk =
        (attempt rt w (.invoke txA a.instruction)).isOk ∧
      (attempt rt (step rt w (.invoke txA a.instruction)) (.invoke txB b.instruction)).isOk =
        (attempt rt w (.invoke txB b.instruction)).isOk ∧
      SameState (runFrom rt w [.invoke txA a.instruction, .invoke txB b.instruction])
        (runFrom rt w [.invoke txB b.instruction, .invoke txA a.instruction]) := by
  simp only [runFrom, Transition.run_cons, Transition.run_nil]
  rcases op_added_or_failed h txA a with ⟨wA, deltaA, hA, haddA, hreachA⟩ | ⟨errorA, hA⟩
  · rw [step_of_ok hA]
    rcases op_added_or_failed h txB b with ⟨wB, deltaB, hB, haddB, hreachB⟩ | ⟨errorB, hB⟩
    · rw [step_of_ok hB]
      rcases outcome_unaffected h hne haddB hreachB with
        ⟨_, wBA, deltaA', hokA, hokBA, hsameA, haddBA⟩ | ⟨⟨_, hfail⟩, -⟩
      · rcases outcome_unaffected h hne.symm haddA hreachA with
          ⟨_, wAB, deltaB', hokB, hokAB, hsameB, haddAB⟩ | ⟨⟨_, hfail⟩, -⟩
        · obtain rfl := Except.ok.inj (hokA.symm.trans hA)
          obtain rfl := Except.ok.inj (hokB.symm.trans hB)
          rw [hokBA, hokAB, hA, hB, step_of_ok hokBA, step_of_ok hokAB]
          exact ⟨rfl, rfl, hsameA.comm hne haddAB hsameB haddBA⟩
        · rw [hB] at hfail
          contradiction
      · rw [hA] at hfail
        contradiction
    · rw [step_of_error hB]
      rcases outcome_unaffected h hne.symm haddA hreachA with
        ⟨_, _, _, hokB, -⟩ | ⟨-, ⟨_, hAB⟩⟩
      · rw [hB] at hokB
        contradiction
      · rw [step_of_error hAB, step_of_ok hA, hAB, hB]
        exact ⟨rfl, rfl, SameState.refl _⟩
  · rw [step_of_error hA]
    rcases op_added_or_failed h txB b with ⟨wB, deltaB, hB, haddB, hreachB⟩ | ⟨errorB, hB⟩
    · rw [step_of_ok hB]
      rcases outcome_unaffected h hne haddB hreachB with ⟨_, _, _, hokA, -⟩ | ⟨-, ⟨_, hBA⟩⟩
      · rw [hA] at hokA
        contradiction
      · rw [step_of_error hBA, hBA, hA]
        exact ⟨rfl, rfl, SameState.refl _⟩
    · rw [step_of_error hB, step_of_error hA]
      exact ⟨rfl, rfl, SameState.refl _⟩

end Order

section Localnet

open Localnet

/-- The address of alice's second position. -/
def secondPosition : Pubkey := (cluster.findProgramAddress (.position alice 2)).1

/-- As `tx`, with the second position writable too. -/
def secondTx (signer : Pubkey) (now : Int64) : Tx :=
  { tx signer now with writable := secondPosition :: (tx signer now).writable }

/-- Alice opens two positions, and both stops fall due. -/
def twoDue : List Action :=
  launch ++ [deposit,
    .invoke (secondTx alice 1004)
      (.openPosition ⟨alice, config, feed, secondPosition, systemProgramId⟩
        ⟨2, 0, 60000000, 90000000, 0, 0⟩),
    push 80000000 1005]

/-- A keeper's settlement of the first and alice's cancel of the second, in either
order. -/
theorem order_independent_twoDue :
    SameState
      (runFrom cluster (runFrom cluster (World.genesis funds) twoDue)
        [.invoke (tx keeper 1006)
            (.tickPosition ⟨keeper, config, feed, position, alice, feeReceiver⟩),
          .invoke (secondTx alice 1006) (.cancelPosition ⟨alice, config, secondPosition⟩)])
      (runFrom cluster (runFrom cluster (World.genesis funds) twoDue)
        [.invoke (secondTx alice 1006) (.cancelPosition ⟨alice, config, secondPosition⟩),
          .invoke (tx keeper 1006)
            (.tickPosition ⟨keeper, config, feed, position, alice, feeReceiver⟩)]) := by
  have hreach : ReachableWithSupply cluster (runFrom cluster (World.genesis funds) twoDue) :=
    ⟨funds, twoDue, funds_supply, rfl⟩
  have hne : position ≠ secondPosition := by decide +kernel
  exact (order_independent hreach (tx keeper 1006) (secondTx alice 1006)
    (.tick ⟨keeper, config, feed, position, alice, feeReceiver⟩)
    (.cancel ⟨alice, config, secondPosition⟩) hne).2.2

end Localnet

end Hwal
