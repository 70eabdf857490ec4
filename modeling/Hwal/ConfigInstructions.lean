/-
`initialize_config` and `update_config`: the program-wide policy and the key
that may change it.
-/
import Hwal.Runtime

namespace Hwal

open Guard

structure InitializeConfig where
  admin : Pubkey
  feeReceiver : Pubkey
  config : Pubkey
  systemProgram : Pubkey
deriving DecidableEq, Repr

/-- The record a fresh config account starts with. -/
def newConfig (accs : InitializeConfig) (feeBps keeperRewardBps : UInt16) (bump : UInt8) :
    Config :=
  { admin := accs.admin
    feeReceiver := accs.feeReceiver
    feeBps := feeBps
    keeperRewardBps := keeperRewardBps
    totalPositionsOpened := 0
    totalPositionsTriggered := 0
    totalPositionsCancelled := 0
    totalFeesCollected := 0
    totalKeeperRewardsPaid := 0
    bump := bump }

def initializeConfig (rt : Runtime) (w : World) (tx : Tx) (accs : InitializeConfig)
    (feeBps keeperRewardBps : UInt16) : Except ProgramError World := do
  tx.requireSigner accs.admin
  requireSystemProgram accs.systemProgram
  let (lamports, bump) ← w.initAccount rt tx accs.admin accs.config .config configSpace
  require (feeBps ≤ maxFeeBps) (.hwal .feeBpsTooHigh)
  require (keeperRewardBps ≤ maxKeeperRewardBps) (.hwal .keeperRewardTooHigh)
  let config := newConfig accs feeBps keeperRewardBps bump
  return ((w.withLamports lamports).store accs.config (.config config)).emit
    (.configInitialized config.admin feeBps keeperRewardBps)

theorem initializeConfig_eq_ok {rt : Runtime} {w w' : World} {tx : Tx}
    {accs : InitializeConfig} {feeBps keeperRewardBps : UInt16}
    (h : initializeConfig rt w tx accs feeBps keeperRewardBps = .ok w') :
    ∃ lamports bump,
      accs.admin ∈ tx.signers ∧
      Initialized rt w accs.admin accs.config .config configSpace lamports bump ∧
      feeBps ≤ maxFeeBps ∧ keeperRewardBps ≤ maxKeeperRewardBps ∧
      w' = ((w.withLamports lamports).store accs.config
          (.config (newConfig accs feeBps keeperRewardBps bump))).emit
        (.configInitialized accs.admin feeBps keeperRewardBps) := by
  simp only [initializeConfig, Tx.requireSigner, requireSystemProgram, bind_eq_ok_iff,
    require_eq_ok_iff, exists_and_left, exists_const, Prod.exists, pure_eq_ok_iff] at h
  obtain ⟨hsigner, -, lamports, bump, hinit, hfee, hreward, rfl⟩ := h
  exact ⟨lamports, bump, hsigner, initAccount_eq_ok hinit, hfee, hreward, rfl⟩

structure UpdateConfig where
  admin : Pubkey
  config : Pubkey
deriving DecidableEq, Repr

def UpdateConfig.tryAccounts (accs : UpdateConfig) (rt : Runtime) (w : World) (tx : Tx) :
    Except ProgramError Config := do
  tx.requireSigner accs.admin
  let config ← w.loadConfig accs.config
  requireAddress accs.admin config.admin (.hwal .notAdmin)
  tx.requireMut accs.config
  rt.requireSeeds .config config.bump accs.config
  return config

def setFeeBps (config : Config) : Option UInt16 → Except ProgramError Config
  | none => .ok config
  | some feeBps => do
      require (feeBps ≤ maxFeeBps) (.hwal .feeBpsTooHigh)
      return { config with feeBps := feeBps }

def setKeeperRewardBps (config : Config) : Option UInt16 → Except ProgramError Config
  | none => .ok config
  | some rewardBps => do
      require (rewardBps ≤ maxKeeperRewardBps) (.hwal .keeperRewardTooHigh)
      return { config with keeperRewardBps := rewardBps }

/-- The four optional changes, in the order the handler makes them. -/
def updateConfigHandler (config : Config) (newAdmin newFeeReceiver : Option Pubkey)
    (newFeeBps newKeeperRewardBps : Option UInt16) : Except ProgramError Config := do
  let config := { config with admin := newAdmin.getD config.admin }
  let config := { config with feeReceiver := newFeeReceiver.getD config.feeReceiver }
  let config ← setFeeBps config newFeeBps
  setKeeperRewardBps config newKeeperRewardBps

def updateConfig (rt : Runtime) (w : World) (tx : Tx) (accs : UpdateConfig)
    (newAdmin newFeeReceiver : Option Pubkey)
    (newFeeBps newKeeperRewardBps : Option UInt16) : Except ProgramError World := do
  let config ← accs.tryAccounts rt w tx
  let config ← updateConfigHandler config newAdmin newFeeReceiver newFeeBps newKeeperRewardBps
  return w.store accs.config (.config config)

theorem setFeeBps_eq_ok {config config' : Config} {change : Option UInt16}
    (h : setFeeBps config change = .ok config') :
    config' = { config with feeBps := change.getD config.feeBps } ∧
      (config.feeBps ≤ maxFeeBps → config'.feeBps ≤ maxFeeBps) := by
  cases change with
  | none =>
      obtain rfl := Except.ok.inj h
      exact ⟨rfl, id⟩
  | some feeBps =>
      simp only [setFeeBps, require_bind_eq_ok_iff, pure_eq_ok_iff] at h
      obtain ⟨hbound, rfl⟩ := h
      exact ⟨rfl, fun _ => hbound⟩

theorem setKeeperRewardBps_eq_ok {config config' : Config} {change : Option UInt16}
    (h : setKeeperRewardBps config change = .ok config') :
    config' = { config with keeperRewardBps := change.getD config.keeperRewardBps } ∧
      (config.keeperRewardBps ≤ maxKeeperRewardBps →
        config'.keeperRewardBps ≤ maxKeeperRewardBps) := by
  cases change with
  | none =>
      obtain rfl := Except.ok.inj h
      exact ⟨rfl, id⟩
  | some rewardBps =>
      simp only [setKeeperRewardBps, require_bind_eq_ok_iff, pure_eq_ok_iff] at h
      obtain ⟨hbound, rfl⟩ := h
      exact ⟨rfl, fun _ => hbound⟩

/-- Both rates within their caps. -/
def Config.RatesCapped (config : Config) : Prop :=
  config.feeBps ≤ maxFeeBps ∧ config.keeperRewardBps ≤ maxKeeperRewardBps

/-- A successful change keeps the rates capped and leaves counters and bump alone. -/
theorem updateConfigHandler_eq_ok {config config' : Config}
    {newAdmin newFeeReceiver : Option Pubkey} {newFeeBps newKeeperRewardBps : Option UInt16}
    (h : updateConfigHandler config newAdmin newFeeReceiver newFeeBps newKeeperRewardBps =
      .ok config') :
    config' =
        { config with
          admin := newAdmin.getD config.admin
          feeReceiver := newFeeReceiver.getD config.feeReceiver
          feeBps := newFeeBps.getD config.feeBps
          keeperRewardBps := newKeeperRewardBps.getD config.keeperRewardBps } ∧
      (config.RatesCapped → config'.RatesCapped) := by
  simp only [updateConfigHandler, bind_eq_ok_iff] at h
  obtain ⟨middle, hfee, hreward⟩ := h
  obtain ⟨hmiddle, hfeeCap⟩ := setFeeBps_eq_ok hfee
  obtain ⟨hfinal, hrewardCap⟩ := setKeeperRewardBps_eq_ok hreward
  constructor
  · rw [hfinal, hmiddle]
  · intro hcaps
    constructor
    · rw [hfinal]
      exact hfeeCap hcaps.1
    · apply hrewardCap
      rw [hmiddle]
      exact hcaps.2

theorem updateConfig_tryAccounts_eq_ok {accs : UpdateConfig} {rt : Runtime} {w : World}
    {tx : Tx} {config : Config} (h : accs.tryAccounts rt w tx = .ok config) :
    accs.admin ∈ tx.signers ∧ w.configs accs.config = some config ∧
      accs.admin = config.admin ∧
      rt.createProgramAddress .config config.bump = some accs.config := by
  simp only [UpdateConfig.tryAccounts, Tx.requireSigner, Tx.requireMut, requireAddress,
    Runtime.requireSeeds, bind_eq_ok_iff, require_eq_ok_iff, exists_and_left, exists_const,
    World.loadConfig_eq_ok_iff, pure_eq_ok_iff] at h
  obtain ⟨hsigner, loaded, hload, hadmin, -, hseeds, rfl⟩ := h
  exact ⟨hsigner, hload, hadmin, hseeds⟩

theorem updateConfig_eq_ok {rt : Runtime} {w w' : World} {tx : Tx} {accs : UpdateConfig}
    {newAdmin newFeeReceiver : Option Pubkey} {newFeeBps newKeeperRewardBps : Option UInt16}
    (h : updateConfig rt w tx accs newAdmin newFeeReceiver newFeeBps newKeeperRewardBps =
      .ok w') :
    ∃ config config',
      accs.tryAccounts rt w tx = .ok config ∧
      updateConfigHandler config newAdmin newFeeReceiver newFeeBps newKeeperRewardBps =
        .ok config' ∧
      w' = w.store accs.config (.config config') := by
  simp only [updateConfig, bind_eq_ok_iff, pure_eq_ok_iff] at h
  obtain ⟨config, haccs, config', hhandler, rfl⟩ := h
  exact ⟨config, config', haccs, hhandler, rfl⟩

end Hwal
