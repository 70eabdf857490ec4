/-
Who decides the program's policy.  The four settings of the config are the replay of the
calls that were accepted: one that founded them, and changes each of which the admin then
in force signed.
-/
import Hwal.Invariants
import Hwal.Support.EventSourcing

namespace Hwal

open Guard EventSourcing

/-- What `update_config` can change. -/
structure Policy where
  admin : Pubkey
  feeReceiver : Pubkey
  feeBps : UInt16
  keeperRewardBps : UInt16
deriving DecidableEq, Repr

def Config.policy (config : Config) : Policy :=
  ⟨config.admin, config.feeReceiver, config.feeBps, config.keeperRewardBps⟩

def World.policy (w : World) (rt : Runtime) : Option Policy :=
  (w.configs rt.configAddress).map Config.policy

/-- The arguments of `update_config`. -/
structure PolicyChange where
  newAdmin : Option Pubkey
  newFeeReceiver : Option Pubkey
  newFeeBps : Option UInt16
  newKeeperRewardBps : Option UInt16
deriving DecidableEq, Repr

def Policy.amend (policy : Policy) (change : PolicyChange) : Policy where
  admin := change.newAdmin.getD policy.admin
  feeReceiver := change.newFeeReceiver.getD policy.feeReceiver
  feeBps := change.newFeeBps.getD policy.feeBps
  keeperRewardBps := change.newKeeperRewardBps.getD policy.keeperRewardBps

def Policy.Capped (policy : Policy) : Prop :=
  policy.feeBps ≤ maxFeeBps ∧ policy.keeperRewardBps ≤ maxKeeperRewardBps

/-- A change asks for no rate above its cap. -/
def PolicyChange.Capped (change : PolicyChange) : Prop :=
  (∀ feeBps ∈ change.newFeeBps, feeBps ≤ maxFeeBps) ∧
    ∀ rewardBps ∈ change.newKeeperRewardBps, rewardBps ≤ maxKeeperRewardBps

/-- A call that made or changed the policy, with the keys that signed it. -/
inductive Decision where
  | founded (signers : List Pubkey) (policy : Policy)
  | decided (signers : List Pubkey) (change : PolicyChange)
deriving DecidableEq, Repr

def Decision.apply : Option Policy → Decision → Option Policy
  | _, .founded _ policy => some policy
  | policy, .decided _ change => policy.map fun policy => policy.amend change

/-- Founding needs no policy before it and its admin's signature; a change needs the
signature of the admin in force, and both stay within the caps. -/
def Decision.Permitted : Option Policy → Decision → Prop
  | none, .founded signers policy => policy.admin ∈ signers ∧ policy.Capped
  | some policy, .decided signers change => policy.admin ∈ signers ∧ change.Capped
  | _, _ => False

/-- The decision an instruction asks for. -/
def Action.decision : Action → Option Decision
  | .invoke tx (.initializeConfig accs feeBps keeperRewardBps) =>
      some (.founded tx.signers ⟨accs.admin, accs.feeReceiver, feeBps, keeperRewardBps⟩)
  | .invoke tx (.updateConfig _ newAdmin newFeeReceiver newFeeBps newKeeperRewardBps) =>
      some (.decided tx.signers ⟨newAdmin, newFeeReceiver, newFeeBps, newKeeperRewardBps⟩)
  | _ => none

/-- The decision taken at a moment: only accepted calls count. -/
def decisionAt (rt : Runtime) (m : Moment) : Option Decision :=
  match attempt rt m.before m.action with
  | .ok _ => m.action.decision
  | .error _ => none

/-! ### One step -/

section Step

variable {rt : Runtime} {w w' : World} {action : Action}

theorem policy_of_config {config : Config} (h : w.configs rt.configAddress = some config) :
    w.policy rt = some config.policy := by
  rw [World.policy, h]
  rfl

theorem policy_of_configs (h : w'.configs = w.configs) : w'.policy rt = w.policy rt := by
  rw [World.policy, World.policy, h]

/-- Rewriting the loaded config without touching its settings. -/
theorem policy_of_update (hinv : Invariant rt w) {key : Pubkey} {config config' : Config}
    (hloaded : w.configs key = some config)
    (hconfigs : w'.configs = Function.update w.configs key (some config')) :
    w.policy rt = some config.policy ∧ w'.policy rt = some config'.policy := by
  obtain rfl := (hinv.configs _ _ hloaded).address
  refine ⟨policy_of_config hloaded, policy_of_config ?_⟩
  rw [hconfigs, Function.update_self]

theorem setFeeBps_capped {config config' : Config} {change : Option UInt16}
    (h : setFeeBps config change = .ok config') : ∀ feeBps ∈ change, feeBps ≤ maxFeeBps := by
  cases change with
  | none => simp
  | some feeBps =>
      simp only [setFeeBps, require_bind_eq_ok_iff] at h
      simpa using h.1

theorem setKeeperRewardBps_capped {config config' : Config} {change : Option UInt16}
    (h : setKeeperRewardBps config change = .ok config') :
    ∀ rewardBps ∈ change, rewardBps ≤ maxKeeperRewardBps := by
  cases change with
  | none => simp
  | some rewardBps =>
      simp only [setKeeperRewardBps, require_bind_eq_ok_iff] at h
      simpa using h.1

theorem updateConfigHandler_capped {config config' : Config} (change : PolicyChange)
    (h : updateConfigHandler config change.newAdmin change.newFeeReceiver change.newFeeBps
      change.newKeeperRewardBps = .ok config') :
    change.Capped ∧ config'.policy = config.policy.amend change := by
  have hfields := (updateConfigHandler_eq_ok h).1
  simp only [updateConfigHandler, bind_eq_ok_iff] at h
  rcases h with ⟨middle, hfee, hreward⟩
  refine ⟨⟨setFeeBps_capped hfee, setKeeperRewardBps_capped hreward⟩, ?_⟩
  rw [hfields]
  rfl

/-- What an accepted action does to the policy. -/
theorem decision_of_effect (hinv : Invariant rt w) (h : Effect rt w action w') :
    match action.decision with
    | none => w'.policy rt = w.policy rt
    | some decision => decision.Permitted (w.policy rt) ∧
        w'.policy rt = decision.apply (w.policy rt) := by
  cases h with
  | @configCreated tx accs feeBps keeperRewardBps bump w' heff =>
      have haddress : accs.config = rt.configAddress := heff.init.address
      have hbefore : w.policy rt = none := by
        rw [World.policy, ← haddress, (World.views_of_unused heff.init.unused).1]
        rfl
      have hafter : w'.policy rt =
          some ⟨accs.admin, accs.feeReceiver, feeBps, keeperRewardBps⟩ := by
        have hconfig : w'.configs rt.configAddress =
            some (newConfig accs feeBps keeperRewardBps bump) := by
          rw [← haddress, heff.configs, Function.update_self]
        exact policy_of_config hconfig
      rw [hbefore, hafter]
      exact ⟨⟨heff.signed, heff.fee_capped, heff.reward_capped⟩, rfl⟩
  | @configChanged tx accs newAdmin newFeeReceiver newFeeBps newKeeperRewardBps config config'
      w' heff =>
      have hhandled := updateConfigHandler_capped
        ⟨newAdmin, newFeeReceiver, newFeeBps, newKeeperRewardBps⟩ heff.handled
      have hsigned := heff.signed
      rw [heff.admin] at hsigned
      rcases policy_of_update hinv heff.loaded heff.configs with ⟨hbefore, hafter⟩
      rw [hbefore, hafter, hhandled.2]
      exact ⟨⟨hsigned, hhandled.1⟩, rfl⟩
  | feedCreated heff => exact policy_of_configs heff.configs
  | feedPushed heff => exact policy_of_configs heff.configs
  | feedRegistered heff => exact policy_of_configs heff.configs
  | feedVerified heff => exact policy_of_configs heff.configs
  | positionOpened heff =>
      rcases policy_of_update hinv heff.config_loaded heff.configs with ⟨hbefore, hafter⟩
      exact hafter.trans hbefore.symm
  | triggersChanged heff => exact policy_of_configs heff.configs
  | tickRecorded heff => exact policy_of_configs heff.configs
  | positionSettled heff =>
      rcases policy_of_update hinv heff.accounts.config_loaded heff.configs with
        ⟨hbefore, hafter⟩
      exact hafter.trans hbefore.symm
  | positionCancelled heff =>
      rcases policy_of_update hinv heff.accounts.config_loaded heff.configs with
        ⟨hbefore, hafter⟩
      exact hafter.trans hbefore.symm
  | delegated heff => exact policy_of_configs heff.configs
  | undelegated heff => exact policy_of_configs heff.configs
  | lamportsSent heff => exact policy_of_configs heff.configs

/-- No decision, no change. -/
theorem policy_kept (hinv : Invariant rt w)
    (h : decisionAt rt ⟨w, action, step rt w action⟩ = none) :
    (step rt w action).policy rt = w.policy rt := by
  unfold decisionAt at h
  cases hattempt : attempt rt w action with
  | error error => rw [step_of_error hattempt]
  | ok w' =>
      simp only [hattempt] at h
      have heffect := decision_of_effect hinv (attempt_effect hattempt)
      rw [h] at heffect
      rw [step_of_ok hattempt]
      exact heffect

theorem policy_decided (hinv : Invariant rt w) {decision : Decision}
    (h : decisionAt rt ⟨w, action, step rt w action⟩ = some decision) :
    decision.Permitted (w.policy rt) ∧
      (step rt w action).policy rt = decision.apply (w.policy rt) := by
  unfold decisionAt at h
  cases hattempt : attempt rt w action with
  | error error => simp [hattempt] at h
  | ok w' =>
      simp only [hattempt] at h
      have heffect := decision_of_effect hinv (attempt_effect hattempt)
      rw [h] at heffect
      rw [step_of_ok hattempt]
      exact heffect

end Step

/-! ### Acceptance -/

theorem exists_setFeeBps (config : Config) {change : Option UInt16}
    (h : ∀ feeBps ∈ change, feeBps ≤ maxFeeBps) :
    ∃ config', setFeeBps config change = .ok config' := by
  cases change with
  | none => exact ⟨config, rfl⟩
  | some feeBps => exact ⟨_, require_bind_eq_ok_iff.mpr ⟨h feeBps rfl, rfl⟩⟩

theorem exists_setKeeperRewardBps (config : Config) {change : Option UInt16}
    (h : ∀ rewardBps ∈ change, rewardBps ≤ maxKeeperRewardBps) :
    ∃ config', setKeeperRewardBps config change = .ok config' := by
  cases change with
  | none => exact ⟨config, rfl⟩
  | some rewardBps => exact ⟨_, require_bind_eq_ok_iff.mpr ⟨h rewardBps rfl, rfl⟩⟩

/-- A change is accepted exactly when the admin in force signs it for the one config and
it stays within the caps. -/
theorem updateConfig_accepted_iff {rt : Runtime} {w : World} (hinv : Invariant rt w) {tx : Tx}
    {accs : UpdateConfig} {change : PolicyChange} :
    (∃ w', updateConfig rt w tx accs change.newAdmin change.newFeeReceiver change.newFeeBps
        change.newKeeperRewardBps = .ok w') ↔
      accs.config = rt.configAddress ∧ accs.config ∈ tx.writable ∧ accs.admin ∈ tx.signers ∧
        (∃ policy, w.policy rt = some policy ∧ accs.admin = policy.admin) ∧
        change.Capped := by
  constructor
  · rintro ⟨w', h⟩
    simp only [updateConfig, UpdateConfig.tryAccounts, Tx.requireSigner, Tx.requireMut,
      requireAddress, Runtime.requireSeeds, bind_eq_ok_iff, require_eq_ok_iff,
      exists_and_left, exists_const, World.loadConfig_eq_ok_iff, pure_eq_ok_iff] at h
    rcases h with ⟨_, ⟨hsigned, config, hloaded, hadmin, hwritable, -, rfl⟩, config', hhandled,
      -⟩
    have haddress := (hinv.configs _ _ hloaded).address
    have hpolicy := policy_of_config (haddress ▸ hloaded)
    exact ⟨haddress, hwritable, hsigned, ⟨_, hpolicy, hadmin⟩,
      (updateConfigHandler_capped change hhandled).1⟩
  · rintro ⟨haddress, hwritable, hsigned, ⟨policy, hpolicy, hadmin⟩, hfee, hreward⟩
    rcases Option.map_eq_some_iff.mp hpolicy with ⟨config, hconfig, rfl⟩
    rw [← haddress] at hconfig
    have hsound := hinv.configs _ _ hconfig
    have hseeds : rt.createProgramAddress .config config.bump = some accs.config := by
      rw [hsound.bump, rt.create_find, hsound.address]
      rfl
    have haccs : accs.tryAccounts rt w tx = .ok config := by
      simp only [UpdateConfig.tryAccounts, Tx.requireSigner, Tx.requireMut, requireAddress,
        Runtime.requireSeeds, bind_eq_ok_iff, require_eq_ok_iff, exists_and_left,
        exists_const, World.loadConfig_eq_ok_iff, pure_eq_ok_iff]
      exact ⟨hsigned, config, hconfig, hadmin, hwritable, hseeds, rfl⟩
    rcases exists_setFeeBps { config with
        admin := change.newAdmin.getD config.admin
        feeReceiver := change.newFeeReceiver.getD config.feeReceiver } hfee with
      ⟨middle, hmiddle⟩
    rcases exists_setKeeperRewardBps middle hreward with ⟨config', hconfig'⟩
    refine ⟨_, bind_eq_ok_iff.mpr ⟨config, haccs, bind_eq_ok_iff.mpr ⟨config', ?_, rfl⟩⟩⟩
    exact bind_eq_ok_iff.mpr ⟨middle, hmiddle, hconfig'⟩

/-! ### Whole runs -/

/-- In every run the settings of the config are the replay of the accepted decisions: each
was permitted by the policy it met, so that the founding came first and only once and every
change was signed by the admin in force and within the caps; there is no other config; and
at the end a change is accepted exactly when that admin signs it for this config. -/
theorem policy_governed (rt : Runtime) (lamports : Lamports) (actions : List Action) :
    let w := runFrom rt (World.genesis lamports) actions
    let decisions := (historyFrom rt (World.genesis lamports) actions).filterMap (decisionAt rt)
    w.policy rt = replay Decision.apply none decisions ∧
      Lawful Decision.apply Decision.Permitted none decisions ∧
      (∀ key config, w.configs key = some config →
        key = rt.configAddress ∧ config.policy.Capped) ∧
      ∀ (tx : Tx) (accs : UpdateConfig) (change : PolicyChange),
        (∃ w', updateConfig rt w tx accs change.newAdmin change.newFeeReceiver
            change.newFeeBps change.newKeeperRewardBps = .ok w') ↔
          accs.config = rt.configAddress ∧ accs.config ∈ tx.writable ∧
            accs.admin ∈ tx.signers ∧
            (∃ policy, w.policy rt = some policy ∧ accs.admin = policy.admin) ∧
            change.Capped := by
  intro w decisions
  have hinv : Invariant rt w := reachable_invariant ⟨lamports, actions, rfl⟩
  have hrun := run_lawful (fun _ action h => step_invariant h action)
    (fun _ _ h hnone => policy_kept h hnone) (fun _ _ _ h hsome => policy_decided h hsome)
    (genesis_invariant rt lamports) actions
  refine ⟨hrun.1, hrun.2, ?_, fun tx accs change => updateConfig_accepted_iff hinv⟩
  intro key config hconfig
  have hsound := hinv.configs _ _ hconfig
  exact ⟨hsound.address, hsound.capped⟩

end Hwal
