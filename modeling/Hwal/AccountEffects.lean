/-
One address seen through one step.  An instruction either leaves the record at
an address alone or is one of the few that were given this very account, and
lamports leave an address the program derives only by the two paying ones.
-/
import Hwal.StepEffects

namespace Hwal

open Guard

/-! ### Addresses nobody can sign for -/

/-- An address the program derives from seeds. -/
def Runtime.IsDerived (rt : Runtime) (key : Pubkey) : Prop :=
  ∃ seeds bump, rt.createProgramAddress seeds bump = some key

theorem isDerived_findProgramAddress (rt : Runtime) (seeds : Seeds) :
    rt.IsDerived (rt.findProgramAddress seeds).1 :=
  ⟨seeds, _, rt.create_find seeds⟩

theorem Runtime.IsDerived.cannot_sign {rt : Runtime} {key : Pubkey}
    (h : rt.IsDerived key) : rt.canSign key = false := by
  rcases h with ⟨seeds, bump, hcreate⟩
  exact rt.programAddress_cannot_sign seeds bump key hcreate

theorem Runtime.IsDerived.ne_signer {rt : Runtime} {tx : Tx} {key signer : Pubkey}
    (h : rt.IsDerived key) (htx : tx.authentic rt = true) (hsigner : signer ∈ tx.signers) :
    key ≠ signer := by
  intro heq
  have hsigns := Tx.canSign_of_mem htx hsigner
  rw [← heq, h.cannot_sign] at hsigns
  contradiction

/-! ### Lamports at a derived address -/

/-- The instruction that pays out of a position account names it. -/
def Action.PaysFrom (key : Pubkey) : Action → Prop
  | .invoke _ (.tickPosition accs) => accs.position = key
  | .invoke _ (.cancelPosition accs) => accs.position = key
  | _ => False

theorem Initialized.lamports_le {rt : Runtime} {w : World} {payer account : Pubkey}
    {seeds : Seeds} {space : Nat} {lamports : Lamports} {bump : UInt8}
    (h : Initialized rt w payer account seeds space lamports bump) {key : Pubkey}
    (hkey : key ≠ payer) : (w.lamports key).toNat ≤ (lamports key).toNat := by
  apply h.moved.le_of_not_src
  intro t ht
  obtain rfl := List.mem_singleton.mp ht
  exact hkey

/-- A payment out of one account leaves no other with less. -/
theorem moved_le_of_single {lamports lamports' : Lamports} {src dst : Pubkey} {amount : Nat}
    (h : Ledger.Moved [⟨src, dst, amount⟩] lamports lamports') {key : Pubkey}
    (hkey : key ≠ src) : (lamports key).toNat ≤ (lamports' key).toNat := by
  apply h.le_of_not_src
  intro t ht
  obtain rfl := List.mem_singleton.mp ht
  exact hkey

theorem settlement_le {accs : TickPosition} {payout : Payout} {lamports lamports' : Lamports}
    (h : Ledger.Moved (settlementTransfers accs payout) lamports lamports') {key : Pubkey}
    (hkey : key ≠ accs.position) : (lamports key).toNat ≤ (lamports' key).toNat := by
  apply h.le_of_not_src
  intro t ht
  simp only [settlementTransfers, List.mem_cons, List.not_mem_nil, or_false] at ht
  rcases ht with rfl | rfl | rfl <;> exact hkey

theorem attempt_authentic {rt : Runtime} {w w' : World} {tx : Tx} {ix : Instruction}
    (h : attempt rt w (.invoke tx ix) = .ok w') : tx.authentic rt = true :=
  (attempt_invoke_eq_ok_iff.mp h).1

/-- Lamports leave a derived address only through `tick_position` and
`cancel_position` on the position that lives there. -/
theorem lamports_le_of_not_paysFrom {rt : Runtime} {w w' : World} {action : Action}
    {key : Pubkey} (h : attempt rt w action = .ok w') (hkey : rt.IsDerived key)
    (hpays : ¬ action.PaysFrom key) : (w.lamports key).toNat ≤ (w'.lamports key).toNat := by
  have heffect := attempt_effect h
  cases heffect with
  | configCreated heff =>
      apply heff.init.lamports_le
      exact hkey.ne_signer (attempt_authentic h) heff.signed
  | configChanged heff => rw [heff.lamports]
  | feedCreated heff =>
      apply heff.init.lamports_le
      exact hkey.ne_signer (attempt_authentic h) heff.signed
  | feedPushed heff => rw [heff.lamports]
  | feedRegistered heff => rw [heff.lamports]
  | feedVerified heff => rw [heff.lamports]
  | positionOpened heff =>
      have hne := hkey.ne_signer (attempt_authentic h) heff.signed
      have hrent := heff.init.lamports_le hne
      have hdeposit := moved_le_of_single heff.deposited hne
      exact Nat.le_trans hrent hdeposit
  | triggersChanged heff => rw [heff.lamports]
  | tickRecorded heff => rw [heff.lamports]
  | positionSettled heff =>
      apply settlement_le heff.paid
      intro heq
      exact hpays heq.symm
  | positionCancelled heff =>
      apply moved_le_of_single heff.refunded
      intro heq
      exact hpays heq.symm
  | delegated heff =>
      rcases heff.cpi with ⟨ix, hcpi⟩
      rcases hkey with ⟨seeds, bump, hcreate⟩
      rw [rt.invokeDelegation_keeps _ _ _ _ hcpi seeds bump key hcreate]
  | undelegated heff =>
      rcases heff.cpi with ⟨ix, hcpi⟩
      rcases hkey with ⟨seeds, bump, hcreate⟩
      rw [rt.invokeDelegation_keeps _ _ _ _ hcpi seeds bump key hcreate]
  | lamportsSent heff =>
      apply moved_le_of_single heff.moved
      intro heq
      have hsigns := heff.signs
      rw [← heq, hkey.cannot_sign] at hsigns
      contradiction

/-! ### One record through one step -/

/-- What one successful action does to the config at `key`: the record before and
the record after. -/
inductive ConfigEffect (rt : Runtime) (w : World) (key : Pubkey) :
    Action → World → Option Config → Option Config → Prop where
  | kept {action w' record} : ConfigEffect rt w key action w' record record
  | created {tx accs feeBps keeperRewardBps bump w'} (account : accs.config = key)
      (h : ConfigCreated rt w tx accs feeBps keeperRewardBps bump w') :
      ConfigEffect rt w key (.invoke tx (.initializeConfig accs feeBps keeperRewardBps)) w'
        none (some (newConfig accs feeBps keeperRewardBps bump))
  | changed {tx accs newAdmin newFeeReceiver newFeeBps newKeeperRewardBps config config' w'}
      (account : accs.config = key)
      (h : ConfigChanged w tx accs newAdmin newFeeReceiver newFeeBps newKeeperRewardBps
        config config' w') :
      ConfigEffect rt w key (.invoke tx (.updateConfig accs newAdmin newFeeReceiver newFeeBps
        newKeeperRewardBps)) w' (some config) (some config')
  | opened {tx accs args config feed rent bump w'} (account : accs.config = key)
      (h : PositionOpened rt w tx accs args config feed rent bump w') :
      ConfigEffect rt w key (.invoke tx (.openPosition accs args)) w'
        (some config) (some config.countOpened)
  | settled {tx accs config feed position payout w'} (account : accs.config = key)
      (h : PositionSettled rt w tx accs config feed position payout w') :
      ConfigEffect rt w key (.invoke tx (.tickPosition accs)) w'
        (some config) (some (config.countTriggered payout))
  | cancelled {tx accs config position w'} (account : accs.config = key)
      (h : PositionCancelled rt w tx accs config position w') :
      ConfigEffect rt w key (.invoke tx (.cancelPosition accs)) w'
        (some config) (some config.countCancelled)

section AtAddress

variable {rt : Runtime} {w w' : World} {action : Action}

theorem Effect.atConfig (h : Effect rt w action w') (key : Pubkey) :
    ConfigEffect rt w key action w' (w.configs key) (w'.configs key) := by
  cases h with
  | @configCreated tx accs feeBps keeperRewardBps bump w' heff =>
      by_cases hkey : accs.config = key
      · have hbefore := (World.views_of_unused heff.init.unused).1
        subst hkey
        rw [heff.configs, Function.update_self, hbefore]
        exact .created rfl heff
      · rw [heff.configs, Function.update_of_ne (Ne.symm hkey)]
        exact .kept
  | @configChanged tx accs newAdmin newFeeReceiver newFeeBps newRewardBps config config' w' heff =>
      by_cases hkey : accs.config = key
      · subst hkey
        rw [heff.configs, Function.update_self, heff.loaded]
        exact .changed rfl heff
      · rw [heff.configs, Function.update_of_ne (Ne.symm hkey)]
        exact .kept
  | feedCreated heff => rw [heff.configs]; exact .kept
  | feedPushed heff => rw [heff.configs]; exact .kept
  | feedRegistered heff => rw [heff.configs]; exact .kept
  | feedVerified heff => rw [heff.configs]; exact .kept
  | @positionOpened tx accs args config feed rent bump w' heff =>
      by_cases hkey : accs.config = key
      · subst hkey
        rw [heff.configs, Function.update_self, heff.config_loaded]
        exact .opened rfl heff
      · rw [heff.configs, Function.update_of_ne (Ne.symm hkey)]
        exact .kept
  | triggersChanged heff => rw [heff.configs]; exact .kept
  | tickRecorded heff => rw [heff.configs]; exact .kept
  | @positionSettled tx accs config feed position payout w' heff =>
      by_cases hkey : accs.config = key
      · subst hkey
        rw [heff.configs, Function.update_self, heff.accounts.config_loaded]
        exact .settled rfl heff
      · rw [heff.configs, Function.update_of_ne (Ne.symm hkey)]
        exact .kept
  | @positionCancelled tx accs config position w' heff =>
      by_cases hkey : accs.config = key
      · subst hkey
        rw [heff.configs, Function.update_self, heff.accounts.config_loaded]
        exact .cancelled rfl heff
      · rw [heff.configs, Function.update_of_ne (Ne.symm hkey)]
        exact .kept
  | delegated heff => rw [heff.configs]; exact .kept
  | undelegated heff => rw [heff.configs]; exact .kept
  | lamportsSent heff => rw [heff.configs]; exact .kept

end AtAddress

/-- The instructions that write a price, and to which feed. -/
def Action.WritesPrice (key : Pubkey) : Action → Prop
  | .invoke _ (.initializePriceFeed accs _ _ _) => accs.feed = key
  | .invoke _ (.updatePriceFeed accs _) => accs.feed = key
  | .invoke _ (.updatePriceFeedFromLazer accs _) => accs.feed = key
  | _ => False

/-- What one successful action does to the feed at `key`. -/
inductive FeedEffect (rt : Runtime) (w : World) (key : Pubkey) :
    Action → World → Option PriceFeed → Option PriceFeed → Prop where
  | kept {action w' record} (writes : ¬ action.WritesPrice key) :
      FeedEffect rt w key action w' record record
  | created {tx accs symbol decimals initialPrice config bump w'} (account : accs.feed = key)
      (h : FeedCreated rt w tx accs symbol decimals initialPrice config bump w') :
      FeedEffect rt w key
        (.invoke tx (.initializePriceFeed accs symbol decimals initialPrice)) w' none
        (some (newPriceFeed accs symbol decimals initialPrice tx.unixTimestamp bump))
  | pushed {tx accs newPrice feed w'} (account : accs.feed = key)
      (h : FeedPushed w tx accs newPrice feed w') :
      FeedEffect rt w key (.invoke tx (.updatePriceFeed accs newPrice)) w'
        (some feed) (some (feed.record newPrice tx.unixTimestamp))
  | registered {tx accs lazerFeedId channel config feed w'} (account : accs.feed = key)
      (h : FeedRegistered w tx accs lazerFeedId channel config feed w') :
      FeedEffect rt w key (.invoke tx (.registerLazerFeed accs lazerFeedId channel)) w'
        (some feed) (some (feed.register lazerFeedId channel))
  | verified {tx accs payload feed message w'} (account : accs.feed = key)
      (h : FeedVerified w tx accs payload feed message w') :
      FeedEffect rt w key (.invoke tx (.updatePriceFeedFromLazer accs payload)) w'
        (some feed) (some (feed.record message.price tx.unixTimestamp))

section AtAddress

variable {rt : Runtime} {w w' : World} {action : Action}

theorem Effect.atFeed (h : Effect rt w action w') (key : Pubkey) :
    FeedEffect rt w key action w' (w.feeds key) (w'.feeds key) := by
  cases h with
  | configCreated heff => rw [heff.feeds]; exact .kept id
  | configChanged heff => rw [heff.feeds]; exact .kept id
  | @feedCreated tx accs symbol decimals initialPrice config bump w' heff =>
      by_cases hkey : accs.feed = key
      · have hbefore := (World.views_of_unused heff.init.unused).2.1
        subst hkey
        rw [heff.feeds, Function.update_self, hbefore]
        exact .created rfl heff
      · rw [heff.feeds, Function.update_of_ne (Ne.symm hkey)]
        exact .kept hkey
  | @feedPushed tx accs newPrice feed w' heff =>
      by_cases hkey : accs.feed = key
      · subst hkey
        rw [heff.feeds, Function.update_self, heff.loaded]
        exact .pushed rfl heff
      · rw [heff.feeds, Function.update_of_ne (Ne.symm hkey)]
        exact .kept hkey
  | @feedRegistered tx accs lazerFeedId channel config feed w' heff =>
      by_cases hkey : accs.feed = key
      · subst hkey
        rw [heff.feeds, Function.update_self, heff.loaded]
        exact .registered rfl heff
      · rw [heff.feeds, Function.update_of_ne (Ne.symm hkey)]
        exact .kept id
  | @feedVerified tx accs payload feed message w' heff =>
      by_cases hkey : accs.feed = key
      · subst hkey
        rw [heff.feeds, Function.update_self, heff.loaded]
        exact .verified rfl heff
      · rw [heff.feeds, Function.update_of_ne (Ne.symm hkey)]
        exact .kept hkey
  | positionOpened heff => rw [heff.feeds]; exact .kept id
  | triggersChanged heff => rw [heff.feeds]; exact .kept id
  | tickRecorded heff => rw [heff.feeds]; exact .kept id
  | positionSettled heff => rw [heff.feeds]; exact .kept id
  | positionCancelled heff => rw [heff.feeds]; exact .kept id
  | delegated heff => rw [heff.feeds]; exact .kept id
  | undelegated heff => rw [heff.feeds]; exact .kept id
  | lamportsSent heff => rw [heff.feeds]; exact .kept id

end AtAddress

/-- What one successful action does to the position at `key`. -/
inductive PositionEffect (rt : Runtime) (w : World) (key : Pubkey) :
    Action → World → Option Position → Option Position → Prop where
  | kept {action w' record} (pays : ¬ action.PaysFrom key) :
      PositionEffect rt w key action w' record record
  | opened {tx accs args config feed rent bump w'} (account : accs.position = key)
      (h : PositionOpened rt w tx accs args config feed rent bump w') :
      PositionEffect rt w key (.invoke tx (.openPosition accs args)) w' none
        (some (newPosition accs args feed.price tx.unixTimestamp bump))
  | retargeted {tx accs stopPrice takeProfitPrice trailingOffset position w'}
      (account : accs.position = key)
      (h : TriggersChanged w tx accs stopPrice takeProfitPrice trailingOffset position w') :
      PositionEffect rt w key
        (.invoke tx (.updateTriggers accs stopPrice takeProfitPrice trailingOffset)) w'
        (some position)
        (some (position.retarget stopPrice takeProfitPrice trailingOffset))
  | ticked {tx accs config feed position w'} (account : accs.position = key)
      (h : TickRecorded rt w tx accs config feed position w') :
      PositionEffect rt w key (.invoke tx (.tickPosition accs)) w'
        (some position) (some (position.observe feed.price tx.unixTimestamp))
  | settled {tx accs config feed position payout w'} (account : accs.position = key)
      (h : PositionSettled rt w tx accs config feed position payout w') :
      PositionEffect rt w key (.invoke tx (.tickPosition accs)) w'
        (some position) (some (position.fired feed.price tx.unixTimestamp))
  | cancelled {tx accs config position w'} (account : accs.position = key)
      (h : PositionCancelled rt w tx accs config position w') :
      PositionEffect rt w key (.invoke tx (.cancelPosition accs)) w'
        (some position) (some (position.cancelled tx.unixTimestamp))
  | delegated {tx accs position w'} (account : accs.position = key)
      (h : DelegationChanged rt w tx accs.owner accs.position position 0 1 w') :
      PositionEffect rt w key (.invoke tx (.delegatePosition accs)) w'
        (some position) (some { position with erDelegated := 1 })
  | undelegated {tx accs position w'} (account : accs.position = key)
      (h : DelegationChanged rt w tx accs.owner accs.position position 1 0 w') :
      PositionEffect rt w key (.invoke tx (.undelegatePosition accs)) w'
        (some position) (some { position with erDelegated := 0 })

section AtAddress

variable {rt : Runtime} {w w' : World} {action : Action}

theorem Effect.atPosition (h : Effect rt w action w') (key : Pubkey) :
    PositionEffect rt w key action w' (w.positions key) (w'.positions key) := by
  cases h with
  | configCreated heff => rw [heff.positions]; exact .kept id
  | configChanged heff => rw [heff.positions]; exact .kept id
  | feedCreated heff => rw [heff.positions]; exact .kept id
  | feedPushed heff => rw [heff.positions]; exact .kept id
  | feedRegistered heff => rw [heff.positions]; exact .kept id
  | feedVerified heff => rw [heff.positions]; exact .kept id
  | @positionOpened tx accs args config feed rent bump w' heff =>
      by_cases hkey : accs.position = key
      · have hbefore := (World.views_of_unused heff.init.unused).2.2
        subst hkey
        rw [heff.positions, Function.update_self, hbefore]
        exact .opened rfl heff
      · rw [heff.positions, Function.update_of_ne (Ne.symm hkey)]
        exact .kept id
  | @triggersChanged tx accs stop take offset position w' heff =>
      by_cases hkey : accs.position = key
      · subst hkey
        rw [heff.positions, Function.update_self, heff.loaded]
        exact .retargeted rfl heff
      · rw [heff.positions, Function.update_of_ne (Ne.symm hkey)]
        exact .kept id
  | @tickRecorded tx accs config feed position w' heff =>
      by_cases hkey : accs.position = key
      · subst hkey
        rw [heff.positions, Function.update_self, heff.accounts.position_loaded]
        exact .ticked rfl heff
      · rw [heff.positions, Function.update_of_ne (Ne.symm hkey)]
        exact .kept hkey
  | @positionSettled tx accs config feed position payout w' heff =>
      by_cases hkey : accs.position = key
      · subst hkey
        rw [heff.positions, Function.update_self, heff.accounts.position_loaded]
        exact .settled rfl heff
      · rw [heff.positions, Function.update_of_ne (Ne.symm hkey)]
        exact .kept hkey
  | @positionCancelled tx accs config position w' heff =>
      by_cases hkey : accs.position = key
      · subst hkey
        rw [heff.positions, Function.update_self, heff.accounts.position_loaded]
        exact .cancelled rfl heff
      · rw [heff.positions, Function.update_of_ne (Ne.symm hkey)]
        exact .kept hkey
  | @delegated tx accs position w' heff =>
      by_cases hkey : accs.position = key
      · subst hkey
        rw [heff.positions, Function.update_self, heff.loaded]
        exact .delegated rfl heff
      · rw [heff.positions, Function.update_of_ne (Ne.symm hkey)]
        exact .kept id
  | @undelegated tx accs position w' heff =>
      by_cases hkey : accs.position = key
      · subst hkey
        rw [heff.positions, Function.update_self, heff.loaded]
        exact .undelegated rfl heff
      · rw [heff.positions, Function.update_of_ne (Ne.symm hkey)]
        exact .kept id
  | lamportsSent heff => rw [heff.positions]; exact .kept id

end AtAddress

end Hwal
