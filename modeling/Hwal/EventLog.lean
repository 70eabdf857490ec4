/-
What each successful action announces: the events it appends to the log, beside the record
of what it did.
-/
import Hwal.SettlementDeltas

namespace Hwal

open Guard

/-- The log line of a settlement. -/
def settledEvent (accs : TickPosition) (position : Position) (price : UInt64) (now : Int64)
    (payout : Payout) : Event :=
  .positionTriggered accs.position position.owner ((position.observe price now).firstHit price)
    price payout.netToOwner payout.fee payout.keeperReward accs.keeper now

/-- One successful action with the events it emits; `update_config` emits none. -/
inductive Logged (rt : Runtime) (w : World) : Action → World → List Event → Prop where
  | configCreated {tx accs feeBps keeperRewardBps bump w'}
      (h : ConfigCreated rt w tx accs feeBps keeperRewardBps bump w') :
      Logged rt w (.invoke tx (.initializeConfig accs feeBps keeperRewardBps)) w'
        [.configInitialized accs.admin feeBps keeperRewardBps]
  | configChanged {tx accs newAdmin newFeeReceiver newFeeBps newKeeperRewardBps config
      config' w'}
      (h : ConfigChanged w tx accs newAdmin newFeeReceiver newFeeBps newKeeperRewardBps
        config config' w') :
      Logged rt w (.invoke tx (.updateConfig accs newAdmin newFeeReceiver newFeeBps
        newKeeperRewardBps)) w' []
  | feedCreated {tx accs symbol decimals initialPrice config bump w'}
      (h : FeedCreated rt w tx accs symbol decimals initialPrice config bump w') :
      Logged rt w (.invoke tx (.initializePriceFeed accs symbol decimals initialPrice)) w'
        [.priceFeedInitialized accs.feed accs.authority symbol decimals initialPrice]
  | feedPushed {tx accs newPrice feed w'} (h : FeedPushed w tx accs newPrice feed w') :
      Logged rt w (.invoke tx (.updatePriceFeed accs newPrice)) w'
        [PriceFeed.updatedEvent accs.feed feed (feed.record newPrice tx.unixTimestamp)]
  | feedRegistered {tx accs lazerFeedId channel config feed w'}
      (h : FeedRegistered w tx accs lazerFeedId channel config feed w') :
      Logged rt w (.invoke tx (.registerLazerFeed accs lazerFeedId channel)) w'
        [.lazerFeedRegistered accs.feed lazerFeedId channel]
  | feedVerified {tx accs payload feed message w'}
      (h : FeedVerified w tx accs payload feed message w') :
      Logged rt w (.invoke tx (.updatePriceFeedFromLazer accs payload)) w'
        [.lazerPriceVerified accs.feed message.feedId message.channel message.price
          message.timestamp tx.unixTimestamp,
          PriceFeed.updatedEvent accs.feed feed (feed.record message.price tx.unixTimestamp)]
  | positionOpened {tx accs args config feed rent bump w'}
      (h : PositionOpened rt w tx accs args config feed rent bump w') :
      Logged rt w (.invoke tx (.openPosition accs args)) w'
        [.positionOpened accs.position accs.owner accs.feed args.side args.collateral
          feed.price args.stopPrice args.takeProfitPrice args.trailingOffset
          tx.unixTimestamp]
  | triggersChanged {tx accs stopPrice takeProfitPrice trailingOffset position w'}
      (h : TriggersChanged w tx accs stopPrice takeProfitPrice trailingOffset position w') :
      Logged rt w
        (.invoke tx (.updateTriggers accs stopPrice takeProfitPrice trailingOffset)) w'
        [.triggersUpdated accs.position stopPrice takeProfitPrice trailingOffset]
  | tickRecorded {tx accs config feed position w'}
      (h : TickRecorded rt w tx accs config feed position w') :
      Logged rt w (.invoke tx (.tickPosition accs)) w'
        [.positionTicked accs.position feed.price
          (position.observe feed.price tx.unixTimestamp).trailingExtreme tx.unixTimestamp]
  | positionSettled {tx accs config feed position payout w'}
      (h : PositionSettled rt w tx accs config feed position payout w') :
      Logged rt w (.invoke tx (.tickPosition accs)) w'
        [settledEvent accs position feed.price tx.unixTimestamp payout]
  | positionCancelled {tx accs config position w'}
      (h : PositionCancelled rt w tx accs config position w') :
      Logged rt w (.invoke tx (.cancelPosition accs)) w'
        [.positionCancelled accs.position position.owner position.collateral
          tx.unixTimestamp]
  | delegated {tx accs position w'}
      (h : DelegationChanged rt w tx accs.owner accs.position position 0 1 w') :
      Logged rt w (.invoke tx (.delegatePosition accs)) w'
        [.positionDelegated accs.position position.owner tx.unixTimestamp]
  | undelegated {tx accs position w'}
      (h : DelegationChanged rt w tx accs.owner accs.position position 1 0 w') :
      Logged rt w (.invoke tx (.undelegatePosition accs)) w'
        [.positionUndelegated accs.position position.owner tx.unixTimestamp]
  | lamportsSent {src dst amount w'} (h : LamportsSent rt w src dst amount w') :
      Logged rt w (.transfer src dst amount) w' []

section Logged

variable {rt : Runtime} {w w' : World} {tx : Tx} {action : Action}

theorem execute_of_attempt {ix : Instruction}
    (h : attempt rt w (.invoke tx ix) = .ok w') : execute rt w tx ix = .ok w' :=
  (attempt_invoke_eq_ok_iff.mp h).2.2

/-- Every successful action appends the events of its record. -/
theorem attempt_logged (hok : attempt rt w action = .ok w') :
    ∃ events, Logged rt w action w' events ∧ w'.log = w.log ++ events := by
  cases attempt_effect hok with
  | configCreated heff =>
      obtain ⟨_, _, -, -, -, -, rfl⟩ := initializeConfig_eq_ok (execute_of_attempt hok)
      exact ⟨_, .configCreated heff, rfl⟩
  | configChanged heff =>
      obtain ⟨_, _, -, -, rfl⟩ := updateConfig_eq_ok (execute_of_attempt hok)
      exact ⟨_, .configChanged heff, (List.append_nil _).symm⟩
  | feedCreated heff =>
      obtain ⟨_, _, _, -, -, -, -, -, rfl⟩ := initializePriceFeed_eq_ok (execute_of_attempt hok)
      exact ⟨_, .feedCreated heff, rfl⟩
  | feedPushed heff =>
      obtain ⟨_, -, hloaded, -, -, rfl⟩ := updatePriceFeed_eq_ok (execute_of_attempt hok)
      obtain rfl := Option.some.inj (hloaded.symm.trans heff.loaded)
      exact ⟨_, .feedPushed heff, rfl⟩
  | feedRegistered heff =>
      obtain ⟨_, _, -, -, -, -, -, -, rfl⟩ := registerLazerFeed_eq_ok (execute_of_attempt hok)
      exact ⟨_, .feedRegistered heff, rfl⟩
  | feedVerified heff =>
      obtain ⟨_, _, -, hloaded, haccepted, rfl⟩ :=
        updatePriceFeedFromLazer_eq_ok (execute_of_attempt hok)
      obtain rfl := Option.some.inj (hloaded.symm.trans heff.loaded)
      obtain rfl := Except.ok.inj (haccepted.decoded.symm.trans heff.accepted.decoded)
      exact ⟨_, .feedVerified heff, (List.append_cons ..).symm⟩
  | positionOpened heff =>
      obtain ⟨_, _, _, _, _, -, -, -, hfeed, -, -, -, rfl⟩ :=
        openPosition_eq_ok (execute_of_attempt hok)
      obtain rfl := Option.some.inj (hfeed.symm.trans heff.feed_loaded)
      exact ⟨_, .positionOpened heff, rfl⟩
  | triggersChanged heff =>
      obtain ⟨_, -, -, -, -, -, rfl⟩ := updateTriggers_eq_ok (execute_of_attempt hok)
      exact ⟨_, .triggersChanged heff, rfl⟩
  | tickRecorded heff =>
      obtain ⟨_, _, _, haccs, -, -, houtcome⟩ := tickPosition_eq_ok (execute_of_attempt hok)
      obtain ⟨rfl, rfl, rfl⟩ := heff.accounts.unique haccs
      rcases houtcome with ⟨-, rfl⟩ | ⟨hfires, -⟩
      · exact ⟨_, .tickRecorded heff, rfl⟩
      · exact absurd heff.quiet hfires
  | positionSettled heff =>
      obtain ⟨_, _, _, haccs, -, -, houtcome⟩ := tickPosition_eq_ok (execute_of_attempt hok)
      obtain ⟨rfl, rfl, rfl⟩ := heff.accounts.unique haccs
      rcases houtcome with ⟨hquiet, -⟩ | ⟨-, hsettle⟩
      · exact absurd hquiet heff.fires
      · obtain ⟨payout, _, hpayout, -, rfl⟩ := settlePosition_eq_ok hsettle
        obtain rfl := hpayout.unique heff.payout_of
        exact ⟨_, .positionSettled heff, rfl⟩
  | positionCancelled heff =>
      obtain ⟨_, _, _, haccs, -, -, rfl⟩ := cancelPosition_eq_ok (execute_of_attempt hok)
      obtain rfl := Option.some.inj
        (haccs.position_loaded.symm.trans heff.accounts.position_loaded)
      exact ⟨_, .positionCancelled heff, rfl⟩
  | delegated heff =>
      obtain ⟨_, _, -, hloaded, -, -, -, -, rfl⟩ := delegatePosition_eq_ok (execute_of_attempt hok)
      obtain rfl := Option.some.inj (hloaded.symm.trans heff.loaded)
      exact ⟨_, .delegated heff, rfl⟩
  | undelegated heff =>
      obtain ⟨_, _, haccs, -, -, -, rfl⟩ :=
        undelegatePosition_eq_ok_iff.mp (execute_of_attempt hok)
      obtain rfl := Option.some.inj (haccs.position_loaded.symm.trans heff.loaded)
      exact ⟨_, .undelegated heff, rfl⟩
  | lamportsSent heff =>
      obtain ⟨_, -, -, rfl⟩ := attempt_transfer_eq_ok hok
      exact ⟨_, .lamportsSent heff, (List.append_nil _).symm⟩

end Logged

end Hwal
