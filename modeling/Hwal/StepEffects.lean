/-
What one successful action does, said once: for each kind of action the checks
it passed, the transfers it made and the exact change of the three account
views.  Every invariant below is read off these records, never off the handlers.
-/
import Hwal.Program

namespace Hwal

open Guard

variable (rt : Runtime) (w : World) (tx : Tx)

section Views

variable {w}

theorem views_store_config {key : Pubkey} (config : Config) (hfeed : w.feeds key = none)
    (hposition : w.positions key = none) :
    (w.store key (.config config)).configs = Function.update w.configs key (some config) ∧
      (w.store key (.config config)).feeds = w.feeds ∧
      (w.store key (.config config)).positions = w.positions :=
  ⟨World.configs_store_config config,
    World.feeds_store_of_none hfeed (fun _ => by simp),
    World.positions_store_of_none hposition (fun _ => by simp)⟩

theorem views_store_feed {key : Pubkey} (feed : PriceFeed) (hconfig : w.configs key = none)
    (hposition : w.positions key = none) :
    (w.store key (.priceFeed feed)).configs = w.configs ∧
      (w.store key (.priceFeed feed)).feeds = Function.update w.feeds key (some feed) ∧
      (w.store key (.priceFeed feed)).positions = w.positions :=
  ⟨World.configs_store_of_none hconfig (fun _ => by simp),
    World.feeds_store_feed feed,
    World.positions_store_of_none hposition (fun _ => by simp)⟩

theorem views_store_position {key : Pubkey} (position : Position)
    (hconfig : w.configs key = none) (hfeed : w.feeds key = none) :
    (w.store key (.position position)).configs = w.configs ∧
      (w.store key (.position position)).feeds = w.feeds ∧
      (w.store key (.position position)).positions =
        Function.update w.positions key (some position) :=
  ⟨World.configs_store_of_none hconfig (fun _ => by simp),
    World.feeds_store_of_none hfeed (fun _ => by simp),
    World.positions_store_position position⟩

/-- The two writes every deposit and every settlement ends with. -/
theorem views_store_position_config {key configKey : Pubkey} (position : Position)
    {config : Config} (config' : Config) (hconfig : w.configs key = none)
    (hfeed : w.feeds key = none) (hloaded : w.configs configKey = some config) :
    let w' := (w.store key (.position position)).store configKey (.config config')
    w'.configs = Function.update w.configs configKey (some config') ∧
      w'.feeds = w.feeds ∧
      w'.positions = Function.update w.positions key (some position) := by
  intro w'
  obtain ⟨hc, hf, hp⟩ := views_store_position position hconfig hfeed
  have hne : configKey ≠ key := by
    rintro rfl
    rw [hconfig] at hloaded
    contradiction
  obtain ⟨hfeedAt, hpositionAt⟩ := World.views_of_config hloaded
  have hfeedAt' : (w.store key (.position position)).feeds configKey = none := by
    rw [hf, hfeedAt]
  have hpositionAt' : (w.store key (.position position)).positions configKey = none := by
    rw [hp, Function.update_of_ne hne, hpositionAt]
  obtain ⟨hc', hf', hp'⟩ := views_store_config config' hfeedAt' hpositionAt'
  exact ⟨hc'.trans (by rw [hc]), hf'.trans hf, hp'.trans hp⟩

end Views

/-! ### One record for each kind of action -/

structure ConfigCreated (accs : InitializeConfig) (feeBps keeperRewardBps : UInt16)
    (bump : UInt8) (w' : World) : Prop where
  signed : accs.admin ∈ tx.signers
  init : Initialized rt w accs.admin accs.config .config configSpace w'.lamports bump
  fee_capped : feeBps ≤ maxFeeBps
  reward_capped : keeperRewardBps ≤ maxKeeperRewardBps
  configs : w'.configs = Function.update w.configs accs.config
    (some (newConfig accs feeBps keeperRewardBps bump))
  feeds : w'.feeds = w.feeds
  positions : w'.positions = w.positions

structure ConfigChanged (accs : UpdateConfig) (newAdmin newFeeReceiver : Option Pubkey)
    (newFeeBps newKeeperRewardBps : Option UInt16) (config config' : Config)
    (w' : World) : Prop where
  signed : accs.admin ∈ tx.signers
  loaded : w.configs accs.config = some config
  admin : accs.admin = config.admin
  handled : updateConfigHandler config newAdmin newFeeReceiver newFeeBps
    newKeeperRewardBps = .ok config'
  lamports : w'.lamports = w.lamports
  configs : w'.configs = Function.update w.configs accs.config (some config')
  feeds : w'.feeds = w.feeds
  positions : w'.positions = w.positions

structure FeedCreated (accs : InitializePriceFeed) (symbol : FeedSymbol) (decimals : UInt8)
    (initialPrice : UInt64) (config : Config) (bump : UInt8) (w' : World) : Prop where
  signed : accs.admin ∈ tx.signers
  config_loaded : w.configs accs.config = some config
  admin : accs.admin = config.admin
  init : Initialized rt w accs.admin accs.feed (.feed symbol) priceFeedSpace w'.lamports bump
  price_pos : 0 < initialPrice
  configs : w'.configs = w.configs
  feeds : w'.feeds = Function.update w.feeds accs.feed
    (some (newPriceFeed accs symbol decimals initialPrice tx.unixTimestamp bump))
  positions : w'.positions = w.positions

structure FeedPushed (accs : UpdatePriceFeed) (newPrice : UInt64) (feed : PriceFeed)
    (w' : World) : Prop where
  signed : accs.authority ∈ tx.signers
  loaded : w.feeds accs.feed = some feed
  authority : accs.authority = feed.authority
  price_pos : 0 < newPrice
  lamports : w'.lamports = w.lamports
  configs : w'.configs = w.configs
  feeds : w'.feeds = Function.update w.feeds accs.feed
    (some (feed.record newPrice tx.unixTimestamp))
  positions : w'.positions = w.positions

structure FeedRegistered (accs : RegisterLazerFeed) (lazerFeedId : UInt64) (channel : UInt8)
    (config : Config) (feed : PriceFeed) (w' : World) : Prop where
  signed : accs.admin ∈ tx.signers
  config_loaded : w.configs accs.config = some config
  admin : accs.admin = config.admin
  loaded : w.feeds accs.feed = some feed
  channel_known : channel ≤ lazerChannel200ms
  source : feed.source = feedSourceAuthority
  lamports : w'.lamports = w.lamports
  configs : w'.configs = w.configs
  feeds : w'.feeds = Function.update w.feeds accs.feed
    (some (feed.register lazerFeedId channel))
  positions : w'.positions = w.positions

structure FeedVerified (accs : UpdatePriceFeedFromLazer) (payload : List UInt8)
    (feed : PriceFeed) (message : LazerMessage) (w' : World) : Prop where
  signed : accs.poster ∈ tx.signers
  loaded : w.feeds accs.feed = some feed
  accepted : LazerAccepted feed tx payload message
  lamports : w'.lamports = w.lamports
  configs : w'.configs = w.configs
  feeds : w'.feeds = Function.update w.feeds accs.feed
    (some (feed.record message.price tx.unixTimestamp))
  positions : w'.positions = w.positions

structure PositionOpened (accs : OpenPosition) (args : OpenPositionArgs) (config : Config)
    (feed : PriceFeed) (rent : Lamports) (bump : UInt8) (w' : World) : Prop where
  signed : accs.owner ∈ tx.signers
  config_loaded : w.configs accs.config = some config
  feed_loaded : w.feeds accs.feed = some feed
  init : Initialized rt w accs.owner accs.position (.position accs.owner args.nonce)
    positionSpace rent bump
  checked : OpenChecked feed tx.unixTimestamp args
  deposited : Ledger.Moved [⟨accs.owner, accs.position, args.collateral.toNat⟩] rent
    w'.lamports
  configs : w'.configs = Function.update w.configs accs.config (some config.countOpened)
  feeds : w'.feeds = w.feeds
  positions : w'.positions = Function.update w.positions accs.position
    (some (newPosition accs args feed.price tx.unixTimestamp bump))

structure TriggersChanged (accs : UpdateTriggers)
    (stopPrice takeProfitPrice trailingOffset : UInt64) (position : Position)
    (w' : World) : Prop where
  signed : accs.owner ∈ tx.signers
  loaded : w.positions accs.position = some position
  owner : accs.owner = position.owner
  status : position.status = statusOpen
  placed : TriggersPlaced position.side position.entryPrice stopPrice takeProfitPrice
    trailingOffset
  lamports : w'.lamports = w.lamports
  configs : w'.configs = w.configs
  feeds : w'.feeds = w.feeds
  positions : w'.positions = Function.update w.positions accs.position
    (some (position.retarget stopPrice takeProfitPrice trailingOffset))

/-- What every tick that gets past its guards and its threshold has in common. -/
structure TickEvaluated (accs : TickPosition) (config : Config) (feed : PriceFeed)
    (position : Position) : Prop where
  accounts : TickAccounts accs rt w tx config feed position
  guards : tickPrice position feed tx.unixTimestamp = .ok feed.price
  threshold : ¬ (position.observe feed.price tx.unixTimestamp).Stuck feed.price

structure TickRecorded (accs : TickPosition) (config : Config) (feed : PriceFeed)
    (position : Position) (w' : World) : Prop
    extends TickEvaluated rt w tx accs config feed position where
  quiet : (position.observe feed.price tx.unixTimestamp).firstHit feed.price = triggerNone
  lamports : w'.lamports = w.lamports
  configs : w'.configs = w.configs
  feeds : w'.feeds = w.feeds
  positions : w'.positions = Function.update w.positions accs.position
    (some (position.observe feed.price tx.unixTimestamp))

/-- The record a fired tick leaves. -/
def Position.fired (position : Position) (price : UInt64) (now : Int64) : Position :=
  (position.observe price now).settled ((position.observe price now).firstHit price) now

@[simp] theorem fired_collateral (position : Position) (price : UInt64) (now : Int64) :
    (position.fired price now).collateral = 0 := rfl

@[simp] theorem fired_status (position : Position) (price : UInt64) (now : Int64) :
    (position.fired price now).status = statusTriggered := rfl

/-- The record of a tick that goes through, fired or not. -/
def Position.ticked (position : Position) (price : UInt64) (now : Int64) : Position :=
  if (position.observe price now).firstHit price = triggerNone then position.observe price now
  else position.fired price now

/-- Where fees go, as the config at an address has it. -/
def World.feeReceiverAt (w : World) (key : Pubkey) : Option Pubkey :=
  (w.configs key).map Config.feeReceiver

/-- One position changes, and nothing else a tick reads. -/
structure Rewritten (w : World) (key : Pubkey) (after : Position) (w' : World) : Prop where
  positions : w'.positions = Function.update w.positions key (some after)
  feeds : w'.feeds = w.feeds
  feeReceivers : w'.feeReceiverAt = w.feeReceiverAt

structure PositionSettled (accs : TickPosition) (config : Config) (feed : PriceFeed)
    (position : Position) (payout : Payout) (w' : World) : Prop
    extends TickEvaluated rt w tx accs config feed position where
  fires : (position.observe feed.price tx.unixTimestamp).firstHit feed.price ≠ triggerNone
  payout_of : PayoutOf config position.collateral payout
  paid : Ledger.Moved (settlementTransfers accs payout) w.lamports w'.lamports
  configs : w'.configs = Function.update w.configs accs.config
    (some (config.countTriggered payout))
  feeds : w'.feeds = w.feeds
  positions : w'.positions = Function.update w.positions accs.position
    (some (position.fired feed.price tx.unixTimestamp))

structure PositionCancelled (accs : CancelPosition) (config : Config) (position : Position)
    (w' : World) : Prop where
  accounts : CancelAccounts accs rt w tx config position
  status : position.status = statusOpen
  refunded : Ledger.Moved [⟨accs.position, accs.owner, position.collateral.toNat⟩]
    w.lamports w'.lamports
  configs : w'.configs = Function.update w.configs accs.config (some config.countCancelled)
  feeds : w'.feeds = w.feeds
  positions : w'.positions = Function.update w.positions accs.position
    (some (position.cancelled tx.unixTimestamp))

/-- Delegation and its undoing differ in the flag they expect and leave. -/
structure DelegationChanged (owner key : Pubkey) (position : Position)
    (flag flag' : UInt8) (w' : World) : Prop where
  signed : owner ∈ tx.signers
  loaded : w.positions key = some position
  owner : owner = position.owner
  status : position.status = statusOpen
  flag_was : position.erDelegated = flag
  cpi : ∃ ix, rt.invokeDelegation ix tx w.lamports = some w'.lamports
  configs : w'.configs = w.configs
  feeds : w'.feeds = w.feeds
  positions : w'.positions = Function.update w.positions key
    (some { position with erDelegated := flag' })

structure LamportsSent (src dst : Pubkey) (amount : UInt64) (w' : World) : Prop where
  signs : rt.canSign src = true
  moved : Ledger.Moved [⟨src, dst, amount.toNat⟩] w.lamports w'.lamports
  configs : w'.configs = w.configs
  feeds : w'.feeds = w.feeds
  positions : w'.positions = w.positions

/-- The outcome of one successful action. -/
inductive Effect (rt : Runtime) (w : World) : Action → World → Prop where
  | configCreated {tx accs feeBps keeperRewardBps bump w'}
      (h : ConfigCreated rt w tx accs feeBps keeperRewardBps bump w') :
      Effect rt w (.invoke tx (.initializeConfig accs feeBps keeperRewardBps)) w'
  | configChanged {tx accs newAdmin newFeeReceiver newFeeBps newKeeperRewardBps config
      config' w'}
      (h : ConfigChanged w tx accs newAdmin newFeeReceiver newFeeBps newKeeperRewardBps
        config config' w') :
      Effect rt w (.invoke tx (.updateConfig accs newAdmin newFeeReceiver newFeeBps
        newKeeperRewardBps)) w'
  | feedCreated {tx accs symbol decimals initialPrice config bump w'}
      (h : FeedCreated rt w tx accs symbol decimals initialPrice config bump w') :
      Effect rt w (.invoke tx (.initializePriceFeed accs symbol decimals initialPrice)) w'
  | feedPushed {tx accs newPrice feed w'} (h : FeedPushed w tx accs newPrice feed w') :
      Effect rt w (.invoke tx (.updatePriceFeed accs newPrice)) w'
  | feedRegistered {tx accs lazerFeedId channel config feed w'}
      (h : FeedRegistered w tx accs lazerFeedId channel config feed w') :
      Effect rt w (.invoke tx (.registerLazerFeed accs lazerFeedId channel)) w'
  | feedVerified {tx accs payload feed message w'}
      (h : FeedVerified w tx accs payload feed message w') :
      Effect rt w (.invoke tx (.updatePriceFeedFromLazer accs payload)) w'
  | positionOpened {tx accs args config feed rent bump w'}
      (h : PositionOpened rt w tx accs args config feed rent bump w') :
      Effect rt w (.invoke tx (.openPosition accs args)) w'
  | triggersChanged {tx accs stopPrice takeProfitPrice trailingOffset position w'}
      (h : TriggersChanged w tx accs stopPrice takeProfitPrice trailingOffset position w') :
      Effect rt w
        (.invoke tx (.updateTriggers accs stopPrice takeProfitPrice trailingOffset)) w'
  | tickRecorded {tx accs config feed position w'}
      (h : TickRecorded rt w tx accs config feed position w') :
      Effect rt w (.invoke tx (.tickPosition accs)) w'
  | positionSettled {tx accs config feed position payout w'}
      (h : PositionSettled rt w tx accs config feed position payout w') :
      Effect rt w (.invoke tx (.tickPosition accs)) w'
  | positionCancelled {tx accs config position w'}
      (h : PositionCancelled rt w tx accs config position w') :
      Effect rt w (.invoke tx (.cancelPosition accs)) w'
  | delegated {tx accs position w'}
      (h : DelegationChanged rt w tx accs.owner accs.position position 0 1 w') :
      Effect rt w (.invoke tx (.delegatePosition accs)) w'
  | undelegated {tx accs position w'}
      (h : DelegationChanged rt w tx accs.owner accs.position position 1 0 w') :
      Effect rt w (.invoke tx (.undelegatePosition accs)) w'
  | lamportsSent {src dst amount w'} (h : LamportsSent rt w src dst amount w') :
      Effect rt w (.transfer src dst amount) w'

/-! ### Every successful action has one of these effects -/

section Soundness

variable {rt w tx} {w' : World}

theorem configCreated_of_ok {accs : InitializeConfig} {feeBps keeperRewardBps : UInt16}
    (h : initializeConfig rt w tx accs feeBps keeperRewardBps = .ok w') :
    ∃ bump, ConfigCreated rt w tx accs feeBps keeperRewardBps bump w' := by
  obtain ⟨lamports, bump, hsigned, hinit, hfee, hreward, rfl⟩ := initializeConfig_eq_ok h
  obtain ⟨-, hfeed, hposition⟩ := World.views_of_unused hinit.unused
  obtain ⟨hc, hf, hp⟩ := @views_store_config (w.withLamports lamports) accs.config
    (newConfig accs feeBps keeperRewardBps bump) hfeed hposition
  exact ⟨bump, hsigned, hinit, hfee, hreward, hc, hf, hp⟩

theorem configChanged_of_ok {accs : UpdateConfig} {newAdmin newFeeReceiver : Option Pubkey}
    {newFeeBps newKeeperRewardBps : Option UInt16}
    (h : updateConfig rt w tx accs newAdmin newFeeReceiver newFeeBps newKeeperRewardBps =
      .ok w') :
    ∃ config config', ConfigChanged w tx accs newAdmin newFeeReceiver newFeeBps
      newKeeperRewardBps config config' w' := by
  obtain ⟨config, config', haccs, hhandled, rfl⟩ := updateConfig_eq_ok h
  obtain ⟨hsigned, hloaded, hadmin, -⟩ := updateConfig_tryAccounts_eq_ok haccs
  obtain ⟨hfeed, hposition⟩ := World.views_of_config hloaded
  obtain ⟨hc, hf, hp⟩ := views_store_config config' hfeed hposition
  exact ⟨config, config', hsigned, hloaded, hadmin, hhandled, rfl, hc, hf, hp⟩

theorem feedCreated_of_ok {accs : InitializePriceFeed} {symbol : FeedSymbol}
    {decimals : UInt8} {initialPrice : UInt64}
    (h : initializePriceFeed rt w tx accs symbol decimals initialPrice = .ok w') :
    ∃ config bump, FeedCreated rt w tx accs symbol decimals initialPrice config bump w' := by
  obtain ⟨config, lamports, bump, hsigned, hloaded, hadmin, hinit, hprice, rfl⟩ :=
    initializePriceFeed_eq_ok h
  obtain ⟨hconfig, -, hposition⟩ := World.views_of_unused hinit.unused
  obtain ⟨hc, hf, hp⟩ := @views_store_feed (w.withLamports lamports) accs.feed
    (newPriceFeed accs symbol decimals initialPrice tx.unixTimestamp bump) hconfig hposition
  exact ⟨config, bump, hsigned, hloaded, hadmin, hinit, hprice, hc, hf, hp⟩

theorem feedPushed_of_ok {accs : UpdatePriceFeed} {newPrice : UInt64}
    (h : updatePriceFeed w tx accs newPrice = .ok w') :
    ∃ feed, FeedPushed w tx accs newPrice feed w' := by
  obtain ⟨feed, hsigned, hloaded, hauthority, hprice, rfl⟩ := updatePriceFeed_eq_ok h
  obtain ⟨hconfig, hposition⟩ := World.views_of_feed hloaded
  obtain ⟨hc, hf, hp⟩ :=
    views_store_feed (feed.record newPrice tx.unixTimestamp) hconfig hposition
  exact ⟨feed, hsigned, hloaded, hauthority, hprice, rfl, hc, hf, hp⟩

theorem feedRegistered_of_ok {accs : RegisterLazerFeed} {lazerFeedId : UInt64}
    {channel : UInt8} (h : registerLazerFeed rt w tx accs lazerFeedId channel = .ok w') :
    ∃ config feed, FeedRegistered w tx accs lazerFeedId channel config feed w' := by
  obtain ⟨config, feed, hsigned, hconfigLoaded, hadmin, hloaded, hchannel, hsource, rfl⟩ :=
    registerLazerFeed_eq_ok h
  obtain ⟨hconfig, hposition⟩ := World.views_of_feed hloaded
  obtain ⟨hc, hf, hp⟩ :=
    views_store_feed (feed.register lazerFeedId channel) hconfig hposition
  exact ⟨config, feed, hsigned, hconfigLoaded, hadmin, hloaded, hchannel, hsource, rfl, hc,
    hf, hp⟩

theorem feedVerified_of_ok {accs : UpdatePriceFeedFromLazer} {payload : List UInt8}
    (h : updatePriceFeedFromLazer w tx accs payload = .ok w') :
    ∃ feed message, FeedVerified w tx accs payload feed message w' := by
  obtain ⟨feed, message, hsigned, hloaded, haccepted, rfl⟩ := updatePriceFeedFromLazer_eq_ok h
  obtain ⟨hconfig, hposition⟩ := World.views_of_feed hloaded
  obtain ⟨hc, hf, hp⟩ :=
    views_store_feed (feed.record message.price tx.unixTimestamp) hconfig hposition
  exact ⟨feed, message, hsigned, hloaded, haccepted, rfl, hc, hf, hp⟩

theorem positionOpened_of_ok {accs : OpenPosition} {args : OpenPositionArgs}
    (h : openPosition rt w tx accs args = .ok w') :
    ∃ config feed rent bump,
      PositionOpened rt w tx accs args config feed rent bump w' := by
  obtain ⟨config, feed, rent, lamports, bump, hsigned, hconfigLoaded, -, hfeedLoaded, hinit,
    hchecked, hdeposit, rfl⟩ := openPosition_eq_ok h
  obtain ⟨hconfig, hfeed, -⟩ := World.views_of_unused hinit.unused
  obtain ⟨hc, hf, hp⟩ := @views_store_position_config (w.withLamports lamports)
    accs.position accs.config (newPosition accs args feed.price tx.unixTimestamp bump)
    config config.countOpened hconfig hfeed hconfigLoaded
  exact ⟨config, feed, rent, bump, hsigned, hconfigLoaded, hfeedLoaded, hinit, hchecked,
    hdeposit, hc, hf, hp⟩

theorem triggersChanged_of_ok {accs : UpdateTriggers}
    {stopPrice takeProfitPrice trailingOffset : UInt64}
    (h : updateTriggers rt w tx accs stopPrice takeProfitPrice trailingOffset = .ok w') :
    ∃ position,
      TriggersChanged w tx accs stopPrice takeProfitPrice trailingOffset position w' := by
  obtain ⟨position, hsigned, hloaded, howner, hopen, hplaced, rfl⟩ := updateTriggers_eq_ok h
  obtain ⟨hconfig, hfeed⟩ := World.views_of_position hloaded
  obtain ⟨hc, hf, hp⟩ := views_store_position
    (position.retarget stopPrice takeProfitPrice trailingOffset) hconfig hfeed
  exact ⟨position, hsigned, hloaded, howner, hopen, hplaced, rfl, hc, hf, hp⟩

theorem tick_effect_of_ok {accs : TickPosition} (h : tickPosition rt w tx accs = .ok w') :
    (∃ config feed position, TickRecorded rt w tx accs config feed position w') ∨
      ∃ config feed position payout,
        PositionSettled rt w tx accs config feed position payout w' := by
  obtain ⟨config, feed, position, haccs, hguards, hstuck, houtcome⟩ := tickPosition_eq_ok h
  obtain ⟨hconfig, hfeed⟩ := World.views_of_position haccs.position_loaded
  rcases houtcome with ⟨hquiet, rfl⟩ | ⟨hfires, hsettle⟩
  · obtain ⟨hc, hf, hp⟩ :=
      views_store_position (position.observe feed.price tx.unixTimestamp) hconfig hfeed
    exact Or.inl ⟨config, feed, position, ⟨haccs, hguards, hstuck⟩, hquiet, rfl, hc, hf, hp⟩
  · obtain ⟨payout, lamports, hpayout, hpaid, rfl⟩ := settlePosition_eq_ok hsettle
    obtain ⟨hc, hf, hp⟩ := @views_store_position_config (w.withLamports lamports)
      accs.position accs.config (position.fired feed.price tx.unixTimestamp) config
      (config.countTriggered payout) hconfig hfeed haccs.config_loaded
    exact Or.inr ⟨config, feed, position, payout, ⟨haccs, hguards, hstuck⟩, hfires, hpayout,
      hpaid, hc, hf, hp⟩

/-- A tick that goes through has evaluated the record it loaded and writes it back. -/
theorem tick_written_of_ok {accs : TickPosition} (h : tickPosition rt w tx accs = .ok w') :
    ∃ config feed position, TickEvaluated rt w tx accs config feed position ∧
      w'.positions accs.position = some (position.ticked feed.price tx.unixTimestamp) := by
  rcases tick_effect_of_ok h with ⟨config, feed, position, heff⟩ |
    ⟨config, feed, position, payout, heff⟩
  · refine ⟨config, feed, position, heff.toTickEvaluated, ?_⟩
    rw [heff.positions, Function.update_self, Position.ticked, if_pos heff.quiet]
  · refine ⟨config, feed, position, heff.toTickEvaluated, ?_⟩
    rw [heff.positions, Function.update_self, Position.ticked, if_neg heff.fires]

/-- The accounts of a tick determine what it loads. -/
theorem TickAccounts.unique {accs : TickPosition} {config config' : Config}
    {feed feed' : PriceFeed} {position position' : Position}
    (h : TickAccounts accs rt w tx config feed position)
    (h' : TickAccounts accs rt w tx config' feed' position') :
    config' = config ∧ feed' = feed ∧ position' = position := by
  refine ⟨?_, ?_, ?_⟩
  · exact Option.some.inj (h'.config_loaded.symm.trans h.config_loaded)
  · exact Option.some.inj (h'.feed_loaded.symm.trans h.feed_loaded)
  · exact Option.some.inj (h'.position_loaded.symm.trans h.position_loaded)

/-- A settlement counts in the config and leaves its fee receiver. -/
theorem feeReceiverAt_of_update {key : Pubkey} {config config' : Config}
    (hloaded : w.configs key = some config)
    (hconfigs : w'.configs = Function.update w.configs key (some config'))
    (hsame : config'.feeReceiver = config.feeReceiver) :
    w'.feeReceiverAt = w.feeReceiverAt := by
  funext k
  rw [World.feeReceiverAt, World.feeReceiverAt, hconfigs]
  by_cases hk : k = key
  · rw [hk, Function.update_self, hloaded, Option.map_some, Option.map_some, hsame]
  · rw [Function.update_of_ne hk]

/-- A tick that goes through changes its position and lets the others be. -/
theorem rewritten_of_tick {accs : TickPosition} {config : Config} {feed : PriceFeed}
    {position : Position} (haccs : TickAccounts accs rt w tx config feed position)
    (hok : tickPosition rt w tx accs = .ok w') :
    Rewritten w accs.position (position.ticked feed.price tx.unixTimestamp) w' := by
  rcases tick_effect_of_ok hok with ⟨_, _, _, heff⟩ | ⟨_, _, _, payout, heff⟩
  · rcases heff.accounts.unique haccs with ⟨rfl, rfl, rfl⟩
    rw [Position.ticked, if_pos heff.quiet]
    exact ⟨heff.positions, heff.feeds, by funext k; rw [World.feeReceiverAt, heff.configs]; rfl⟩
  · rcases heff.accounts.unique haccs with ⟨rfl, rfl, rfl⟩
    rw [Position.ticked, if_neg heff.fires]
    exact ⟨heff.positions, heff.feeds,
      feeReceiverAt_of_update haccs.config_loaded heff.configs rfl⟩

/-- A successful tick whose trigger fires settles. -/
theorem TickEvaluated.settled_of_ok {accs : TickPosition} {config : Config}
    {feed : PriceFeed} {position : Position}
    (h : TickEvaluated rt w tx accs config feed position)
    (hfires : (position.observe feed.price tx.unixTimestamp).firstHit feed.price ≠ triggerNone)
    (hok : tickPosition rt w tx accs = .ok w') :
    ∃ payout, PositionSettled rt w tx accs config feed position payout w' := by
  rcases tick_effect_of_ok hok with ⟨_, _, _, heff⟩ | ⟨_, _, _, payout, heff⟩
  · rcases h.accounts.unique heff.accounts with ⟨rfl, rfl, rfl⟩
    exact absurd heff.quiet hfires
  · rcases h.accounts.unique heff.accounts with ⟨rfl, rfl, rfl⟩
    exact ⟨payout, heff⟩

theorem positionCancelled_of_ok {accs : CancelPosition}
    (h : cancelPosition rt w tx accs = .ok w') :
    ∃ config position, PositionCancelled rt w tx accs config position w' := by
  obtain ⟨config, position, lamports, haccs, hopen, hrefund, rfl⟩ := cancelPosition_eq_ok h
  obtain ⟨hconfig, hfeed⟩ := World.views_of_position haccs.position_loaded
  obtain ⟨hc, hf, hp⟩ := @views_store_position_config (w.withLamports lamports)
    accs.position accs.config (position.cancelled tx.unixTimestamp) config
    config.countCancelled hconfig hfeed haccs.config_loaded
  exact ⟨config, position, haccs, hopen, hrefund, hc, hf, hp⟩

theorem delegated_of_ok {accs : DelegatePosition}
    (h : delegatePosition rt w tx accs = .ok w') :
    ∃ position, DelegationChanged rt w tx accs.owner accs.position position 0 1 w' := by
  obtain ⟨position, lamports, hsigned, hloaded, howner, hopen, hflag, hcpi, rfl⟩ :=
    delegatePosition_eq_ok h
  obtain ⟨hconfig, hfeed⟩ := World.views_of_position hloaded
  obtain ⟨hc, hf, hp⟩ := @views_store_position (w.withLamports lamports) accs.position
    { position with erDelegated := 1 } hconfig hfeed
  exact ⟨position, hsigned, hloaded, howner, hopen, hflag, ⟨_, hcpi⟩, hc, hf, hp⟩

theorem undelegated_of_ok {accs : UndelegatePosition}
    (h : undelegatePosition rt w tx accs = .ok w') :
    ∃ position, DelegationChanged rt w tx accs.owner accs.position position 1 0 w' := by
  obtain ⟨position, lamports, haccs, hopen, hflag, hcpi, rfl⟩ :=
    undelegatePosition_eq_ok_iff.mp h
  obtain ⟨hconfig, hfeed⟩ := World.views_of_position haccs.position_loaded
  obtain ⟨hc, hf, hp⟩ := @views_store_position (w.withLamports lamports) accs.position
    { position with erDelegated := 0 } hconfig hfeed
  exact ⟨position, haccs.owner_signs, haccs.position_loaded, haccs.owner_matches, hopen,
    hflag, ⟨_, hcpi⟩, hc, hf, hp⟩

theorem execute_effect {ix : Instruction} (h : execute rt w tx ix = .ok w') :
    Effect rt w (.invoke tx ix) w' := by
  cases ix with
  | initializeConfig accs feeBps keeperRewardBps =>
      obtain ⟨_, heffect⟩ := configCreated_of_ok h
      exact .configCreated heffect
  | updateConfig accs newAdmin newFeeReceiver newFeeBps newKeeperRewardBps =>
      obtain ⟨_, _, heffect⟩ := configChanged_of_ok h
      exact .configChanged heffect
  | initializePriceFeed accs symbol decimals initialPrice =>
      obtain ⟨_, _, heffect⟩ := feedCreated_of_ok h
      exact .feedCreated heffect
  | updatePriceFeed accs newPrice =>
      obtain ⟨_, heffect⟩ := feedPushed_of_ok h
      exact .feedPushed heffect
  | openPosition accs args =>
      obtain ⟨_, _, _, _, heffect⟩ := positionOpened_of_ok h
      exact .positionOpened heffect
  | updateTriggers accs stopPrice takeProfitPrice trailingOffset =>
      obtain ⟨_, heffect⟩ := triggersChanged_of_ok h
      exact .triggersChanged heffect
  | tickPosition accs =>
      rcases tick_effect_of_ok h with ⟨_, _, _, heffect⟩ | ⟨_, _, _, _, heffect⟩
      · exact .tickRecorded heffect
      · exact .positionSettled heffect
  | cancelPosition accs =>
      obtain ⟨_, _, heffect⟩ := positionCancelled_of_ok h
      exact .positionCancelled heffect
  | registerLazerFeed accs lazerFeedId channel =>
      obtain ⟨_, _, heffect⟩ := feedRegistered_of_ok h
      exact .feedRegistered heffect
  | updatePriceFeedFromLazer accs payload =>
      obtain ⟨_, _, heffect⟩ := feedVerified_of_ok h
      exact .feedVerified heffect
  | delegatePosition accs =>
      obtain ⟨_, heffect⟩ := delegated_of_ok h
      exact .delegated heffect
  | undelegatePosition accs =>
      obtain ⟨_, heffect⟩ := undelegated_of_ok h
      exact .undelegated heffect

theorem attempt_effect {action : Action} (h : attempt rt w action = .ok w') :
    Effect rt w action w' := by
  cases action with
  | invoke tx ix => exact execute_effect (attempt_invoke_eq_ok_iff.mp h).2.2
  | transfer src dst amount =>
      obtain ⟨lamports, hsigns, hmoved, rfl⟩ := attempt_transfer_eq_ok h
      exact .lamportsSent ⟨hsigns, hmoved, rfl, rfl, rfl⟩

/-- One step of a run: an effect, or no change at all. -/
theorem step_effect (rt : Runtime) (w : World) (action : Action) :
    Effect rt w action (step rt w action) ∨ step rt w action = w := by
  rcases step_cases rt w action with hok | hsame
  · exact Or.inl (attempt_effect hok)
  · exact Or.inr hsame

end Soundness

end Hwal
