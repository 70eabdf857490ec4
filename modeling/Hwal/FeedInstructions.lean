/-
`initialize_price_feed`, `update_price_feed` and `register_lazer_feed`: creating
a feed, pushing prices under its authority, and the one-way switch to a Lazer
feed.
-/
import Hwal.Runtime

namespace Hwal

open Guard

structure InitializePriceFeed where
  admin : Pubkey
  config : Pubkey
  authority : Pubkey
  feed : Pubkey
  systemProgram : Pubkey
deriving DecidableEq, Repr

/-- The record a fresh feed account starts with. -/
def newPriceFeed (accs : InitializePriceFeed) (symbol : FeedSymbol) (decimals : UInt8)
    (initialPrice : UInt64) (now : Int64) (bump : UInt8) : PriceFeed :=
  { authority := accs.authority
    symbol := symbol
    decimals := decimals
    price := initialPrice
    lastUpdated := now
    updateCount := 0
    bump := bump
    source := feedSourceAuthority
    lazerChannel := 0
    lazerFeedId := 0 }

/-- `init` runs before the constraints of the other accounts. -/
def initializePriceFeed (rt : Runtime) (w : World) (tx : Tx) (accs : InitializePriceFeed)
    (symbol : FeedSymbol) (decimals : UInt8) (initialPrice : UInt64) :
    Except ProgramError World := do
  tx.requireSigner accs.admin
  let config ← w.loadConfig accs.config
  requireSystemProgram accs.systemProgram
  let (lamports, bump) ←
    w.initAccount rt tx accs.admin accs.feed (.feed symbol) priceFeedSpace
  requireAddress accs.admin config.admin (.hwal .notAdmin)
  rt.requireSeeds .config config.bump accs.config
  require (initialPrice > 0) (.hwal .priceFeedZero)
  let feed := newPriceFeed accs symbol decimals initialPrice tx.unixTimestamp bump
  return ((w.withLamports lamports).store accs.feed (.priceFeed feed)).emit
    (.priceFeedInitialized accs.feed feed.authority symbol decimals initialPrice)

theorem initializePriceFeed_eq_ok {rt : Runtime} {w w' : World} {tx : Tx}
    {accs : InitializePriceFeed} {symbol : FeedSymbol} {decimals : UInt8}
    {initialPrice : UInt64}
    (h : initializePriceFeed rt w tx accs symbol decimals initialPrice = .ok w') :
    ∃ config lamports bump,
      accs.admin ∈ tx.signers ∧ w.configs accs.config = some config ∧
      accs.admin = config.admin ∧
      Initialized rt w accs.admin accs.feed (.feed symbol) priceFeedSpace lamports bump ∧
      0 < initialPrice ∧
      w' = ((w.withLamports lamports).store accs.feed (.priceFeed
          (newPriceFeed accs symbol decimals initialPrice tx.unixTimestamp bump))).emit
        (.priceFeedInitialized accs.feed accs.authority symbol decimals initialPrice) := by
  simp only [initializePriceFeed, Tx.requireSigner, requireSystemProgram, requireAddress,
    Runtime.requireSeeds, bind_eq_ok_iff, require_eq_ok_iff, exists_and_left, exists_const,
    Prod.exists, World.loadConfig_eq_ok_iff, pure_eq_ok_iff] at h
  obtain ⟨hsigner, config, hload, -, lamports, bump, hinit, hadmin, -, hprice, rfl⟩ := h
  exact ⟨config, lamports, bump, hsigner, hload, hadmin, initAccount_eq_ok hinit, hprice, rfl⟩

structure UpdatePriceFeed where
  authority : Pubkey
  feed : Pubkey
deriving DecidableEq, Repr

def UpdatePriceFeed.tryAccounts (accs : UpdatePriceFeed) (w : World) (tx : Tx) :
    Except ProgramError PriceFeed := do
  tx.requireSigner accs.authority
  let feed ← w.loadPriceFeed accs.feed
  requireAddress accs.authority feed.authority (.hwal .notFeedAuthority)
  tx.requireMut accs.feed
  return feed

/-- The three fields every accepted price writes. -/
def PriceFeed.record (feed : PriceFeed) (newPrice : UInt64) (now : Int64) : PriceFeed :=
  { feed with
    price := newPrice
    lastUpdated := now
    updateCount := feed.updateCount.saturatingAdd 1 }

def PriceFeed.updatedEvent (key : Pubkey) (old new : PriceFeed) : Event :=
  .priceFeedUpdated key old.price new.price new.lastUpdated new.updateCount

def updatePriceFeed (w : World) (tx : Tx) (accs : UpdatePriceFeed) (newPrice : UInt64) :
    Except ProgramError World := do
  let feed ← accs.tryAccounts w tx
  require (newPrice > 0) (.hwal .priceFeedZero)
  let updated := feed.record newPrice tx.unixTimestamp
  return (w.store accs.feed (.priceFeed updated)).emit
    (PriceFeed.updatedEvent accs.feed feed updated)

theorem updatePriceFeed_eq_ok {w w' : World} {tx : Tx} {accs : UpdatePriceFeed}
    {newPrice : UInt64} (h : updatePriceFeed w tx accs newPrice = .ok w') :
    ∃ feed,
      accs.authority ∈ tx.signers ∧ w.feeds accs.feed = some feed ∧
      accs.authority = feed.authority ∧ 0 < newPrice ∧
      w' = (w.store accs.feed (.priceFeed (feed.record newPrice tx.unixTimestamp))).emit
        (PriceFeed.updatedEvent accs.feed feed (feed.record newPrice tx.unixTimestamp)) := by
  simp only [updatePriceFeed, UpdatePriceFeed.tryAccounts, Tx.requireSigner, Tx.requireMut,
    requireAddress, bind_eq_ok_iff, require_eq_ok_iff, exists_and_left, exists_const,
    World.loadPriceFeed_eq_ok_iff, pure_eq_ok_iff] at h
  obtain ⟨feed, ⟨hsigner, loaded, hload, hauthority, -, rfl⟩, hprice, rfl⟩ := h
  exact ⟨loaded, hsigner, hload, hauthority, hprice, rfl⟩

structure RegisterLazerFeed where
  admin : Pubkey
  config : Pubkey
  feed : Pubkey
deriving DecidableEq, Repr

def RegisterLazerFeed.tryAccounts (accs : RegisterLazerFeed) (rt : Runtime) (w : World)
    (tx : Tx) : Except ProgramError PriceFeed := do
  tx.requireSigner accs.admin
  let config ← w.loadConfig accs.config
  let feed ← w.loadPriceFeed accs.feed
  requireAddress accs.admin config.admin (.hwal .notAdmin)
  rt.requireSeeds .config config.bump accs.config
  tx.requireMut accs.feed
  return feed

def PriceFeed.register (feed : PriceFeed) (lazerFeedId : UInt64) (channel : UInt8) :
    PriceFeed :=
  { feed with
    source := feedSourceLazer
    lazerFeedId := lazerFeedId
    lazerChannel := channel }

def registerLazerFeed (rt : Runtime) (w : World) (tx : Tx) (accs : RegisterLazerFeed)
    (lazerFeedId : UInt64) (channel : UInt8) : Except ProgramError World := do
  let feed ← accs.tryAccounts rt w tx
  require (channel ≤ lazerChannel200ms) (.hwal .lazerPayloadInvalid)
  require (feed.source = feedSourceAuthority) (.hwal .feedAlreadyLazer)
  return (w.store accs.feed (.priceFeed (feed.register lazerFeedId channel))).emit
    (.lazerFeedRegistered accs.feed lazerFeedId channel)

theorem registerLazerFeed_eq_ok {rt : Runtime} {w w' : World} {tx : Tx}
    {accs : RegisterLazerFeed} {lazerFeedId : UInt64} {channel : UInt8}
    (h : registerLazerFeed rt w tx accs lazerFeedId channel = .ok w') :
    ∃ config feed,
      accs.admin ∈ tx.signers ∧ w.configs accs.config = some config ∧
      accs.admin = config.admin ∧ w.feeds accs.feed = some feed ∧
      channel ≤ lazerChannel200ms ∧ feed.source = feedSourceAuthority ∧
      w' = (w.store accs.feed (.priceFeed (feed.register lazerFeedId channel))).emit
        (.lazerFeedRegistered accs.feed lazerFeedId channel) := by
  simp only [registerLazerFeed, RegisterLazerFeed.tryAccounts, Tx.requireSigner,
    Tx.requireMut, requireAddress, Runtime.requireSeeds, bind_eq_ok_iff, require_eq_ok_iff,
    exists_and_left, exists_const, World.loadConfig_eq_ok_iff, World.loadPriceFeed_eq_ok_iff,
    pure_eq_ok_iff] at h
  obtain ⟨feed, ⟨hsigner, config, hconfig, loaded, hfeed, hadmin, -, -, rfl⟩, hchannel,
    hsource, rfl⟩ := h
  exact ⟨config, loaded, hsigner, hconfig, hadmin, hfeed, hchannel, hsource, rfl⟩

end Hwal
