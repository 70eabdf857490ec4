/-
The lines the program writes to its log: one event each, an 8-byte discriminator and the
event's fields in order.
-/
import Hwal.AccountData

namespace Hwal

inductive EventKind where
  | configInitialized
  | priceFeedInitialized
  | priceFeedUpdated
  | positionOpened
  | triggersUpdated
  | positionTicked
  | positionTriggered
  | positionCancelled
  | lazerFeedRegistered
  | lazerPriceVerified
  | positionDelegated
  | positionUndelegated
deriving DecidableEq, Repr

namespace EventKind

def all : List EventKind :=
  [configInitialized, priceFeedInitialized, priceFeedUpdated, positionOpened,
    triggersUpdated, positionTicked, positionTriggered, positionCancelled,
    lazerFeedRegistered, lazerPriceVerified, positionDelegated, positionUndelegated]

def discriminator : EventKind → Vector UInt8 8
  | configInitialized => #v[181, 49, 200, 156, 19, 167, 178, 91]
  | priceFeedInitialized => #v[215, 208, 148, 233, 198, 216, 185, 183]
  | priceFeedUpdated => #v[59, 119, 29, 6, 20, 216, 111, 71]
  | positionOpened => #v[237, 175, 243, 230, 147, 117, 101, 121]
  | triggersUpdated => #v[237, 19, 12, 155, 69, 151, 41, 186]
  | positionTicked => #v[67, 136, 78, 38, 71, 147, 197, 158]
  | positionTriggered => #v[169, 4, 8, 67, 218, 201, 196, 158]
  | positionCancelled => #v[209, 176, 193, 59, 248, 28, 12, 180]
  | lazerFeedRegistered => #v[31, 60, 105, 241, 144, 243, 184, 191]
  | lazerPriceVerified => #v[75, 127, 210, 193, 140, 79, 89, 243]
  | positionDelegated => #v[72, 163, 105, 189, 92, 120, 40, 233]
  | positionUndelegated => #v[226, 57, 88, 13, 219, 28, 192, 78]

theorem mem_all (kind : EventKind) : kind ∈ all := by
  cases kind <;> decide

theorem discriminator_injective : Function.Injective discriminator := by
  have hall : ∀ k ∈ all, ∀ k' ∈ all, k.discriminator = k'.discriminator → k = k' := by decide
  intro k k' h
  exact hall k k.mem_all k' k'.mem_all h

abbrev Fields : EventKind → Type
  | configInitialized => Pubkey × UInt16 × UInt16
  | priceFeedInitialized => Pubkey × Pubkey × FeedSymbol × UInt8 × UInt64
  | priceFeedUpdated => Pubkey × UInt64 × UInt64 × Int64 × UInt64
  | positionOpened => Pubkey × Pubkey × Pubkey × UInt8 × UInt64 × UInt64 × UInt64 × UInt64 ×
      UInt64 × Int64
  | triggersUpdated => Pubkey × UInt64 × UInt64 × UInt64
  | positionTicked => Pubkey × UInt64 × UInt64 × Int64
  | positionTriggered => Pubkey × Pubkey × UInt8 × UInt64 × UInt64 × UInt64 × UInt64 ×
      Pubkey × Int64
  | positionCancelled => Pubkey × Pubkey × UInt64 × Int64
  | lazerFeedRegistered => Pubkey × UInt64 × UInt8
  | lazerPriceVerified => Pubkey × UInt64 × UInt8 × UInt64 × Int64 × Int64
  | positionDelegated => Pubkey × Pubkey × Int64
  | positionUndelegated => Pubkey × Pubkey × Int64

def fields : (kind : EventKind) → Codec UInt8 kind.Fields
  | configInitialized => pubkeyCodec.pair <| Codec.u16.pair Codec.u16
  | priceFeedInitialized => pubkeyCodec.pair <| pubkeyCodec.pair <| symbolCodec.pair <|
      Codec.u8.pair Codec.u64
  | priceFeedUpdated => pubkeyCodec.pair <| Codec.u64.pair <| Codec.u64.pair <|
      Codec.i64.pair Codec.u64
  | positionOpened => pubkeyCodec.pair <| pubkeyCodec.pair <| pubkeyCodec.pair <|
      Codec.u8.pair <| Codec.u64.pair <| Codec.u64.pair <| Codec.u64.pair <|
      Codec.u64.pair <| Codec.u64.pair Codec.i64
  | triggersUpdated => pubkeyCodec.pair <| Codec.u64.pair <| Codec.u64.pair Codec.u64
  | positionTicked => pubkeyCodec.pair <| Codec.u64.pair <| Codec.u64.pair Codec.i64
  | positionTriggered => pubkeyCodec.pair <| pubkeyCodec.pair <| Codec.u8.pair <|
      Codec.u64.pair <| Codec.u64.pair <| Codec.u64.pair <| Codec.u64.pair <|
      pubkeyCodec.pair Codec.i64
  | positionCancelled => pubkeyCodec.pair <| pubkeyCodec.pair <| Codec.u64.pair Codec.i64
  | lazerFeedRegistered => pubkeyCodec.pair <| Codec.u64.pair Codec.u8
  | lazerPriceVerified => pubkeyCodec.pair <| Codec.u64.pair <| Codec.u8.pair <|
      Codec.u64.pair <| Codec.i64.pair Codec.i64
  | positionDelegated => pubkeyCodec.pair <| pubkeyCodec.pair Codec.i64
  | positionUndelegated => pubkeyCodec.pair <| pubkeyCodec.pair Codec.i64

def event : (kind : EventKind) → kind.Fields → Event
  | configInitialized, (admin, feeBps, keeperRewardBps) =>
      .configInitialized admin feeBps keeperRewardBps
  | priceFeedInitialized, (feed, authority, symbol, decimals, initialPrice) =>
      .priceFeedInitialized feed authority symbol decimals initialPrice
  | priceFeedUpdated, (feed, oldPrice, newPrice, timestamp, updateCount) =>
      .priceFeedUpdated feed oldPrice newPrice timestamp updateCount
  | positionOpened, (position, owner, feed, side, collateral, entryPrice, stopPrice,
      takeProfitPrice, trailingOffset, openedAt) =>
      .positionOpened position owner feed side collateral entryPrice stopPrice
        takeProfitPrice trailingOffset openedAt
  | triggersUpdated, (position, stopPrice, takeProfitPrice, trailingOffset) =>
      .triggersUpdated position stopPrice takeProfitPrice trailingOffset
  | positionTicked, (position, price, trailingExtreme, tickAt) =>
      .positionTicked position price trailingExtreme tickAt
  | positionTriggered, (position, owner, triggerReason, triggerPrice, collateralReturned,
      feePaid, keeperReward, keeper, triggeredAt) =>
      .positionTriggered position owner triggerReason triggerPrice collateralReturned feePaid
        keeperReward keeper triggeredAt
  | positionCancelled, (position, owner, collateralReturned, cancelledAt) =>
      .positionCancelled position owner collateralReturned cancelledAt
  | lazerFeedRegistered, (feed, lazerFeedId, channel) =>
      .lazerFeedRegistered feed lazerFeedId channel
  | lazerPriceVerified, (feed, lazerFeedId, channel, price, payloadTimestamp,
      onChainTimestamp) =>
      .lazerPriceVerified feed lazerFeedId channel price payloadTimestamp onChainTimestamp
  | positionDelegated, (position, owner, delegatedAt) =>
      .positionDelegated position owner delegatedAt
  | positionUndelegated, (position, owner, undelegatedAt) =>
      .positionUndelegated position owner undelegatedAt

end EventKind

def Event.announced : Event → Σ kind : EventKind, kind.Fields
  | configInitialized admin feeBps keeperRewardBps =>
      ⟨.configInitialized, (admin, feeBps, keeperRewardBps)⟩
  | priceFeedInitialized feed authority symbol decimals initialPrice =>
      ⟨.priceFeedInitialized, (feed, authority, symbol, decimals, initialPrice)⟩
  | priceFeedUpdated feed oldPrice newPrice timestamp updateCount =>
      ⟨.priceFeedUpdated, (feed, oldPrice, newPrice, timestamp, updateCount)⟩
  | positionOpened position owner feed side collateral entryPrice stopPrice takeProfitPrice
      trailingOffset openedAt =>
      ⟨.positionOpened, (position, owner, feed, side, collateral, entryPrice, stopPrice,
        takeProfitPrice, trailingOffset, openedAt)⟩
  | triggersUpdated position stopPrice takeProfitPrice trailingOffset =>
      ⟨.triggersUpdated, (position, stopPrice, takeProfitPrice, trailingOffset)⟩
  | positionTicked position price trailingExtreme tickAt =>
      ⟨.positionTicked, (position, price, trailingExtreme, tickAt)⟩
  | positionTriggered position owner triggerReason triggerPrice collateralReturned feePaid
      keeperReward keeper triggeredAt =>
      ⟨.positionTriggered, (position, owner, triggerReason, triggerPrice, collateralReturned,
        feePaid, keeperReward, keeper, triggeredAt)⟩
  | positionCancelled position owner collateralReturned cancelledAt =>
      ⟨.positionCancelled, (position, owner, collateralReturned, cancelledAt)⟩
  | lazerFeedRegistered feed lazerFeedId channel =>
      ⟨.lazerFeedRegistered, (feed, lazerFeedId, channel)⟩
  | lazerPriceVerified feed lazerFeedId channel price payloadTimestamp onChainTimestamp =>
      ⟨.lazerPriceVerified, (feed, lazerFeedId, channel, price, payloadTimestamp,
        onChainTimestamp)⟩
  | positionDelegated position owner delegatedAt =>
      ⟨.positionDelegated, (position, owner, delegatedAt)⟩
  | positionUndelegated position owner undelegatedAt =>
      ⟨.positionUndelegated, (position, owner, undelegatedAt)⟩

/-- The line `emit!` writes. -/
def eventCodec : Codec UInt8 Event :=
  ((Codec.tag EventKind.all EventKind.mem_all EventKind.discriminator
    EventKind.discriminator_injective).sigma EventKind.fields).map
    { toFun := fun announced => announced.1.event announced.2
      invFun := Event.announced
      left_inv := by
        rintro ⟨kind, fields⟩
        cases kind <;> rfl
      right_inv := by
        intro event
        cases event <;> rfl }

/-- What an indexer reads off a line; other lines are not events. -/
def parseEvent (line : List UInt8) : Option Event :=
  (eventCodec.decode line).map Prod.fst

theorem parseEvent_encode (event : Event) : parseEvent (eventCodec.encode event) = some event := by
  have h := eventCodec.decode_encode_append event []
  rw [List.append_nil] at h
  rw [parseEvent, h]
  rfl

/-- The log as an indexer receives it. -/
def logLines (log : List Event) : List (List UInt8) := log.map eventCodec.encode

theorem filterMap_parseEvent_logLines (log : List Event) :
    (logLines log).filterMap parseEvent = log := by
  rw [logLines, List.filterMap_map]
  have hall : parseEvent ∘ eventCodec.encode = some := funext parseEvent_encode
  rw [hall, List.filterMap_some]

end Hwal
