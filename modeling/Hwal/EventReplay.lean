/-
An indexer that reads nothing but the program's log lines, and what it ends up knowing:
every field of every position except its nonce and bump, every field of every feed except
its bump and the time of a price nobody has pushed yet, and the counters of the config.
-/
import Hwal.EventData
import Hwal.EventLog
import Hwal.Invariants
import Hwal.Support.EventSourcing

namespace Hwal

open EventSourcing

/-! ### What the log determines -/

/-- A position as the log tells it: no event carries the nonce or the bump. -/
def Position.published (position : Position) : Position :=
  { position with nonce := 0, bump := 0 }

/-- A feed as the log tells it: the event of its creation carries no time. -/
def PriceFeed.published (feed : PriceFeed) : PriceFeed :=
  { feed with
    bump := 0
    lastUpdated := if feed.updateCount = 0 then 0 else feed.lastUpdated }

structure Counters where
  totalPositionsOpened : UInt64
  totalPositionsTriggered : UInt64
  totalPositionsCancelled : UInt64
  totalFeesCollected : UInt64
  totalKeeperRewardsPaid : UInt64
deriving DecidableEq, Repr

def Config.counters (config : Config) : Counters :=
  { totalPositionsOpened := config.totalPositionsOpened
    totalPositionsTriggered := config.totalPositionsTriggered
    totalPositionsCancelled := config.totalPositionsCancelled
    totalFeesCollected := config.totalFeesCollected
    totalKeeperRewardsPaid := config.totalKeeperRewardsPaid }

structure Index where
  positions : Pubkey → Option Position
  feeds : Pubkey → Option PriceFeed
  counters : Option Counters

def Index.empty : Index := ⟨fun _ => none, fun _ => none, none⟩

/-- The picture the state itself gives. -/
def World.index (rt : Runtime) (w : World) : Index :=
  { positions := fun key => (w.positions key).map Position.published
    feeds := fun key => (w.feeds key).map PriceFeed.published
    counters := (w.configs rt.configAddress).map Config.counters }

/-! ### Reading one event -/

/-- The position at `key` after an event; events about other addresses pass by. -/
def readPosition (key : Pubkey) (record : Option Position) : Event → Option Position
  | .positionOpened position owner feed side collateral entryPrice stopPrice takeProfitPrice
      trailingOffset openedAt =>
      if position = key then
        some (newPosition ⟨owner, 0, feed, position, 0⟩
          ⟨0, side, collateral, stopPrice, takeProfitPrice, trailingOffset⟩ entryPrice
          openedAt 0)
      else record
  | .triggersUpdated position stopPrice takeProfitPrice trailingOffset =>
      if position = key then
        record.map fun p => p.retarget stopPrice takeProfitPrice trailingOffset
      else record
  | .positionTicked position _ trailingExtreme tickAt =>
      if position = key then
        record.map fun p =>
          { p with
            trailingExtreme := trailingExtreme
            lastTickAt := tickAt
            tickCount := p.tickCount.saturatingAdd 1 }
      else record
  | .positionTriggered position _ triggerReason triggerPrice _ _ _ _ triggeredAt =>
      if position = key then
        record.map fun p => (p.observe triggerPrice triggeredAt).settled triggerReason triggeredAt
      else record
  | .positionCancelled position _ _ cancelledAt =>
      if position = key then record.map fun p => p.cancelled cancelledAt else record
  | .positionDelegated position _ _ =>
      if position = key then record.map fun p => { p with erDelegated := 1 } else record
  | .positionUndelegated position _ _ =>
      if position = key then record.map fun p => { p with erDelegated := 0 } else record
  | _ => record

/-- The feed at `key` after an event. -/
def readFeed (key : Pubkey) (record : Option PriceFeed) : Event → Option PriceFeed
  | .priceFeedInitialized feed authority symbol decimals initialPrice =>
      if feed = key then
        some (newPriceFeed ⟨0, 0, authority, feed, 0⟩ symbol decimals initialPrice 0 0)
      else record
  | .priceFeedUpdated feed _ newPrice timestamp updateCount =>
      if feed = key then
        record.map fun f =>
          { f with price := newPrice, lastUpdated := timestamp, updateCount := updateCount }
      else record
  | .lazerFeedRegistered feed lazerFeedId channel =>
      if feed = key then record.map fun f => f.register lazerFeedId channel else record
  | _ => record

def readCounters (counters : Option Counters) : Event → Option Counters
  | .configInitialized _ _ _ => some ⟨0, 0, 0, 0, 0⟩
  | .positionOpened .. => counters.map fun c =>
      { c with totalPositionsOpened := c.totalPositionsOpened.saturatingAdd 1 }
  | .positionTriggered _ _ _ _ _ feePaid keeperReward _ _ => counters.map fun c =>
      { c with
        totalPositionsTriggered := c.totalPositionsTriggered.saturatingAdd 1
        totalFeesCollected := c.totalFeesCollected.saturatingAdd feePaid
        totalKeeperRewardsPaid := c.totalKeeperRewardsPaid.saturatingAdd keeperReward }
  | .positionCancelled .. => counters.map fun c =>
      { c with totalPositionsCancelled := c.totalPositionsCancelled.saturatingAdd 1 }
  | _ => counters

def Index.read (index : Index) (event : Event) : Index :=
  { positions := fun key => readPosition key (index.positions key) event
    feeds := fun key => readFeed key (index.feeds key) event
    counters := readCounters index.counters event }

theorem replay_read (index : Index) (events : List Event) :
    replay Index.read index events =
      { positions := fun key => events.foldl (readPosition key) (index.positions key)
        feeds := fun key => events.foldl (readFeed key) (index.feeds key)
        counters := events.foldl readCounters index.counters } := by
  induction events generalizing index with
  | nil => rfl
  | cons event events ih => exact ih (index.read event)

/-! ### Nothing is lost on the way -/

section Published

variable (position : Position) (feed : PriceFeed)

@[simp] theorem published_newPosition (accs : OpenPosition) (args : OpenPositionArgs)
    (entryPrice : UInt64) (now : Int64) (bump : UInt8) :
    (newPosition accs args entryPrice now bump).published =
      newPosition ⟨accs.owner, 0, accs.feed, accs.position, 0⟩ { args with nonce := 0 }
        entryPrice now 0 := rfl

@[simp] theorem published_retarget (stopPrice takeProfitPrice trailingOffset : UInt64) :
    (position.retarget stopPrice takeProfitPrice trailingOffset).published =
      position.published.retarget stopPrice takeProfitPrice trailingOffset := by
  by_cases hsame : trailingOffset = position.trailingOffset <;>
    simp [Position.retarget, Position.published, hsame]

@[simp] theorem published_observe (price : UInt64) (now : Int64) :
    (position.observe price now).published = position.published.observe price now := rfl

@[simp] theorem published_fired (price : UInt64) (now : Int64) :
    (position.fired price now).published =
      (position.published.observe price now).settled
        ((position.observe price now).firstHit price) now := rfl

@[simp] theorem published_cancelled (now : Int64) :
    (position.cancelled now).published = position.published.cancelled now := rfl

theorem saturatingAdd_one_ne_zero (n : UInt64) : n.saturatingAdd 1 ≠ 0 := by
  intro h
  have hvalue := congrArg UInt64.toNat h
  rw [UInt64.toNat_saturatingAdd] at hvalue
  simp at hvalue

/-- A recorded price is dated by its own event, whatever the feed knew before. -/
@[simp] theorem published_record (price : UInt64) (now : Int64) :
    (feed.record price now).published =
      { feed.published with
        price := price
        lastUpdated := now
        updateCount := feed.updateCount.saturatingAdd 1 } := by
  have hcount := saturatingAdd_one_ne_zero feed.updateCount
  simp only [PriceFeed.published, PriceFeed.record, hcount, ↓reduceIte]

@[simp] theorem published_register (lazerFeedId : UInt64) (channel : UInt8) :
    (feed.register lazerFeedId channel).published =
      feed.published.register lazerFeedId channel := rfl

end Published

/-! ### The indexer keeps up -/

/-- A record written at one address is read off an event that speaks of that address alone. -/
theorem read_update {α β : Type} {publish : α → β} {view : Pubkey → Option α} {address : Pubkey}
    {record : α} {read : Pubkey → Option β → Event → Option β} {event : Event}
    (hat : read address ((view address).map publish) event = some (publish record))
    (hoff : ∀ key before, address ≠ key → read key before event = before) (key : Pubkey) :
    (Function.update view address (some record) key).map publish =
      [event].foldl (read key) ((view key).map publish) := by
  by_cases hkey : address = key
  · subst hkey
    rw [Function.update_self, List.foldl_cons, List.foldl_nil, hat]
    rfl
  · rw [Function.update_of_ne (Ne.symm hkey), List.foldl_cons, List.foldl_nil, hoff _ _ hkey]

section Step

variable {rt : Runtime} {w w' : World} {action : Action} {events : List Event}

theorem Logged.positions (h : Logged rt w action w' events) (key : Pubkey) :
    (w'.positions key).map Position.published =
      events.foldl (readPosition key) ((w.positions key).map Position.published) := by
  cases h with
  | configCreated heff => rw [heff.positions]; rfl
  | configChanged heff => rw [heff.positions]; rfl
  | feedCreated heff => rw [heff.positions]; rfl
  | feedPushed heff => rw [heff.positions]; rfl
  | feedRegistered heff => rw [heff.positions]; rfl
  | feedVerified heff => rw [heff.positions]; rfl
  | lamportsSent heff => rw [heff.positions]; rfl
  | positionOpened heff =>
      rw [heff.positions]
      exact read_update (if_pos rfl) (fun _ _ hne => if_neg hne) key
  | triggersChanged heff =>
      rw [heff.positions]
      refine read_update ?_ (fun _ _ hne => if_neg hne) key
      simp only [readPosition, heff.loaded, ↓reduceIte, Option.map_some, published_retarget]
  | tickRecorded heff =>
      rw [heff.positions]
      refine read_update ?_ (fun _ _ hne => if_neg hne) key
      simp only [readPosition, heff.accounts.position_loaded, ↓reduceIte, Option.map_some]
      rfl
  | positionSettled heff =>
      rw [heff.positions]
      refine read_update ?_ (fun _ _ hne => if_neg hne) key
      simp only [readPosition, settledEvent, heff.accounts.position_loaded, ↓reduceIte,
        Option.map_some, published_fired]
  | positionCancelled heff =>
      rw [heff.positions]
      refine read_update ?_ (fun _ _ hne => if_neg hne) key
      simp only [readPosition, heff.accounts.position_loaded, ↓reduceIte, Option.map_some,
        published_cancelled]
  | delegated heff =>
      rw [heff.positions]
      refine read_update ?_ (fun _ _ hne => if_neg hne) key
      simp only [readPosition, heff.loaded, ↓reduceIte, Option.map_some]
      rfl
  | undelegated heff =>
      rw [heff.positions]
      refine read_update ?_ (fun _ _ hne => if_neg hne) key
      simp only [readPosition, heff.loaded, ↓reduceIte, Option.map_some]
      rfl

theorem Logged.feeds (h : Logged rt w action w' events) (key : Pubkey) :
    (w'.feeds key).map PriceFeed.published =
      events.foldl (readFeed key) ((w.feeds key).map PriceFeed.published) := by
  cases h with
  | configCreated heff => rw [heff.feeds]; rfl
  | configChanged heff => rw [heff.feeds]; rfl
  | positionOpened heff => rw [heff.feeds]; rfl
  | triggersChanged heff => rw [heff.feeds]; rfl
  | tickRecorded heff => rw [heff.feeds]; rfl
  | positionSettled heff => rw [heff.feeds]; rfl
  | positionCancelled heff => rw [heff.feeds]; rfl
  | delegated heff => rw [heff.feeds]; rfl
  | undelegated heff => rw [heff.feeds]; rfl
  | lamportsSent heff => rw [heff.feeds]; rfl
  | feedCreated heff =>
      rw [heff.feeds]
      exact read_update (if_pos rfl) (fun _ _ hne => if_neg hne) key
  | feedPushed heff =>
      rw [heff.feeds]
      refine read_update ?_ (fun _ _ hne => if_neg hne) key
      simp only [readFeed, PriceFeed.updatedEvent, heff.loaded, ↓reduceIte, Option.map_some,
        published_record]
      rfl
  | feedRegistered heff =>
      rw [heff.feeds]
      refine read_update ?_ (fun _ _ hne => if_neg hne) key
      simp only [readFeed, heff.loaded, ↓reduceIte, Option.map_some, published_register]
  | feedVerified heff =>
      rw [heff.feeds, List.foldl_cons]
      refine read_update ?_ (fun _ _ hne => if_neg hne) key
      simp only [readFeed, PriceFeed.updatedEvent, heff.loaded, ↓reduceIte, Option.map_some,
        published_record]
      rfl

/-- A config that loads is the one the counters are read from. -/
theorem counters_update (hinv : Invariant rt w) {key : Pubkey} {config : Config}
    (hloaded : w.configs key = some config) (config' : Config) :
    (w.configs rt.configAddress).map Config.counters = some config.counters ∧
      (Function.update w.configs key (some config') rt.configAddress).map Config.counters =
        some config'.counters := by
  obtain rfl := (hinv.configs _ _ hloaded).address
  rw [Function.update_self, hloaded]
  exact ⟨rfl, rfl⟩

/-- The counters move only with the config at its one address. -/
theorem Logged.counters (h : Logged rt w action w' events) (hinv : Invariant rt w) :
    (w'.configs rt.configAddress).map Config.counters =
      events.foldl readCounters ((w.configs rt.configAddress).map Config.counters) := by
  cases h with
  | feedCreated heff => rw [heff.configs]; rfl
  | feedPushed heff => rw [heff.configs]; rfl
  | feedRegistered heff => rw [heff.configs]; rfl
  | feedVerified heff => rw [heff.configs]; rfl
  | triggersChanged heff => rw [heff.configs]; rfl
  | tickRecorded heff => rw [heff.configs]; rfl
  | delegated heff => rw [heff.configs]; rfl
  | undelegated heff => rw [heff.configs]; rfl
  | lamportsSent heff => rw [heff.configs]; rfl
  | configCreated heff =>
      have haddress : _ = rt.configAddress := heff.init.address
      rw [heff.configs, haddress, Function.update_self]
      rfl
  | configChanged heff =>
      obtain ⟨hbefore, hafter⟩ := counters_update hinv heff.loaded _
      rw [heff.configs, hafter, hbefore, (updateConfigHandler_eq_ok heff.handled).1]
      rfl
  | positionOpened heff =>
      obtain ⟨hbefore, hafter⟩ := counters_update hinv heff.config_loaded _
      rw [heff.configs, hafter, hbefore]
      rfl
  | positionSettled heff =>
      obtain ⟨hbefore, hafter⟩ := counters_update hinv heff.accounts.config_loaded _
      rw [heff.configs, hafter, hbefore]
      rfl
  | positionCancelled heff =>
      obtain ⟨hbefore, hafter⟩ := counters_update hinv heff.accounts.config_loaded _
      rw [heff.configs, hafter, hbefore]
      rfl

theorem Logged.index (h : Logged rt w action w' events) (hinv : Invariant rt w) :
    w'.index rt = replay Index.read (w.index rt) events := by
  rw [replay_read, World.index, World.index]
  simp only [h.positions, h.feeds, h.counters hinv]

/-- One step announces exactly what it does to the picture. -/
theorem step_announced (hinv : Invariant rt w) :
    ∃ events, Announced World.log (World.index rt) Index.read w (step rt w action) events := by
  rcases step_cases rt w action with hok | hsame
  · rcases attempt_logged hok with ⟨events, hlogged, hlog⟩
    exact ⟨events, hlog, hlogged.index hinv⟩
  · rw [hsame]
    exact ⟨[], Announced.rfl w⟩

end Step

/-- Over every run from genesis, and from every state along it: the lines the log has gained
parse to events that, read one after another, turn the picture of the earlier state into
the picture of the later one; from the start, the whole log rebuilds every position, every
feed and the counters of the config. -/
theorem log_rebuilds_state (rt : Runtime) (lamports : Lamports) (earlier later : List Action) :
    let w := runFrom rt (World.genesis lamports) earlier
    let w' := runFrom rt w later
    (∃ events, w'.log = w.log ++ events ∧
      w'.index rt = replay Index.read (w.index rt) ((logLines events).filterMap parseEvent)) ∧
    w'.index rt = replay Index.read Index.empty ((logLines w'.log).filterMap parseEvent) := by
  intro w w'
  have hrun (start : World) (hstart : Invariant rt start) (actions : List Action) :
      ∃ events, Announced World.log (World.index rt) Index.read start
        (runFrom rt start actions) events :=
    run_announced (fun _ action h => step_invariant h action)
      (fun _ _ h => step_announced h) hstart actions
  have hgenesis := genesis_invariant rt lamports
  simp only [filterMap_parseEvent_logLines]
  constructor
  · rcases hrun w (Transition.run_invariant _ hgenesis
      (fun _ action h => step_invariant h action) earlier) later with ⟨events, h⟩
    exact ⟨events, h.log_eq, h.view_eq⟩
  · rcases hrun _ hgenesis (earlier ++ later) with ⟨events, h⟩
    have hend : runFrom rt (World.genesis lamports) (earlier ++ later) = w' :=
      Transition.run_append ..
    rw [hend] at h
    exact h.catch_up

end Hwal
