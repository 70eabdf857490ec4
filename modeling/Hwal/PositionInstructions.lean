/-
`open_position` and `update_triggers`: the deposit that creates a position, and
the owner's later changes to its three triggers.
-/
import Hwal.Runtime

namespace Hwal

open Guard

/-! ### The trigger checks both handlers make against an entry price -/

/-- `if stop_price > 0 { require!(..) } if take_profit_price > 0 { require!(..) }`
under the branch for the side; every side other than long takes the short branch. -/
def checkPriceTriggers (side : UInt8) (entryPrice stopPrice takeProfitPrice : UInt64) :
    Except ProgramError Unit :=
  if side = sideLong then do
    require (stopPrice > 0 → stopPrice < entryPrice) (.hwal .invalidStopPrice)
    require (takeProfitPrice > 0 → takeProfitPrice > entryPrice)
      (.hwal .invalidTakeProfitPrice)
  else do
    require (stopPrice > 0 → stopPrice > entryPrice) (.hwal .invalidStopPrice)
    require (takeProfitPrice > 0 → takeProfitPrice < entryPrice)
      (.hwal .invalidTakeProfitPrice)

def checkTriggers (side : UInt8)
    (entryPrice stopPrice takeProfitPrice trailingOffset : UInt64) :
    Except ProgramError Unit := do
  checkPriceTriggers side entryPrice stopPrice takeProfitPrice
  require (trailingOffset > 0 → trailingOffset < entryPrice) (.hwal .invalidTrailingOffset)

/-- Triggers on the right side of the entry price, or switched off. -/
structure TriggersPlaced (side : UInt8)
    (entryPrice stopPrice takeProfitPrice trailingOffset : UInt64) : Prop where
  stop_long : side = sideLong → 0 < stopPrice → stopPrice < entryPrice
  stop_short : side ≠ sideLong → 0 < stopPrice → entryPrice < stopPrice
  takeProfit_long : side = sideLong → 0 < takeProfitPrice → entryPrice < takeProfitPrice
  takeProfit_short : side ≠ sideLong → 0 < takeProfitPrice → takeProfitPrice < entryPrice
  trailing : 0 < trailingOffset → trailingOffset < entryPrice

theorem checkTriggers_eq_ok_iff {side : UInt8}
    {entryPrice stopPrice takeProfitPrice trailingOffset : UInt64} {u : Unit} :
    checkTriggers side entryPrice stopPrice takeProfitPrice trailingOffset = .ok u ↔
      TriggersPlaced side entryPrice stopPrice takeProfitPrice trailingOffset := by
  by_cases hside : side = sideLong
  · simp only [checkTriggers, checkPriceTriggers, hside, ↓reduceIte, bind_eq_ok_iff,
      require_eq_ok_iff, exists_and_left, exists_const]
    constructor
    · rintro ⟨⟨hstop, htake⟩, htrail⟩
      exact ⟨fun _ => hstop, fun h => absurd rfl h, fun _ => htake,
        fun h => absurd rfl h, htrail⟩
    · intro h
      exact ⟨⟨h.stop_long rfl, h.takeProfit_long rfl⟩, h.trailing⟩
  · simp only [checkTriggers, checkPriceTriggers, hside, ↓reduceIte, bind_eq_ok_iff,
      require_eq_ok_iff, exists_and_left, exists_const]
    constructor
    · rintro ⟨⟨hstop, htake⟩, htrail⟩
      exact ⟨fun h => absurd h hside, fun _ => hstop, fun h => absurd h hside,
        fun _ => htake, htrail⟩
    · intro h
      exact ⟨⟨h.stop_short hside, h.takeProfit_short hside⟩, h.trailing⟩

/-! ### open_position -/

structure OpenPosition where
  owner : Pubkey
  config : Pubkey
  feed : Pubkey
  position : Pubkey
  systemProgram : Pubkey
deriving DecidableEq, Repr

/-- The arguments of `open_position`. -/
structure OpenPositionArgs where
  nonce : UInt64
  side : UInt8
  collateral : UInt64
  stopPrice : UInt64
  takeProfitPrice : UInt64
  trailingOffset : UInt64
deriving DecidableEq, Repr

/-- The record a fresh position account starts with. -/
def newPosition (accs : OpenPosition) (args : OpenPositionArgs) (entryPrice : UInt64)
    (now : Int64) (bump : UInt8) : Position :=
  { owner := accs.owner
    feed := accs.feed
    vault := accs.position
    nonce := args.nonce
    side := args.side
    status := statusOpen
    triggerReason := triggerNone
    collateral := args.collateral
    entryPrice := entryPrice
    stopPrice := args.stopPrice
    takeProfitPrice := args.takeProfitPrice
    trailingOffset := args.trailingOffset
    trailingExtreme := entryPrice
    openedAt := now
    lastTickAt := now
    settledAt := 0
    tickCount := 0
    bump := bump
    vaultBump := 0
    erDelegated := 0 }

/-- `require!(clock.unix_timestamp.saturating_sub(feed.last_updated) <= MAX)`. -/
def requireFresh (feed : PriceFeed) (now : Int64) : Except ProgramError Unit :=
  require (now.saturatingSub feed.lastUpdated ≤ maxFeedStalenessSecs)
    (.hwal .priceFeedStale)

theorem requireFresh_eq_ok_iff {feed : PriceFeed} {now : Int64} {u : Unit} :
    requireFresh feed now = .ok u ↔ now.toInt - feed.lastUpdated.toInt ≤ 120 := by
  rw [requireFresh, require_eq_ok_iff]
  exact Int64.saturatingSub_le_iff (by decide)

/-- The checks before any lamport moves. -/
def checkOpen (feed : PriceFeed) (now : Int64) (args : OpenPositionArgs) :
    Except ProgramError Unit := do
  require (args.side = sideLong ∨ args.side = sideShort) (.hwal .invalidSide)
  require (args.collateral ≥ minCollateralLamports) (.hwal .collateralTooSmall)
  require (feed.price > 0) (.hwal .priceFeedZero)
  requireFresh feed now
  checkTriggers args.side feed.price args.stopPrice args.takeProfitPrice args.trailingOffset

def Config.countOpened (config : Config) : Config :=
  { config with totalPositionsOpened := config.totalPositionsOpened.saturatingAdd 1 }

def openPosition (rt : Runtime) (w : World) (tx : Tx) (accs : OpenPosition)
    (args : OpenPositionArgs) : Except ProgramError World := do
  tx.requireSigner accs.owner
  let config ← w.loadConfig accs.config
  let feed ← w.loadPriceFeed accs.feed
  requireSystemProgram accs.systemProgram
  let (lamports, bump) ← w.initAccount rt tx accs.owner accs.position
    (.position accs.owner args.nonce) positionSpace
  tx.requireMut accs.config
  rt.requireSeeds .config config.bump accs.config
  checkOpen feed tx.unixTimestamp args
  let lamports ← systemTransfer lamports accs.owner accs.position args.collateral
  let position := newPosition accs args feed.price tx.unixTimestamp bump
  return (((w.withLamports lamports).store accs.position (.position position)).store
      accs.config (.config config.countOpened)).emit
    (.positionOpened accs.position position.owner position.feed args.side args.collateral
      feed.price args.stopPrice args.takeProfitPrice args.trailingOffset position.openedAt)

/-- What the checks of `open_position` establish. -/
structure OpenChecked (feed : PriceFeed) (now : Int64) (args : OpenPositionArgs) :
    Prop where
  side : args.side = sideLong ∨ args.side = sideShort
  collateral : minCollateralLamports ≤ args.collateral
  price_pos : 0 < feed.price
  fresh : now.toInt - feed.lastUpdated.toInt ≤ 120
  placed : TriggersPlaced args.side feed.price args.stopPrice args.takeProfitPrice
    args.trailingOffset

theorem checkOpen_eq_ok_iff {feed : PriceFeed} {now : Int64} {args : OpenPositionArgs}
    {u : Unit} : checkOpen feed now args = .ok u ↔ OpenChecked feed now args := by
  simp only [checkOpen, bind_eq_ok_iff, require_eq_ok_iff, requireFresh_eq_ok_iff,
    checkTriggers_eq_ok_iff, exists_and_left, exists_const]
  constructor
  · rintro ⟨hside, hcollateral, hprice, hfresh, hplaced⟩
    exact ⟨hside, hcollateral, hprice, hfresh, hplaced⟩
  · intro h
    exact ⟨h.side, h.collateral, h.price_pos, h.fresh, h.placed⟩

theorem openPosition_eq_ok {rt : Runtime} {w w' : World} {tx : Tx} {accs : OpenPosition}
    {args : OpenPositionArgs} (h : openPosition rt w tx accs args = .ok w') :
    ∃ config feed rent lamports bump,
      accs.owner ∈ tx.signers ∧ w.configs accs.config = some config ∧
      rt.createProgramAddress .config config.bump = some accs.config ∧
      w.feeds accs.feed = some feed ∧
      Initialized rt w accs.owner accs.position (.position accs.owner args.nonce)
        positionSpace rent bump ∧
      OpenChecked feed tx.unixTimestamp args ∧
      Ledger.Moved [⟨accs.owner, accs.position, args.collateral.toNat⟩] rent lamports ∧
      w' = (((w.withLamports lamports).store accs.position (.position
            (newPosition accs args feed.price tx.unixTimestamp bump))).store
          accs.config (.config config.countOpened)).emit
        (.positionOpened accs.position accs.owner accs.feed args.side args.collateral
          feed.price args.stopPrice args.takeProfitPrice args.trailingOffset
          tx.unixTimestamp) := by
  simp only [openPosition, Tx.requireSigner, requireSystemProgram, Tx.requireMut,
    Runtime.requireSeeds, bind_eq_ok_iff, require_eq_ok_iff, exists_and_left, exists_const,
    Prod.exists, World.loadConfig_eq_ok_iff, World.loadPriceFeed_eq_ok_iff,
    checkOpen_eq_ok_iff, pure_eq_ok_iff] at h
  obtain ⟨hsigner, config, hconfig, feed, hfeed, -, rent, bump, hinit, -, hseeds, hchecked,
    lamports, hdeposit, rfl⟩ := h
  exact ⟨config, feed, rent, lamports, bump, hsigner, hconfig, hseeds, hfeed,
    initAccount_eq_ok hinit, hchecked, systemTransfer_eq_ok hdeposit, rfl⟩

/-! ### update_triggers -/

structure UpdateTriggers where
  owner : Pubkey
  position : Pubkey
deriving DecidableEq, Repr

def UpdateTriggers.tryAccounts (accs : UpdateTriggers) (rt : Runtime) (w : World)
    (tx : Tx) : Except ProgramError Position := do
  tx.requireSigner accs.owner
  let position ← w.loadPosition accs.position
  requireAddress accs.owner position.owner (.hwal .notPositionOwner)
  tx.requireMut accs.position
  rt.requireSeeds (.position accs.owner position.nonce) position.bump accs.position
  return position

theorem updateTriggers_tryAccounts_loaded {rt : Runtime} {w : World} {tx : Tx}
    {accs : UpdateTriggers} {position : Position}
    (h : accs.tryAccounts rt w tx = .ok position) :
    w.positions accs.position = some position := by
  simp only [UpdateTriggers.tryAccounts, bind_eq_ok_iff, pure_eq_ok_iff] at h
  rcases h with ⟨-, -, loaded, hload, -, -, -, -, -, -, rfl⟩
  exact World.loadPosition_eq_ok_iff.mp hload

theorem updateTriggers_tryAccounts_of_loaded {rt : Runtime} {w : World} {tx : Tx}
    {accs : UpdateTriggers} {position : Position} (hsigned : accs.owner ∈ tx.signers)
    (hloaded : w.positions accs.position = some position)
    (howner : accs.owner = position.owner) (hwritable : accs.position ∈ tx.writable)
    (hseeds : rt.createProgramAddress (.position accs.owner position.nonce) position.bump =
      some accs.position) :
    accs.tryAccounts rt w tx = .ok position := by
  simp only [UpdateTriggers.tryAccounts, Tx.requireSigner, Tx.requireMut, requireAddress,
    Runtime.requireSeeds, bind_eq_ok_iff, require_eq_ok_iff, pure_eq_ok_iff,
    World.loadPosition_eq_ok_iff, exists_and_left, exists_const]
  exact ⟨hsigned, position, hloaded, howner, hwritable, hseeds, rfl⟩

/-- The writes of `update_triggers`; only a changed offset restarts the extreme
at the entry price. -/
def Position.retarget (position : Position)
    (stopPrice takeProfitPrice trailingOffset : UInt64) : Position :=
  let position :=
    { position with stopPrice := stopPrice, takeProfitPrice := takeProfitPrice }
  if trailingOffset ≠ position.trailingOffset then
    { position with
      trailingOffset := trailingOffset
      trailingExtreme := position.entryPrice }
  else position

def updateTriggersHandler (position : Position)
    (stopPrice takeProfitPrice trailingOffset : UInt64) : Except ProgramError Position := do
  require (position.status = statusOpen) (.hwal .positionNotOpen)
  checkTriggers position.side position.entryPrice stopPrice takeProfitPrice trailingOffset
  return position.retarget stopPrice takeProfitPrice trailingOffset

def updateTriggers (rt : Runtime) (w : World) (tx : Tx) (accs : UpdateTriggers)
    (stopPrice takeProfitPrice trailingOffset : UInt64) : Except ProgramError World := do
  let position ← accs.tryAccounts rt w tx
  let position ← updateTriggersHandler position stopPrice takeProfitPrice trailingOffset
  return (w.store accs.position (.position position)).emit
    (.triggersUpdated accs.position stopPrice takeProfitPrice trailingOffset)

section Retarget

variable (position : Position) (stopPrice takeProfitPrice trailingOffset : UInt64)

@[simp] theorem retarget_stopPrice :
    (position.retarget stopPrice takeProfitPrice trailingOffset).stopPrice = stopPrice := by
  simp only [Position.retarget]
  split <;> rfl

@[simp] theorem retarget_takeProfitPrice :
    (position.retarget stopPrice takeProfitPrice trailingOffset).takeProfitPrice =
      takeProfitPrice := by
  simp only [Position.retarget]
  split <;> rfl

@[simp] theorem retarget_trailingOffset :
    (position.retarget stopPrice takeProfitPrice trailingOffset).trailingOffset =
      trailingOffset := by
  simp only [Position.retarget]
  split
  · rfl
  · rename_i hsame
    exact (not_not.mp hsame).symm

theorem retarget_trailingExtreme :
    (position.retarget stopPrice takeProfitPrice trailingOffset).trailingExtreme =
      if trailingOffset = position.trailingOffset then position.trailingExtreme
      else position.entryPrice := by
  by_cases hsame : trailingOffset = position.trailingOffset <;>
    simp [Position.retarget, hsame]

/-- Everything but the triggers and the extreme is untouched. -/
theorem retarget_frame :
    position.retarget stopPrice takeProfitPrice trailingOffset =
      { position with
        stopPrice := stopPrice
        takeProfitPrice := takeProfitPrice
        trailingOffset := trailingOffset
        trailingExtreme :=
          (position.retarget stopPrice takeProfitPrice trailingOffset).trailingExtreme } := by
  by_cases hsame : trailingOffset = position.trailingOffset
  · subst hsame
    simp [Position.retarget]
  · simp [Position.retarget, hsame]

end Retarget

theorem updateTriggersHandler_eq_ok_iff {position position' : Position}
    {stopPrice takeProfitPrice trailingOffset : UInt64} :
    updateTriggersHandler position stopPrice takeProfitPrice trailingOffset = .ok position' ↔
      position.status = statusOpen ∧
      TriggersPlaced position.side position.entryPrice stopPrice takeProfitPrice
        trailingOffset ∧
      position' = position.retarget stopPrice takeProfitPrice trailingOffset := by
  simp only [updateTriggersHandler, bind_eq_ok_iff, require_eq_ok_iff,
    checkTriggers_eq_ok_iff, exists_and_left, exists_const, pure_eq_ok_iff]
  rw [eq_comm (a := position')]

theorem updateTriggers_eq_ok {rt : Runtime} {w w' : World} {tx : Tx} {accs : UpdateTriggers}
    {stopPrice takeProfitPrice trailingOffset : UInt64}
    (h : updateTriggers rt w tx accs stopPrice takeProfitPrice trailingOffset = .ok w') :
    ∃ position,
      accs.owner ∈ tx.signers ∧ w.positions accs.position = some position ∧
      accs.owner = position.owner ∧ position.status = statusOpen ∧
      TriggersPlaced position.side position.entryPrice stopPrice takeProfitPrice
        trailingOffset ∧
      w' = (w.store accs.position (.position
          (position.retarget stopPrice takeProfitPrice trailingOffset))).emit
        (.triggersUpdated accs.position stopPrice takeProfitPrice trailingOffset) := by
  simp only [updateTriggers, UpdateTriggers.tryAccounts, Tx.requireSigner, Tx.requireMut,
    requireAddress, Runtime.requireSeeds, bind_eq_ok_iff, require_eq_ok_iff,
    exists_and_left, exists_const, World.loadPosition_eq_ok_iff,
    updateTriggersHandler_eq_ok_iff, pure_eq_ok_iff] at h
  obtain ⟨position, ⟨hsigner, loaded, hload, howner, -, -, rfl⟩, position',
    ⟨hopen, hplaced, rfl⟩, rfl⟩ := h
  exact ⟨loaded, hsigner, hload, howner, hopen, hplaced, rfl⟩

end Hwal
