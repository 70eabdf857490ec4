/-
The data of the trigger engine: addresses, the constants, the error codes, the
three account records and the events, field by field as the program declares
them.  Bytes reserved for later versions are left out; nothing reads them.
-/

namespace Hwal

/-- A 32-byte address, most significant byte first. -/
abbrev Pubkey := BitVec 256

/-- A 16-byte zero-padded feed symbol. -/
abbrev FeedSymbol := Vector UInt8 16

/-! ### constants.rs -/

def bpsDenominator : UInt64 := 10000

def maxFeeBps : UInt16 := 500

def maxKeeperRewardBps : UInt16 := 200

def minCollateralLamports : UInt64 := 1000000

def maxFeedStalenessSecs : Int64 := 120

def sideLong : UInt8 := 0
def sideShort : UInt8 := 1

def statusOpen : UInt8 := 0
def statusTriggered : UInt8 := 1
def statusCancelled : UInt8 := 2

def triggerNone : UInt8 := 0
def triggerStopLoss : UInt8 := 1
def triggerTakeProfit : UInt8 := 2
def triggerTrailing : UInt8 := 3

def maxLazerPayloadAgeSecs : Int64 := 5

/-- `DELeGGvXpWV2fqJUhqcF5ZSYMS4JTLjteaAMARRSaeSh`. -/
def magicblockDelegationProgramId : Pubkey :=
  0xb5b700e1f2573ac0cc062201344acf97b83506eb8ce51998cc627e189380a73e#256

def feedSourceAuthority : UInt8 := 0
def feedSourceLazer : UInt8 := 1

def lazerChannel200ms : UInt8 := 2

/-! ### errors.rs -/

/-- The program's own error codes, in the order of their declaration. -/
inductive HwalError where
  | feeBpsTooHigh
  | keeperRewardTooHigh
  | notAdmin
  | notPositionOwner
  | notFeedAuthority
  | invalidSide
  | collateralTooSmall
  | positionNotOpen
  | priceFeedStale
  | priceFeedZero
  | invalidStopPrice
  | invalidTakeProfitPrice
  | invalidTrailingOffset
  | mathOverflow
  | trailingUnderflow
  | insufficientVaultLamports
  | invalidVault
  | noTriggerHit
  | feedMismatch
  | feedNotLazer
  | feedAlreadyLazer
  | lazerPayloadInvalid
  | lazerFeedIdMismatch
  | lazerPayloadStale
  | lazerSignatureMissing
  | positionAlreadyDelegated
  | positionNotDelegated
deriving DecidableEq, Repr

/-- Failures raised by the account framework before a handler runs. -/
inductive AnchorError where
  | accountNotSigner
  | constraintMut
  | constraintSeeds
  | constraintAddress
  | accountNotInitialized
  | accountOwnedByWrongProgram
  | accountDiscriminatorMismatch
  | invalidProgramId
deriving DecidableEq, Repr

/-- Failures of the runtime and of the system program. -/
inductive SystemError where
  | privilegeEscalation
  | accountAlreadyInUse
  | insufficientFunds
  | arithmeticOverflow
  | signerNotAuthentic
  | precompileFailed
deriving DecidableEq, Repr

inductive ProgramError where
  | hwal (error : HwalError)
  | anchor (error : AnchorError)
  | system (error : SystemError)
  | delegation
deriving DecidableEq, Repr

/-! ### state/ -/

structure Config where
  admin : Pubkey
  feeReceiver : Pubkey
  feeBps : UInt16
  keeperRewardBps : UInt16
  totalPositionsOpened : UInt64
  totalPositionsTriggered : UInt64
  totalPositionsCancelled : UInt64
  totalFeesCollected : UInt64
  totalKeeperRewardsPaid : UInt64
  bump : UInt8
deriving DecidableEq, Repr

structure PriceFeed where
  authority : Pubkey
  symbol : FeedSymbol
  decimals : UInt8
  price : UInt64
  lastUpdated : Int64
  updateCount : UInt64
  bump : UInt8
  source : UInt8
  lazerChannel : UInt8
  lazerFeedId : UInt64
deriving DecidableEq, Repr

structure Position where
  owner : Pubkey
  feed : Pubkey
  vault : Pubkey
  nonce : UInt64
  side : UInt8
  status : UInt8
  triggerReason : UInt8
  collateral : UInt64
  entryPrice : UInt64
  stopPrice : UInt64
  takeProfitPrice : UInt64
  trailingOffset : UInt64
  trailingExtreme : UInt64
  openedAt : Int64
  lastTickAt : Int64
  settledAt : Int64
  tickCount : UInt64
  bump : UInt8
  vaultBump : UInt8
  erDelegated : UInt8
deriving DecidableEq, Repr

/-- `8 + INIT_SPACE` of each record, reserved bytes included. -/
def configSpace : Nat := 8 + (32 + 32 + 2 + 2 + 5 * 8 + 1 + 64)

def priceFeedSpace : Nat := 8 + (32 + 16 + 1 + 8 + 8 + 8 + 1 + 1 + 1 + 8 + 22)

def positionSpace : Nat := 8 + (3 * 32 + 8 + 4 + 6 * 8 + 3 * 8 + 8 + 3 + 31)

/-! ### events.rs -/

inductive Event where
  | configInitialized (admin : Pubkey) (feeBps keeperRewardBps : UInt16)
  | priceFeedInitialized (feed authority : Pubkey) (symbol : FeedSymbol)
      (decimals : UInt8) (initialPrice : UInt64)
  | priceFeedUpdated (feed : Pubkey) (oldPrice newPrice : UInt64)
      (timestamp : Int64) (updateCount : UInt64)
  | positionOpened (position owner feed : Pubkey) (side : UInt8)
      (collateral entryPrice stopPrice takeProfitPrice trailingOffset : UInt64)
      (openedAt : Int64)
  | triggersUpdated (position : Pubkey)
      (stopPrice takeProfitPrice trailingOffset : UInt64)
  | positionTicked (position : Pubkey) (price trailingExtreme : UInt64) (tickAt : Int64)
  | positionTriggered (position owner : Pubkey) (triggerReason : UInt8)
      (triggerPrice collateralReturned feePaid keeperReward : UInt64)
      (keeper : Pubkey) (triggeredAt : Int64)
  | positionCancelled (position owner : Pubkey) (collateralReturned : UInt64)
      (cancelledAt : Int64)
  | lazerFeedRegistered (feed : Pubkey) (lazerFeedId : UInt64) (channel : UInt8)
  | lazerPriceVerified (feed : Pubkey) (lazerFeedId : UInt64) (channel : UInt8)
      (price : UInt64) (payloadTimestamp onChainTimestamp : Int64)
  | positionDelegated (position owner : Pubkey) (delegatedAt : Int64)
  | positionUndelegated (position owner : Pubkey) (undelegatedAt : Int64)
deriving DecidableEq, Repr

end Hwal
