/-
The program's own error codes, instruction by instruction: which of them a call can end
with in a state the program can reach.  Nothing outside the catalogue is ever returned,
and everything in it is.
-/
import Hwal.InstructionData
import Hwal.Progress

namespace Hwal

open Guard

def Instruction.method : Instruction → Method
  | .initializeConfig .. => .initializeConfig
  | .updateConfig .. => .updateConfig
  | .initializePriceFeed .. => .initializePriceFeed
  | .updatePriceFeed .. => .updatePriceFeed
  | .openPosition .. => .openPosition
  | .updateTriggers .. => .updateTriggers
  | .tickPosition .. => .tickPosition
  | .cancelPosition .. => .cancelPosition
  | .registerLazerFeed .. => .registerLazerFeed
  | .updatePriceFeedFromLazer .. => .updatePriceFeedFromLazer
  | .delegatePosition .. => .delegatePosition
  | .undelegatePosition .. => .undelegatePosition

/-- The catalogue. A stored price is never zero, so only the calls that bring a price of
their own can find it to be. -/
def Method.errors : Method → List HwalError
  | initializeConfig => [.feeBpsTooHigh, .keeperRewardTooHigh]
  | updateConfig => [.notAdmin, .feeBpsTooHigh, .keeperRewardTooHigh]
  | initializePriceFeed => [.notAdmin, .priceFeedZero]
  | updatePriceFeed => [.notFeedAuthority, .priceFeedZero]
  | openPosition => [.invalidSide, .collateralTooSmall, .priceFeedStale, .invalidStopPrice,
      .invalidTakeProfitPrice, .invalidTrailingOffset]
  | updateTriggers => [.notPositionOwner, .positionNotOpen, .invalidStopPrice,
      .invalidTakeProfitPrice, .invalidTrailingOffset]
  | tickPosition => [.feedMismatch, .notPositionOwner, .positionNotOpen, .priceFeedStale,
      .mathOverflow]
  | cancelPosition => [.notPositionOwner, .positionNotOpen]
  | registerLazerFeed => [.notAdmin, .lazerPayloadInvalid, .feedAlreadyLazer]
  | updatePriceFeedFromLazer => [.feedNotLazer, .lazerPayloadInvalid, .priceFeedZero,
      .lazerFeedIdMismatch, .lazerPayloadStale, .lazerSignatureMissing]
  | delegatePosition => [.notPositionOwner, .positionNotOpen, .positionAlreadyDelegated]
  | undelegatePosition => [.notPositionOwner, .positionNotOpen, .positionNotDelegated]

/-! ### Nothing outside the catalogue -/

/-- If the error is one of the program's own, it is among the codes. -/
def Within (codes : List HwalError) (error : ProgramError) : Prop :=
  ∀ code, error = .hwal code → code ∈ codes

section Constraints

variable {codes : List HwalError}

theorem within_hwal {code : HwalError} (h : code ∈ codes) : Within codes (.hwal code) := by
  intro other hother
  obtain rfl := ProgramError.hwal.inj hother
  exact h

theorem within_anchor (error : AnchorError) : Within codes (.anchor error) := by
  intro code hcode
  contradiction

theorem within_system (error : SystemError) : Within codes (.system error) := by
  intro code hcode
  contradiction

theorem within_delegation : Within codes .delegation := by
  intro code hcode
  contradiction

theorem loadConfig_within {w : World} {key : Pubkey} :
    ErrorsIn (Within codes) (w.loadConfig key) := by
  intro error h
  rcases World.loadConfig_refused h with ⟨e, rfl⟩
  exact within_anchor e

theorem loadPriceFeed_within {w : World} {key : Pubkey} :
    ErrorsIn (Within codes) (w.loadPriceFeed key) := by
  intro error h
  rcases World.loadPriceFeed_refused h with ⟨e, rfl⟩
  exact within_anchor e

theorem loadPosition_within {w : World} {key : Pubkey} :
    ErrorsIn (Within codes) (w.loadPosition key) := by
  intro error h
  rcases World.loadPosition_refused h with ⟨e, rfl⟩
  exact within_anchor e

/-- A constraint with an error of the framework's. -/
theorem constraint_within {condition : Prop} [Decidable condition] {error : AnchorError} :
    ErrorsIn (Within codes) (require condition (.anchor error)) :=
  .require (within_anchor error)

/-- A check with an error of the program's. -/
theorem check_within {condition : Prop} [Decidable condition] {code : HwalError}
    (h : code ∈ codes) : ErrorsIn (Within codes) (require condition (.hwal code)) :=
  .require (within_hwal h)

theorem systemTransfer_within {lamports : Lamports} {src dst : Pubkey} {amount : UInt64} :
    ErrorsIn (Within codes) (systemTransfer lamports src dst amount) :=
  .bind (.require (within_system _)) fun _ => .okOr (within_system _)

theorem fundRent_within {w : World} {rt : Runtime} {payer account : Pubkey} {space : Nat} :
    ErrorsIn (Within codes) (w.fundRent rt payer account space) := by
  unfold World.fundRent
  dsimp only
  split
  · exact systemTransfer_within
  · exact ErrorsIn.pure _

theorem createAccount_within {w : World} {rt : Runtime} {tx : Tx} {payer account : Pubkey}
    {space : Nat} : ErrorsIn (Within codes) (w.createAccount rt tx payer account space) := by
  unfold World.createAccount
  split
  · exact .bind (.require (within_system _)) fun _ => .bind (.require (within_system _))
      fun _ => fundRent_within
  · exact .bind (.require (within_system _)) fun _ => .bind fundRent_within
      fun _ => .bind (.require (within_system _)) fun _ =>
        .bind (.require (within_system _)) fun _ => .pure _

theorem initAccount_within {w : World} {rt : Runtime} {tx : Tx} {payer account : Pubkey}
    {seeds : Seeds} {space : Nat} :
    ErrorsIn (Within codes) (w.initAccount rt tx payer account seeds space) :=
  .bind constraint_within fun _ => .bind createAccount_within fun _ =>
    .bind constraint_within fun _ => .pure _

end Constraints

section Instructions

variable {rt : Runtime} {w : World} {tx : Tx}

theorem initializeConfig_within {accs : InitializeConfig} {feeBps keeperRewardBps : UInt16} :
    ErrorsIn (Within Method.initializeConfig.errors)
      (initializeConfig rt w tx accs feeBps keeperRewardBps) := by
  refine .bind constraint_within fun _ => .bind constraint_within fun _ =>
    .bind initAccount_within fun ⟨lamports, bump⟩ => ?_
  exact .bind (check_within (by decide)) fun _ => .bind (check_within (by decide)) fun _ =>
    .pure _

theorem updateConfig_within {accs : UpdateConfig} {newAdmin newFeeReceiver : Option Pubkey}
    {newFeeBps newKeeperRewardBps : Option UInt16} :
    ErrorsIn (Within Method.updateConfig.errors)
      (updateConfig rt w tx accs newAdmin newFeeReceiver newFeeBps newKeeperRewardBps) := by
  have hfee (config : Config) :
      ErrorsIn (Within Method.updateConfig.errors) (setFeeBps config newFeeBps) := by
    cases newFeeBps with
    | none => exact .pure _
    | some feeBps => exact .bind (check_within (by decide)) fun _ => .pure _
  have hreward (config : Config) : ErrorsIn (Within Method.updateConfig.errors)
      (setKeeperRewardBps config newKeeperRewardBps) := by
    cases newKeeperRewardBps with
    | none => exact .pure _
    | some rewardBps => exact .bind (check_within (by decide)) fun _ => .pure _
  refine .bind ?_ fun config => .bind (.bind (hfee _) hreward) fun _ => .pure _
  exact .bind constraint_within fun _ => .bind loadConfig_within fun _ =>
    .bind (check_within (by decide)) fun _ => .bind constraint_within fun _ =>
      .bind constraint_within fun _ => .pure _

theorem initializePriceFeed_within {accs : InitializePriceFeed} {symbol : FeedSymbol}
    {decimals : UInt8} {initialPrice : UInt64} :
    ErrorsIn (Within Method.initializePriceFeed.errors)
      (initializePriceFeed rt w tx accs symbol decimals initialPrice) := by
  refine .bind constraint_within fun _ => .bind loadConfig_within fun _ =>
    .bind constraint_within fun _ => .bind initAccount_within fun ⟨lamports, bump⟩ => ?_
  exact .bind (check_within (by decide)) fun _ => .bind constraint_within fun _ =>
    .bind (check_within (by decide)) fun _ => .pure _

theorem updatePriceFeed_within {accs : UpdatePriceFeed} {newPrice : UInt64} :
    ErrorsIn (Within Method.updatePriceFeed.errors) (updatePriceFeed w tx accs newPrice) := by
  refine .bind ?_ fun feed => .bind (check_within (by decide)) fun _ => .pure _
  exact .bind constraint_within fun _ => .bind loadPriceFeed_within fun _ =>
    .bind (check_within (by decide)) fun _ => .bind constraint_within fun _ => .pure _

theorem checkTriggers_within {codes : List HwalError} (hstop : .invalidStopPrice ∈ codes)
    (htake : .invalidTakeProfitPrice ∈ codes) (htrailing : .invalidTrailingOffset ∈ codes)
    {side : UInt8} {entryPrice stopPrice takeProfitPrice trailingOffset : UInt64} :
    ErrorsIn (Within codes)
      (checkTriggers side entryPrice stopPrice takeProfitPrice trailingOffset) := by
  refine .bind ?_ fun _ => check_within htrailing
  unfold checkPriceTriggers
  split
  · exact .bind (check_within hstop) fun _ => check_within htake
  · exact .bind (check_within hstop) fun _ => check_within htake

/-- The feed holds a price, so that the check against zero always passes. -/
theorem openPosition_within (hinv : Invariant rt w) {accs : OpenPosition}
    {args : OpenPositionArgs} :
    ErrorsIn (Within Method.openPosition.errors) (openPosition rt w tx accs args) := by
  refine .bind constraint_within fun _ => .bind loadConfig_within fun _ =>
    .bind_of_ok loadPriceFeed_within fun feed hfeed => .bind constraint_within fun _ =>
      .bind initAccount_within fun ⟨lamports, bump⟩ => .bind constraint_within fun _ =>
        .bind constraint_within fun _ => .bind ?_ fun _ => .bind systemTransfer_within fun _ =>
          .pure _
  have hprice : feed.price > 0 :=
    UInt64.lt_iff_toNat_lt.mpr (hinv.feeds _ _ (World.loadPriceFeed_eq_ok_iff.mp hfeed))
  exact .bind (check_within (by decide)) fun _ => .bind (check_within (by decide)) fun _ =>
    .bind (.of_ok (require_of_holds _ hprice)) fun _ =>
      .bind (check_within (by decide)) fun _ =>
        checkTriggers_within (by decide) (by decide) (by decide)

theorem updateTriggers_within {accs : UpdateTriggers}
    {stopPrice takeProfitPrice trailingOffset : UInt64} :
    ErrorsIn (Within Method.updateTriggers.errors)
      (updateTriggers rt w tx accs stopPrice takeProfitPrice trailingOffset) := by
  refine .bind ?_ fun position => .bind (.bind (check_within (by decide)) fun _ =>
    .bind (checkTriggers_within (by decide) (by decide) (by decide)) fun _ => .pure _) fun _ =>
      .pure _
  exact .bind constraint_within fun _ => .bind loadPosition_within fun _ =>
    .bind (check_within (by decide)) fun _ => .bind constraint_within fun _ =>
      .bind constraint_within fun _ => .pure _

theorem tickPosition_within (h : ReachableWithSupply rt w) {accs : TickPosition} :
    ErrorsIn (Within Method.tickPosition.errors) (tickPosition rt w tx accs) := by
  intro error herror
  have hinv := reachable_invariant h.reachable
  rcases tickPosition_eq_error hinv (reachable_supply h) herror with
    haccount | ⟨config, feed, position, haccs, hguard | ⟨-, rfl⟩⟩
  · rcases tickPosition_tryAccounts_errors rt w tx accs error haccount with
      ⟨e, rfl⟩ | rfl | rfl
    · exact within_anchor e
    · exact within_hwal (by decide)
    · exact within_hwal (by decide)
  · have hprice : feed.price > 0 :=
      UInt64.lt_iff_toNat_lt.mpr (hinv.feeds _ _ haccs.feed_loaded)
    have hguards : ErrorsIn (Within Method.tickPosition.errors)
        (tickPrice position feed tx.unixTimestamp) :=
      .bind (check_within (by decide)) fun _ => .bind (.of_ok (require_of_holds _ hprice))
        fun _ => .bind (check_within (by decide)) fun _ => .pure _
    exact hguards error hguard
  · exact within_hwal (by decide)

/-- The deposit is there and the owner's balance has room for it. -/
theorem cancelPosition_within (h : ReachableWithSupply rt w) {accs : CancelPosition} :
    ErrorsIn (Within Method.cancelPosition.errors) (cancelPosition rt w tx accs) := by
  have haccounts : ErrorsIn (Within Method.cancelPosition.errors) (accs.tryAccounts rt w tx) :=
    .bind constraint_within fun _ => .bind loadConfig_within fun _ =>
      .bind loadPosition_within fun _ => .bind constraint_within fun _ =>
        .bind (check_within (by decide)) fun _ => .bind constraint_within fun _ =>
          .bind constraint_within fun _ => .bind constraint_within fun _ =>
            .bind constraint_within fun _ => .pure _
  refine .bind_of_ok haccounts fun ⟨config, position⟩ hloaded => ?_
  refine .bind_of_ok (check_within (by decide)) fun _ hopen => ?_
  have haccs := cancelPosition_tryAccounts_eq_ok_iff.mp hloaded
  have hinv := reachable_invariant h.reachable
  have hfunded := hinv.funded _ _ haccs.position_loaded
  have hcover : position.collateral.toNat ≤ (w.lamports accs.position).toNat := by omega
  rcases exists_payOut accs.owner (reachable_supply h) hcover with ⟨lamports, hpay⟩
  exact .bind (.of_ok hpay) fun _ => .pure _

theorem registerLazerFeed_within {accs : RegisterLazerFeed} {lazerFeedId : UInt64}
    {channel : UInt8} :
    ErrorsIn (Within Method.registerLazerFeed.errors)
      (registerLazerFeed rt w tx accs lazerFeedId channel) := by
  refine .bind ?_ fun feed => .bind (check_within (by decide)) fun _ =>
    .bind (check_within (by decide)) fun _ => .pure _
  exact .bind constraint_within fun _ => .bind loadConfig_within fun _ =>
    .bind loadPriceFeed_within fun _ => .bind (check_within (by decide)) fun _ =>
      .bind constraint_within fun _ => .bind constraint_within fun _ => .pure _

theorem updatePriceFeedFromLazer_within {accs : UpdatePriceFeedFromLazer}
    {payload : List UInt8} :
    ErrorsIn (Within Method.updatePriceFeedFromLazer.errors)
      (updatePriceFeedFromLazer w tx accs payload) := by
  have haccounts : ErrorsIn (Within Method.updatePriceFeedFromLazer.errors)
      (accs.tryAccounts w tx) :=
    .bind constraint_within fun _ => .bind loadPriceFeed_within fun _ =>
      .bind constraint_within fun _ => .bind constraint_within fun _ => .pure _
  have hdecode : ErrorsIn (Within Method.updatePriceFeedFromLazer.errors)
      (decodeLazerPayload payload) :=
    .bind (check_within (by decide)) fun _ => .pure _
  have hverify : ErrorsIn (Within Method.updatePriceFeedFromLazer.errors)
      (verifyLazerSignaturePresent tx payload) :=
    .bind (check_within (by decide)) fun _ =>
      .bind (.okOr (within_hwal (by decide))) fun _ => .bind (check_within (by decide)) fun _ =>
        check_within (by decide)
  refine .bind haccounts fun feed => .bind ?_ fun message => .pure _
  exact .bind (check_within (by decide)) fun _ => .bind hdecode fun _ =>
    .bind (check_within (by decide)) fun _ => .bind (check_within (by decide)) fun _ =>
      .bind (check_within (by decide)) fun _ => .bind (check_within (by decide)) fun _ =>
        .bind hverify fun _ => .pure _

theorem delegatePosition_within {accs : DelegatePosition} :
    ErrorsIn (Within Method.delegatePosition.errors) (delegatePosition rt w tx accs) := by
  refine .bind ?_ fun position => .bind (check_within (by decide)) fun _ =>
    .bind (check_within (by decide)) fun _ => .bind (.okOr within_delegation) fun _ => .pure _
  exact .bind constraint_within fun _ => .bind loadPosition_within fun _ =>
    .bind constraint_within fun _ => .bind (check_within (by decide)) fun _ =>
      .bind constraint_within fun _ => .bind constraint_within fun _ =>
        .bind constraint_within fun _ => .bind constraint_within fun _ =>
          .bind constraint_within fun _ => .bind constraint_within fun _ => .pure _

theorem undelegatePosition_within {accs : UndelegatePosition} :
    ErrorsIn (Within Method.undelegatePosition.errors) (undelegatePosition rt w tx accs) := by
  refine .bind ?_ fun position => .bind (check_within (by decide)) fun _ =>
    .bind (check_within (by decide)) fun _ => .bind (.okOr within_delegation) fun _ => .pure _
  exact .bind constraint_within fun _ => .bind loadPosition_within fun _ =>
    .bind constraint_within fun _ => .bind (check_within (by decide)) fun _ =>
      .bind constraint_within fun _ => .bind constraint_within fun _ =>
        .bind constraint_within fun _ => .bind constraint_within fun _ =>
          .bind constraint_within fun _ => .pure _

theorem execute_within (h : ReachableWithSupply rt w) (ix : Instruction) :
    ErrorsIn (Within ix.method.errors) (execute rt w tx ix) := by
  have hinv := reachable_invariant h.reachable
  cases ix with
  | initializeConfig accs feeBps keeperRewardBps => exact initializeConfig_within
  | updateConfig accs newAdmin newFeeReceiver newFeeBps newKeeperRewardBps =>
      exact updateConfig_within
  | initializePriceFeed accs symbol decimals initialPrice => exact initializePriceFeed_within
  | updatePriceFeed accs newPrice => exact updatePriceFeed_within
  | openPosition accs args => exact openPosition_within hinv
  | updateTriggers accs stopPrice takeProfitPrice trailingOffset => exact updateTriggers_within
  | tickPosition accs => exact tickPosition_within h
  | cancelPosition accs => exact cancelPosition_within h
  | registerLazerFeed accs lazerFeedId channel => exact registerLazerFeed_within
  | updatePriceFeedFromLazer accs payload => exact updatePriceFeedFromLazer_within
  | delegatePosition accs => exact delegatePosition_within
  | undelegatePosition accs => exact undelegatePosition_within

theorem attempt_within (h : ReachableWithSupply rt w) (ix : Instruction) :
    ErrorsIn (Within ix.method.errors) (attempt rt w (.invoke tx ix)) :=
  .bind (.require (within_system _)) fun _ => .bind (.require (within_system _)) fun _ =>
    execute_within h ix

end Instructions

/-! ### Everything in the catalogue -/

namespace Localnet

/-- A call that is to fail with a code, after a run that leads up to it. -/
structure Trial where
  setup : List Action
  tx : Tx
  ix : Instruction
  code : HwalError

def Trial.world (trial : Trial) : World :=
  runFrom cluster (World.genesis funds) trial.setup

def Trial.fails (trial : Trial) : Bool :=
  match attempt cluster trial.world (.invoke trial.tx trial.ix) with
  | .error error => error = .hwal trial.code
  | .ok _ => false

theorem Trial.attempt_eq {trial : Trial} (h : trial.fails = true) :
    attempt cluster trial.world (.invoke trial.tx trial.ix) = .error (.hwal trial.code) := by
  unfold Trial.fails at h
  split at h
  · next error herror => rw [herror, of_decide_eq_true h]
  · contradiction

/-- A second feed, so that a wrong one can be passed. -/
def otherFeed : Action :=
  .invoke { tx admin 1004 with writable := 1#256 :: (tx admin 1004).writable }
    (.initializePriceFeed ⟨admin, config, feedAuthority, 1#256, systemProgramId⟩
      (Vector.replicate 16 0) 6 100000000)

def openAs (args : OpenPositionArgs) : Instruction :=
  .openPosition ⟨alice, config, feed, position, systemProgramId⟩ args

def delegateAs (owner : Pubkey) : Instruction :=
  .delegatePosition ⟨owner, position, magicblockDelegationProgramId, keeper, poster, admin,
    systemProgramId⟩

def undelegateAs (owner : Pubkey) : Instruction :=
  .undelegatePosition ⟨owner, position, magicblockDelegationProgramId, poster, admin,
    systemProgramId⟩

def postAs (payload : List UInt8) : Instruction :=
  .updatePriceFeedFromLazer ⟨poster, feed, instructionsSysvarId⟩ payload

def tickAs (payer owner : Pubkey) : Instruction :=
  .tickPosition ⟨keeper, config, payer, position, owner, feeReceiver⟩

/-- One trial for each entry of the catalogue. -/
def trials : List Trial :=
  let opened := launch ++ [deposit]
  let closed := opened ++ [cancel 1004]
  let delegated := opened ++ [.invoke (tx alice 1004) (delegateAs alice)]
  let brink := launch ++ [push 18446744073709551615 1003,
    .invoke (tx alice 1003) (openAs ⟨1, sideShort, 50000000, 0, 0, 1000⟩)]
  [⟨[], tx admin 1000, .initializeConfig ⟨admin, feeReceiver, config, systemProgramId⟩ 501 25,
      .feeBpsTooHigh⟩,
    ⟨[], tx admin 1000, .initializeConfig ⟨admin, feeReceiver, config, systemProgramId⟩ 50 201,
      .keeperRewardTooHigh⟩,
    ⟨launch, tx alice 1003, .updateConfig ⟨alice, config⟩ none none none none, .notAdmin⟩,
    ⟨launch, tx admin 1003, .updateConfig ⟨admin, config⟩ none none (some 501) none,
      .feeBpsTooHigh⟩,
    ⟨launch, tx admin 1003, .updateConfig ⟨admin, config⟩ none none none (some 201),
      .keeperRewardTooHigh⟩,
    ⟨launch.take 1, tx alice 1001,
      .initializePriceFeed ⟨alice, config, feedAuthority, feed, systemProgramId⟩ symbol 6 1,
      .notAdmin⟩,
    ⟨launch.take 1, tx admin 1001,
      .initializePriceFeed ⟨admin, config, feedAuthority, feed, systemProgramId⟩ symbol 6 0,
      .priceFeedZero⟩,
    ⟨launch, tx alice 1003, .updatePriceFeed ⟨alice, feed⟩ 1, .notFeedAuthority⟩,
    ⟨launch, tx feedAuthority 1003, .updatePriceFeed ⟨feedAuthority, feed⟩ 0, .priceFeedZero⟩,
    ⟨launch, tx alice 1003, openAs ⟨1, 2, 50000000, 0, 0, 0⟩, .invalidSide⟩,
    ⟨launch, tx alice 1003, openAs ⟨1, 0, 0, 0, 0, 0⟩, .collateralTooSmall⟩,
    ⟨launch, tx alice 2000, openAs ⟨1, 0, 50000000, 0, 0, 0⟩, .priceFeedStale⟩,
    ⟨launch, tx alice 1003, openAs ⟨1, 0, 50000000, 100000000, 0, 0⟩, .invalidStopPrice⟩,
    ⟨launch, tx alice 1003, openAs ⟨1, 0, 50000000, 0, 100000000, 0⟩,
      .invalidTakeProfitPrice⟩,
    ⟨launch, tx alice 1003, openAs ⟨1, 0, 50000000, 0, 0, 100000000⟩,
      .invalidTrailingOffset⟩,
    ⟨opened, tx keeper 1004, .updateTriggers ⟨keeper, position⟩ 0 0 0, .notPositionOwner⟩,
    ⟨closed, tx alice 1005, .updateTriggers ⟨alice, position⟩ 0 0 0, .positionNotOpen⟩,
    ⟨opened, tx alice 1004, .updateTriggers ⟨alice, position⟩ 100000000 0 0,
      .invalidStopPrice⟩,
    ⟨opened, tx alice 1004, .updateTriggers ⟨alice, position⟩ 0 100000000 0,
      .invalidTakeProfitPrice⟩,
    ⟨opened, tx alice 1004, .updateTriggers ⟨alice, position⟩ 0 0 100000000,
      .invalidTrailingOffset⟩,
    ⟨opened ++ [otherFeed], tx keeper 1005, tickAs 1#256 alice, .feedMismatch⟩,
    ⟨opened, tx keeper 1004, tickAs feed keeper, .notPositionOwner⟩,
    ⟨closed, tx keeper 1005, tickAs feed alice, .positionNotOpen⟩,
    ⟨opened, tx keeper 2000, tickAs feed alice, .priceFeedStale⟩,
    ⟨brink, tx keeper 1004, tickAs feed alice, .mathOverflow⟩,
    ⟨opened, tx keeper 1004, .cancelPosition ⟨keeper, config, position⟩, .notPositionOwner⟩,
    ⟨closed, tx alice 1005, .cancelPosition ⟨alice, config, position⟩, .positionNotOpen⟩,
    ⟨launch.take 2, tx alice 1002, .registerLazerFeed ⟨alice, config, feed⟩ 6 1, .notAdmin⟩,
    ⟨launch.take 2, tx admin 1002, .registerLazerFeed ⟨admin, config, feed⟩ 6 4,
      .lazerPayloadInvalid⟩,
    ⟨launch, tx admin 1003, .registerLazerFeed ⟨admin, config, feed⟩ 6 1, .feedAlreadyLazer⟩,
    ⟨launch.take 2, tx poster 1008, postAs [], .feedNotLazer⟩,
    ⟨launch, tx poster 1008, postAs [], .lazerPayloadInvalid⟩,
    ⟨launch, tx poster 1008, postAs (encodeLazerPayload ⟨6, 1008, 0, 1⟩), .priceFeedZero⟩,
    ⟨launch, tx poster 1008, postAs (encodeLazerPayload ⟨7, 1008, 1, 1⟩),
      .lazerFeedIdMismatch⟩,
    ⟨launch, tx poster 1008, postAs (encodeLazerPayload ⟨6, 1000, 1, 1⟩),
      .lazerPayloadStale⟩,
    ⟨launch, tx poster 1008, postAs (encodeLazerPayload ⟨6, 1008, 1, 1⟩),
      .lazerSignatureMissing⟩,
    ⟨opened, tx keeper 1004, delegateAs keeper, .notPositionOwner⟩,
    ⟨closed, tx alice 1005, delegateAs alice, .positionNotOpen⟩,
    ⟨delegated, tx alice 1005, delegateAs alice, .positionAlreadyDelegated⟩,
    ⟨opened, tx keeper 1004, undelegateAs keeper, .notPositionOwner⟩,
    ⟨closed, tx alice 1005, undelegateAs alice, .positionNotOpen⟩,
    ⟨opened, tx alice 1004, undelegateAs alice, .positionNotDelegated⟩]

theorem trials_fail : ∀ trial ∈ trials, trial.fails = true := by decide +kernel

theorem trials_cover : ∀ method ∈ Method.all, ∀ code ∈ method.errors,
    ∃ trial ∈ trials, trial.ix.method = method ∧ trial.code = code := by decide +kernel

end Localnet

/-- In a state the program can reach, an instruction ends with an error of the program's
own only if its catalogue names it; every entry of the catalogue is returned in some such
state; and four codes are in no catalogue at all. -/
theorem error_catalogue :
    (∀ (rt : Runtime) (w : World), ReachableWithSupply rt w →
      ∀ (tx : Tx) (ix : Instruction) (code : HwalError),
        attempt rt w (.invoke tx ix) = .error (.hwal code) → code ∈ ix.method.errors) ∧
    (∀ method : Method, ∀ code ∈ method.errors, ∃ (rt : Runtime) (w : World) (tx : Tx)
      (ix : Instruction), ReachableWithSupply rt w ∧ ix.method = method ∧
        attempt rt w (.invoke tx ix) = .error (.hwal code)) ∧
    ∀ code : HwalError, (∀ method : Method, code ∉ method.errors) ↔
      code ∈ [.trailingUnderflow, .insufficientVaultLamports, .invalidVault,
        .noTriggerHit] := by
  refine ⟨?_, ?_, ?_⟩
  · intro rt w hreach tx ix code herror
    exact attempt_within hreach ix _ herror code rfl
  · intro method code hcode
    rcases Localnet.trials_cover method method.mem_all code hcode with
      ⟨trial, htrial, hmethod, rfl⟩
    exact ⟨Localnet.cluster, trial.world, trial.tx, trial.ix,
      ⟨Localnet.funds, trial.setup, Localnet.funds_supply, rfl⟩, hmethod,
      Localnet.Trial.attempt_eq (Localnet.trials_fail trial htrial)⟩
  · intro code
    have hall : (∀ method : Method, code ∉ method.errors) ↔
        ∀ method ∈ Method.all, code ∉ method.errors :=
      ⟨fun h method _ => h method, fun h method => h method method.mem_all⟩
    rw [hall]
    cases code <;> decide

end Hwal
