/-
How `#[program]` reads a call: an 8-byte discriminator names the method, the method's
arguments follow, and the accounts are taken from the front of the list that came with the
call.  Reading is the exact inverse of what a client writes, for every method.
-/
import Hwal.AccountData
import Hwal.Program

namespace Hwal

open Guard

/-- `declare_id!`. -/
def hwalProgramId : Pubkey :=
  0x09d8b9cd5daae2c9874d744bd37e97653c5f8e27addc6737e7add0e30075d95b#256

inductive Method where
  | initializeConfig
  | updateConfig
  | initializePriceFeed
  | updatePriceFeed
  | openPosition
  | updateTriggers
  | tickPosition
  | cancelPosition
  | registerLazerFeed
  | updatePriceFeedFromLazer
  | delegatePosition
  | undelegatePosition
deriving DecidableEq, Repr

namespace Method

def all : List Method :=
  [initializeConfig, updateConfig, initializePriceFeed, updatePriceFeed, openPosition,
    updateTriggers, tickPosition, cancelPosition, registerLazerFeed,
    updatePriceFeedFromLazer, delegatePosition, undelegatePosition]

def discriminator : Method → Vector UInt8 8
  | initializeConfig => #v[208, 127, 21, 1, 194, 190, 196, 70]
  | updateConfig => #v[29, 158, 252, 191, 10, 83, 219, 99]
  | initializePriceFeed => #v[68, 180, 81, 20, 102, 213, 145, 233]
  | updatePriceFeed => #v[28, 9, 93, 150, 86, 153, 188, 115]
  | openPosition => #v[135, 128, 47, 77, 15, 152, 240, 49]
  | updateTriggers => #v[35, 227, 40, 24, 79, 230, 48, 14]
  | tickPosition => #v[244, 148, 111, 216, 109, 113, 126, 86]
  | cancelPosition => #v[238, 238, 23, 104, 199, 77, 104, 68]
  | registerLazerFeed => #v[242, 56, 27, 153, 79, 29, 250, 229]
  | updatePriceFeedFromLazer => #v[48, 102, 158, 231, 125, 129, 96, 255]
  | delegatePosition => #v[194, 231, 117, 130, 72, 142, 185, 112]
  | undelegatePosition => #v[161, 150, 147, 126, 236, 24, 115, 164]

theorem mem_all (method : Method) : method ∈ all := by
  cases method <;> decide

theorem discriminator_injective : Function.Injective discriminator := by
  have hall : ∀ m ∈ all, ∀ m' ∈ all, m.discriminator = m'.discriminator → m = m' := by decide
  intro m m' h
  exact hall m m.mem_all m' m'.mem_all h

/-! ### Arguments -/

abbrev Args : Method → Type
  | initializeConfig => UInt16 × UInt16
  | updateConfig => Option Pubkey × Option Pubkey × Option UInt16 × Option UInt16
  | initializePriceFeed => FeedSymbol × UInt8 × UInt64
  | updatePriceFeed => UInt64
  | openPosition => OpenPositionArgs
  | updateTriggers => UInt64 × UInt64 × UInt64
  | registerLazerFeed => UInt64 × UInt8
  | updatePriceFeedFromLazer => { payload : List UInt8 // payload.length < 256 ^ 4 }
  | tickPosition | cancelPosition | delegatePosition | undelegatePosition => Unit

def args : (method : Method) → Codec UInt8 method.Args
  | initializeConfig => Codec.u16.pair Codec.u16
  | updateConfig => pubkeyCodec.option.pair <| pubkeyCodec.option.pair <|
      Codec.u16.option.pair Codec.u16.option
  | initializePriceFeed => symbolCodec.pair <| Codec.u8.pair Codec.u64
  | updatePriceFeed => Codec.u64
  | openPosition => (Codec.u64.pair <| Codec.u8.pair <| Codec.u64.pair <| Codec.u64.pair <|
      Codec.u64.pair Codec.u64).map
      { toFun := fun (nonce, side, collateral, stopPrice, takeProfitPrice, trailingOffset) =>
          ⟨nonce, side, collateral, stopPrice, takeProfitPrice, trailingOffset⟩
        invFun := fun args => (args.nonce, args.side, args.collateral, args.stopPrice,
          args.takeProfitPrice, args.trailingOffset)
        left_inv := fun _ => rfl
        right_inv := fun _ => rfl }
  | updateTriggers => Codec.u64.pair <| Codec.u64.pair Codec.u64
  | registerLazerFeed => Codec.u64.pair Codec.u8
  | updatePriceFeedFromLazer => Codec.bytes 4
  | tickPosition => Codec.unit
  | cancelPosition => Codec.unit
  | delegatePosition => Codec.unit
  | undelegatePosition => Codec.unit

/-! ### Accounts -/

abbrev Accounts : Method → Type
  | initializeConfig => InitializeConfig
  | updateConfig => UpdateConfig
  | initializePriceFeed => InitializePriceFeed
  | updatePriceFeed => UpdatePriceFeed
  | openPosition => OpenPosition
  | updateTriggers => UpdateTriggers
  | tickPosition => TickPosition
  | cancelPosition => CancelPosition
  | registerLazerFeed => RegisterLazerFeed
  | updatePriceFeedFromLazer => UpdatePriceFeedFromLazer
  | delegatePosition => DelegatePosition
  | undelegatePosition => UndelegatePosition

/-- The keys of each `#[derive(Accounts)]` struct, in the order of its fields. -/
def accounts : (method : Method) → Codec Pubkey method.Accounts
  | initializeConfig => (key.pair <| key.pair <| key.pair key).map
      { toFun := fun (admin, feeReceiver, config, systemProgram) =>
          ⟨admin, feeReceiver, config, systemProgram⟩
        invFun := fun accs => (accs.admin, accs.feeReceiver, accs.config, accs.systemProgram)
        left_inv := fun _ => rfl
        right_inv := fun _ => rfl }
  | updateConfig => (key.pair key).map
      { toFun := fun (admin, config) => ⟨admin, config⟩
        invFun := fun accs => (accs.admin, accs.config)
        left_inv := fun _ => rfl
        right_inv := fun _ => rfl }
  | initializePriceFeed => (key.pair <| key.pair <| key.pair <| key.pair key).map
      { toFun := fun (admin, config, authority, feed, systemProgram) =>
          ⟨admin, config, authority, feed, systemProgram⟩
        invFun := fun accs =>
          (accs.admin, accs.config, accs.authority, accs.feed, accs.systemProgram)
        left_inv := fun _ => rfl
        right_inv := fun _ => rfl }
  | updatePriceFeed => (key.pair key).map
      { toFun := fun (authority, feed) => ⟨authority, feed⟩
        invFun := fun accs => (accs.authority, accs.feed)
        left_inv := fun _ => rfl
        right_inv := fun _ => rfl }
  | openPosition => (key.pair <| key.pair <| key.pair <| key.pair key).map
      { toFun := fun (owner, config, feed, position, systemProgram) =>
          ⟨owner, config, feed, position, systemProgram⟩
        invFun := fun accs =>
          (accs.owner, accs.config, accs.feed, accs.position, accs.systemProgram)
        left_inv := fun _ => rfl
        right_inv := fun _ => rfl }
  | updateTriggers => (key.pair key).map
      { toFun := fun (owner, position) => ⟨owner, position⟩
        invFun := fun accs => (accs.owner, accs.position)
        left_inv := fun _ => rfl
        right_inv := fun _ => rfl }
  | tickPosition => (key.pair <| key.pair <| key.pair <| key.pair <| key.pair key).map
      { toFun := fun (keeper, config, feed, position, owner, feeReceiver) =>
          ⟨keeper, config, feed, position, owner, feeReceiver⟩
        invFun := fun accs => (accs.keeper, accs.config, accs.feed, accs.position, accs.owner,
          accs.feeReceiver)
        left_inv := fun _ => rfl
        right_inv := fun _ => rfl }
  | cancelPosition => (key.pair <| key.pair key).map
      { toFun := fun (owner, config, position) => ⟨owner, config, position⟩
        invFun := fun accs => (accs.owner, accs.config, accs.position)
        left_inv := fun _ => rfl
        right_inv := fun _ => rfl }
  | registerLazerFeed => (key.pair <| key.pair key).map
      { toFun := fun (admin, config, feed) => ⟨admin, config, feed⟩
        invFun := fun accs => (accs.admin, accs.config, accs.feed)
        left_inv := fun _ => rfl
        right_inv := fun _ => rfl }
  | updatePriceFeedFromLazer => (key.pair <| key.pair key).map
      { toFun := fun (poster, feed, instructions) => ⟨poster, feed, instructions⟩
        invFun := fun accs => (accs.poster, accs.feed, accs.instructions)
        left_inv := fun _ => rfl
        right_inv := fun _ => rfl }
  | delegatePosition => (key.pair <| key.pair <| key.pair <| key.pair <| key.pair <|
      key.pair key).map
      { toFun := fun (owner, position, delegationProgram, delegationBuffer, delegationRecord,
            delegationMetadata, systemProgram) =>
          ⟨owner, position, delegationProgram, delegationBuffer, delegationRecord,
            delegationMetadata, systemProgram⟩
        invFun := fun accs => (accs.owner, accs.position, accs.delegationProgram,
          accs.delegationBuffer, accs.delegationRecord, accs.delegationMetadata,
          accs.systemProgram)
        left_inv := fun _ => rfl
        right_inv := fun _ => rfl }
  | undelegatePosition => (key.pair <| key.pair <| key.pair <| key.pair <| key.pair key).map
      { toFun := fun (owner, position, delegationProgram, delegationRecord,
            delegationMetadata, systemProgram) =>
          ⟨owner, position, delegationProgram, delegationRecord, delegationMetadata,
            systemProgram⟩
        invFun := fun accs => (accs.owner, accs.position, accs.delegationProgram,
          accs.delegationRecord, accs.delegationMetadata, accs.systemProgram)
        left_inv := fun _ => rfl
        right_inv := fun _ => rfl }
where
  key : Codec Pubkey Pubkey := Codec.symbol

/-- The call `lib.rs` hands to the handler. -/
def instruction : (method : Method) → method.Accounts → method.Args → Instruction
  | initializeConfig, accs, (feeBps, keeperRewardBps) =>
      .initializeConfig accs feeBps keeperRewardBps
  | updateConfig, accs, (newAdmin, newFeeReceiver, newFeeBps, newKeeperRewardBps) =>
      .updateConfig accs newAdmin newFeeReceiver newFeeBps newKeeperRewardBps
  | initializePriceFeed, accs, (symbol, decimals, initialPrice) =>
      .initializePriceFeed accs symbol decimals initialPrice
  | updatePriceFeed, accs, newPrice => .updatePriceFeed accs newPrice
  | openPosition, accs, args => .openPosition accs args
  | updateTriggers, accs, (stopPrice, takeProfitPrice, trailingOffset) =>
      .updateTriggers accs stopPrice takeProfitPrice trailingOffset
  | tickPosition, accs, () => .tickPosition accs
  | cancelPosition, accs, () => .cancelPosition accs
  | registerLazerFeed, accs, (lazerFeedId, channel) =>
      .registerLazerFeed accs lazerFeedId channel
  | updatePriceFeedFromLazer, accs, payload => .updatePriceFeedFromLazer accs payload.val
  | delegatePosition, accs, () => .delegatePosition accs
  | undelegatePosition, accs, () => .undelegatePosition accs

end Method

/-- The accounts a call lists, in the order of its struct. -/
def Instruction.accounts : Instruction → List Pubkey
  | .initializeConfig accs _ _ => Method.initializeConfig.accounts.encode accs
  | .updateConfig accs _ _ _ _ => Method.updateConfig.accounts.encode accs
  | .initializePriceFeed accs _ _ _ => Method.initializePriceFeed.accounts.encode accs
  | .updatePriceFeed accs _ => Method.updatePriceFeed.accounts.encode accs
  | .openPosition accs _ => Method.openPosition.accounts.encode accs
  | .updateTriggers accs _ _ _ => Method.updateTriggers.accounts.encode accs
  | .tickPosition accs => Method.tickPosition.accounts.encode accs
  | .cancelPosition accs => Method.cancelPosition.accounts.encode accs
  | .registerLazerFeed accs _ _ => Method.registerLazerFeed.accounts.encode accs
  | .updatePriceFeedFromLazer accs _ => Method.updatePriceFeedFromLazer.accounts.encode accs
  | .delegatePosition accs => Method.delegatePosition.accounts.encode accs
  | .undelegatePosition accs => Method.undelegatePosition.accounts.encode accs

namespace Instruction

@[simp] theorem accounts_initializeConfig (accs : InitializeConfig)
    (feeBps keeperRewardBps : UInt16) :
    (initializeConfig accs feeBps keeperRewardBps).accounts =
      [accs.admin, accs.feeReceiver, accs.config, accs.systemProgram] := rfl

@[simp] theorem accounts_updateConfig (accs : UpdateConfig)
    (newAdmin newFeeReceiver : Option Pubkey) (newFeeBps newKeeperRewardBps : Option UInt16) :
    (updateConfig accs newAdmin newFeeReceiver newFeeBps newKeeperRewardBps).accounts =
      [accs.admin, accs.config] := rfl

@[simp] theorem accounts_initializePriceFeed (accs : InitializePriceFeed)
    (symbol : FeedSymbol) (decimals : UInt8) (initialPrice : UInt64) :
    (initializePriceFeed accs symbol decimals initialPrice).accounts =
      [accs.admin, accs.config, accs.authority, accs.feed, accs.systemProgram] := rfl

@[simp] theorem accounts_updatePriceFeed (accs : UpdatePriceFeed) (newPrice : UInt64) :
    (updatePriceFeed accs newPrice).accounts = [accs.authority, accs.feed] := rfl

@[simp] theorem accounts_openPosition (accs : OpenPosition) (args : OpenPositionArgs) :
    (openPosition accs args).accounts =
      [accs.owner, accs.config, accs.feed, accs.position, accs.systemProgram] := rfl

@[simp] theorem accounts_updateTriggers (accs : UpdateTriggers)
    (stopPrice takeProfitPrice trailingOffset : UInt64) :
    (updateTriggers accs stopPrice takeProfitPrice trailingOffset).accounts =
      [accs.owner, accs.position] := rfl

@[simp] theorem accounts_tickPosition (accs : TickPosition) :
    (tickPosition accs).accounts = [accs.keeper, accs.config, accs.feed, accs.position,
      accs.owner, accs.feeReceiver] := rfl

@[simp] theorem accounts_cancelPosition (accs : CancelPosition) :
    (cancelPosition accs).accounts = [accs.owner, accs.config, accs.position] := rfl

@[simp] theorem accounts_registerLazerFeed (accs : RegisterLazerFeed) (lazerFeedId : UInt64)
    (channel : UInt8) :
    (registerLazerFeed accs lazerFeedId channel).accounts =
      [accs.admin, accs.config, accs.feed] := rfl

@[simp] theorem accounts_updatePriceFeedFromLazer (accs : UpdatePriceFeedFromLazer)
    (payload : List UInt8) :
    (updatePriceFeedFromLazer accs payload).accounts =
      [accs.poster, accs.feed, accs.instructions] := rfl

@[simp] theorem accounts_delegatePosition (accs : DelegatePosition) :
    (delegatePosition accs).accounts = [accs.owner, accs.position, accs.delegationProgram,
      accs.delegationBuffer, accs.delegationRecord, accs.delegationMetadata,
      accs.systemProgram] := rfl

@[simp] theorem accounts_undelegatePosition (accs : UndelegatePosition) :
    (undelegatePosition accs).accounts = [accs.owner, accs.position, accs.delegationProgram,
      accs.delegationRecord, accs.delegationMetadata, accs.systemProgram] := rfl

end Instruction

/-- The discriminator, then the arguments it announces. -/
def callCodec : Codec UInt8 (Σ method : Method, method.Args) :=
  (Codec.tag Method.all Method.mem_all Method.discriminator
    Method.discriminator_injective).sigma Method.args

/-- What the entry point makes of a call; data and accounts left over are ignored, and what
it does not recognise never reaches a handler. -/
def parseInstruction (accounts : List Pubkey) (data : List UInt8) : Option Instruction := do
  let (call, _) ← callCodec.decode data
  let (accs, _) ← call.1.accounts.decode accounts
  return call.1.instruction accs call.2

/-- The data a client sends. -/
def Method.data (method : Method) (args : method.Args) : List UInt8 :=
  method.discriminator.toList ++ method.args.encode args

theorem parseInstruction_eq_some_iff {accounts : List Pubkey} {data : List UInt8}
    {ix : Instruction} :
    parseInstruction accounts data = some ix ↔
      ∃ (method : Method) (accs : method.Accounts) (args : method.Args),
        ix = method.instruction accs args ∧
        (∃ extra, accounts = method.accounts.encode accs ++ extra) ∧
        ∃ rest, data = method.data args ++ rest := by
  simp only [parseInstruction, Option.bind_eq_bind, Option.bind_eq_some_iff, Prod.exists,
    Codec.decode_eq_some_iff, Option.pure_def, Option.some.injEq]
  constructor
  · rintro ⟨⟨method, args⟩, rest, hdata, accs, extra, haccounts, rfl⟩
    exact ⟨method, accs, args, rfl, ⟨extra, haccounts⟩, rest, hdata⟩
  · rintro ⟨method, accs, args, rfl, ⟨extra, haccounts⟩, rest, hdata⟩
    exact ⟨⟨method, args⟩, rest, hdata, accs, extra, haccounts, rfl⟩

/-- A payload whose length fits its four-byte prefix. -/
def Instruction.Fits : Instruction → Prop
  | .updatePriceFeedFromLazer _ payload => payload.length < 256 ^ 4
  | _ => True

theorem instruction_fits (method : Method) (accs : method.Accounts) (args : method.Args) :
    (method.instruction accs args).Fits := by
  cases method with
  | updatePriceFeedFromLazer => exact args.property
  | _ => trivial

theorem exists_instruction {ix : Instruction} (h : ix.Fits) :
    ∃ (method : Method) (accs : method.Accounts) (args : method.Args),
      ix = method.instruction accs args := by
  cases ix with
  | initializeConfig accs feeBps keeperRewardBps =>
      exact ⟨.initializeConfig, accs, (feeBps, keeperRewardBps), rfl⟩
  | updateConfig accs newAdmin newFeeReceiver newFeeBps newKeeperRewardBps =>
      exact ⟨.updateConfig, accs, (newAdmin, newFeeReceiver, newFeeBps, newKeeperRewardBps),
        rfl⟩
  | initializePriceFeed accs symbol decimals initialPrice =>
      exact ⟨.initializePriceFeed, accs, (symbol, decimals, initialPrice), rfl⟩
  | updatePriceFeed accs newPrice => exact ⟨.updatePriceFeed, accs, newPrice, rfl⟩
  | openPosition accs args => exact ⟨.openPosition, accs, args, rfl⟩
  | updateTriggers accs stopPrice takeProfitPrice trailingOffset =>
      exact ⟨.updateTriggers, accs, (stopPrice, takeProfitPrice, trailingOffset), rfl⟩
  | tickPosition accs => exact ⟨.tickPosition, accs, (), rfl⟩
  | cancelPosition accs => exact ⟨.cancelPosition, accs, (), rfl⟩
  | registerLazerFeed accs lazerFeedId channel =>
      exact ⟨.registerLazerFeed, accs, (lazerFeedId, channel), rfl⟩
  | updatePriceFeedFromLazer accs payload =>
      exact ⟨.updatePriceFeedFromLazer, accs, ⟨payload, h⟩, rfl⟩
  | delegatePosition accs => exact ⟨.delegatePosition, accs, (), rfl⟩
  | undelegatePosition accs => exact ⟨.undelegatePosition, accs, (), rfl⟩

/-- A client's call reads as what the client meant. -/
theorem parseInstruction_sent (method : Method) (accs : method.Accounts)
    (args : method.Args) :
    parseInstruction (method.accounts.encode accs) (method.data args) =
      some (method.instruction accs args) :=
  parseInstruction_eq_some_iff.mpr ⟨method, accs, args, rfl,
    ⟨[], (List.append_nil _).symm⟩, [], (List.append_nil _).symm⟩

theorem exists_call {ix : Instruction} (h : ix.Fits) :
    ∃ accounts data, parseInstruction accounts data = some ix := by
  rcases exists_instruction h with ⟨method, accs, args, rfl⟩
  exact ⟨_, _, parseInstruction_sent method accs args⟩

/-- For every account list and byte string: a call is read exactly when the data begins
with some method's discriminator and arguments and the list with that method's accounts,
whatever follows either; the bytes determine the method, its arguments and where they end;
and every instruction is the reading of some call, unless its payload is too long to be
sent at all. -/
theorem instruction_data_format :
    (∀ (accounts : List Pubkey) (data : List UInt8) (ix : Instruction),
      parseInstruction accounts data = some ix ↔
        ∃ (method : Method) (accs : method.Accounts) (args : method.Args),
          ix = method.instruction accs args ∧
          (∃ extra, accounts = method.accounts.encode accs ++ extra) ∧
          ∃ rest, data = method.data args ++ rest) ∧
    (∀ (method method' : Method) (args : method.Args) (args' : method'.Args)
      (rest rest' : List UInt8), method.data args ++ rest = method'.data args' ++ rest' →
        (⟨method, args⟩ : Σ m : Method, m.Args) = ⟨method', args'⟩ ∧ rest = rest') ∧
    ∀ ix : Instruction,
      (∃ accounts data, parseInstruction accounts data = some ix) ↔ ix.Fits := by
  refine ⟨fun accounts data ix => parseInstruction_eq_some_iff, ?_, ?_⟩
  · intro method method' args args' rest rest' h
    exact callCodec.encode_append_inj (a := ⟨method, args⟩) (b := ⟨method', args'⟩) h
  · intro ix
    constructor
    · rintro ⟨accounts, data, h⟩
      rcases parseInstruction_eq_some_iff.mp h with ⟨method, accs, args, rfl, -, -⟩
      exact instruction_fits method accs args
    · exact exists_call

/-! ### Runs of calls as they arrive -/

/-- A call before anything has read it, or a transfer. -/
inductive RawAction where
  | call (tx : Tx) (accounts : List Pubkey) (data : List UInt8)
  | transfer (src dst : Pubkey) (amount : UInt64)
deriving Repr

def RawAction.action : RawAction → Option Action
  | call tx accounts data => (parseInstruction accounts data).map (Action.invoke tx)
  | transfer src dst amount => some (.transfer src dst amount)

/-- A call that does not read as an instruction fails, and changes nothing. -/
def rawStep (rt : Runtime) (w : World) (raw : RawAction) : World :=
  match raw.action with
  | some action => step rt w action
  | none => w

def Action.Fits : Action → Prop
  | .invoke _ ix => ix.Fits
  | .transfer _ _ _ => True

theorem rawRun_eq (rt : Runtime) (w : World) (raws : List RawAction) :
    Transition.run (rawStep rt) w raws = runFrom rt w (raws.filterMap RawAction.action) := by
  induction raws generalizing w with
  | nil => rfl
  | cons raw raws ih =>
      rw [Transition.run_cons, ih, rawStep]
      cases hread : raw.action with
      | none => rw [List.filterMap_cons_none hread]
      | some action =>
          rw [List.filterMap_cons_some hread]
          rfl

theorem action_fits {raw : RawAction} {action : Action} (h : raw.action = some action) :
    action.Fits := by
  cases raw with
  | call tx accounts data =>
      rcases Option.map_eq_some_iff.mp h with ⟨ix, hread, rfl⟩
      rcases parseInstruction_eq_some_iff.mp hread with ⟨method, accs, args, rfl, -, -⟩
      exact instruction_fits method accs args
  | transfer src dst amount =>
      obtain rfl := Option.some.inj h
      trivial

theorem exists_rawAction {action : Action} (h : action.Fits) :
    ∃ raw : RawAction, raw.action = some action := by
  cases action with
  | invoke tx ix =>
      rcases exists_call h with ⟨accounts, data, hread⟩
      exact ⟨.call tx accounts data, by rw [RawAction.action, hread]; rfl⟩
  | transfer src dst amount => exact ⟨.transfer src dst amount, rfl⟩

theorem exists_rawActions {actions : List Action} (h : ∀ action ∈ actions, action.Fits) :
    ∃ raws : List RawAction,
      raws.length = actions.length ∧ raws.filterMap RawAction.action = actions := by
  induction actions with
  | nil => exact ⟨[], rfl, rfl⟩
  | cons action actions ih =>
      rcases exists_rawAction (h action List.mem_cons_self) with ⟨raw, hraw⟩
      rcases ih fun a ha => h a (List.mem_cons_of_mem _ ha) with ⟨raws, hlength, hraws⟩
      refine ⟨raw :: raws, by rw [List.length_cons, hlength, List.length_cons], ?_⟩
      rw [List.filterMap_cons_some hraw, hraws]

/-- The machine that reads calls as bytes and the machine of typed instructions simulate
each other, run for run: whatever arrives, in whatever order and however malformed, leaves
the state of a run of typed actions, and every run of actions that can be written down is
the run of some bytes. -/
theorem raw_runs_simulate (rt : Runtime) (w : World) :
    (∀ raws : List RawAction, ∃ actions : List Action,
      (∀ action ∈ actions, action.Fits) ∧ actions.length ≤ raws.length ∧
        Transition.run (rawStep rt) w raws = runFrom rt w actions) ∧
    ∀ actions : List Action, (∀ action ∈ actions, action.Fits) →
      ∃ raws : List RawAction, raws.length = actions.length ∧
        Transition.run (rawStep rt) w raws = runFrom rt w actions := by
  constructor
  · intro raws
    refine ⟨raws.filterMap RawAction.action, ?_, List.length_filterMap_le _ _,
      rawRun_eq rt w raws⟩
    intro action haction
    rcases List.mem_filterMap.mp haction with ⟨raw, -, hread⟩
    exact action_fits hread
  · intro actions hfits
    rcases exists_rawActions hfits with ⟨raws, hlength, hraws⟩
    exact ⟨raws, hlength, by rw [rawRun_eq, hraws]⟩

end Hwal
