/-
The program as a state machine: the twelve instructions, the lamport transfers
anyone may make between instructions, and the runs they generate from genesis.
A failed action leaves the world as it was.
-/
import Hwal.ConfigInstructions
import Hwal.LazerInstruction
import Hwal.Delegation
import Hwal.Support.TransitionTrace

namespace Hwal

open Guard

inductive Instruction where
  | initializeConfig (accs : InitializeConfig) (feeBps keeperRewardBps : UInt16)
  | updateConfig (accs : UpdateConfig) (newAdmin newFeeReceiver : Option Pubkey)
      (newFeeBps newKeeperRewardBps : Option UInt16)
  | initializePriceFeed (accs : InitializePriceFeed) (symbol : FeedSymbol)
      (decimals : UInt8) (initialPrice : UInt64)
  | updatePriceFeed (accs : UpdatePriceFeed) (newPrice : UInt64)
  | openPosition (accs : OpenPosition) (args : OpenPositionArgs)
  | updateTriggers (accs : UpdateTriggers)
      (stopPrice takeProfitPrice trailingOffset : UInt64)
  | tickPosition (accs : TickPosition)
  | cancelPosition (accs : CancelPosition)
  | registerLazerFeed (accs : RegisterLazerFeed) (lazerFeedId : UInt64) (channel : UInt8)
  | updatePriceFeedFromLazer (accs : UpdatePriceFeedFromLazer) (payload : List UInt8)
  | delegatePosition (accs : DelegatePosition)
  | undelegatePosition (accs : UndelegatePosition)
deriving DecidableEq, Repr

/-- The dispatch of `lib.rs`. -/
def execute (rt : Runtime) (w : World) (tx : Tx) : Instruction → Except ProgramError World
  | .initializeConfig accs feeBps keeperRewardBps =>
      initializeConfig rt w tx accs feeBps keeperRewardBps
  | .updateConfig accs newAdmin newFeeReceiver newFeeBps newKeeperRewardBps =>
      updateConfig rt w tx accs newAdmin newFeeReceiver newFeeBps newKeeperRewardBps
  | .initializePriceFeed accs symbol decimals initialPrice =>
      initializePriceFeed rt w tx accs symbol decimals initialPrice
  | .updatePriceFeed accs newPrice => updatePriceFeed w tx accs newPrice
  | .openPosition accs args => openPosition rt w tx accs args
  | .updateTriggers accs stopPrice takeProfitPrice trailingOffset =>
      updateTriggers rt w tx accs stopPrice takeProfitPrice trailingOffset
  | .tickPosition accs => tickPosition rt w tx accs
  | .cancelPosition accs => cancelPosition rt w tx accs
  | .registerLazerFeed accs lazerFeedId channel =>
      registerLazerFeed rt w tx accs lazerFeedId channel
  | .updatePriceFeedFromLazer accs payload => updatePriceFeedFromLazer w tx accs payload
  | .delegatePosition accs => delegatePosition rt w tx accs
  | .undelegatePosition accs => undelegatePosition rt w tx accs

/-- One thing that can happen: an instruction of the program inside some
transaction, or a transfer of lamports by someone else. -/
inductive Action where
  | invoke (tx : Tx) (ix : Instruction)
  | transfer (src dst : Pubkey) (amount : UInt64)
deriving Repr

def Action.time : Action → Option Int64
  | .invoke tx _ => some tx.unixTimestamp
  | .transfer _ _ _ => none

/-- The clock of a run never goes backwards. -/
def ClockMonotone (actions : List Action) : Prop :=
  (actions.filterMap Action.time).Pairwise fun earlier later => earlier.toInt ≤ later.toInt

/-- An instruction runs only in a transaction whose signers can sign and whose
precompiles pass; outside the program, lamports leave only accounts that have
an authority of their own.  What the platform does once the programs of a transaction have
returned is left out: the fee of its signatures, and the rent rule for the accounts it
wrote, which `RentRule` states for a settlement. -/
def attempt (rt : Runtime) (w : World) : Action → Except ProgramError World
  | .invoke tx ix => do
      require (tx.authentic rt = true) (.system .signerNotAuthentic)
      require (tx.precompilesPass rt = true) (.system .precompileFailed)
      execute rt w tx ix
  | .transfer src dst amount => do
      require (rt.canSign src = true) (.system .signerNotAuthentic)
      let lamports ← systemTransfer w.lamports src dst amount
      return w.withLamports lamports

def step (rt : Runtime) (w : World) (action : Action) : World :=
  match attempt rt w action with
  | .ok w' => w'
  | .error _ => w

theorem step_of_ok {rt : Runtime} {w w' : World} {action : Action}
    (h : attempt rt w action = .ok w') : step rt w action = w' := by
  simp [step, h]

theorem step_of_error {rt : Runtime} {w : World} {action : Action} {error : ProgramError}
    (h : attempt rt w action = .error error) : step rt w action = w := by
  simp [step, h]

/-- The state after a list of actions from genesis. -/
abbrev runFrom (rt : Runtime) (w : World) (actions : List Action) : World :=
  Transition.run (step rt) w actions

abbrev Moment := Transition.Moment World Action

/-- Everything that happened in a run. -/
abbrev historyFrom (rt : Runtime) (w : World) (actions : List Action) : List Moment :=
  Transition.trace (step rt) w actions

theorem runFrom_snoc (rt : Runtime) (w : World) (actions : List Action) (action : Action) :
    runFrom rt w (actions ++ [action]) = step rt (runFrom rt w actions) action :=
  Transition.run_snoc ..

theorem historyFrom_snoc (rt : Runtime) (w : World) (actions : List Action)
    (action : Action) :
    historyFrom rt w (actions ++ [action]) = historyFrom rt w actions ++
      [⟨runFrom rt w actions, action, step rt (runFrom rt w actions) action⟩] :=
  Transition.trace_snoc ..

/-- A state some run from genesis ends in. -/
def Reachable (rt : Runtime) (w : World) : Prop :=
  ∃ lamports actions, w = runFrom rt (World.genesis lamports) actions

/-- As `Reachable`, with every lamport in existence accounted for by `u64::MAX`. -/
def ReachableWithSupply (rt : Runtime) (w : World) : Prop :=
  ∃ lamports actions, Ledger.SupplyAtMost (2 ^ 64 - 1) lamports ∧
    w = runFrom rt (World.genesis lamports) actions

theorem ReachableWithSupply.reachable {rt : Runtime} {w : World}
    (h : ReachableWithSupply rt w) : Reachable rt w := by
  obtain ⟨lamports, actions, -, hw⟩ := h
  exact ⟨lamports, actions, hw⟩

theorem Reachable.run {rt : Runtime} {w : World} (h : Reachable rt w)
    (actions : List Action) : Reachable rt (runFrom rt w actions) := by
  obtain ⟨lamports, earlier, rfl⟩ := h
  exact ⟨lamports, earlier ++ actions, (Transition.run_append _ _ _ _).symm⟩

theorem ReachableWithSupply.run {rt : Runtime} {w : World} (h : ReachableWithSupply rt w)
    (actions : List Action) : ReachableWithSupply rt (runFrom rt w actions) := by
  obtain ⟨lamports, earlier, hsupply, rfl⟩ := h
  exact ⟨lamports, earlier ++ actions, hsupply, (Transition.run_append _ _ _ _).symm⟩

theorem ReachableWithSupply.step {rt : Runtime} {w : World} (h : ReachableWithSupply rt w)
    (action : Action) : ReachableWithSupply rt (step rt w action) :=
  h.run [action]

/-- An instruction took effect at this moment. -/
def Succeeded (rt : Runtime) (m : Moment) : Prop :=
  attempt rt m.before m.action = .ok m.after

/-- Every moment of a run starts in a reachable state and is one step of it. -/
theorem reachable_of_mem_history {rt : Runtime} {lamports : Lamports} {actions : List Action}
    {m : Moment} (h : m ∈ historyFrom rt (World.genesis lamports) actions) :
    Reachable rt m.before ∧ m.after = step rt m.before m.action := by
  rcases (Transition.mem_trace_iff (step rt)).mp h with ⟨earlier, later, -, hbefore, hafter⟩
  exact ⟨⟨lamports, earlier, hbefore⟩, hafter⟩

theorem action_mem_of_mem_history {rt : Runtime} {w : World} {actions : List Action}
    {m : Moment} (h : m ∈ historyFrom rt w actions) : m.action ∈ actions := by
  rcases (Transition.mem_trace_iff (step rt)).mp h with ⟨earlier, later, hactions, -⟩
  rw [hactions]
  exact List.mem_append_right _ List.mem_cons_self

theorem attempt_invoke_eq_ok_iff {rt : Runtime} {w w' : World} {tx : Tx} {ix : Instruction} :
    attempt rt w (.invoke tx ix) = .ok w' ↔
      tx.authentic rt = true ∧ tx.precompilesPass rt = true ∧
        execute rt w tx ix = .ok w' := by
  simp only [attempt, bind_eq_ok_iff, require_eq_ok_iff, exists_and_left, exists_const]

theorem attempt_transfer_eq_ok {rt : Runtime} {w w' : World} {src dst : Pubkey}
    {amount : UInt64} (h : attempt rt w (.transfer src dst amount) = .ok w') :
    ∃ lamports, rt.canSign src = true ∧
      Ledger.Moved [⟨src, dst, amount.toNat⟩] w.lamports lamports ∧
      w' = w.withLamports lamports := by
  simp only [attempt, bind_eq_ok_iff, require_eq_ok_iff, exists_and_left, exists_const,
    pure_eq_ok_iff] at h
  obtain ⟨hsrc, lamports, htransfer, rfl⟩ := h
  exact ⟨lamports, hsrc, systemTransfer_eq_ok htransfer, rfl⟩

/-- Either an action took effect, or nothing changed. -/
theorem step_cases (rt : Runtime) (w : World) (action : Action) :
    attempt rt w action = .ok (step rt w action) ∨ step rt w action = w := by
  rcases ok_or_error (attempt rt w action) with ⟨w', hok⟩ | ⟨error, herror⟩
  · left
    rw [step_of_ok hok, hok]
  · exact Or.inr (step_of_error herror)

/-- An action is seen to succeed by running it. -/
theorem succeeded_of_isOk {rt : Runtime} {w : World} {action : Action}
    (h : (attempt rt w action).isOk = true) : attempt rt w action = .ok (step rt w action) := by
  cases hattempt : attempt rt w action with
  | ok w' => rw [step_of_ok hattempt]
  | error error => rw [hattempt] at h; contradiction

theorem succeeded_of_all {rt : Runtime} {w : World} {actions : List Action}
    (h : (historyFrom rt w actions).all
      (fun m => (attempt rt m.before m.action).isOk) = true) :
    ∀ m ∈ historyFrom rt w actions, Succeeded rt m := by
  intro m hm
  rcases (Transition.mem_trace_iff (step rt)).mp hm with ⟨earlier, later, -, -, hafter⟩
  rw [Succeeded, hafter]
  exact succeeded_of_isOk (List.all_eq_true.mp h m hm)

/-- The moment at which an action of a run takes place. -/
def momentAt (rt : Runtime) (w : World) (earlier : List Action) (action : Action) : Moment :=
  ⟨runFrom rt w earlier, action, step rt (runFrom rt w earlier) action⟩

theorem momentAt_mem_history (rt : Runtime) (w : World) (earlier later : List Action)
    (action : Action) :
    momentAt rt w earlier action ∈ historyFrom rt w (earlier ++ action :: later) := by
  apply (Transition.mem_trace_iff (step rt)).mpr
  exact ⟨earlier, later, rfl, rfl, rfl⟩

/-! ### A local cluster

Concrete keys, the program's real addresses for them, and three signatures made
with real keys: a runtime that satisfies every rule, on which runs can be
evaluated. -/

namespace Localnet

def admin : Pubkey :=
  0x8a88e3dd7409f195fd52db2d3cba5d72ca6709bf1d94121bf3748801b40f6f5c#256

def alice : Pubkey :=
  0x8139770ea87d175f56a35466c34c7ecccb8d8a91b4ee37a25df60f5b8fc9b394#256

def keeper : Pubkey :=
  0xca93ac1705187071d67b83c7ff0efe8108e8ec4530575d7726879333dbdabe7c#256

def feeReceiver : Pubkey :=
  0x6e7a1cdd29b0b78fd13af4c5598feff4ef2a97166e3ca6f2e4fbfccd80505bf1#256

def feedAuthority : Pubkey :=
  0x8a875fff1eb38451577acd5afee405456568dd7c89e090863a0557bc7af49f17#256

def poster : Pubkey :=
  0xea4a6c63e29c520abef5507b132ec5f9954776aebebe7b92421eea691446d22c#256

def wallets : List Pubkey := [admin, alice, keeper, feeReceiver, feedAuthority, poster]

/-- `b"SOL"`, zero-padded. -/
def symbol : FeedSymbol := #v[83, 79, 76, 0, 0, 0, 0, 0, 0, 0, 0, 0, 0, 0, 0, 0]

def config : Pubkey :=
  0x856b36125f17245523b34dff63e0906543dd37f53d7c8331399be489d72a5752#256

def feed : Pubkey :=
  0x00ce537ea910f3ea2a363968905d2e86e39f9b352b1e738df1da597cfcd8cbfd#256

def position : Pubkey :=
  0x34c7bc43a84a93a63f37678a29bde4e5da914596ee0a46d452bbaa13c0d0cb9a#256

/-- Addresses and bumps of the seeds in use. -/
def addresses : List (Seeds × Pubkey × UInt8) :=
  [(.config, config, 255), (.feed symbol, feed, 254), (.position alice 1, position, 255)]

/-- Seeds nothing uses get an address nothing uses. -/
def findProgramAddress (seeds : Seeds) : Pubkey × UInt8 :=
  (addresses.lookup seeds).getD (1#256, 255)

theorem findProgramAddress_not_wallet (seeds : Seeds) :
    (findProgramAddress seeds).1 ∉ wallets := by
  have hlisted : ∀ entry ∈ addresses, entry.2.1 ∉ wallets := by decide
  cases hlookup : addresses.lookup seeds with
  | none =>
      rw [findProgramAddress, hlookup]
      decide
  | some found =>
      rw [findProgramAddress, hlookup]
      rcases List.lookup_eq_some_iff.mp hlookup with ⟨before, after, hsplit, -⟩
      apply hlisted (seeds, found)
      rw [hsplit]
      exact List.mem_append_right _ List.mem_cons_self

/-- The key of the price publisher. -/
def publisher : List UInt8 :=
  pubkeyBytes 0x1398f62c6d1a457c51ba6a4b5f3dbd2f69fca93216218dc8997e416bd17d93ca#256

/-- A key that belongs to nobody the program knows. -/
def outsider : List UInt8 :=
  pubkeyBytes 0xfd1724385aa0c75b64fb78cd602fa1d991fdebf76b13c58ed702eac835e9f618#256

/-- The publisher's message for second 1008. -/
def recentEntry : Ed25519.SignatureEntry :=
  { publicKey := publisher
    signature := Bytes.natToLe 32
        0xac29f91993cac0fb34e6b8dbc0b5e464a601a12c944d16d3f6def6248a20dbe3 ++
      Bytes.natToLe 32
        0x0f10d8b36806274fabc88d591debfb48124ce5c439ec1806b5d04c420334067f
    message := encodeLazerPayload ⟨6, 1008, 99000000, 1⟩ }

/-- The publisher's earlier message, for second 1006. -/
def earlierEntry : Ed25519.SignatureEntry :=
  { publicKey := publisher
    signature := Bytes.natToLe 32
        0x5b3bb7751866f35b0499be80d7274a0c84e4f154172bebc18085979d72b58b4e ++
      Bytes.natToLe 32
        0x046c4ba1659a272ae683c787ea90a2833d4bd81c67638b6c011dcef47cd54615
    message := encodeLazerPayload ⟨6, 1006, 101000000, 1⟩ }

/-- A message the outsider wrote and signed. -/
def forgedEntry : Ed25519.SignatureEntry :=
  { publicKey := outsider
    signature := Bytes.natToLe 32
        0x42c2429090193f024b8f70d5755645bd680547e0f9b18db63e07f0cf6edb2a42 ++
      Bytes.natToLe 32
        0x0d457061269d1653fbc265620a813b106bf6ad03057954586f6349122d68c766
    message := encodeLazerPayload ⟨6, 1010, 1, 1⟩ }

/-- The signatures anyone has made. -/
def signatures : List Ed25519.SignatureEntry := [recentEntry, earlierEntry, forgedEntry]

def cluster : Runtime where
  findProgramAddress := findProgramAddress
  createProgramAddress seeds bump :=
    if bump = (findProgramAddress seeds).2 then some (findProgramAddress seeds).1 else none
  canSign key := wallets.contains key
  minimumBalance space := UInt64.ofNat (6960 * (128 + space))
  ed25519Verify publicKey signature message :=
    decide (⟨publicKey, signature, message⟩ ∈ signatures)
  invokeDelegation _ _ lamports := some lamports
  create_find seeds := by simp
  programAddress_cannot_sign seeds bump key h := by
    split at h
    · rw [← Option.some.inj h]
      simpa using findProgramAddress_not_wallet seeds
    · contradiction
  invokeDelegation_moves ix tx lamports lamports' h := by
    rw [← Option.some.inj h]
    exact ⟨[], Ledger.Moved.nil _⟩
  invokeDelegation_keeps ix tx lamports lamports' h seeds bump key hkey := by
    rw [← Option.some.inj h]

/-- Two SOL in every wallet. -/
def funds (key : Pubkey) : UInt64 := if wallets.contains key then 2000000000 else 0

theorem funds_supply : Ledger.SupplyAtMost (2 ^ 64 - 1) funds := by
  intro S
  have hvalue (key : Pubkey) :
      (funds key).toNat = if key ∈ wallets.toFinset then 2000000000 else 0 := by
    by_cases hkey : key ∈ wallets <;> simp [funds, hkey]
  calc ∑ key ∈ S, (funds key).toNat
      = ∑ key ∈ S ∩ wallets.toFinset, 2000000000 := by
        simp only [hvalue, Finset.sum_ite_mem]
    _ = (S ∩ wallets.toFinset).card * 2000000000 := by
        rw [Finset.sum_const, Nat.nsmul_eq_mul]
    _ ≤ wallets.toFinset.card * 2000000000 :=
        Nat.mul_le_mul_right _ (Finset.card_le_card Finset.inter_subset_right)
    _ ≤ 2 ^ 64 - 1 := by decide

/-- A transaction with one signer and every account writable. -/
def tx (signer : Pubkey) (now : Int64) : Tx :=
  { signers := [signer]
    writable := wallets ++ addresses.map fun entry => entry.2.1
    unixTimestamp := now
    instructions := []
    currentIndex := 0 }

/-- A posted price: the Ed25519 instruction first, then the program's. -/
def lazerTx (now : Int64) (data : List UInt8) : Tx :=
  { tx poster now with
    instructions := [⟨Ed25519.programId, data⟩]
    currentIndex := 1 }

/-- Config, feed, and the feed's registration as a Lazer feed. -/
def launch : List Action :=
  [.invoke (tx admin 1000)
      (.initializeConfig ⟨admin, feeReceiver, config, systemProgramId⟩ 50 25),
    .invoke (tx admin 1001)
      (.initializePriceFeed ⟨admin, config, feedAuthority, feed, systemProgramId⟩ symbol 6
        100000000),
    .invoke (tx admin 1002) (.registerLazerFeed ⟨admin, config, feed⟩ 6 1)]

/-- The feed as registered. -/
def launchedFeed : PriceFeed :=
  (newPriceFeed ⟨admin, config, feedAuthority, feed, systemProgramId⟩ symbol 6 100000000 1001
    254).register 6 1

/-- A long position with a stop and a take-profit. -/
def deposit : Action :=
  .invoke (tx alice 1003)
    (.openPosition ⟨alice, config, feed, position, systemProgramId⟩
      ⟨1, 0, 50000000, 90000000, 120000000, 0⟩)

def push (price : UInt64) (now : Int64) : Action :=
  .invoke (tx feedAuthority now) (.updatePriceFeed ⟨feedAuthority, feed⟩ price)

def tick (payee : Pubkey) (now : Int64) : Action :=
  .invoke (tx keeper now) (.tickPosition ⟨keeper, config, feed, position, alice, payee⟩)

def cancel (now : Int64) : Action :=
  .invoke (tx alice now) (.cancelPosition ⟨alice, config, position⟩)

def retarget (stopPrice takeProfitPrice trailingOffset : UInt64) (now : Int64) : Action :=
  .invoke (tx alice now)
    (.updateTriggers ⟨alice, position⟩ stopPrice takeProfitPrice trailingOffset)

end Localnet

end Hwal
