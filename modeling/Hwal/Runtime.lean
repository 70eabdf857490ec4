/-
The platform under the program: transactions, derived addresses, lamport
balances and the accounts the program owns.  What the program only calls, it
takes from a `Runtime`, together with the documented rules it relies on.
-/
import Hwal.Ed25519
import Hwal.Support.BalanceLedger
import Hwal.Support.Guards

namespace Hwal

open Guard

abbrev Lamports := Pubkey → UInt64

/-- The seeds of the program's derived addresses: `["config"]`,
`["feed", symbol]` and `["position", owner, nonce]`. -/
inductive Seeds where
  | config
  | feed (symbol : FeedSymbol)
  | position (owner : Pubkey) (nonce : UInt64)
deriving DecidableEq, Repr

structure TxInstruction where
  programId : Pubkey
  data : List UInt8
deriving DecidableEq, Repr

/-- What an instruction sees of the transaction it runs in. -/
structure Tx where
  signers : List Pubkey
  writable : List Pubkey
  unixTimestamp : Int64
  instructions : List TxInstruction
  currentIndex : UInt16
deriving Repr

structure AccountMeta where
  pubkey : Pubkey
  isSigner : Bool
  isWritable : Bool
deriving DecidableEq, Repr

structure CpiInstruction where
  programId : Pubkey
  accounts : List AccountMeta
  data : List UInt8
deriving DecidableEq, Repr

/-- The platform services, with the rules the program relies on.  A derived
address has no private key, and the delegation program, which does not own the
program's accounts, moves lamports without creating any and without touching
theirs. -/
structure Runtime where
  findProgramAddress : Seeds → Pubkey × UInt8
  createProgramAddress : Seeds → UInt8 → Option Pubkey
  canSign : Pubkey → Bool
  minimumBalance : Nat → UInt64
  ed25519Verify : List UInt8 → List UInt8 → List UInt8 → Bool
  invokeDelegation : CpiInstruction → Tx → Lamports → Option Lamports
  create_find : ∀ seeds, createProgramAddress seeds (findProgramAddress seeds).2 =
    some (findProgramAddress seeds).1
  programAddress_cannot_sign : ∀ seeds bump key,
    createProgramAddress seeds bump = some key → canSign key = false
  invokeDelegation_moves : ∀ ix tx lamports lamports',
    invokeDelegation ix tx lamports = some lamports' →
      ∃ transfers, Ledger.Moved transfers lamports lamports'
  invokeDelegation_keeps : ∀ ix tx lamports lamports',
    invokeDelegation ix tx lamports = some lamports' →
      ∀ seeds bump key, createProgramAddress seeds bump = some key →
        lamports' key = lamports key

/-- `11111111111111111111111111111111`. -/
def systemProgramId : Pubkey := 0#256

/-- `Sysvar1nstructions1111111111111111111111111`. -/
def instructionsSysvarId : Pubkey :=
  0x06a7d517187bd16635dad40455fdc2c0c124c68f215675a5dbbacb5f08000000#256

/-- The data of an account the program owns, told apart by its discriminator. -/
inductive ProgramAccount where
  | config (config : Config)
  | priceFeed (feed : PriceFeed)
  | position (position : Position)
deriving DecidableEq, Repr

/-- Everything an instruction may read or change. -/
structure World where
  lamports : Lamports
  accounts : Pubkey → Option ProgramAccount
  log : List Event

/-- Before the program's first instruction. -/
def World.genesis (lamports : Lamports) : World :=
  ⟨lamports, fun _ => none, []⟩

namespace World

def configs (w : World) (key : Pubkey) : Option Config :=
  match w.accounts key with
  | some (.config config) => some config
  | _ => none

def feeds (w : World) (key : Pubkey) : Option PriceFeed :=
  match w.accounts key with
  | some (.priceFeed feed) => some feed
  | _ => none

def positions (w : World) (key : Pubkey) : Option Position :=
  match w.accounts key with
  | some (.position position) => some position
  | _ => none

def store (w : World) (key : Pubkey) (account : ProgramAccount) : World :=
  { w with accounts := Function.update w.accounts key (some account) }

def emit (w : World) (event : Event) : World :=
  { w with log := w.log ++ [event] }

def withLamports (w : World) (lamports : Lamports) : World :=
  { w with lamports := lamports }

@[simp] theorem genesis_lamports (lamports : Lamports) :
    (genesis lamports).lamports = lamports := rfl

@[simp] theorem genesis_configs (lamports : Lamports) (key : Pubkey) :
    (genesis lamports).configs key = none := rfl

@[simp] theorem genesis_feeds (lamports : Lamports) (key : Pubkey) :
    (genesis lamports).feeds key = none := rfl

@[simp] theorem genesis_positions (lamports : Lamports) (key : Pubkey) :
    (genesis lamports).positions key = none := rfl

section Frames

variable (w : World) (key : Pubkey)

@[simp] theorem store_lamports (account : ProgramAccount) :
    (w.store key account).lamports = w.lamports := rfl

@[simp] theorem emit_lamports (event : Event) : (w.emit event).lamports = w.lamports := rfl

@[simp] theorem emit_accounts (event : Event) : (w.emit event).accounts = w.accounts := rfl

@[simp] theorem emit_configs (event : Event) : (w.emit event).configs = w.configs := rfl

@[simp] theorem emit_feeds (event : Event) : (w.emit event).feeds = w.feeds := rfl

@[simp] theorem emit_positions (event : Event) : (w.emit event).positions = w.positions := rfl

@[simp] theorem withLamports_lamports (lamports : Lamports) :
    (w.withLamports lamports).lamports = lamports := rfl

@[simp] theorem withLamports_accounts (lamports : Lamports) :
    (w.withLamports lamports).accounts = w.accounts := rfl

@[simp] theorem withLamports_configs (lamports : Lamports) :
    (w.withLamports lamports).configs = w.configs := rfl

@[simp] theorem withLamports_feeds (lamports : Lamports) :
    (w.withLamports lamports).feeds = w.feeds := rfl

@[simp] theorem withLamports_positions (lamports : Lamports) :
    (w.withLamports lamports).positions = w.positions := rfl

end Frames

/-! Storing one kind of record leaves the views of the other kinds alone, as
long as the address did not hold one of them. -/

section Views

variable {w : World} {key : Pubkey}

theorem configs_store_config (config : Config) :
    (w.store key (.config config)).configs = Function.update w.configs key (some config) := by
  funext k
  by_cases hk : k = key
  · subst hk
    simp [configs, store]
  · simp [configs, store, hk]

theorem feeds_store_feed (feed : PriceFeed) :
    (w.store key (.priceFeed feed)).feeds = Function.update w.feeds key (some feed) := by
  funext k
  by_cases hk : k = key
  · subst hk
    simp [feeds, store]
  · simp [feeds, store, hk]

theorem positions_store_position (position : Position) :
    (w.store key (.position position)).positions =
      Function.update w.positions key (some position) := by
  funext k
  by_cases hk : k = key
  · subst hk
    simp [positions, store]
  · simp [positions, store, hk]

/-- The record a handler writes last is the one found there. -/
theorem positions_written (position : Position) (event : Event) :
    ((w.store key (.position position)).emit event).positions key = some position := by
  rw [emit_positions, positions_store_position, Function.update_self]

theorem configs_store_of_none {account : ProgramAccount} (h : w.configs key = none)
    (hother : ∀ config, account ≠ .config config) :
    (w.store key account).configs = w.configs := by
  funext k
  by_cases hk : k = key
  · subst hk
    rw [h]
    cases account with
    | config config => exact absurd rfl (hother config)
    | priceFeed feed => simp [configs, store]
    | position position => simp [configs, store]
  · simp [configs, store, hk]

theorem feeds_store_of_none {account : ProgramAccount} (h : w.feeds key = none)
    (hother : ∀ feed, account ≠ .priceFeed feed) :
    (w.store key account).feeds = w.feeds := by
  funext k
  by_cases hk : k = key
  · subst hk
    rw [h]
    cases account with
    | config config => simp [feeds, store]
    | priceFeed feed => exact absurd rfl (hother feed)
    | position position => simp [feeds, store]
  · simp [feeds, store, hk]

theorem positions_store_of_none {account : ProgramAccount} (h : w.positions key = none)
    (hother : ∀ position, account ≠ .position position) :
    (w.store key account).positions = w.positions := by
  funext k
  by_cases hk : k = key
  · subst hk
    rw [h]
    cases account with
    | config config => simp [positions, store]
    | priceFeed feed => simp [positions, store]
    | position position => exact absurd rfl (hother position)
  · simp [positions, store, hk]

theorem views_of_config {config : Config} (h : w.configs key = some config) :
    w.feeds key = none ∧ w.positions key = none := by
  unfold configs at h
  unfold feeds positions
  split at h <;> simp_all

theorem views_of_feed {feed : PriceFeed} (h : w.feeds key = some feed) :
    w.configs key = none ∧ w.positions key = none := by
  unfold feeds at h
  unfold configs positions
  split at h <;> simp_all

theorem views_of_position {position : Position} (h : w.positions key = some position) :
    w.configs key = none ∧ w.feeds key = none := by
  unfold positions at h
  unfold configs feeds
  split at h <;> simp_all

theorem views_of_unused (h : w.accounts key = none) :
    w.configs key = none ∧ w.feeds key = none ∧ w.positions key = none := by
  simp [configs, feeds, positions, h]

theorem unused_of_views (hconfig : w.configs key = none) (hfeed : w.feeds key = none)
    (hposition : w.positions key = none) : w.accounts key = none := by
  cases haccount : w.accounts key with
  | none => rfl
  | some account => cases account <;> simp_all [configs, feeds, positions]

end Views

/-! ### Loading accounts -/

/-- What loading an account the program does not own says: an address without lamports is
nobody's yet, any other belongs to someone else. -/
def notOwned (w : World) (key : Pubkey) : ProgramError :=
  if w.lamports key = 0 then .anchor .accountNotInitialized
  else .anchor .accountOwnedByWrongProgram

/-- `Account<'info, Config>`: owner and discriminator are checked on load. -/
def loadConfig (w : World) (key : Pubkey) : Except ProgramError Config :=
  match w.accounts key with
  | some (.config config) => .ok config
  | some _ => .error (.anchor .accountDiscriminatorMismatch)
  | none => .error (w.notOwned key)

def loadPriceFeed (w : World) (key : Pubkey) : Except ProgramError PriceFeed :=
  match w.accounts key with
  | some (.priceFeed feed) => .ok feed
  | some _ => .error (.anchor .accountDiscriminatorMismatch)
  | none => .error (w.notOwned key)

def loadPosition (w : World) (key : Pubkey) : Except ProgramError Position :=
  match w.accounts key with
  | some (.position position) => .ok position
  | some _ => .error (.anchor .accountDiscriminatorMismatch)
  | none => .error (w.notOwned key)

theorem notOwned_eq_anchor (w : World) (key : Pubkey) : ∃ e, w.notOwned key = .anchor e := by
  unfold notOwned
  split
  · exact ⟨_, rfl⟩
  · exact ⟨_, rfl⟩

/-! Whatever is wrong with a loaded account, it is the framework that says so. -/

theorem loadConfig_refused {w : World} {key : Pubkey} {error : ProgramError}
    (h : w.loadConfig key = .error error) : ∃ e, error = .anchor e := by
  unfold loadConfig at h
  split at h
  · contradiction
  · exact ⟨_, (Except.error.inj h).symm⟩
  · exact Except.error.inj h ▸ w.notOwned_eq_anchor key

theorem loadPriceFeed_refused {w : World} {key : Pubkey} {error : ProgramError}
    (h : w.loadPriceFeed key = .error error) : ∃ e, error = .anchor e := by
  unfold loadPriceFeed at h
  split at h
  · contradiction
  · exact ⟨_, (Except.error.inj h).symm⟩
  · exact Except.error.inj h ▸ w.notOwned_eq_anchor key

theorem loadPosition_refused {w : World} {key : Pubkey} {error : ProgramError}
    (h : w.loadPosition key = .error error) : ∃ e, error = .anchor e := by
  unfold loadPosition at h
  split at h
  · contradiction
  · exact ⟨_, (Except.error.inj h).symm⟩
  · exact Except.error.inj h ▸ w.notOwned_eq_anchor key

theorem configs_eq_some_iff {w : World} {key : Pubkey} {config : Config} :
    w.configs key = some config ↔ w.accounts key = some (.config config) := by
  unfold configs
  split <;> simp_all

theorem feeds_eq_some_iff {w : World} {key : Pubkey} {feed : PriceFeed} :
    w.feeds key = some feed ↔ w.accounts key = some (.priceFeed feed) := by
  unfold feeds
  split <;> simp_all

theorem positions_eq_some_iff {w : World} {key : Pubkey} {position : Position} :
    w.positions key = some position ↔ w.accounts key = some (.position position) := by
  unfold positions
  split <;> simp_all

theorem loadConfig_eq_ok_iff {w : World} {key : Pubkey} {config : Config} :
    w.loadConfig key = .ok config ↔ w.configs key = some config := by
  unfold loadConfig configs
  split <;> simp_all

theorem loadPriceFeed_eq_ok_iff {w : World} {key : Pubkey} {feed : PriceFeed} :
    w.loadPriceFeed key = .ok feed ↔ w.feeds key = some feed := by
  unfold loadPriceFeed feeds
  split <;> simp_all

theorem loadPosition_eq_ok_iff {w : World} {key : Pubkey} {position : Position} :
    w.loadPosition key = .ok position ↔ w.positions key = some position := by
  unfold loadPosition positions
  split <;> simp_all

end World

/-! ### Account constraints -/

/-- `Signer<'info>`. -/
def Tx.requireSigner (tx : Tx) (key : Pubkey) : Except ProgramError Unit :=
  require (key ∈ tx.signers) (.anchor .accountNotSigner)

/-- `#[account(mut)]`. -/
def Tx.requireMut (tx : Tx) (key : Pubkey) : Except ProgramError Unit :=
  require (key ∈ tx.writable) (.anchor .constraintMut)

/-- `#[account(seeds = [..], bump = bump)]`. -/
def Runtime.requireSeeds (rt : Runtime) (seeds : Seeds) (bump : UInt8) (key : Pubkey) :
    Except ProgramError Unit :=
  require (rt.createProgramAddress seeds bump = some key) (.anchor .constraintSeeds)

/-- `#[account(address = expected)]`, with the error the program names or the
framework's own. -/
def requireAddress (key expected : Pubkey) (error : ProgramError) : Except ProgramError Unit :=
  require (key = expected) error

/-- `Program<'info, System>`. -/
def requireSystemProgram (key : Pubkey) : Except ProgramError Unit :=
  require (key = systemProgramId) (.anchor .invalidProgramId)

/-! ### The system program -/

/-- `system_program::transfer`. -/
def systemTransfer (lamports : Lamports) (src dst : Pubkey) (amount : UInt64) :
    Except ProgramError Lamports := do
  require (amount ≤ lamports src) (.system .insufficientFunds)
  okOr (Ledger.move? lamports src dst amount) (.system .arithmeticOverflow)

theorem systemTransfer_eq_ok {lamports lamports' : Lamports} {src dst : Pubkey}
    {amount : UInt64} (h : systemTransfer lamports src dst amount = .ok lamports') :
    Ledger.Moved [⟨src, dst, amount.toNat⟩] lamports lamports' := by
  simp only [systemTransfer, require_bind_eq_ok_iff, okOr_eq_ok_iff] at h
  exact (Ledger.move?_eq_some h.2).2

/-- The part of `init` that tops an account up to the rent-exempt minimum. -/
def World.fundRent (w : World) (rt : Runtime) (payer account : Pubkey) (space : Nat) :
    Except ProgramError Lamports :=
  let required := (rt.minimumBalance space).saturatingSub (w.lamports account)
  if required > 0 then systemTransfer w.lamports payer account required
  else .ok w.lamports

/-- What `init` asks of the system program.  An address without lamports is created in one
call; one that has some is topped up first, and allocated and assigned after.  No call may
write an account that was not passed writable. -/
def World.createAccount (w : World) (rt : Runtime) (tx : Tx) (payer account : Pubkey)
    (space : Nat) : Except ProgramError Lamports :=
  if w.lamports account = 0 then do
    require (payer ∈ tx.writable ∧ account ∈ tx.writable) (.system .privilegeEscalation)
    require (w.accounts account = none) (.system .accountAlreadyInUse)
    w.fundRent rt payer account space
  else do
    require ((rt.minimumBalance space).saturatingSub (w.lamports account) > 0 →
      payer ∈ tx.writable ∧ account ∈ tx.writable) (.system .privilegeEscalation)
    let lamports ← w.fundRent rt payer account space
    require (account ∈ tx.writable) (.system .privilegeEscalation)
    require (w.accounts account = none) (.system .accountAlreadyInUse)
    return lamports

/-- `#[account(init, payer, space, seeds, bump)]`: the address must be the canonical one and
still unused, and the payer brings it to the rent-exempt minimum.  That the payer is `mut`
is checked when this is done. -/
def World.initAccount (w : World) (rt : Runtime) (tx : Tx) (payer account : Pubkey)
    (seeds : Seeds) (space : Nat) : Except ProgramError (Lamports × UInt8) := do
  require (account = (rt.findProgramAddress seeds).1) (.anchor .constraintSeeds)
  let lamports ← w.createAccount rt tx payer account space
  tx.requireMut payer
  return (lamports, (rt.findProgramAddress seeds).2)

/-- What a successful `init` leaves behind. -/
structure Initialized (rt : Runtime) (w : World) (payer account : Pubkey) (seeds : Seeds)
    (space : Nat) (lamports : Lamports) (bump : UInt8) : Prop where
  address : account = (rt.findProgramAddress seeds).1
  bump_eq : bump = (rt.findProgramAddress seeds).2
  unused : w.accounts account = none
  moved : Ledger.Moved
    [⟨payer, account, (rt.minimumBalance space).toNat - (w.lamports account).toNat⟩]
    w.lamports lamports

theorem fundRent_eq_ok {rt : Runtime} {w : World} {payer account : Pubkey} {space : Nat}
    {lamports : Lamports} (h : w.fundRent rt payer account space = .ok lamports) :
    Ledger.Moved
      [⟨payer, account, (rt.minimumBalance space).toNat - (w.lamports account).toNat⟩]
      w.lamports lamports := by
  rw [← UInt64.toNat_saturatingSub]
  unfold World.fundRent at h
  by_cases hzero : (rt.minimumBalance space).saturatingSub (w.lamports account) > 0
  · simp only [hzero, ↓reduceIte] at h
    exact systemTransfer_eq_ok h
  · simp only [hzero, ↓reduceIte, Except.ok.injEq] at h
    subst h
    have hnone :
        ((rt.minimumBalance space).saturatingSub (w.lamports account)).toNat = 0 := by
      have hle := UInt64.le_iff_toNat_le.mp (UInt64.not_lt.mp hzero)
      simpa using hle
    intro k
    simp [hnone, Ledger.Transfer.delta]

/-- Created in one call or topped up first, it takes the same to go through. -/
theorem createAccount_eq_ok_iff {rt : Runtime} {w : World} {tx : Tx} {payer account : Pubkey}
    {space : Nat} {lamports : Lamports} (hpayer : payer ∈ tx.writable) :
    w.createAccount rt tx payer account space = .ok lamports ↔
      account ∈ tx.writable ∧ w.accounts account = none ∧
        w.fundRent rt payer account space = .ok lamports := by
  unfold World.createAccount
  split
  · simp only [bind_eq_ok_iff, require_eq_ok_iff, exists_and_left, exists_const, hpayer,
      true_and]
  · simp only [bind_eq_ok_iff, require_eq_ok_iff, exists_and_left, exists_const, hpayer,
      true_and, pure_eq_ok_iff]
    constructor
    · rintro ⟨-, found, hfund, haccount, hunused, rfl⟩
      exact ⟨haccount, hunused, hfund⟩
    · rintro ⟨haccount, hunused, hfund⟩
      exact ⟨fun _ => haccount, lamports, hfund, haccount, hunused, rfl⟩

theorem initAccount_eq_ok_iff {rt : Runtime} {w : World} {tx : Tx} {payer account : Pubkey}
    {seeds : Seeds} {space : Nat} {lamports : Lamports} {bump : UInt8} :
    w.initAccount rt tx payer account seeds space = .ok (lamports, bump) ↔
      account = (rt.findProgramAddress seeds).1 ∧ payer ∈ tx.writable ∧
        account ∈ tx.writable ∧ w.accounts account = none ∧
        w.fundRent rt payer account space = .ok lamports ∧
        bump = (rt.findProgramAddress seeds).2 := by
  simp only [World.initAccount, Tx.requireMut, bind_eq_ok_iff, require_eq_ok_iff,
    exists_and_left, exists_const, pure_eq_ok_iff, Prod.mk.injEq]
  constructor
  · rintro ⟨haddress, found, hcreate, hpayer, rfl, rfl⟩
    rcases (createAccount_eq_ok_iff hpayer).mp hcreate with ⟨haccount, hunused, hfund⟩
    exact ⟨haddress, hpayer, haccount, hunused, hfund, rfl⟩
  · rintro ⟨haddress, hpayer, haccount, hunused, hfund, rfl⟩
    exact ⟨haddress, lamports, (createAccount_eq_ok_iff hpayer).mpr ⟨haccount, hunused, hfund⟩,
      hpayer, rfl, rfl⟩

theorem initAccount_eq_ok {rt : Runtime} {w : World} {tx : Tx} {payer account : Pubkey}
    {seeds : Seeds} {space : Nat} {lamports : Lamports} {bump : UInt8}
    (h : w.initAccount rt tx payer account seeds space = .ok (lamports, bump)) :
    Initialized rt w payer account seeds space lamports bump := by
  rcases initAccount_eq_ok_iff.mp h with ⟨haddress, -, -, hunused, hfund, hbump⟩
  exact ⟨haddress, hbump, hunused, fundRent_eq_ok hfund⟩

/-! ### Transactions the cluster runs -/

/-- Only keys with an authority behind them sign. -/
def Tx.authentic (rt : Runtime) (tx : Tx) : Bool :=
  tx.signers.all rt.canSign

/-- Every Ed25519 instruction of the transaction passes its precompile. -/
def Tx.precompilesPass (rt : Runtime) (tx : Tx) : Bool :=
  tx.instructions.all fun ix =>
    ix.programId != Ed25519.programId ||
      Ed25519.verify rt.ed25519Verify ix.data (tx.instructions.map TxInstruction.data)

theorem Tx.canSign_of_mem {rt : Runtime} {tx : Tx} (h : tx.authentic rt = true)
    {key : Pubkey} (hkey : key ∈ tx.signers) : rt.canSign key = true :=
  List.all_eq_true.mp h key hkey

end Hwal
