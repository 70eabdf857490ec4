/-
The bytes of the program's three accounts: an 8-byte discriminator, then the record's
fields in the order of their declaration, padding and reserved bytes included.
-/
import Hwal.Runtime
import Hwal.Support.Codec

namespace Hwal

open Guard

/-! ### Fields shared by accounts, instructions and events -/

def pubkeyCodec : Codec UInt8 Pubkey := Codec.be 32

def symbolCodec : Codec UInt8 FeedSymbol := Codec.fixed 16

theorem pubkeyCodec_sized : pubkeyCodec.Sized 32 := Codec.be_sized 32

theorem symbolCodec_sized : symbolCodec.Sized 16 := Codec.fixed_sized 16

/-! ### The three records -/

/-- `Config`, and its 64 reserved bytes. -/
def configCodec : Codec UInt8 (Config × Vector UInt8 64) :=
  (pubkeyCodec.pair <| pubkeyCodec.pair <| Codec.u16.pair <| Codec.u16.pair <|
      Codec.u64.pair <| Codec.u64.pair <| Codec.u64.pair <| Codec.u64.pair <|
      Codec.u64.pair <| Codec.u8.pair <| Codec.fixed 64).map
    { toFun := fun (admin, feeReceiver, feeBps, keeperRewardBps, totalPositionsOpened,
          totalPositionsTriggered, totalPositionsCancelled, totalFeesCollected,
          totalKeeperRewardsPaid, bump, reserved) =>
        (⟨admin, feeReceiver, feeBps, keeperRewardBps, totalPositionsOpened,
          totalPositionsTriggered, totalPositionsCancelled, totalFeesCollected,
          totalKeeperRewardsPaid, bump⟩, reserved)
      invFun := fun (config, reserved) =>
        (config.admin, config.feeReceiver, config.feeBps, config.keeperRewardBps,
          config.totalPositionsOpened, config.totalPositionsTriggered,
          config.totalPositionsCancelled, config.totalFeesCollected,
          config.totalKeeperRewardsPaid, config.bump, reserved)
      left_inv := fun _ => rfl
      right_inv := fun _ => rfl }

/-- `PriceFeed`, and its 22 reserved bytes. -/
def priceFeedCodec : Codec UInt8 (PriceFeed × Vector UInt8 22) :=
  (pubkeyCodec.pair <| symbolCodec.pair <| Codec.u8.pair <| Codec.u64.pair <|
      Codec.i64.pair <| Codec.u64.pair <| Codec.u8.pair <| Codec.u8.pair <|
      Codec.u8.pair <| Codec.u64.pair <| Codec.fixed 22).map
    { toFun := fun (authority, symbol, decimals, price, lastUpdated, updateCount, bump,
          source, lazerChannel, lazerFeedId, reserved) =>
        (⟨authority, symbol, decimals, price, lastUpdated, updateCount, bump, source,
          lazerChannel, lazerFeedId⟩, reserved)
      invFun := fun (feed, reserved) =>
        (feed.authority, feed.symbol, feed.decimals, feed.price, feed.lastUpdated,
          feed.updateCount, feed.bump, feed.source, feed.lazerChannel, feed.lazerFeedId,
          reserved)
      left_inv := fun _ => rfl
      right_inv := fun _ => rfl }

/-- `Position`; `_pad` stands between the trigger reason and the collateral. -/
def positionCodec : Codec UInt8 (Position × UInt8 × Vector UInt8 31) :=
  (pubkeyCodec.pair <| pubkeyCodec.pair <| pubkeyCodec.pair <| Codec.u64.pair <|
      Codec.u8.pair <| Codec.u8.pair <| Codec.u8.pair <| Codec.u8.pair <|
      Codec.u64.pair <| Codec.u64.pair <| Codec.u64.pair <| Codec.u64.pair <|
      Codec.u64.pair <| Codec.u64.pair <| Codec.i64.pair <| Codec.i64.pair <|
      Codec.i64.pair <| Codec.u64.pair <| Codec.u8.pair <| Codec.u8.pair <|
      Codec.u8.pair <| Codec.fixed 31).map
    { toFun := fun (owner, feed, vault, nonce, side, status, triggerReason, pad, collateral,
          entryPrice, stopPrice, takeProfitPrice, trailingOffset, trailingExtreme, openedAt,
          lastTickAt, settledAt, tickCount, bump, vaultBump, erDelegated, reserved) =>
        (⟨owner, feed, vault, nonce, side, status, triggerReason, collateral, entryPrice,
          stopPrice, takeProfitPrice, trailingOffset, trailingExtreme, openedAt, lastTickAt,
          settledAt, tickCount, bump, vaultBump, erDelegated⟩, pad, reserved)
      invFun := fun (position, pad, reserved) =>
        (position.owner, position.feed, position.vault, position.nonce, position.side,
          position.status, position.triggerReason, pad, position.collateral,
          position.entryPrice, position.stopPrice, position.takeProfitPrice,
          position.trailingOffset, position.trailingExtreme, position.openedAt,
          position.lastTickAt, position.settledAt, position.tickCount, position.bump,
          position.vaultBump, position.erDelegated, reserved)
      left_inv := fun _ => rfl
      right_inv := fun _ => rfl }

inductive AccountKind where
  | config
  | priceFeed
  | position
deriving DecidableEq, Repr

namespace AccountKind

def discriminator : AccountKind → Vector UInt8 8
  | config => #v[155, 12, 170, 224, 30, 250, 204, 130]
  | priceFeed => #v[189, 103, 252, 23, 152, 35, 243, 156]
  | position => #v[170, 188, 143, 228, 122, 64, 247, 208]

/-- What follows the discriminator. -/
abbrev Fields : AccountKind → Type
  | config => Config × Vector UInt8 64
  | priceFeed => PriceFeed × Vector UInt8 22
  | position => Position × UInt8 × Vector UInt8 31

def codec : (kind : AccountKind) → Codec UInt8 kind.Fields
  | config => configCodec
  | priceFeed => priceFeedCodec
  | position => positionCodec

/-- The `space` each `init` asks for. -/
def space : AccountKind → Nat
  | config => configSpace
  | priceFeed => priceFeedSpace
  | position => positionSpace

/-- The record without the bytes nothing reads. -/
def account : (kind : AccountKind) → kind.Fields → ProgramAccount
  | config, fields => .config fields.1
  | priceFeed, fields => .priceFeed fields.1
  | position, fields => .position fields.1

theorem discriminator_injective : Function.Injective discriminator := by
  intro kind kind' h
  cases kind <;> cases kind' <;> first | rfl | (revert h; decide)

theorem eight_le_space (kind : AccountKind) : 8 ≤ kind.space := by
  cases kind <;> decide

theorem codec_sized (kind : AccountKind) : kind.codec.Sized (kind.space - 8) := by
  have hkey := pubkeyCodec_sized
  have h8 := Codec.u8_sized
  have h16 := Codec.u16_sized
  have h64 := Codec.u64_sized
  have hi64 := Codec.i64_sized
  cases kind with
  | config =>
      exact (hkey.pair <| hkey.pair <| h16.pair <| h16.pair <| h64.pair <| h64.pair <|
        h64.pair <| h64.pair <| h64.pair <| h8.pair <| Codec.fixed_sized 64).map _
  | priceFeed =>
      exact (hkey.pair <| symbolCodec_sized.pair <| h8.pair <| h64.pair <| hi64.pair <|
        h64.pair <| h8.pair <| h8.pair <| h8.pair <| h64.pair <| Codec.fixed_sized 22).map _
  | position =>
      exact (hkey.pair <| hkey.pair <| hkey.pair <| h64.pair <| h8.pair <| h8.pair <|
        h8.pair <| h8.pair <| h64.pair <| h64.pair <| h64.pair <| h64.pair <| h64.pair <|
        h64.pair <| hi64.pair <| hi64.pair <| hi64.pair <| h64.pair <| h8.pair <| h8.pair <|
        h8.pair <| Codec.fixed_sized 31).map _

end AccountKind

/-! ### Reading and writing account data -/

inductive AccountDataError where
  | accountDiscriminatorNotFound
  | accountDiscriminatorMismatch
  | accountDidNotDeserialize
deriving DecidableEq, Repr

/-- `AccountDeserialize::try_deserialize`; bytes after the record are ignored. -/
def AccountKind.tryDeserialize (kind : AccountKind) (data : List UInt8) :
    Except AccountDataError kind.Fields := do
  require (8 ≤ data.length) .accountDiscriminatorNotFound
  require (data.take 8 = kind.discriminator.toList) .accountDiscriminatorMismatch
  let (fields, _) ← okOr (kind.codec.decode (data.drop 8)) .accountDidNotDeserialize
  return fields

def ProgramAccount.kind : ProgramAccount → AccountKind
  | .config _ => .config
  | .priceFeed _ => .priceFeed
  | .position _ => .position

/-- Padding and reserved bytes are written as zeros and never touched again. -/
def ProgramAccount.fields : (account : ProgramAccount) → account.kind.Fields
  | .config record => (record, Vector.replicate 64 0)
  | .priceFeed record => (record, Vector.replicate 22 0)
  | .position record => (record, 0, Vector.replicate 31 0)

/-- `AccountSerialize::try_serialize`. -/
def ProgramAccount.data (account : ProgramAccount) : List UInt8 :=
  account.kind.discriminator.toList ++ account.kind.codec.encode account.fields

theorem account_fields (account : ProgramAccount) :
    account.kind.account account.fields = account := by
  cases account <;> rfl

theorem tryDeserialize_eq_ok_iff {kind : AccountKind} {data : List UInt8}
    {fields : kind.Fields} :
    kind.tryDeserialize data = .ok fields ↔
      ∃ rest, data = kind.discriminator.toList ++ kind.codec.encode fields ++ rest := by
  have hlength := kind.discriminator.length_toList
  simp only [AccountKind.tryDeserialize, bind_eq_ok_iff, require_eq_ok_iff, okOr_eq_ok_iff,
    exists_and_left, exists_const, Prod.exists, pure_eq_ok_iff, Codec.decode_eq_some_iff]
  constructor
  · rintro ⟨-, hcode, found, rest, hdrop, rfl⟩
    refine ⟨rest, ?_⟩
    rw [← hcode, List.append_assoc, ← hdrop, List.take_append_drop]
  · rintro ⟨rest, rfl⟩
    rw [List.append_assoc]
    refine ⟨?_, List.take_left' hlength, fields, rest, List.drop_left' hlength, rfl⟩
    rw [List.length_append, hlength]
    omega

/-- Every account fills exactly the space its `init` paid for. -/
theorem length_data (account : ProgramAccount) :
    account.data.length = account.kind.space := by
  have hspace := account.kind.eight_le_space
  rw [ProgramAccount.data, List.length_append, Vector.length_toList,
    account.kind.codec_sized account.fields]
  omega

theorem tryDeserialize_data (account : ProgramAccount) :
    account.kind.tryDeserialize account.data = .ok account.fields :=
  tryDeserialize_eq_ok_iff.mpr ⟨[], by rw [List.append_nil]; rfl⟩

/-- The discriminator keeps the three kinds apart. -/
theorem tryDeserialize_other {account : ProgramAccount} {kind : AccountKind}
    (h : account.kind ≠ kind) :
    kind.tryDeserialize account.data = .error .accountDiscriminatorMismatch := by
  have hlong : 8 ≤ account.data.length := by
    rw [length_data]
    exact account.kind.eight_le_space
  have hcode : account.data.take 8 ≠ kind.discriminator.toList := by
    rw [ProgramAccount.data, List.take_left' (Vector.length_toList)]
    intro hsame
    exact h (AccountKind.discriminator_injective (Vector.toList_inj.mp hsame))
  rw [AccountKind.tryDeserialize, require_of_holds _ hlong, ok_bind, require, if_neg hcode]
  rfl

/-- Data that stops before the record does is refused. -/
theorem tryDeserialize_short {kind : AccountKind} {data : List UInt8}
    (h : data.length < kind.space) (fields : kind.Fields) :
    kind.tryDeserialize data ≠ .ok fields := by
  intro hok
  rcases tryDeserialize_eq_ok_iff.mp hok with ⟨rest, rfl⟩
  have hsized := kind.codec_sized fields
  simp only [List.length_append, Vector.length_toList, hsized] at h
  omega

/-! ### The bytes behind the typed accounts -/

/-- The data an address holds. -/
def World.dataAt (w : World) (key : Pubkey) : Option (List UInt8) :=
  (w.accounts key).map ProgramAccount.data

/-- `Account<'info, T>` for each record type. -/
def World.load (w : World) (kind : AccountKind) (key : Pubkey) :
    Except ProgramError ProgramAccount :=
  match kind with
  | .config => return .config (← w.loadConfig key)
  | .priceFeed => return .priceFeed (← w.loadPriceFeed key)
  | .position => return .position (← w.loadPosition key)

theorem load_of_none {w : World} {key : Pubkey} (h : w.accounts key = none)
    (kind : AccountKind) : w.load kind key = .error (w.notOwned key) := by
  cases kind <;>
    simp only [World.load, World.loadConfig, World.loadPriceFeed, World.loadPosition, h,
      error_bind]

theorem load_of_some {w : World} {key : Pubkey} {account : ProgramAccount}
    (h : w.accounts key = some account) (kind : AccountKind) :
    w.load kind key =
      if account.kind = kind then .ok account
      else .error (.anchor .accountDiscriminatorMismatch) := by
  cases kind <;> cases account <;>
    simp only [World.load, World.loadConfig, World.loadPriceFeed, World.loadPosition, h,
      error_bind, ok_bind, ProgramAccount.kind, reduceCtorEq, ↓reduceIte] <;> rfl

/-- For every byte string: it reads as a record of some kind exactly when it is that kind's
discriminator, the record's fields in order and anything after them, and it reads as
nothing when it is shorter than the space of the account.  Every account fills its space
exactly.  In every world loading an account gives what reading its bytes gives, and refuses
a record of another kind as reading does; an address with no data of the program's is
refused before anything is read, with one error when it holds no lamports and another when
it does. -/
theorem account_data_format :
    (∀ (kind : AccountKind) (data : List UInt8) (fields : kind.Fields),
      kind.tryDeserialize data = .ok fields ↔
        ∃ rest, data = kind.discriminator.toList ++ kind.codec.encode fields ++ rest) ∧
    (∀ (kind : AccountKind) (data : List UInt8) (fields : kind.Fields),
      data.length < kind.space → kind.tryDeserialize data ≠ .ok fields) ∧
    (∀ account : ProgramAccount, account.data.length = account.kind.space) ∧
    ∀ (w : World) (kind : AccountKind) (key : Pubkey),
      (∀ account, w.load kind key = .ok account ↔
        ∃ data fields, w.dataAt key = some data ∧ kind.tryDeserialize data = .ok fields ∧
          kind.account fields = account) ∧
      (w.load kind key = .error (.anchor .accountDiscriminatorMismatch) ↔
        ∃ data, w.dataAt key = some data ∧
          kind.tryDeserialize data = .error .accountDiscriminatorMismatch) ∧
      (w.load kind key = .error (.anchor .accountNotInitialized) ↔
        w.dataAt key = none ∧ w.lamports key = 0) ∧
      (w.load kind key = .error (.anchor .accountOwnedByWrongProgram) ↔
        w.dataAt key = none ∧ w.lamports key ≠ 0) := by
  refine ⟨fun kind data fields => tryDeserialize_eq_ok_iff,
    fun kind data fields hshort => tryDeserialize_short hshort fields, length_data, ?_⟩
  intro w kind key
  cases hstored : w.accounts key with
  | none =>
      have hdata : w.dataAt key = none := by rw [World.dataAt, hstored]; rfl
      by_cases hfunds : w.lamports key = 0
      · simp [load_of_none hstored, World.notOwned, hdata, hfunds]
      · simp [load_of_none hstored, World.notOwned, hdata, hfunds]
  | some account =>
      have hdata : w.dataAt key = some account.data := by rw [World.dataAt, hstored]; rfl
      rw [load_of_some hstored]
      by_cases hkind : account.kind = kind
      · subst hkind
        have hread := tryDeserialize_data account
        simp [hdata, hread, account_fields]
      · have hread := tryDeserialize_other hkind
        simp [hdata, hread, hkind]

end Hwal
