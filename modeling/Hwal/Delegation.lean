/-
`delegate_position` and `undelegate_position`: handing an open position to the
rollup's delegation program and taking it back.
-/
import Hwal.Settlement

namespace Hwal

open Guard

/-- `Pubkey::as_ref`. -/
def pubkeyBytes (key : Pubkey) : List UInt8 := (Bytes.natToLe 32 key.toNat).reverse

structure DelegatePosition where
  owner : Pubkey
  position : Pubkey
  delegationProgram : Pubkey
  delegationBuffer : Pubkey
  delegationRecord : Pubkey
  delegationMetadata : Pubkey
  systemProgram : Pubkey
deriving DecidableEq, Repr

def DelegatePosition.tryAccounts (accs : DelegatePosition) (rt : Runtime) (w : World)
    (tx : Tx) : Except ProgramError Position := do
  tx.requireSigner accs.owner
  let position ← w.loadPosition accs.position
  requireSystemProgram accs.systemProgram
  requireAddress accs.owner position.owner (.hwal .notPositionOwner)
  tx.requireMut accs.position
  rt.requireSeeds (.position position.owner position.nonce) position.bump accs.position
  requireAddress accs.delegationProgram magicblockDelegationProgramId
    (.anchor .constraintAddress)
  tx.requireMut accs.delegationBuffer
  tx.requireMut accs.delegationRecord
  tx.requireMut accs.delegationMetadata
  return position

def buildDelegateInstructionData (owner : Pubkey) (nonce : UInt64) : List UInt8 :=
  [0] ++ pubkeyBytes owner ++ Bytes.natToLe 8 nonce.toNat

def delegateIx (accs : DelegatePosition) (position : Position) : CpiInstruction :=
  { programId := accs.delegationProgram
    accounts := [
      ⟨accs.owner, true, true⟩,
      ⟨accs.position, false, true⟩,
      ⟨accs.delegationBuffer, false, true⟩,
      ⟨accs.delegationRecord, false, true⟩,
      ⟨accs.delegationMetadata, false, true⟩,
      ⟨accs.systemProgram, false, false⟩]
    data := buildDelegateInstructionData position.owner position.nonce }

def delegatePosition (rt : Runtime) (w : World) (tx : Tx) (accs : DelegatePosition) :
    Except ProgramError World := do
  let position ← accs.tryAccounts rt w tx
  require (position.status = statusOpen) (.hwal .positionNotOpen)
  require (position.erDelegated = 0) (.hwal .positionAlreadyDelegated)
  let lamports ← okOr (rt.invokeDelegation (delegateIx accs position) tx w.lamports)
    .delegation
  return ((w.withLamports lamports).store accs.position
      (.position { position with erDelegated := 1 })).emit
    (.positionDelegated accs.position position.owner tx.unixTimestamp)

structure UndelegatePosition where
  owner : Pubkey
  position : Pubkey
  delegationProgram : Pubkey
  delegationRecord : Pubkey
  delegationMetadata : Pubkey
  systemProgram : Pubkey
deriving DecidableEq, Repr

def UndelegatePosition.tryAccounts (accs : UndelegatePosition) (rt : Runtime) (w : World)
    (tx : Tx) : Except ProgramError Position := do
  tx.requireSigner accs.owner
  let position ← w.loadPosition accs.position
  requireSystemProgram accs.systemProgram
  requireAddress accs.owner position.owner (.hwal .notPositionOwner)
  tx.requireMut accs.position
  rt.requireSeeds (.position position.owner position.nonce) position.bump accs.position
  requireAddress accs.delegationProgram magicblockDelegationProgramId
    (.anchor .constraintAddress)
  tx.requireMut accs.delegationRecord
  tx.requireMut accs.delegationMetadata
  return position

def undelegateIx (accs : UndelegatePosition) : CpiInstruction :=
  { programId := accs.delegationProgram
    accounts := [
      ⟨accs.owner, true, true⟩,
      ⟨accs.position, false, true⟩,
      ⟨accs.delegationRecord, false, true⟩,
      ⟨accs.delegationMetadata, false, true⟩,
      ⟨accs.systemProgram, false, false⟩]
    data := [1] }

def undelegatePosition (rt : Runtime) (w : World) (tx : Tx) (accs : UndelegatePosition) :
    Except ProgramError World := do
  let position ← accs.tryAccounts rt w tx
  require (position.status = statusOpen) (.hwal .positionNotOpen)
  require (position.erDelegated = 1) (.hwal .positionNotDelegated)
  let lamports ← okOr (rt.invokeDelegation (undelegateIx accs) tx w.lamports) .delegation
  return ((w.withLamports lamports).store accs.position
      (.position { position with erDelegated := 0 })).emit
    (.positionUndelegated accs.position position.owner tx.unixTimestamp)

theorem delegatePosition_eq_ok {rt : Runtime} {w w' : World} {tx : Tx}
    {accs : DelegatePosition} (h : delegatePosition rt w tx accs = .ok w') :
    ∃ position lamports,
      accs.owner ∈ tx.signers ∧ w.positions accs.position = some position ∧
      accs.owner = position.owner ∧ position.status = statusOpen ∧
      position.erDelegated = 0 ∧
      rt.invokeDelegation (delegateIx accs position) tx w.lamports = some lamports ∧
      w' = ((w.withLamports lamports).store accs.position
          (.position { position with erDelegated := 1 })).emit
        (.positionDelegated accs.position position.owner tx.unixTimestamp) := by
  simp only [delegatePosition, DelegatePosition.tryAccounts, Tx.requireSigner, Tx.requireMut,
    requireAddress, requireSystemProgram, Runtime.requireSeeds, bind_eq_ok_iff,
    require_eq_ok_iff, okOr_eq_ok_iff, exists_and_left, exists_const,
    World.loadPosition_eq_ok_iff, pure_eq_ok_iff] at h
  obtain ⟨position, ⟨hsigner, loaded, hload, -, howner, -, -, -, -, -, -, rfl⟩, hopen, hflag,
    lamports, hcpi, rfl⟩ := h
  exact ⟨loaded, lamports, hsigner, hload, howner, hopen, hflag, hcpi, rfl⟩

/-- The accounts `undelegate_position` accepts, and what the position holds. -/
structure UndelegateAccounts (accs : UndelegatePosition) (rt : Runtime) (w : World)
    (tx : Tx) (position : Position) : Prop where
  owner_signs : accs.owner ∈ tx.signers
  position_loaded : w.positions accs.position = some position
  systemProgram : accs.systemProgram = systemProgramId
  owner_matches : accs.owner = position.owner
  position_mut : accs.position ∈ tx.writable
  position_seeds : rt.createProgramAddress (.position position.owner position.nonce)
    position.bump = some accs.position
  delegationProgram : accs.delegationProgram = magicblockDelegationProgramId
  delegationRecord_mut : accs.delegationRecord ∈ tx.writable
  delegationMetadata_mut : accs.delegationMetadata ∈ tx.writable

theorem undelegatePosition_tryAccounts_eq_ok_iff {accs : UndelegatePosition} {rt : Runtime}
    {w : World} {tx : Tx} {position : Position} :
    accs.tryAccounts rt w tx = .ok position ↔ UndelegateAccounts accs rt w tx position := by
  simp only [UndelegatePosition.tryAccounts, Tx.requireSigner, Tx.requireMut, requireAddress,
    requireSystemProgram, Runtime.requireSeeds, bind_eq_ok_iff, require_eq_ok_iff,
    exists_and_left, exists_const, World.loadPosition_eq_ok_iff, pure_eq_ok_iff]
  constructor
  · rintro ⟨h1, position', h2, h3, h4, h5, h6, h7, h8, h9, rfl⟩
    exact ⟨h1, h2, h3, h4, h5, h6, h7, h8, h9⟩
  · intro h
    exact ⟨h.owner_signs, position, h.position_loaded, h.systemProgram, h.owner_matches,
      h.position_mut, h.position_seeds, h.delegationProgram, h.delegationRecord_mut,
      h.delegationMetadata_mut, rfl⟩

theorem undelegatePosition_eq_ok_iff {rt : Runtime} {w w' : World} {tx : Tx}
    {accs : UndelegatePosition} :
    undelegatePosition rt w tx accs = .ok w' ↔
      ∃ position lamports,
        UndelegateAccounts accs rt w tx position ∧ position.status = statusOpen ∧
        position.erDelegated = 1 ∧
        rt.invokeDelegation (undelegateIx accs) tx w.lamports = some lamports ∧
        w' = ((w.withLamports lamports).store accs.position
            (.position { position with erDelegated := 0 })).emit
          (.positionUndelegated accs.position position.owner tx.unixTimestamp) := by
  simp only [undelegatePosition, bind_eq_ok_iff, require_eq_ok_iff, okOr_eq_ok_iff,
    exists_and_left, exists_const, undelegatePosition_tryAccounts_eq_ok_iff, pure_eq_ok_iff]
  constructor
  · rintro ⟨position, haccs, hopen, hflag, lamports, hcpi, rfl⟩
    exact ⟨position, haccs, hopen, hflag, lamports, hcpi, rfl⟩
  · rintro ⟨position, haccs, hopen, hflag, lamports, hcpi, rfl⟩
    exact ⟨position, haccs, hopen, hflag, lamports, hcpi, rfl⟩

end Hwal
