/-
The Ed25519 signature-verification precompile: how it reads its instruction
data, and which (public key, signature, message) triples a transaction that
carries it vouches for.  The curve check itself is a parameter.
-/
import Hwal.Accounts
import Hwal.Support.ByteStrings

namespace Hwal

namespace Ed25519

/-- `Ed25519SigVerify111111111111111111111111111`. -/
def programId : Pubkey :=
  0x037d46d67c93fbbe12f9428f838d40ff0570744927f48a64fcca704480000000#256

/-- Count byte and padding byte. -/
def signatureOffsetsStart : Nat := 2

def signatureOffsetsSerializedSize : Nat := 14

def signatureSerializedSize : Nat := 64

def pubkeySerializedSize : Nat := 32

/-- One row of the offset table; an instruction index of `0xFFFF` means the
precompile's own instruction. -/
structure SignatureOffsets where
  signatureOffset : Nat
  signatureInstructionIndex : Nat
  publicKeyOffset : Nat
  publicKeyInstructionIndex : Nat
  messageDataOffset : Nat
  messageDataSize : Nat
  messageInstructionIndex : Nat
deriving DecidableEq, Repr

/-- What one row of the table refers to. -/
structure SignatureEntry where
  publicKey : List UInt8
  signature : List UInt8
  message : List UInt8
deriving DecidableEq, Repr

def readU16 (data : List UInt8) (position : Nat) : Nat :=
  Bytes.leToNat ((data.drop position).take 2)

/-- Row `index` of the table at the head of the instruction data. -/
def readOffsets (data : List UInt8) (index : Nat) : SignatureOffsets :=
  let start := index * signatureOffsetsSerializedSize + signatureOffsetsStart
  { signatureOffset := readU16 data start
    signatureInstructionIndex := readU16 data (start + 2)
    publicKeyOffset := readU16 data (start + 4)
    publicKeyInstructionIndex := readU16 data (start + 6)
    messageDataOffset := readU16 data (start + 8)
    messageDataSize := readU16 data (start + 10)
    messageInstructionIndex := readU16 data (start + 12) }

/-- The instruction data an index of the table refers to. -/
def instructionData (data : List UInt8) (instructionDatas : List (List UInt8))
    (instructionIndex : Nat) : Option (List UInt8) :=
  if instructionIndex = 0xFFFF then some data else instructionDatas[instructionIndex]?

def getDataSlice (data : List UInt8) (instructionDatas : List (List UInt8))
    (instructionIndex offsetStart size : Nat) : Option (List UInt8) :=
  (instructionData data instructionDatas instructionIndex).bind fun referenced =>
    Bytes.slice? referenced offsetStart size

def readEntry (data : List UInt8) (instructionDatas : List (List UInt8))
    (offsets : SignatureOffsets) : Option SignatureEntry :=
  match getDataSlice data instructionDatas offsets.signatureInstructionIndex
      offsets.signatureOffset signatureSerializedSize,
    getDataSlice data instructionDatas offsets.publicKeyInstructionIndex
      offsets.publicKeyOffset pubkeySerializedSize,
    getDataSlice data instructionDatas offsets.messageInstructionIndex
      offsets.messageDataOffset offsets.messageDataSize with
  | some signature, some publicKey, some message => some ⟨publicKey, signature, message⟩
  | _, _, _ => none

def numSignatures (data : List UInt8) : Nat := (data.headD 0).toNat

/-- The table rows the count byte announces. -/
def offsetTable (data : List UInt8) : List SignatureOffsets :=
  (List.range (numSignatures data)).map (readOffsets data)

/-- The precompile: every announced row must resolve and verify.  Bytes that no
row refers to are never looked at. -/
def verify (verifyStrict : List UInt8 → List UInt8 → List UInt8 → Bool)
    (data : List UInt8) (instructionDatas : List (List UInt8)) : Bool :=
  if data.length < signatureOffsetsStart then false
  else if numSignatures data = 0 ∧ signatureOffsetsStart < data.length then false
  else if data.length <
      numSignatures data * signatureOffsetsSerializedSize + signatureOffsetsStart then false
  else (offsetTable data).all fun offsets =>
    match readEntry data instructionDatas offsets with
    | none => false
    | some entry => verifyStrict entry.publicKey entry.signature entry.message

/-- The signature entries the precompile reads off the instruction data. -/
def entries (data : List UInt8) (instructionDatas : List (List UInt8)) :
    List SignatureEntry :=
  (offsetTable data).filterMap (readEntry data instructionDatas)

theorem readEntry_eq_some {data : List UInt8} {instructionDatas : List (List UInt8)}
    {offsets : SignatureOffsets} {entry : SignatureEntry}
    (h : readEntry data instructionDatas offsets = some entry) :
    getDataSlice data instructionDatas offsets.signatureInstructionIndex
        offsets.signatureOffset signatureSerializedSize = some entry.signature ∧
      getDataSlice data instructionDatas offsets.publicKeyInstructionIndex
        offsets.publicKeyOffset pubkeySerializedSize = some entry.publicKey ∧
      getDataSlice data instructionDatas offsets.messageInstructionIndex
        offsets.messageDataOffset offsets.messageDataSize = some entry.message := by
  unfold readEntry at h
  split at h
  · rename_i signature publicKey message hsignature hkey hmessage
    rw [← Option.some.inj h]
    exact ⟨hsignature, hkey, hmessage⟩
  · contradiction

/-- A passing precompile has resolved and verified every row. -/
theorem verify_row {verifyStrict : List UInt8 → List UInt8 → List UInt8 → Bool}
    {data : List UInt8} {instructionDatas : List (List UInt8)}
    (h : verify verifyStrict data instructionDatas = true)
    {offsets : SignatureOffsets} (hoffsets : offsets ∈ offsetTable data) :
    ∃ entry, readEntry data instructionDatas offsets = some entry ∧
      verifyStrict entry.publicKey entry.signature entry.message = true := by
  unfold verify at h
  split at h
  · contradiction
  · split at h
    · contradiction
    · split at h
      · contradiction
      · have hrow := List.all_eq_true.mp h offsets hoffsets
        cases hread : readEntry data instructionDatas offsets with
        | none => simp [hread] at hrow
        | some entry => exact ⟨entry, rfl, by simpa [hread] using hrow⟩

/-! ### The layout for one signature -/

/-- The table row of a one-signature instruction that holds all three parts itself:
public key, signature and message follow the table in this order. -/
def singleOffsets (messageSize : Nat) : SignatureOffsets :=
  { signatureOffset := 48
    signatureInstructionIndex := 0xFFFF
    publicKeyOffset := 16
    publicKeyInstructionIndex := 0xFFFF
    messageDataOffset := 112
    messageDataSize := messageSize
    messageInstructionIndex := 0xFFFF }

def encodeOffsets (offsets : SignatureOffsets) : List UInt8 :=
  Bytes.natToLe 2 offsets.signatureOffset ++
    Bytes.natToLe 2 offsets.signatureInstructionIndex ++
    Bytes.natToLe 2 offsets.publicKeyOffset ++
    Bytes.natToLe 2 offsets.publicKeyInstructionIndex ++
    Bytes.natToLe 2 offsets.messageDataOffset ++
    Bytes.natToLe 2 offsets.messageDataSize ++
    Bytes.natToLe 2 offsets.messageInstructionIndex

/-- Instruction data that asks for one signature to be checked. -/
def newInstructionData (entry : SignatureEntry) : List UInt8 :=
  [1, 0] ++ encodeOffsets (singleOffsets entry.message.length) ++ entry.publicKey ++
    entry.signature ++ entry.message

theorem natToLe_two (value : Nat) :
    Bytes.natToLe 2 value = [UInt8.ofNat value, UInt8.ofNat (value / 256)] := rfl

theorem leToNat_pair {value : Nat} (h : value < 256 ^ 2) :
    Bytes.leToNat [UInt8.ofNat value, UInt8.ofNat (value / 256)] = value := by
  rw [← natToLe_two]
  exact Bytes.leToNat_natToLe 2 value h

section Single

variable {entry : SignatureEntry}

/-- Count, padding and table take the first sixteen bytes. -/
def singleHead (entry : SignatureEntry) : List UInt8 :=
  [1, 0] ++ encodeOffsets (singleOffsets entry.message.length)

theorem length_singleHead : (singleHead entry).length = 16 := by
  simp [singleHead, encodeOffsets]

theorem newInstructionData_append (rest : List UInt8) :
    newInstructionData entry ++ rest =
      singleHead entry ++ (entry.publicKey ++ (entry.signature ++ (entry.message ++ rest))) := by
  simp only [newInstructionData, singleHead, List.append_assoc]

theorem offsetTable_newInstructionData (hmessage : entry.message.length < 256 ^ 2)
    (rest : List UInt8) :
    offsetTable (newInstructionData entry ++ rest) =
      [singleOffsets entry.message.length] := by
  have hrow : readOffsets (newInstructionData entry ++ rest) 0 =
      singleOffsets entry.message.length := by
    simp only [newInstructionData, encodeOffsets, singleOffsets, natToLe_two,
      List.cons_append, List.nil_append, readOffsets, readU16, signatureOffsetsStart,
      Nat.zero_mul, Nat.zero_add, Nat.reduceAdd, List.drop_succ_cons, List.drop_zero,
      List.take_succ_cons, List.take_zero, SignatureOffsets.mk.injEq]
    refine ⟨?_, ?_, ?_, ?_, ?_, ?_, ?_⟩
    · exact leToNat_pair (by decide)
    · exact leToNat_pair (by decide)
    · exact leToNat_pair (by decide)
    · exact leToNat_pair (by decide)
    · exact leToNat_pair (by decide)
    · exact leToNat_pair hmessage
    · exact leToNat_pair (by decide)
  have hcount : numSignatures (newInstructionData entry ++ rest) = 1 := rfl
  simp only [offsetTable, hcount, List.range_one, List.map_cons, List.map_nil, hrow]

/-- The three parts of a one-signature instruction, wherever its data ends. -/
theorem readEntry_newInstructionData (hkey : entry.publicKey.length = pubkeySerializedSize)
    (hsignature : entry.signature.length = signatureSerializedSize) (rest : List UInt8)
    (datas : List (List UInt8)) :
    readEntry (newInstructionData entry ++ rest) datas
      (singleOffsets entry.message.length) = some entry := by
  have hhead := @length_singleHead entry
  have hkeySlice : Bytes.slice? (newInstructionData entry ++ rest) 16 32 =
      some entry.publicKey := by
    apply Bytes.slice?_eq_some_iff.mpr
    refine ⟨singleHead entry, entry.signature ++ (entry.message ++ rest), ?_, hhead, hkey⟩
    rw [newInstructionData_append, List.append_assoc]
  have hsignatureSlice : Bytes.slice? (newInstructionData entry ++ rest) 48 64 =
      some entry.signature := by
    apply Bytes.slice?_eq_some_iff.mpr
    refine ⟨singleHead entry ++ entry.publicKey, entry.message ++ rest, ?_, ?_, hsignature⟩
    · simp only [newInstructionData_append, List.append_assoc]
    · rw [List.length_append, hhead, hkey, pubkeySerializedSize]
  have hmessageSlice : Bytes.slice? (newInstructionData entry ++ rest) 112
      entry.message.length = some entry.message := by
    apply Bytes.slice?_eq_some_iff.mpr
    refine ⟨singleHead entry ++ entry.publicKey ++ entry.signature, rest, ?_, ?_, rfl⟩
    · simp only [newInstructionData_append, List.append_assoc]
    · rw [List.length_append, List.length_append, hhead, hkey, hsignature,
        pubkeySerializedSize, signatureSerializedSize]
  simp only [readEntry, singleOffsets, getDataSlice, instructionData, ↓reduceIte,
    Option.bind_some, signatureSerializedSize, pubkeySerializedSize, hkeySlice,
    hsignatureSlice, hmessageSlice]

theorem entries_newInstructionData (hkey : entry.publicKey.length = pubkeySerializedSize)
    (hsignature : entry.signature.length = signatureSerializedSize)
    (hmessage : entry.message.length < 256 ^ 2) (rest : List UInt8)
    (datas : List (List UInt8)) :
    entries (newInstructionData entry ++ rest) datas = [entry] := by
  simp only [entries, offsetTable_newInstructionData hmessage, List.filterMap_cons,
    readEntry_newInstructionData hkey hsignature, List.filterMap_nil]

/-- Such an instruction passes exactly when its one signature is valid, whatever
bytes follow the message. -/
theorem verify_newInstructionData
    {verifyStrict : List UInt8 → List UInt8 → List UInt8 → Bool}
    (hkey : entry.publicKey.length = pubkeySerializedSize)
    (hsignature : entry.signature.length = signatureSerializedSize)
    (hmessage : entry.message.length < 256 ^ 2) (rest : List UInt8)
    (datas : List (List UInt8)) :
    verify verifyStrict (newInstructionData entry ++ rest) datas =
      verifyStrict entry.publicKey entry.signature entry.message := by
  have htable := offsetTable_newInstructionData hmessage rest
  have hentry := readEntry_newInstructionData hkey hsignature rest datas
  have hcount : numSignatures (newInstructionData entry ++ rest) = 1 := rfl
  have hlong : 16 ≤ (newInstructionData entry ++ rest).length := by
    rw [newInstructionData_append, List.length_append, length_singleHead]
    exact Nat.le_add_right 16 _
  have hstart : ¬ (newInstructionData entry ++ rest).length < 2 := by omega
  have hsize : ¬ (newInstructionData entry ++ rest).length < 1 * 14 + 2 := by omega
  simp only [verify, signatureOffsetsStart, signatureOffsetsSerializedSize, hcount, hstart,
    hsize, Nat.one_ne_zero, false_and, ↓reduceIte, htable, List.all_cons, hentry,
    List.all_nil, Bool.and_true]

end Single

end Ed25519

end Hwal
