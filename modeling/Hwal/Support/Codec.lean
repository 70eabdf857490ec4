/-
Formats read from the front of a list of symbols: bytes, or anything else that comes in a
row.  A codec carries one law: what reads as a value is the value's own encoding and
whatever follows it.  Both halves of a round trip, and the absence of a second encoding,
are read off that law; every combinator below keeps it.
-/
import Hwal.Support.ByteStrings
import Mathlib.Logic.Equiv.Basic

universe u v w x

/-- A writer and a reader that agree. -/
structure Codec (σ : Type w) (α : Type u) where
  encode : α → List σ
  decode : List σ → Option (α × List σ)
  decode_eq_some_iff : ∀ {data : List σ} {a : α} {rest : List σ},
    decode data = some (a, rest) ↔ data = encode a ++ rest

namespace Codec

variable {σ : Type w}

section Laws

variable {α : Type u} (c : Codec σ α)

theorem decode_encode_append (a : α) (rest : List σ) :
    c.decode (c.encode a ++ rest) = some (a, rest) :=
  c.decode_eq_some_iff.mpr rfl

/-- No encoding is the beginning of another. -/
theorem encode_append_inj {a b : α} {rest rest' : List σ}
    (h : c.encode a ++ rest = c.encode b ++ rest') : a = b ∧ rest = rest' := by
  have hdecoded := c.decode_encode_append a rest
  rw [h, c.decode_encode_append b rest'] at hdecoded
  obtain ⟨rfl, rfl⟩ := Prod.mk.inj (Option.some.inj hdecoded)
  exact ⟨rfl, rfl⟩

/-- Every value takes the same number of bytes. -/
def Sized (size : Nat) : Prop := ∀ a, (c.encode a).length = size

end Laws

/-! ### Rows of symbols -/

/-- One symbol. -/
def symbol : Codec σ σ where
  encode a := [a]
  decode
    | [] => none
    | a :: rest => some (a, rest)
  decode_eq_some_iff := by
    intro data a rest
    cases data <;> simp

/-- A row of `n` symbols. -/
def fixed (n : Nat) : Codec σ (Vector σ n) where
  encode row := row.toList
  decode data :=
    if h : n ≤ data.length then
      some (⟨(data.take n).toArray, by simp [Nat.min_eq_left h]⟩, data.drop n)
    else none
  decode_eq_some_iff := by
    intro data a rest
    have hlength : a.toList.length = n := a.length_toList
    constructor
    · intro h
      by_cases hfits : n ≤ data.length
      · simp only [hfits, ↓reduceDIte, Option.some.injEq, Prod.mk.injEq] at h
        obtain ⟨rfl, rfl⟩ := h
        exact (List.take_append_drop n data).symm
      · simp [hfits] at h
    · rintro rfl
      have hfits : n ≤ (a.toList ++ rest).length := by
        rw [List.length_append]
        omega
      have htake : (a.toList ++ rest).take n = a.toList := List.take_left' hlength
      have hdrop : (a.toList ++ rest).drop n = rest := List.drop_left' hlength
      simp only [hfits, ↓reduceDIte, Option.some.injEq, Prod.mk.injEq, hdrop, and_true]
      apply Vector.toList_inj.mp
      exact htake

theorem fixed_sized (n : Nat) : (fixed n : Codec σ _).Sized n := fun a => a.length_toList

/-- The same symbols under another type. -/
def map {α : Type u} {β : Type v} (c : Codec σ α) (e : α ≃ β) : Codec σ β where
  encode b := c.encode (e.symm b)
  decode data := (c.decode data).map fun found => (e found.1, found.2)
  decode_eq_some_iff := by
    intro data b rest
    simp only [Option.map_eq_some_iff, Prod.exists, c.decode_eq_some_iff, Prod.mk.injEq]
    constructor
    · rintro ⟨a, tail, rfl, rfl, rfl⟩
      rw [e.symm_apply_apply]
    · rintro rfl
      exact ⟨e.symm b, rest, rfl, e.apply_symm_apply b, rfl⟩

theorem Sized.map {α : Type u} {β : Type v} {c : Codec σ α} {size : Nat} (h : c.Sized size)
    (e : α ≃ β) : (c.map e).Sized size :=
  fun b => h (e.symm b)

/-! ### Machine words -/

/-- Byte strings of one width are the numbers below `256 ^ n`, little end first. -/
def leEquiv (n : Nat) : Vector UInt8 n ≃ Fin (256 ^ n) where
  toFun bytes := ⟨Bytes.leToNat bytes.toList, by
    have h := Bytes.leToNat_lt bytes.toList
    rwa [bytes.length_toList] at h⟩
  invFun value := ⟨(Bytes.natToLe n value).toArray, by simp⟩
  left_inv bytes := by
    apply Vector.toList_inj.mp
    exact Bytes.natToLe_leToNat bytes.length_toList
  right_inv value := by
    apply Fin.ext
    exact Bytes.leToNat_natToLe n value value.isLt

/-- An unsigned little-endian number of `n` bytes. -/
def le (n : Nat) : Codec UInt8 (Fin (256 ^ n)) := (fixed n).map (leEquiv n)

theorem le_sized (n : Nat) : (le n).Sized n := (fixed_sized n).map _

def u8 : Codec UInt8 UInt8 := (le 1).map
  { toFun := fun value => UInt8.ofNat value
    invFun := fun byte => ⟨byte.toNat, byte.toNat_lt⟩
    left_inv := fun value => Fin.ext (UInt8.toNat_ofNat_of_lt' value.isLt)
    right_inv := fun _ => UInt8.ofNat_toNat }

def u16 : Codec UInt8 UInt16 := (le 2).map
  { toFun := fun value => UInt16.ofNat value
    invFun := fun word => ⟨word.toNat, word.toNat_lt⟩
    left_inv := fun value => Fin.ext (UInt16.toNat_ofNat_of_lt' value.isLt)
    right_inv := fun _ => UInt16.ofNat_toNat }

def u64 : Codec UInt8 UInt64 := (le 8).map
  { toFun := fun value => UInt64.ofNat value
    invFun := fun word => ⟨word.toNat, word.toNat_lt⟩
    left_inv := fun value => Fin.ext (UInt64.toNat_ofNat_of_lt' value.isLt)
    right_inv := fun _ => UInt64.ofNat_toNat }

/-- Two's complement. -/
def i64 : Codec UInt8 Int64 := u64.map
  { toFun := UInt64.toInt64
    invFun := Int64.toUInt64
    left_inv := fun _ => rfl
    right_inv := fun _ => rfl }

theorem u8_sized : u8.Sized 1 := (le_sized 1).map _
theorem u16_sized : u16.Sized 2 := (le_sized 2).map _
theorem u64_sized : u64.Sized 8 := (le_sized 8).map _
theorem i64_sized : i64.Sized 8 := u64_sized.map _

/-- A bit vector of whole bytes, most significant byte first. -/
def be (n : Nat) : Codec UInt8 (BitVec (8 * n)) :=
  ((fixed n).map ⟨Vector.reverse, Vector.reverse, fun _ => by simp, fun _ => by simp⟩).map
    ((leEquiv n).trans
      { toFun := fun value => ⟨⟨value, by rw [Nat.pow_mul]; exact value.isLt⟩⟩
        invFun := fun bits => ⟨bits.toNat, by
          have h := bits.isLt
          rwa [Nat.pow_mul] at h⟩
        left_inv := fun _ => rfl
        right_inv := fun _ => rfl })

theorem be_sized (n : Nat) : (be n).Sized n := ((fixed_sized n).map _).map _

/-! ### Sequences and choices -/

/-- No symbols at all. -/
def unit : Codec σ Unit where
  encode _ := []
  decode data := some ((), data)
  decode_eq_some_iff := by simp

/-- A value whose kind was read first. -/
def sigma {ι : Type u} {β : ι → Type v} (tag : Codec σ ι) (body : ∀ i, Codec σ (β i)) :
    Codec σ (Σ i, β i) where
  encode value := tag.encode value.1 ++ (body value.1).encode value.2
  decode data := (tag.decode data).bind fun found =>
    ((body found.1).decode found.2).map fun inner => (⟨found.1, inner.1⟩, inner.2)
  decode_eq_some_iff := by
    intro data value rest
    obtain ⟨i, b⟩ := value
    simp only [Option.bind_eq_some_iff, Option.map_eq_some_iff, Prod.exists,
      tag.decode_eq_some_iff, Prod.mk.injEq]
    constructor
    · rintro ⟨j, tail, rfl, b', rest', hbody, hvalue, rfl⟩
      obtain ⟨rfl, hb⟩ := Sigma.mk.inj hvalue
      obtain rfl := eq_of_heq hb
      rw [(body j).decode_eq_some_iff.mp hbody, List.append_assoc]
    · rintro rfl
      exact ⟨i, (body i).encode b ++ rest, List.append_assoc .., b, rest,
        (body i).decode_encode_append b rest, rfl, rfl⟩

/-- One value after another. -/
def pair {α : Type u} {β : Type v} (first : Codec σ α) (second : Codec σ β) :
    Codec σ (α × β) :=
  (first.sigma fun _ => second).map (Equiv.sigmaEquivProd α β)

theorem encode_pair {α : Type u} {β : Type v} (first : Codec σ α) (second : Codec σ β)
    (value : α × β) :
    (first.pair second).encode value = first.encode value.1 ++ second.encode value.2 := rfl

theorem Sized.pair {α : Type u} {β : Type v} {first : Codec σ α} {second : Codec σ β}
    {m n : Nat} (hfirst : first.Sized m) (hsecond : second.Sized n) :
    (first.pair second).Sized (m + n) := by
  intro value
  rw [encode_pair, List.length_append, hfirst, hsecond]

theorem prefix_pair {α : Type u} {β : Type v} (first : Codec σ α) (second : Codec σ β)
    (a : α) (b : β) : first.encode a <+: (first.pair second).encode (a, b) :=
  List.prefix_append _ _

/-- A format that stops early writes the beginning of what the whole one does. -/
theorem pair_prefix_pair {α : Type u} {β : Type v} {γ : Type x} (first : Codec σ α)
    {short : Codec σ β} {whole : Codec σ γ} (a : α) {b : β} {c : γ}
    (h : short.encode b <+: whole.encode c) :
    (first.pair short).encode (a, b) <+: (first.pair whole).encode (a, c) :=
  (List.prefix_append_right_inj _).mpr h

/-- One of finitely many codes of the same width, all different. -/
def tag [DecidableEq σ] {ι : Type u} {n : Nat} (all : List ι) (complete : ∀ i, i ∈ all)
    (code : ι → Vector σ n) (distinct : Function.Injective code) : Codec σ ι where
  encode i := (code i).toList
  decode data := ((fixed n).decode data).bind fun found =>
    (all.find? fun i => code i == found.1).map fun i => (i, found.2)
  decode_eq_some_iff := by
    intro data i rest
    simp only [Option.bind_eq_some_iff, Option.map_eq_some_iff, Prod.exists,
      (fixed n).decode_eq_some_iff, Prod.mk.injEq]
    constructor
    · rintro ⟨found, tail, rfl, j, hfind, rfl, rfl⟩
      have hcode := List.find?_some hfind
      rw [beq_iff_eq] at hcode
      rw [hcode]
      rfl
    · rintro rfl
      refine ⟨code i, rest, rfl, i, ?_, rfl, rfl⟩
      cases hfind : all.find? fun j => code j == code i with
      | none =>
          have hmiss := List.find?_eq_none.mp hfind i (complete i)
          simp at hmiss
      | some j =>
          have hcode := List.find?_some hfind
          rw [beq_iff_eq] at hcode
          rw [distinct hcode]

/-- `Option<T>`: a zero byte, or a one and the value; no other first byte is read. -/
def option {α : Type u} (c : Codec UInt8 α) : Codec UInt8 (Option α) where
  encode
    | none => [0]
    | some a => 1 :: c.encode a
  decode
    | [] => none
    | byte :: data =>
        if byte = 0 then some (none, data)
        else if byte = 1 then (c.decode data).map fun found => (some found.1, found.2)
        else none
  decode_eq_some_iff := by
    intro data value rest
    cases data with
    | nil => cases value <;> simp
    | cons byte data =>
        by_cases hzero : byte = 0
        · subst hzero
          cases value <;> simp [eq_comm]
        · by_cases hone : byte = 1
          · subst hone
            cases value <;> simp [c.decode_eq_some_iff]
          · cases value <;> simp [hzero, hone]

/-- `Vec<u8>`: the length in `width` bytes, and the bytes. -/
def bytes (width : Nat) : Codec UInt8 { data : List UInt8 // data.length < 256 ^ width } :=
  ((le width).sigma fun length => fixed length.val).map
    { toFun := fun found => ⟨found.2.toList, by simp⟩
      invFun := fun data => ⟨⟨data.val.length, data.property⟩, ⟨data.val.toArray, by simp⟩⟩
      left_inv := by
        rintro ⟨⟨length, hlength⟩, ⟨⟨data⟩, hsize⟩⟩
        have hdata : data.length = length := hsize
        subst hdata
        rfl
      right_inv := fun _ => rfl }

end Codec
