import Mathlib

/-!
# The protobuf wire format

Base-128 varints and records of numbered fields, of the two wire types that
carry integers and byte strings.  A decoder gets a bound on the number of steps
and returns what it did not read.
-/

namespace NcxTunnel.WireFormat

/-- At most `fuel + 1` bytes, seven bits in each, low bits first. -/
def encodeVarint : ℕ → ℕ → List UInt8
  | 0, n => [UInt8.ofNat n]
  | fuel + 1, n =>
      if n < 128 then [UInt8.ofNat n]
      else UInt8.ofNat (n % 128 + 128) :: encodeVarint fuel (n / 128)

def decodeVarint : ℕ → List UInt8 → Option (ℕ × List UInt8)
  | _, [] => none
  | 0, b :: rest => if b.toNat < 128 then some (b.toNat, rest) else none
  | fuel + 1, b :: rest =>
      if b.toNat < 128 then some (b.toNat, rest)
      else (decodeVarint fuel rest).map fun (n, rest) => (b.toNat - 128 + 128 * n, rest)

theorem decodeVarint_of_lt (fuel : ℕ) {n : ℕ} (h : n < 128) (rest : List UInt8) :
    decodeVarint fuel (UInt8.ofNat n :: rest) = some (n, rest) := by
  have hn : (UInt8.ofNat n).toNat = n := by
    rw [UInt8.toNat_ofNat']
    omega
  cases fuel <;> simp [decodeVarint, hn, h]

theorem decodeVarint_encodeVarint {fuel n : ℕ} (h : n < 128 ^ (fuel + 1)) (rest : List UInt8) :
    decodeVarint fuel (encodeVarint fuel n ++ rest) = some (n, rest) := by
  induction fuel generalizing n with
  | zero => exact decodeVarint_of_lt 0 (by simpa using h) rest
  | succ fuel ih =>
    unfold encodeVarint
    split_ifs with hn
    · exact decodeVarint_of_lt _ hn rest
    · have hb : (UInt8.ofNat (n % 128 + 128)).toNat = n % 128 + 128 := by
        rw [UInt8.toNat_ofNat']
        omega
      have hdiv : n / 128 < 128 ^ (fuel + 1) := Nat.div_lt_of_lt_mul (by rwa [Nat.pow_succ'] at h)
      rw [List.cons_append, decodeVarint, hb, if_neg (by omega), ih hdiv, Option.map_some]
      simp only [Nat.add_sub_cancel, Nat.mod_add_div]

theorem encodeVarint_ne_nil (fuel n : ℕ) : encodeVarint fuel n ≠ [] := by
  cases fuel with
  | zero => simp [encodeVarint]
  | succ fuel =>
    unfold encodeVarint
    split_ifs <;> simp

theorem encodeVarint_length_le (fuel n : ℕ) : (encodeVarint fuel n).length ≤ fuel + 1 := by
  induction fuel generalizing n with
  | zero => simp [encodeVarint]
  | succ fuel ih =>
    unfold encodeVarint
    split_ifs
    · simp
    · simpa using ih (n / 128)

inductive Value where
  | varint (n : ℕ)
  | bytes (b : List UInt8)
deriving Repr, DecidableEq

structure Field where
  number : ℕ
  value : Value
deriving Repr, DecidableEq

/-- A 64-bit varint takes ten bytes at most. -/
def varintFuel : ℕ := 9

def Value.wireType : Value → ℕ
  | varint _ => 0
  | bytes _ => 2

def Value.encode : Value → List UInt8
  | varint n => encodeVarint varintFuel n
  | bytes b => encodeVarint varintFuel b.length ++ b

def Field.encode (f : Field) : List UInt8 :=
  encodeVarint varintFuel (8 * f.number + f.value.wireType) ++ f.value.encode

def decodeValue (wireType : ℕ) (bs : List UInt8) : Option (Value × List UInt8) := do
  let (n, rest) ← decodeVarint varintFuel bs
  if wireType = 0 then return (.varint n, rest)
  else if wireType = 2 ∧ n ≤ rest.length then return (.bytes (rest.take n), rest.drop n)
  else none

def decodeField (bs : List UInt8) : Option (Field × List UInt8) := do
  let (tag, rest) ← decodeVarint varintFuel bs
  let (value, rest) ← decodeValue (tag % 8) rest
  return (⟨tag / 8, value⟩, rest)

/-- The numbers of the field are `uint64` values, its tag included. -/
structure Field.Fits (f : Field) : Prop where
  number_lt : 8 * f.number + 8 ≤ 2 ^ 64
  varint_lt : ∀ n, f.value = .varint n → n < 2 ^ 64
  length_lt : ∀ b, f.value = .bytes b → b.length < 2 ^ 64

theorem lt_of_uint64 {n : ℕ} (h : n < 2 ^ 64) : n < 128 ^ (varintFuel + 1) := by
  have hle : (2 : ℕ) ^ 64 ≤ 128 ^ (varintFuel + 1) := by decide
  exact Nat.lt_of_lt_of_le h hle

theorem decodeField_encode {f : Field} (h : f.Fits) (rest : List UInt8) :
    decodeField (f.encode ++ rest) = some (f, rest) := by
  obtain ⟨number, value⟩ := f
  have hnum := h.number_lt
  simp only at hnum
  have hdec : ∀ {n : ℕ}, n < 2 ^ 64 → ∀ rest, decodeVarint varintFuel
      (encodeVarint varintFuel n ++ rest) = some (n, rest) :=
    fun hn rest => decodeVarint_encodeVarint (lt_of_uint64 hn) rest
  cases value with
  | varint n =>
    have hn := h.varint_lt n rfl
    simp only [Field.encode, Value.encode, Value.wireType, decodeField, List.append_assoc]
    rw [hdec (by omega)]
    simp only [Option.bind_eq_bind, Option.bind_some, decodeValue]
    rw [hdec hn]
    simp only [Option.bind_some, Option.pure_def]
    rw [if_pos (by omega)]
    simp only [Option.bind_some, Option.some.injEq, Prod.mk.injEq, Field.mk.injEq, and_true]
    omega
  | bytes b =>
    have hb := h.length_lt b rfl
    simp only [Field.encode, Value.encode, Value.wireType, decodeField, List.append_assoc]
    rw [hdec (by omega)]
    simp only [Option.bind_eq_bind, Option.bind_some, decodeValue]
    rw [hdec hb]
    simp only [Option.bind_some, Option.pure_def]
    rw [if_neg (by omega), if_pos ⟨by omega, by simp⟩]
    simp only [Option.bind_some, Option.some.injEq, Prod.mk.injEq, Field.mk.injEq,
      List.take_left, List.drop_left, and_true]
    omega

theorem Field.encode_ne_nil (f : Field) : f.encode ≠ [] := by
  simp [Field.encode, encodeVarint_ne_nil]

def encodeFields (fs : List Field) : List UInt8 := fs.flatMap Field.encode

@[simp] theorem encodeFields_nil : encodeFields [] = [] := rfl

@[simp] theorem encodeFields_cons (f : Field) (fs : List Field) :
    encodeFields (f :: fs) = f.encode ++ encodeFields fs := rfl

def decodeFields : ℕ → List UInt8 → Option (List Field)
  | _, [] => some []
  | 0, _ :: _ => none
  | fuel + 1, b :: bs => do
      let (f, rest) ← decodeField (b :: bs)
      let fs ← decodeFields fuel rest
      return f :: fs

theorem decodeFields_succ {fuel : ℕ} {bs rest : List UInt8} {f : Field} (hne : bs ≠ [])
    (h : decodeField bs = some (f, rest)) :
    decodeFields (fuel + 1) bs = (decodeFields fuel rest).map (f :: ·) := by
  cases bs with
  | nil => exact absurd rfl hne
  | cons b bs =>
    simp only [decodeFields, h, Option.bind_eq_bind, Option.bind_some]
    cases decodeFields fuel rest <;> rfl

/-- Round trip: a record is decoded to the fields it was made of. -/
theorem decodeFields_encodeFields {fs : List Field} (h : ∀ f ∈ fs, f.Fits) {fuel : ℕ}
    (hfuel : fs.length ≤ fuel) : decodeFields fuel (encodeFields fs) = some fs := by
  induction fs generalizing fuel with
  | nil => cases fuel <;> rfl
  | cons f fs ih =>
    obtain ⟨fuel, rfl⟩ : ∃ k, fuel = k + 1 := ⟨fuel - 1, by simp at hfuel; omega⟩
    have hlen : fs.length ≤ fuel := by simpa using hfuel
    have hrest := ih (fun g hg => h g (List.mem_cons_of_mem _ hg)) hlen
    have hne : f.encode ++ encodeFields fs ≠ [] := by simp [Field.encode_ne_nil]
    rw [encodeFields_cons, decodeFields_succ hne (decodeField_encode (h f List.mem_cons_self) _),
      hrest, Option.map_some]

theorem length_le_encodeFields (fs : List Field) : fs.length ≤ (encodeFields fs).length := by
  induction fs with
  | nil => simp
  | cons f fs ih =>
    have := List.length_pos_iff.mpr f.encode_ne_nil
    simp only [encodeFields_cons, List.length_cons, List.length_append]
    omega

end NcxTunnel.WireFormat
