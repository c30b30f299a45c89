import NcxTunnel.Framing
import NcxTunnel.WireFormat

/-!
# The messages

`protocol/protocol.proto`.  Every field is `optional`, so presence is kept and a
getter returns the default of an absent field.  Serialization follows the
generated `protocol.pb.cc`.  Parsing is done by the protobuf runtime: `Protobuf`
asks of it only that it reads back what was serialized, and `Protobuf.wire` is a
parser with that property.
-/

namespace NcxTunnel
open WireFormat

/-- Values of an enum with the names `0` and `1` that have no name; proto3 keeps them. -/
abbrev Unnamed := { v : Int32 // v ≠ 0 ∧ v ≠ 1 }

inductive HelloType where
  | controlChannelHello
  | dataChannelHello
  | unnamed (v : Unnamed)
deriving Repr, DecidableEq

inductive CCmd where
  | createDataChannel
  | heartbeat
  | unnamed (v : Unnamed)
deriving Repr, DecidableEq

inductive DCmd where
  | startForwardTcp
  | startForwardUdp
  | unnamed (v : Unnamed)
deriving Repr, DecidableEq

structure ControlChannelHelloContent where
  serviceName? : Option Bytes
  proxyPort? : Option Int32
deriving Repr, DecidableEq

structure Hello where
  helloType? : Option HelloType
  digest? : Option Bytes
  controlChannelHelloContent? : Option ControlChannelHelloContent
deriving Repr, DecidableEq

structure ControlChannelCmd where
  controlChannelCmd? : Option CCmd
deriving Repr, DecidableEq

structure DataChannelCmd where
  dataChannelCmd? : Option DCmd
deriving Repr, DecidableEq

namespace ControlChannelHelloContent

def empty : ControlChannelHelloContent := ⟨none, none⟩

def serviceName (c : ControlChannelHelloContent) : Bytes := c.serviceName?.getD []

def proxyPort (c : ControlChannelHelloContent) : Int32 := c.proxyPort?.getD 0

end ControlChannelHelloContent

namespace Hello

def empty : Hello := ⟨none, none, none⟩

def helloType (h : Hello) : HelloType := h.helloType?.getD .controlChannelHello

def digest (h : Hello) : Bytes := h.digest?.getD []

def controlChannelHelloContent (h : Hello) : ControlChannelHelloContent :=
  h.controlChannelHelloContent?.getD .empty

end Hello

def ControlChannelCmd.controlChannelCmd (m : ControlChannelCmd) : CCmd :=
  m.controlChannelCmd?.getD .createDataChannel

def DataChannelCmd.dataChannelCmd (m : DataChannelCmd) : DCmd :=
  m.dataChannelCmd?.getD .startForwardTcp

/-! ## Numbers on the wire -/

/-- An enum is transferred as an `int32`. -/
class ProtoEnum (α : Type) where
  toInt32 : α → Int32
  ofInt32 : Int32 → α
  ofInt32_toInt32 : ∀ a, ofInt32 (toInt32 a) = a

instance : ProtoEnum HelloType where
  toInt32
    | .controlChannelHello => 0
    | .dataChannelHello => 1
    | .unnamed v => v.1
  ofInt32 v :=
    if h₀ : v = 0 then .controlChannelHello
    else if h₁ : v = 1 then .dataChannelHello
    else .unnamed ⟨v, h₀, h₁⟩
  ofInt32_toInt32
    | .controlChannelHello => rfl
    | .dataChannelHello => rfl
    | .unnamed ⟨v, h₀, h₁⟩ => by simp [h₀, h₁]

instance : ProtoEnum CCmd where
  toInt32
    | .createDataChannel => 0
    | .heartbeat => 1
    | .unnamed v => v.1
  ofInt32 v :=
    if h₀ : v = 0 then .createDataChannel
    else if h₁ : v = 1 then .heartbeat
    else .unnamed ⟨v, h₀, h₁⟩
  ofInt32_toInt32
    | .createDataChannel => rfl
    | .heartbeat => rfl
    | .unnamed ⟨v, h₀, h₁⟩ => by simp [h₀, h₁]

instance : ProtoEnum DCmd where
  toInt32
    | .startForwardTcp => 0
    | .startForwardUdp => 1
    | .unnamed v => v.1
  ofInt32 v :=
    if h₀ : v = 0 then .startForwardTcp
    else if h₁ : v = 1 then .startForwardUdp
    else .unnamed ⟨v, h₀, h₁⟩
  ofInt32_toInt32
    | .startForwardTcp => rfl
    | .startForwardUdp => rfl
    | .unnamed ⟨v, h₀, h₁⟩ => by simp [h₀, h₁]

/-- An `int32` is sign-extended to 64 bits. -/
def int32Varint (v : Int32) : ℕ := v.toInt64.toUInt64.toNat

def varintInt32 (n : ℕ) : Int32 := (UInt64.ofNat n).toInt64.toInt32

theorem int32Varint_lt (v : Int32) : int32Varint v < 2 ^ 64 := v.toInt64.toUInt64.toNat_lt

theorem varintInt32_int32Varint (v : Int32) : varintInt32 (int32Varint v) = v := by
  simp [varintInt32, int32Varint]

/-! ## Serialization -/

/-- A field is written if it is present. -/
def optionalField {α : Type} (number : ℕ) (value : α → Value) : Option α → List Field
  | none => []
  | some a => [⟨number, value a⟩]

def int32Value (v : Int32) : Value := .varint (int32Varint v)

def enumValue {α : Type} [ProtoEnum α] (a : α) : Value := int32Value (ProtoEnum.toInt32 a)

def ControlChannelHelloContent.fields (c : ControlChannelHelloContent) : List Field :=
  optionalField 1 .bytes c.serviceName? ++ optionalField 2 int32Value c.proxyPort?

def ControlChannelHelloContent.serializeAsString (c : ControlChannelHelloContent) : Bytes :=
  encodeFields c.fields

def Hello.fields (h : Hello) : List Field :=
  optionalField 1 enumValue h.helloType? ++ optionalField 2 .bytes h.digest? ++
    optionalField 3 (fun c => .bytes (ControlChannelHelloContent.serializeAsString c))
      h.controlChannelHelloContent?

def Hello.serializeAsString (h : Hello) : Bytes := encodeFields h.fields

def ControlChannelCmd.serializeAsString (m : ControlChannelCmd) : Bytes :=
  encodeFields (optionalField 1 enumValue m.controlChannelCmd?)

def DataChannelCmd.serializeAsString (m : DataChannelCmd) : Bytes :=
  encodeFields (optionalField 1 enumValue m.dataChannelCmd?)

/-- A `string` field holds UTF-8. -/
def Utf8 (b : Bytes) : Prop := b.toByteArray.IsValidUTF8

instance (b : Bytes) : Decidable (Utf8 b) := inferInstanceAs (Decidable (ByteArray.IsValidUTF8 _))

theorem utf8_of_ascii {b : Bytes} (h : ∀ x ∈ b, x < 128) : Utf8 b := by
  refine ⟨b.map fun x => Char.ofNat x.toNat, ?_⟩
  rw [List.utf8Encode, List.flatMap_map]
  congr 1
  induction b with
  | nil => rfl
  | cons x b ih =>
    have hx : x.toNat < 128 := h x List.mem_cons_self
    have hchar : x.toNat.isValidChar := .inl (by omega)
    have hval : (Char.ofNat x.toNat).val.toNat = x.toNat := by
      simp [Char.ofNat, hchar, Char.ofNatAux]
    have hone : String.utf8EncodeChar (Char.ofNat x.toNat) = [x] := by
      simp [String.utf8EncodeChar, hval]
      omega
    rw [List.flatMap_cons, hone, ← ih fun y hy => h y (List.mem_cons_of_mem _ hy)]
    rfl

/-- A message protobuf can transfer: its strings are UTF-8 and it stays below 2 GiB. -/
structure Hello.Valid (h : Hello) : Prop where
  utf8_digest : Utf8 h.digest
  utf8_serviceName : Utf8 h.controlChannelHelloContent.serviceName
  length_lt : h.serializeAsString.length < 2 ^ 31

instance (h : Hello) : Decidable h.Valid :=
  decidable_of_iff (Utf8 h.digest ∧ Utf8 h.controlChannelHelloContent.serviceName ∧
    h.serializeAsString.length < 2 ^ 31)
    ⟨fun hv => ⟨hv.1, hv.2.1, hv.2.2⟩, fun hv => ⟨hv.1, hv.2, hv.3⟩⟩

/-- The parsers of the protobuf runtime.  `ParseFromString` reports success and
leaves a message behind in either case. -/
structure Protobuf where
  parseHello : Bytes → Bool × Hello
  parseControlChannelCmd : Bytes → Bool × ControlChannelCmd
  parseDataChannelCmd : Bytes → Bool × DataChannelCmd
  parseHello_serialize : ∀ h : Hello, h.Valid → parseHello h.serializeAsString = (true, h)
  parseControlChannelCmd_serialize : ∀ m : ControlChannelCmd,
    parseControlChannelCmd m.serializeAsString = (true, m)
  parseDataChannelCmd_serialize : ∀ m : DataChannelCmd,
    parseDataChannelCmd m.serializeAsString = (true, m)

/-! ## Serialized messages as payloads -/

theorem encode_enumValue_length_le {α : Type} [ProtoEnum α] (number : ℕ) (a : α) :
    (Field.encode ⟨number, enumValue a⟩).length ≤ 20 := by
  have htag := encodeVarint_length_le varintFuel (8 * number)
  have hval := encodeVarint_length_le varintFuel (int32Varint (ProtoEnum.toInt32 a))
  simp only [varintFuel] at htag hval
  simp only [Field.encode, enumValue, int32Value, Value.encode, Value.wireType, varintFuel,
    List.length_append, Nat.add_zero]
  omega

theorem frameable_enumField {α : Type} [ProtoEnum α] (a : α) :
    Frameable (encodeFields (optionalField 1 enumValue (some a))) := by
  have hle := encode_enumValue_length_le 1 a
  refine ⟨by simp [optionalField, Field.encode_ne_nil], ?_⟩
  simp only [optionalField, encodeFields_cons, encodeFields_nil, List.append_nil]
  omega

theorem Hello.Valid.frameable {h : Hello} (hv : h.Valid) {t : HelloType}
    (ht : h.helloType? = some t) : Frameable h.serializeAsString := by
  refine ⟨?_, Nat.lt_trans hv.length_lt (by decide)⟩
  simp [serializeAsString, fields, ht, optionalField, Field.encode_ne_nil]

structure IsUuid (b : Bytes) : Prop where
  length_eq : b.length = 36
  ascii : ∀ x ∈ b, x < 128

instance (b : Bytes) : Decidable (IsUuid b) :=
  decidable_of_iff (b.length = 36 ∧ ∀ x ∈ b, x < 128)
    ⟨fun h => ⟨h.1, h.2⟩, fun h => ⟨h.1, h.2⟩⟩

def exampleNonce : Bytes :=
  [48, 48, 48, 48, 48, 48, 48, 48, 45, 48, 48, 48, 48, 45, 52, 48, 48, 48, 45, 56, 48, 48, 48, 45,
    48, 48, 48, 48, 48, 48, 48, 48, 48, 48, 48, 49]

theorem exampleNonce_isUuid : IsUuid exampleNonce := ⟨rfl, by decide +kernel⟩

/-- A greeting that carries a UUID and nothing else. -/
theorem Hello.valid_of_isUuid (t : HelloType) {nonce : Bytes} (h : IsUuid nonce) :
    Hello.Valid ⟨some t, some nonce, none⟩ := by
  refine ⟨utf8_of_ascii h.ascii, utf8_of_ascii (by simp [controlChannelHelloContent,
    ControlChannelHelloContent.serviceName, ControlChannelHelloContent.empty]), ?_⟩
  have hle := encode_enumValue_length_le 1 t
  have htag := encodeVarint_length_le varintFuel (8 * 2 + 2)
  have hlen := encodeVarint_length_le varintFuel 36
  simp only [varintFuel] at htag hlen
  simp only [serializeAsString, fields, optionalField, List.append_nil, List.cons_append,
    List.nil_append, encodeFields_cons, encodeFields_nil, List.length_append]
  simp only [Field.encode, Value.encode, Value.wireType, varintFuel, List.length_append,
    h.length_eq] at hle ⊢
  omega

/-- Fields that are absent, of another number or of another wire type are skipped. -/
def ControlChannelHelloContent.mergeField (c : ControlChannelHelloContent) (f : Field) :
    ControlChannelHelloContent :=
  match f.number, f.value with
  | 1, .bytes b => { c with serviceName? := some b }
  | 2, .varint n => { c with proxyPort? := some (varintInt32 n) }
  | _, _ => c

def ControlChannelHelloContent.mergeFromString (c : ControlChannelHelloContent) (bs : Bytes) :
    Bool × ControlChannelHelloContent :=
  match decodeFields bs.length bs with
  | none => (false, c)
  | some fs =>
      let c := fs.foldl mergeField c
      (decide (Utf8 c.serviceName), c)

def Hello.mergeField (acc : Bool × Hello) (f : Field) : Bool × Hello :=
  let (ok, h) := acc
  match f.number, f.value with
  | 1, .varint n => (ok, { h with helloType? := some (ProtoEnum.ofInt32 (varintInt32 n)) })
  | 2, .bytes b => (ok && decide (Utf8 b), { h with digest? := some b })
  | 3, .bytes b =>
      let (ok', c) := h.controlChannelHelloContent.mergeFromString b
      (ok && ok', { h with controlChannelHelloContent? := some c })
  | _, _ => (ok, h)

def Hello.parseFromString (bs : Bytes) : Bool × Hello :=
  match decodeFields bs.length bs with
  | none => (false, .empty)
  | some fs => fs.foldl mergeField (true, .empty)

/-- The only field of a command. -/
def parseEnumField {α : Type} [ProtoEnum α] (bs : Bytes) : Bool × Option α :=
  match decodeFields bs.length bs with
  | none => (false, none)
  | some fs => (true, fs.foldl (fun acc f =>
      match f.number, f.value with
      | 1, .varint n => some (ProtoEnum.ofInt32 (varintInt32 n))
      | _, _ => acc) none)

section Parse

theorem decodeFields_serialized {fs : List Field} (h : ∀ f ∈ fs, f.Fits) :
    decodeFields (encodeFields fs).length (encodeFields fs) = some fs :=
  decodeFields_encodeFields h (length_le_encodeFields fs)

theorem fits_int32Value {number : ℕ} (hn : 8 * number + 8 ≤ 2 ^ 64) (v : Int32) :
    Field.Fits ⟨number, int32Value v⟩ := by
  refine ⟨hn, fun n he => ?_, fun b he => nomatch he⟩
  cases he
  exact int32Varint_lt v

theorem fits_enumValue {α : Type} [ProtoEnum α] {number : ℕ} (hn : 8 * number + 8 ≤ 2 ^ 64)
    (a : α) : Field.Fits ⟨number, enumValue a⟩ := fits_int32Value hn _

/-- A byte string is part of the record it is written in. -/
theorem fits_bytes {number : ℕ} (hn : 8 * number + 8 ≤ 2 ^ 64) {b : Bytes} {fs : List Field}
    (hmem : ⟨number, .bytes b⟩ ∈ fs) (hlen : (encodeFields fs).length < 2 ^ 31) :
    Field.Fits ⟨number, .bytes b⟩ := by
  refine ⟨hn, fun n he => (nomatch he), fun b' he => ?_⟩
  cases he
  have hle : b.length ≤ (encodeFields fs).length := by
    obtain ⟨l, r, rfl⟩ := List.append_of_mem hmem
    simp only [encodeFields, List.flatMap_append, List.flatMap_cons, List.length_append,
      Field.encode, Value.encode]
    omega
  omega

theorem parseEnumField_serialize {α : Type} [ProtoEnum α] (a : Option α) :
    parseEnumField (encodeFields (optionalField 1 enumValue a)) = (true, a) := by
  have hfits : ∀ f ∈ optionalField 1 enumValue a, f.Fits := by
    cases a with
    | none => simp [optionalField]
    | some a => simpa [optionalField] using fits_enumValue (by decide) a
  rw [parseEnumField, decodeFields_serialized hfits]
  cases a with
  | none => rfl
  | some a =>
    simp [optionalField, enumValue, int32Value, varintInt32_int32Varint, ProtoEnum.ofInt32_toInt32]

theorem ControlChannelHelloContent.mergeFromString_serialize (c : ControlChannelHelloContent)
    (hutf8 : Utf8 c.serviceName) (hlen : c.serializeAsString.length < 2 ^ 31) :
    empty.mergeFromString c.serializeAsString = (true, c) := by
  have hfits : ∀ f ∈ c.fields, f.Fits := by
    intro f hf
    have hbytes := fun b (hb : f = ⟨1, .bytes b⟩) => fits_bytes (by decide) (hb ▸ hf) hlen
    simp only [fields, List.mem_append] at hf
    rcases hf with hf | hf
    · cases hn : c.serviceName? <;> simp [hn, optionalField] at hf
      exact hf ▸ hbytes _ hf
    · cases hp : c.proxyPort? <;> simp [hp, optionalField] at hf
      exact hf ▸ fits_int32Value (by decide) _
  rw [mergeFromString, serializeAsString, decodeFields_serialized hfits]
  obtain ⟨_ | name, _ | port⟩ := c <;>
    simpa [fields, optionalField, mergeField, empty, int32Value, varintInt32_int32Varint,
      serviceName] using hutf8

theorem Hello.parseFromString_serialize (h : Hello) (hv : h.Valid) :
    parseFromString h.serializeAsString = (true, h) := by
  have hlen := hv.length_lt
  have hfits : ∀ f ∈ h.fields, f.Fits := by
    intro f hf
    have hbytes := fun k b (hk : 8 * k + 8 ≤ 2 ^ 64) (hb : f = ⟨k, .bytes b⟩) =>
      fits_bytes hk (hb ▸ hf) hlen
    simp only [fields, List.mem_append] at hf
    rcases hf with (hf | hf) | hf
    · cases ht : h.helloType? <;> simp [ht, optionalField] at hf
      exact hf ▸ fits_enumValue (by decide) _
    · cases hd : h.digest? <;> simp [hd, optionalField] at hf
      exact hf ▸ hbytes 2 _ (by decide) hf
    · cases hc : h.controlChannelHelloContent? <;> simp [hc, optionalField] at hf
      exact hf ▸ hbytes 3 _ (by decide) hf
  have hcontent : ∀ c, h.controlChannelHelloContent? = some c →
      ControlChannelHelloContent.empty.mergeFromString c.serializeAsString = (true, c) := by
    intro c hc
    refine c.mergeFromString_serialize ?_ ?_
    · simpa [controlChannelHelloContent, hc] using hv.utf8_serviceName
    · refine Nat.lt_of_le_of_lt ?_ hlen
      simp [serializeAsString, encodeFields, fields, hc, optionalField, Field.encode, Value.encode]
      omega
  have hdigest := hv.utf8_digest
  rw [parseFromString, serializeAsString, decodeFields_serialized hfits]
  obtain ⟨_ | t, _ | d, _ | c⟩ := h <;>
    simp_all [fields, optionalField, mergeField, empty, digest, controlChannelHelloContent,
      enumValue, int32Value, varintInt32_int32Varint, ProtoEnum.ofInt32_toInt32]

end Parse

def Protobuf.wire : Protobuf where
  parseHello := Hello.parseFromString
  parseControlChannelCmd bs := let (ok, cmd) := parseEnumField bs; (ok, ⟨cmd⟩)
  parseDataChannelCmd bs := let (ok, cmd) := parseEnumField bs; (ok, ⟨cmd⟩)
  parseHello_serialize := Hello.parseFromString_serialize
  parseControlChannelCmd_serialize m := by
    simp [ControlChannelCmd.serializeAsString, parseEnumField_serialize]
  parseDataChannelCmd_serialize m := by
    simp [DataChannelCmd.serializeAsString, parseEnumField_serialize]

end NcxTunnel
