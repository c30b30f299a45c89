import NcxTunnel.Storage

/-!
# The byte buffer of a connection

`network/buffer.cpp`.  A buffer is a vector with two indices; the bytes between
them are the readable ones.  `size_t` arithmetic is modulo `2 ^ 64`, a failed
`assert` and an access outside the vector give `none`.  A `const char*` into the
buffer is the index it points to.
-/

namespace NcxTunnel

abbrev Byte := UInt8
abbrev Bytes := List Byte

/-- The value a `size_t` holds after an addition. -/
def sizeT (n : ℕ) : ℕ := n % 2 ^ 64

/-- Subtraction of two `size_t` values. -/
def sizeTSub (a b : ℕ) : ℕ := (a + (2 ^ 64 - b)) % 2 ^ 64

theorem sizeT_of_lt {n : ℕ} (h : n < 2 ^ 64) : sizeT n = n := Nat.mod_eq_of_lt h

theorem sizeTSub_of_le {a b : ℕ} (hle : b ≤ a) (ha : a < 2 ^ 64) : sizeTSub a b = a - b := by
  unfold sizeTSub
  omega

/-- Reserved space in front of the readable bytes. -/
def kPrePendIndex : ℕ := 8

def kInitSize : ℕ := 1024

structure Buffer where
  buffer : List Byte
  readIndex : ℕ
  writeIndex : ℕ
deriving Repr, DecidableEq

namespace Buffer
open Storage

/-- The constructor. -/
def new : Buffer := ⟨List.replicate kInitSize 0, kPrePendIndex, kPrePendIndex⟩

def readAbleBytes (b : Buffer) : ℕ := sizeTSub b.writeIndex b.readIndex

def writeAbleBytes (b : Buffer) : ℕ := sizeTSub b.buffer.length b.writeIndex

def prependAbleBytes (b : Buffer) : ℕ := b.readIndex

def ensureWriteableBytes (b : Buffer) (len : ℕ) : Option Buffer :=
  if len ≤ b.writeAbleBytes then some b
  else if sizeT (kPrePendIndex + len) ≤ sizeT (b.writeAbleBytes + b.prependAbleBytes) then do
    let v ← copyWithin (b.writeIndex - b.readIndex) b.readIndex kPrePendIndex b.buffer
    return ⟨v, kPrePendIndex, sizeT (kPrePendIndex + b.readAbleBytes)⟩
  else some { b with buffer := resize 0 (sizeT (b.writeIndex + len)) b.buffer }

/-- `Append(const char*, size_t)`. -/
def append (b : Buffer) (message : Bytes) : Option Buffer := do
  let b ← b.ensureWriteableBytes message.length
  let v ← copyIn message b.writeIndex b.buffer
  return { b with buffer := v, writeIndex := sizeT (b.writeIndex + message.length) }

/-- `Append(const char*)`: the bytes up to the terminator that `strlen` finds. -/
def appendCString (b : Buffer) (message : Bytes) : Option Buffer :=
  b.append (message.takeWhile (· != 0))

/-- `Append(const std::string&)`. -/
def appendString (b : Buffer) (message : Bytes) : Option Buffer := b.append message

def peekAsString (b : Buffer) (len : ℕ) : Option Bytes := copyOut len b.readIndex b.buffer

def peekAllAsString (b : Buffer) : Option Bytes :=
  copyOut (b.writeIndex - b.readIndex) b.readIndex b.buffer

def retrieveAll (b : Buffer) : Buffer :=
  { b with readIndex := kPrePendIndex, writeIndex := kPrePendIndex }

def retrieve (b : Buffer) (len : ℕ) : Option Buffer :=
  if len ≤ b.readAbleBytes then
    if sizeT (len + b.readIndex) < b.writeIndex then
      some { b with readIndex := sizeT (b.readIndex + len) }
    else some b.retrieveAll
  else none

def retrieveUntil (b : Buffer) (stop : ℕ) : Option Buffer :=
  if stop ≤ b.writeIndex then
    some { b with readIndex := sizeT (b.readIndex + sizeTSub stop b.readIndex) }
  else none

def retrieveAsString (b : Buffer) (len : ℕ) : Option (Bytes × Buffer) :=
  if sizeT (b.readIndex + len) ≤ b.writeIndex then do
    let ret ← b.peekAsString len
    let b ← b.retrieve len
    return (ret, b)
  else none

def retrieveUtilAsString (b : Buffer) (stop : ℕ) : Option (Bytes × Buffer) :=
  if stop ≤ b.writeIndex then do
    let ret ← b.peekAsString (sizeTSub stop b.readIndex)
    let b ← b.retrieveUntil stop
    return (ret, b)
  else none

def retrieveAllAsString (b : Buffer) : Option (Bytes × Buffer) := do
  let ret ← b.peekAllAsString
  return (ret, b.retrieveAll)

structure WellFormed (b : Buffer) : Prop where
  prepend_le : kPrePendIndex ≤ b.readIndex
  read_le_write : b.readIndex ≤ b.writeIndex
  write_le_size : b.writeIndex ≤ b.buffer.length
  size_lt : b.buffer.length < 2 ^ 64

/-- The readable bytes, oldest first. -/
def contents (b : Buffer) : Bytes := window b.buffer b.readIndex (b.writeIndex - b.readIndex)

theorem new_wellFormed : new.WellFormed := by
  constructor <;> simp only [new, List.length_replicate, kPrePendIndex, kInitSize] <;> omega

@[simp] theorem contents_new : new.contents = [] := by
  simp only [contents, new, Nat.sub_self, window_zero]

variable {b : Buffer}

theorem WellFormed.readAbleBytes_eq (h : b.WellFormed) :
    b.readAbleBytes = b.writeIndex - b.readIndex :=
  sizeTSub_of_le h.read_le_write (Nat.lt_of_le_of_lt h.write_le_size h.size_lt)

theorem WellFormed.writeAbleBytes_eq (h : b.WellFormed) :
    b.writeAbleBytes = b.buffer.length - b.writeIndex :=
  sizeTSub_of_le h.write_le_size h.size_lt

theorem WellFormed.contents_length (h : b.WellFormed) :
    b.contents.length = b.writeIndex - b.readIndex := by
  have := h.read_le_write
  have := h.write_le_size
  exact window_length (by omega)

theorem WellFormed.readAbleBytes_eq_length (h : b.WellFormed) :
    b.readAbleBytes = b.contents.length := by
  rw [h.readAbleBytes_eq, h.contents_length]

/-- Room is made without touching the readable bytes.  In the middle branch the
readable bytes move down: `read_index_` is above `kPrePendIndex` there, because
the free bytes behind the data alone were not enough. -/
theorem WellFormed.ensureWriteableBytes_spec (h : b.WellFormed) {len : ℕ}
    (hfit : b.writeIndex + len + 8 < 2 ^ 64) :
    ∃ b', b.ensureWriteableBytes len = some b' ∧ b'.WellFormed ∧ b'.contents = b.contents ∧
      b'.writeIndex + len ≤ b'.buffer.length ∧ b'.writeIndex + len < 2 ^ 64 := by
  obtain ⟨h1, h2, h3, h4⟩ := h
  have hw := WellFormed.writeAbleBytes_eq ⟨h1, h2, h3, h4⟩
  have hr := WellFormed.readAbleBytes_eq ⟨h1, h2, h3, h4⟩
  simp only [kPrePendIndex] at h1
  unfold ensureWriteableBytes
  rw [hw, hr, prependAbleBytes, kPrePendIndex, sizeT_of_lt (by omega : 8 + len < 2 ^ 64),
    sizeT_of_lt (by omega : b.buffer.length - b.writeIndex + b.readIndex < 2 ^ 64),
    sizeT_of_lt (by omega : 8 + (b.writeIndex - b.readIndex) < 2 ^ 64),
    sizeT_of_lt (by omega : b.writeIndex + len < 2 ^ 64)]
  split_ifs with hroom hcompact
  · exact ⟨b, rfl, ⟨h1, h2, h3, h4⟩, rfl, by omega, by omega⟩
  · have hrange : b.readIndex + (b.writeIndex - b.readIndex) ≤ b.buffer.length := by omega
    obtain ⟨v, he, hk, hv⟩ := copyWithin_spec h1 hrange
    have hl := hk.length_eq
    refine ⟨⟨v, 8, 8 + (b.writeIndex - b.readIndex)⟩, by rw [he]; rfl, ?_, ?_, ?_, ?_⟩
    · constructor <;> simp only [kPrePendIndex] <;> omega
    · simpa only [contents, Nat.add_sub_cancel_left] using hv
    · simp only
      omega
    · simp only
      omega
  · refine ⟨_, rfl, ?_, ?_, ?_, ?_⟩
    · constructor <;> simp only [resize_length, kPrePendIndex] <;> omega
    · have hle : b.readIndex + (b.writeIndex - b.readIndex) ≤ b.buffer.length := by omega
      exact window_resize 0 (by omega) hle
    · simp only [resize_length]
      omega
    · simp only
      omega

theorem WellFormed.append_spec (h : b.WellFormed) {message : Bytes}
    (hfit : b.writeIndex + message.length + 8 < 2 ^ 64) :
    ∃ b', b.append message = some b' ∧ b'.WellFormed ∧ b'.contents = b.contents ++ message := by
  obtain ⟨b₁, he, ⟨h1, h2, h3, h4⟩, hc, hroom, hlt⟩ := h.ensureWriteableBytes_spec hfit
  obtain ⟨v, hv, hk, hm⟩ := copyIn_spec hroom
  have hl := hk.length_eq
  refine ⟨⟨v, b₁.readIndex, b₁.writeIndex + message.length⟩, ?_, ?_, ?_⟩
  · simp only [append, he, Option.bind_eq_bind, Option.bind_some, hv, sizeT_of_lt hlt]
    rfl
  · constructor <;> simp only [hl] <;> omega
  · have hsplit : b₁.writeIndex + message.length - b₁.readIndex =
        (b₁.writeIndex - b₁.readIndex) + message.length := by omega
    have hidx : b₁.readIndex + (b₁.writeIndex - b₁.readIndex) = b₁.writeIndex := by omega
    rw [← hc]
    simp only [contents, hsplit]
    rw [window_add, hidx, hm, hk.window_eq (by omega)]

theorem WellFormed.peekAsString_eq (h : b.WellFormed) {len : ℕ} (hlen : len ≤ b.contents.length) :
    b.peekAsString len = some (b.contents.take len) := by
  rw [h.contents_length] at hlen
  obtain ⟨h1, h2, h3, h4⟩ := h
  rw [peekAsString, copyOut_eq_window (by omega)]
  simp only [contents, window, List.take_take, Nat.min_eq_left hlen]

theorem WellFormed.peekAllAsString_eq (h : b.WellFormed) :
    b.peekAllAsString = some b.contents := by
  obtain ⟨h1, h2, h3, h4⟩ := h
  exact copyOut_eq_window (by omega)

theorem WellFormed.retrieveAll_spec (h : b.WellFormed) :
    b.retrieveAll.WellFormed ∧ b.retrieveAll.contents = [] := by
  obtain ⟨h1, h2, h3, h4⟩ := h
  refine ⟨?_, by simp only [contents, retrieveAll, Nat.sub_self, window_zero]⟩
  constructor <;> simp only [retrieveAll] <;> omega

/-- Moving `read_index_` inside the readable range drops that many bytes. -/
theorem WellFormed.advance (h : b.WellFormed) {k : ℕ} (hk : k ≤ b.contents.length) :
    { b with readIndex := b.readIndex + k }.WellFormed ∧
      { b with readIndex := b.readIndex + k }.contents = b.contents.drop k := by
  rw [h.contents_length] at hk
  obtain ⟨h1, h2, h3, h4⟩ := h
  refine ⟨?_, ?_⟩
  · constructor <;> simp only <;> omega
  · simp only [contents, window, List.drop_take, List.drop_drop]
    congr 1
    omega

/-- Taking all readable bytes resets the indices; taking fewer moves `read_index_`. -/
theorem WellFormed.retrieve_spec (h : b.WellFormed) {len : ℕ} (hlen : len ≤ b.contents.length) :
    ∃ b', b.retrieve len = some b' ∧ b'.WellFormed ∧ b'.contents = b.contents.drop len := by
  have hr := h.readAbleBytes_eq_length
  have hl := h.contents_length
  have h2 := h.read_le_write
  have h3 := h.write_le_size
  have h4 := h.size_lt
  rw [retrieve, if_pos (by omega), Nat.add_comm len, sizeT_of_lt (by omega)]
  split_ifs with hlt
  · exact ⟨_, rfl, h.advance hlen⟩
  · have hall : len = b.contents.length := by omega
    refine ⟨_, rfl, h.retrieveAll_spec.1, ?_⟩
    rw [h.retrieveAll_spec.2, hall, List.drop_length]

theorem WellFormed.retrieveUntil_spec (h : b.WellFormed) {k : ℕ} (hk : k ≤ b.contents.length) :
    ∃ b', b.retrieveUntil (b.readIndex + k) = some b' ∧ b'.WellFormed ∧
      b'.contents = b.contents.drop k := by
  have hl := h.contents_length
  have h2 := h.read_le_write
  have h3 := h.write_le_size
  have h4 := h.size_lt
  rw [retrieveUntil, if_pos (by omega), sizeTSub_of_le (by omega) (by omega),
    Nat.add_sub_cancel_left, sizeT_of_lt (by omega)]
  exact ⟨_, rfl, h.advance hk⟩

theorem WellFormed.retrieveAsString_spec (h : b.WellFormed) {len : ℕ}
    (hlen : len ≤ b.contents.length) :
    ∃ b', b.retrieveAsString len = some (b.contents.take len, b') ∧ b'.WellFormed ∧
      b'.contents = b.contents.drop len := by
  obtain ⟨b', he, hwf, hc⟩ := h.retrieve_spec hlen
  have hl := h.contents_length
  have h2 := h.read_le_write
  have h3 := h.write_le_size
  have h4 := h.size_lt
  refine ⟨b', ?_, hwf, hc⟩
  rw [retrieveAsString, sizeT_of_lt (by omega), if_pos (by omega), h.peekAsString_eq hlen, he]
  rfl

theorem WellFormed.retrieveUtilAsString_spec (h : b.WellFormed) {k : ℕ}
    (hk : k ≤ b.contents.length) :
    ∃ b', b.retrieveUtilAsString (b.readIndex + k) = some (b.contents.take k, b') ∧
      b'.WellFormed ∧ b'.contents = b.contents.drop k := by
  obtain ⟨b', he, hwf, hc⟩ := h.retrieveUntil_spec hk
  have hl := h.contents_length
  have h2 := h.read_le_write
  have h3 := h.write_le_size
  have h4 := h.size_lt
  refine ⟨b', ?_, hwf, hc⟩
  rw [retrieveUtilAsString, if_pos (by omega), sizeTSub_of_le (by omega) (by omega),
    Nat.add_sub_cancel_left, h.peekAsString_eq hk, he]
  rfl

theorem WellFormed.retrieveAllAsString_spec (h : b.WellFormed) :
    b.retrieveAllAsString = some (b.contents, b.retrieveAll) := by
  rw [retrieveAllAsString, h.peekAllAsString_eq]
  rfl

end Buffer

end NcxTunnel
