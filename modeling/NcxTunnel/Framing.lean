import NcxTunnel.BufferQueue

/-!
# Message framing

`protocol/protoMsgUtil.h`.  A serialized message is sent behind a protobuf
`MessageHeader`, whose single `fixed32` field holds the length: byte `0x0D`
followed by four little-endian bytes, or nothing at all for length `0`.

Each handler makes one attempt per call: `CanReadMsg`, then `RetrieveAsString`
of the length it returned.  The attempt is given on a `Buffer` and on the bytes
readable in it; the two agree.
-/

namespace NcxTunnel

namespace MessageHeader

/-- `SerializeAsString`: a proto3 field with the default value is not written. -/
def serializeAsString (messageLength : ℕ) : Bytes :=
  if messageLength = 0 then []
  else [0x0D, UInt8.ofNat messageLength, UInt8.ofNat (messageLength / 2 ^ 8),
    UInt8.ofNat (messageLength / 2 ^ 16), UInt8.ofNat (messageLength / 2 ^ 24)]

/-- `message_length()` after `ParseFromString`, whether or not parsing succeeds. -/
def parseFromString : Bytes → ℕ
  | [tag, a, b, c, d] =>
      if tag = 0x0D then a.toNat + 2 ^ 8 * b.toNat + 2 ^ 16 * c.toNat + 2 ^ 24 * d.toNat else 0
  | _ => 0

theorem parse_serialize {n : ℕ} (hpos : n ≠ 0) (hlt : n < 2 ^ 32) :
    parseFromString (serializeAsString n) = n := by
  simp only [serializeAsString, if_neg hpos, parseFromString, if_pos, UInt8.toNat_ofNat']
  omega

theorem serialize_length {n : ℕ} (hpos : n ≠ 0) : (serializeAsString n).length = 5 := by
  simp [serializeAsString, hpos]

end MessageHeader

def msgHeaderLength : ℕ := 5

/-- The length goes through a `u_int32_t`. -/
def headerInstaller (serializedMsg : Bytes) : Bytes :=
  MessageHeader.serializeAsString (serializedMsg.length % 2 ^ 32) ++ serializedMsg

/-- `0` stands for "nothing to read"; otherwise the header has been consumed. -/
def canReadMsg (b : Buffer) : Option (ℕ × Buffer) :=
  if b.readAbleBytes < msgHeaderLength then some (0, b)
  else do
    let header ← b.peekAsString msgHeaderLength
    let messageLength := MessageHeader.parseFromString header
    if b.readAbleBytes < sizeT (messageLength + msgHeaderLength) then some (0, b)
    else do
      let b ← b.retrieve msgHeaderLength
      return (messageLength, b)

/-- How every handler begins. -/
def attempt (b : Buffer) : Option (Option Bytes × Buffer) := do
  let (msgLen, b) ← canReadMsg b
  if msgLen = 0 then return (none, b)
  else do
    let (msg, b) ← b.retrieveAsString msgLen
    return (some msg, b)

/-- The length field of the header at the front of the readable bytes. -/
def announced (q : Bytes) : ℕ := MessageHeader.parseFromString (q.take msgHeaderLength)

/-- `canReadMsg` on the readable bytes. -/
def canReadBytes (q : Bytes) : ℕ × Bytes :=
  if q.length < msgHeaderLength then (0, q)
  else if q.length < announced q + msgHeaderLength then (0, q)
  else (announced q, q.drop msgHeaderLength)

def attemptBytes (q : Bytes) : Option Bytes × Bytes :=
  let (msgLen, q) := canReadBytes q
  if msgLen = 0 then (none, q) else (some (q.take msgLen), q.drop msgLen)

theorem parseFromString_lt (header : Bytes) : MessageHeader.parseFromString header < 2 ^ 32 := by
  unfold MessageHeader.parseFromString
  split
  · rename_i tag a b c d
    have := a.toNat_lt
    have := b.toNat_lt
    have := c.toNat_lt
    have := d.toNat_lt
    split <;> omega
  · omega

theorem canReadMsg_spec {b : Buffer} (h : b.WellFormed) :
    ∃ n b', canReadMsg b = some (n, b') ∧ b'.WellFormed ∧
      canReadBytes b.contents = (n, b'.contents) := by
  have hr := h.readAbleBytes_eq_length
  have hlt : announced b.contents + msgHeaderLength < 2 ^ 64 := by
    have := parseFromString_lt (b.contents.take msgHeaderLength)
    unfold announced msgHeaderLength at *
    omega
  unfold canReadMsg canReadBytes
  rw [hr]
  split_ifs with hshort hbody
  · exact ⟨0, b, rfl, h, rfl⟩
  · refine ⟨0, b, ?_, h, rfl⟩
    rw [h.peekAsString_eq (Nat.le_of_not_lt hshort)]
    simp only [Option.bind_eq_bind, Option.bind_some, ← announced.eq_def, sizeT_of_lt hlt, if_pos hbody]
  · obtain ⟨b', he, hwf, hc⟩ := h.retrieve_spec (Nat.le_of_not_lt hshort)
    refine ⟨announced b.contents, b', ?_, hwf, by rw [hc]⟩
    rw [h.peekAsString_eq (Nat.le_of_not_lt hshort)]
    simp only [Option.bind_eq_bind, Option.bind_some, ← announced.eq_def, sizeT_of_lt hlt, if_neg hbody,
      he, Option.pure_def]

/-- What `CanReadMsg` announces can be retrieved. -/
theorem canReadBytes_le (q : Bytes) : (canReadBytes q).1 ≤ (canReadBytes q).2.length := by
  unfold canReadBytes
  split_ifs with hshort hbody
  · exact Nat.zero_le _
  · exact Nat.zero_le _
  · simp only [List.length_drop]
    omega

theorem attempt_spec {b : Buffer} (h : b.WellFormed) :
    ∃ out b', attempt b = some (out, b') ∧ b'.WellFormed ∧
      attemptBytes b.contents = (out, b'.contents) := by
  obtain ⟨n, b₁, he, hwf, hq⟩ := canReadMsg_spec h
  have hle : n ≤ b₁.contents.length := by simpa [hq] using canReadBytes_le b.contents
  unfold attempt attemptBytes
  rw [he, hq]
  by_cases hn : n = 0
  · exact ⟨none, b₁, by simp [hn], hwf, by simp [hn]⟩
  · obtain ⟨b₂, he₂, hwf₂, hc₂⟩ := hwf.retrieveAsString_spec hle
    exact ⟨some (b₁.contents.take n), b₂, by simp [hn, he₂], hwf₂, by simp [hn, hc₂]⟩

/-! ## Frames at the front of a stream -/

/-- A payload that `HeaderInstaller` can frame. -/
structure Frameable (p : Bytes) : Prop where
  ne_nil : p ≠ []
  length_lt : p.length < 2 ^ 32

theorem Frameable.length_pos {p : Bytes} (h : Frameable p) : 0 < p.length :=
  List.length_pos_iff.mpr h.ne_nil

theorem Frameable.headerInstaller_eq {p : Bytes} (h : Frameable p) :
    headerInstaller p = MessageHeader.serializeAsString p.length ++ p := by
  rw [headerInstaller, Nat.mod_eq_of_lt h.length_lt]

theorem Frameable.headerInstaller_length {p : Bytes} (h : Frameable p) :
    (headerInstaller p).length = p.length + msgHeaderLength := by
  rw [h.headerInstaller_eq, List.length_append,
    MessageHeader.serialize_length (Nat.pos_iff_ne_zero.mp h.length_pos), msgHeaderLength,
    Nat.add_comm]

theorem Frameable.announced_eq {p : Bytes} (h : Frameable p) {q : Bytes}
    (hq : headerInstaller p <+: q ∨ q <+: headerInstaller p) (hlen : msgHeaderLength ≤ q.length) :
    announced q = p.length := by
  have hpos := Nat.pos_iff_ne_zero.mp h.length_pos
  have hs := MessageHeader.serialize_length hpos
  have htake : q.take msgHeaderLength = MessageHeader.serializeAsString p.length := by
    have hhead : (headerInstaller p).take msgHeaderLength =
        MessageHeader.serializeAsString p.length := by
      rw [h.headerInstaller_eq, msgHeaderLength, ← hs, List.take_left]
    rw [← hhead]
    rcases hq with ⟨t, rfl⟩ | ⟨t, ht⟩
    · rw [List.take_append_of_le_length (by rw [h.headerInstaller_length]; omega)]
    · rw [← ht, List.take_append_of_le_length hlen]
  rw [announced, htake, MessageHeader.parse_serialize hpos h.length_lt]

/-- A complete frame at the front is recognised and taken off, whatever follows. -/
theorem Frameable.attemptBytes_frame {p : Bytes} (h : Frameable p) (rest : Bytes) :
    attemptBytes (headerInstaller p ++ rest) = (some p, rest) := by
  have hlen := h.headerInstaller_length
  have hge : msgHeaderLength ≤ (headerInstaller p ++ rest).length := by
    rw [List.length_append]
    omega
  have hpos := h.length_pos
  have hparse := h.announced_eq (.inl (List.prefix_append _ rest)) hge
  have hdrop : (headerInstaller p ++ rest).drop msgHeaderLength = p ++ rest := by
    rw [h.headerInstaller_eq, List.append_assoc]
    exact List.drop_left' (MessageHeader.serialize_length (by omega))
  have hcan : canReadBytes (headerInstaller p ++ rest) = (p.length, p ++ rest) := by
    rw [canReadBytes, if_neg (by omega), hparse, hdrop,
      if_neg (by simp only [List.length_append]; omega)]
  simp only [attemptBytes, hcan, if_neg (Nat.pos_iff_ne_zero.mp hpos), List.take_left,
    List.drop_left]

/-- A proper prefix of a frame is left as it is. -/
theorem Frameable.attemptBytes_incomplete {p : Bytes} (h : Frameable p) {q : Bytes}
    (hq : q <+: headerInstaller p) (hlt : q.length < (headerInstaller p).length) :
    attemptBytes q = (none, q) := by
  have hcan : canReadBytes q = (0, q) := by
    unfold canReadBytes
    split_ifs with hshort hbody
    · rfl
    · rfl
    -- the header is there, and it announces more than has arrived
    · rw [h.announced_eq (.inr hq) (by omega)] at hbody
      rw [h.headerInstaller_length] at hlt
      omega
  simp [attemptBytes, hcan]

@[simp] theorem attemptBytes_nil : attemptBytes [] = (none, []) := by
  simp [attemptBytes, canReadBytes, msgHeaderLength]

def frames (ps : List Bytes) : Bytes := (ps.map headerInstaller).flatten

@[simp] theorem frames_nil : frames [] = [] := rfl

@[simp] theorem frames_cons (p : Bytes) (ps : List Bytes) :
    frames (p :: ps) = headerInstaller p ++ frames ps := rfl

/-- One attempt on any initial part of a stream that begins with a frame: either
the frame is not complete yet and nothing changes, or its payload is taken. -/
theorem Frameable.attemptBytes_split {p : Bytes} (h : Frameable p) {q rest stream : Bytes}
    (hq : q ++ rest = headerInstaller p ++ stream) :
    attemptBytes q = (none, q) ∧ q.length < (headerInstaller p).length ∨
      ∃ q', attemptBytes q = (some p, q') ∧ q' ++ rest = stream := by
  -- two initial parts of one stream, so the shorter is a prefix of the longer
  by_cases hlt : q.length < (headerInstaller p).length
  · have hpre : q <+: headerInstaller p :=
      List.prefix_of_prefix_length_le ⟨rest, hq⟩ (List.prefix_append _ _) (Nat.le_of_lt hlt)
    exact .inl ⟨h.attemptBytes_incomplete hpre hlt, hlt⟩
  · have hpre : headerInstaller p <+: q :=
      List.prefix_of_prefix_length_le (List.prefix_append _ _) ⟨rest, hq⟩ (by omega)
    obtain ⟨q', rfl⟩ := hpre
    rw [List.append_assoc, List.append_cancel_left_eq] at hq
    exact .inr ⟨q', h.attemptBytes_frame q', hq⟩

theorem attemptBytes_of_prefix {ps : List Bytes} (hps : ∀ p ∈ ps, Frameable p) {q rest : Bytes}
    (hq : q ++ rest = frames ps) :
    attemptBytes q = (none, q) ∧ (∀ p ps', ps = p :: ps' → q.length < (headerInstaller p).length) ∨
      ∃ p ps' q', ps = p :: ps' ∧ attemptBytes q = (some p, q') ∧ q' ++ rest = frames ps' := by
  cases ps with
  | nil =>
    obtain ⟨rfl, -⟩ := List.append_eq_nil_iff.mp hq
    exact .inl ⟨attemptBytes_nil, fun _ _ h => nomatch h⟩
  | cons p ps =>
    rcases (hps p List.mem_cons_self).attemptBytes_split hq with ⟨ha, hlt⟩ | ⟨q', ha, hq'⟩
    · refine .inl ⟨ha, ?_⟩
      rintro _ _ ⟨⟩
      exact hlt
    · exact .inr ⟨p, ps, q', rfl, ha, hq'⟩

/-! ## What is accepted -/

/-- Four bytes, least significant first. -/
def littleEndian (n : ℕ) : Bytes :=
  [UInt8.ofNat n, UInt8.ofNat (n / 2 ^ 8), UInt8.ofNat (n / 2 ^ 16), UInt8.ofNat (n / 2 ^ 24)]

theorem parseFromString_eq_iff {header : Bytes} {n : ℕ} (hpos : 0 < n) :
    MessageHeader.parseFromString header = n ↔ n < 2 ^ 32 ∧ header = 0x0D :: littleEndian n := by
  constructor
  · intro h
    refine ⟨h ▸ parseFromString_lt header, ?_⟩
    unfold MessageHeader.parseFromString at h
    split at h
    · rename_i tag a b c d
      split at h
      · rename_i htag
        have ha := a.toNat_lt
        have hb := b.toNat_lt
        have hc := c.toNat_lt
        have hd := d.toNat_lt
        simp only [littleEndian, List.cons.injEq, ← UInt8.toNat_inj, UInt8.toNat_ofNat', htag, and_true,
          true_and]
        omega
      · omega
    · omega
  · rintro ⟨hlt, rfl⟩
    simp only [littleEndian, MessageHeader.parseFromString, if_pos, UInt8.toNat_ofNat']
    omega

/-- What `CanReadMsg` accepts, on the readable bytes. -/
theorem canReadBytes_eq_iff (q : Bytes) {n : ℕ} (hpos : 0 < n) :
    (canReadBytes q).1 = n ↔
      n < 2 ^ 32 ∧ ∃ rest, q = 0x0D :: littleEndian n ++ rest ∧ n ≤ rest.length := by
  have hlen : (0x0D :: littleEndian n).length = msgHeaderLength := rfl
  constructor
  · intro h
    unfold canReadBytes at h
    split_ifs at h with hshort hbody
    · omega
    · omega
    · obtain ⟨hlt, hhead⟩ := (parseFromString_eq_iff hpos).mp h
      refine ⟨hlt, q.drop msgHeaderLength, ?_, ?_⟩
      · rw [← hhead, List.take_append_drop]
      · rw [List.length_drop]
        change announced q = n at h
        omega
  · rintro ⟨hlt, rest, rfl, hrest⟩
    have hannounced : announced (0x0D :: littleEndian n ++ rest) = n := by
      rw [announced, ← hlen, List.take_left]
      exact (parseFromString_eq_iff hpos).mpr ⟨hlt, rfl⟩
    have hlength : (0x0D :: littleEndian n ++ rest).length = msgHeaderLength + rest.length := by
      rw [List.length_append, hlen]
    rw [canReadBytes, hannounced, if_neg (by omega), if_neg (by omega)]

theorem canReadBytes_drop {q : Bytes} (h : (canReadBytes q).1 ≠ 0) :
    (canReadBytes q).2 = q.drop msgHeaderLength := by
  unfold canReadBytes at h ⊢
  split_ifs at h ⊢ with hshort hbody
  · exact absurd rfl h
  · exact absurd rfl h
  · rfl

/-- Whatever else is in the buffer, a message that is retrieved was framed at its front. -/
theorem attemptBytes_eq_some {q msg rest : Bytes} (h : attemptBytes q = (some msg, rest)) :
    Frameable msg ∧ q = headerInstaller msg ++ rest := by
  have hpos : (canReadBytes q).1 ≠ 0 := by
    intro hzero
    simp [attemptBytes, hzero] at h
  obtain ⟨hlt, body, hq, hbody⟩ := (canReadBytes_eq_iff q (Nat.pos_of_ne_zero hpos)).mp rfl
  simp only [attemptBytes, if_neg hpos, canReadBytes_drop hpos, Prod.mk.injEq,
    Option.some.injEq] at h
  have hdrop : q.drop msgHeaderLength = body := by
    have hhead : (0x0D :: littleEndian (canReadBytes q).1).length = msgHeaderLength := rfl
    rw [hq, ← hhead, List.drop_left]
  rw [hdrop] at h
  have hlen : msg.length = (canReadBytes q).1 := by
    rw [← h.1, List.length_take, Nat.min_eq_left hbody]
  have hframe : Frameable msg := by
    refine ⟨?_, hlen ▸ hlt⟩
    rintro rfl
    exact hpos hlen.symm
  refine ⟨hframe, ?_⟩
  rw [hframe.headerInstaller_eq, hlen, List.append_assoc, ← h.1, ← h.2, List.take_append_drop,
    MessageHeader.serializeAsString, if_neg hpos]
  exact hq

/-- An attempt takes bytes from the front and leaves the others as they are. -/
theorem attemptBytes_suffix (q : Bytes) : ∃ used, q = used ++ (attemptBytes q).2 := by
  have hdrop : ∀ n, ∃ used, q = used ++ q.drop n := fun n => ⟨q.take n, (List.take_append_drop n q).symm⟩
  unfold attemptBytes canReadBytes
  dsimp only
  split_ifs
  · exact ⟨[], rfl⟩
  · exact ⟨[], rfl⟩
  · exact ⟨[], rfl⟩
  · exact ⟨[], rfl⟩
  · exact hdrop msgHeaderLength
  · rw [List.drop_drop]
    exact hdrop _

/-- `CanReadMsg` accepts exactly a header with a length that is not zero and at
least that many bytes behind it.  Then the header is gone, and the retrieval
that follows passes both assertions and takes the payload. -/
theorem canReadMsg_accepts_iff (b : Buffer) (h : b.Reachable) :
    ∃ r b₁, canReadMsg b = some (r, b₁) ∧
      (∀ n, 0 < n → (r = n ↔
        n < 2 ^ 32 ∧ ∃ rest, b.contents = 0x0D :: littleEndian n ++ rest ∧ n ≤ rest.length)) ∧
      (0 < r → b₁.contents = b.contents.drop 5 ∧ r ≤ b₁.readAbleBytes ∧
        ∃ b₂, b₁.retrieveAsString r = some ((b.contents.drop 5).take r, b₂) ∧
          b₂.contents = b.contents.drop (5 + r)) := by
  obtain ⟨r, b₁, he, hwf, hq⟩ := canReadMsg_spec h.wellFormed
  have hr : (canReadBytes b.contents).1 = r := by rw [hq]
  refine ⟨r, b₁, he, fun n hn => ?_, fun hpos => ?_⟩
  · rw [← hr]
    exact canReadBytes_eq_iff b.contents hn
  · have hc : b₁.contents = b.contents.drop 5 := by
      have hdrop := canReadBytes_drop (q := b.contents) (by omega)
      rw [hq] at hdrop
      exact hdrop
    have hle : r ≤ b₁.contents.length := by
      have := canReadBytes_le b.contents
      rwa [hq] at this
    obtain ⟨b₂, he₂, -, hc₂⟩ := hwf.retrieveAsString_spec hle
    refine ⟨hc, hwf.readAbleBytes_eq_length ▸ hle, b₂, hc ▸ he₂, ?_⟩
    rw [hc₂, hc, List.drop_drop]

theorem exists_reachable_contents (q : Bytes) (hfit : q.length < 2 ^ 32) :
    ∃ b : Buffer, b.Reachable ∧ b.contents = q := by
  have hadm : Buffer.Admissible [.append q] Buffer.new := by
    refine ⟨?_, fun _ _ _ => trivial⟩
    change kPrePendIndex + q.length + 8 < 2 ^ 64
    rw [kPrePendIndex]
    omega
  obtain ⟨outs, b, hrun, -, hq⟩ := Buffer.new_wellFormed.run_spec hadm
  refine ⟨b, ⟨_, outs, hadm, hrun⟩, ?_⟩
  simpa [Buffer.queueRun, Runs.runTotal, Buffer.Op.onQueue] using (congrArg Prod.snd hq).symm

/-- A frame with one byte of payload, and a byte behind it. -/
theorem canReadMsg_accepts_iff_byte :
    ∃ b : Buffer, b.Reachable ∧ b.contents = [0x0D, 1, 0, 0, 0, 65, 66] ∧
      ∃ b₁, canReadMsg b = some (1, b₁) ∧
        ∃ b₂, b₁.retrieveAsString 1 = some ([65], b₂) ∧ b₂.contents = [66] := by
  obtain ⟨b, hreach, hc⟩ := exists_reachable_contents [0x0D, 1, 0, 0, 0, 65, 66] (by decide)
  obtain ⟨r, b₁, he, hiff, hret⟩ := canReadMsg_accepts_iff b hreach
  have hr : r = 1 := (hiff 1 Nat.one_pos).mpr ⟨by decide, [65, 66], hc, by decide⟩
  subst hr
  obtain ⟨-, -, b₂, he₂, hc₂⟩ := hret Nat.one_pos
  rw [hc] at he₂ hc₂
  exact ⟨b, hreach, hc, b₁, he, b₂, he₂, hc₂⟩

/-! ## What a refusal leaves -/

/-- A header that announces a message. -/
theorem announced_pos_iff {q : Bytes} :
    0 < announced q ↔ ∃ n rest, 0 < n ∧ n < 2 ^ 32 ∧ q = 0x0D :: littleEndian n ++ rest := by
  constructor
  · intro hpos
    obtain ⟨hlt, hhead⟩ := (parseFromString_eq_iff hpos).mp rfl
    refine ⟨announced q, q.drop msgHeaderLength, hpos, hlt, ?_⟩
    calc q = q.take msgHeaderLength ++ q.drop msgHeaderLength := (List.take_append_drop _ q).symm
      _ = 0x0D :: littleEndian (announced q) ++ q.drop msgHeaderLength := by rw [hhead]
  · rintro ⟨n, rest, hpos, hlt, rfl⟩
    have hn : announced (0x0D :: littleEndian n ++ rest) = n :=
      (parseFromString_eq_iff hpos).mpr ⟨hlt, rfl⟩
    rwa [hn]

/-- With a full header that announces nothing the result `0` is that of the last
`return`, behind `Retrieve`. -/
theorem canReadBytes_zero_keeps_iff (q : Bytes) :
    ((canReadBytes q).1 = 0 → (canReadBytes q).2 = q) ↔ q.length < 5 ∨ 0 < announced q := by
  unfold canReadBytes msgHeaderLength
  split_ifs with hshort hbody
  · exact ⟨fun _ => .inl hshort, fun _ _ => rfl⟩
  · exact ⟨fun _ => .inr (by omega), fun _ _ => rfl⟩
  · constructor
    · intro hkeep
      refine .inr (Nat.pos_of_ne_zero fun hzero => ?_)
      have hlen := congrArg List.length (hkeep hzero)
      rw [List.length_drop] at hlen
      omega
    · rintro (hlt | hpos) hzero
      · exact absurd hlt hshort
      · exact absurd hzero (Nat.pos_iff_ne_zero.mp hpos)

/-- `CanReadMsg` returning `0` leaves the readable bytes alone exactly if fewer
than five are there or the first five are a header with a length that is not
zero.  Any other five bytes are dropped. -/
theorem canReadMsg_zero_keeps_iff (b : Buffer) (h : b.Reachable) :
    ∃ r b', canReadMsg b = some (r, b') ∧
      ((r = 0 → b'.contents = b.contents) ↔
        b.contents.length < 5 ∨
          ∃ n rest, 0 < n ∧ n < 2 ^ 32 ∧ b.contents = 0x0D :: littleEndian n ++ rest) := by
  obtain ⟨r, b', he, -, hq⟩ := canReadMsg_spec h.wellFormed
  refine ⟨r, b', he, ?_⟩
  rw [← announced_pos_iff, ← canReadBytes_zero_keeps_iff, hq]

/-- A header whose message has not arrived yet. -/
theorem canReadMsg_zero_keeps_iff_short :
    ∃ b b' : Buffer, b.Reachable ∧ b.contents = [0x0D, 1, 0, 0, 0] ∧
      canReadMsg b = some (0, b') ∧ b'.contents = [0x0D, 1, 0, 0, 0] := by
  obtain ⟨b, hreach, hc⟩ := exists_reachable_contents [0x0D, 1, 0, 0, 0] (by decide)
  obtain ⟨r, b', he, hiff⟩ := canReadMsg_zero_keeps_iff b hreach
  obtain ⟨r₁, b₁, he₁, -, hq⟩ := canReadMsg_spec hreach.wellFormed
  rw [he, Option.some.injEq, Prod.mk.injEq] at he₁
  have hr : r = 0 := by
    have hread : (canReadBytes b.contents).1 = 0 := by
      rw [hc]
      decide
    rwa [hq, ← he₁.1] at hread
  have hkeep := hiff.mpr (.inr ⟨1, [], by decide, by decide, hc⟩) hr
  exact ⟨b, b', hreach, hc, hr ▸ he, hkeep.trans hc⟩

/-- A header with length zero, and a byte behind it: the answer is "not
readable", and five bytes are gone. -/
theorem canReadMsg_zero_drops_header :
    ∃ b b' : Buffer, b.Reachable ∧ b.contents = [0x0D, 0, 0, 0, 0, 65] ∧
      canReadMsg b = some (0, b') ∧ b'.contents = [65] := by
  obtain ⟨b, hreach, hc⟩ := exists_reachable_contents [0x0D, 0, 0, 0, 0, 65] (by decide)
  obtain ⟨r, b', he, -, hq⟩ := canReadMsg_spec hreach.wellFormed
  have hread : canReadBytes b.contents = (0, [65]) := by
    rw [hc]
    decide
  rw [hread, Prod.mk.injEq] at hq
  exact ⟨b, b', hreach, hc, hq.1 ▸ he, hq.2.symm⟩

end NcxTunnel
