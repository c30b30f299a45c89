import NcxTunnel.FrameStream
import NcxTunnel.PrefixCode

/-!
# Streams that nobody framed

A peer may send any bytes.  An attempt then takes one of two things off the front
of the buffer: a frame, or five bytes that are not the header of a message, which
`CanReadMsg` drops while it answers "nothing to read".  Together the two are a
prefix code, so what the handlers get depends on the bytes and not on how they
arrive.
-/

namespace NcxTunnel

/-- What an attempt takes off the front of the buffer. -/
inductive Piece where
  | frame (msg : Bytes)
  | junk (header : Bytes)
  deriving DecidableEq

namespace Piece

def bytes : Piece → Bytes
  | frame msg => headerInstaller msg
  | junk header => header

/-- What the handler gets. -/
def payload : Piece → Option Bytes
  | frame msg => some msg
  | junk _ => none

def Valid : Piece → Prop
  | frame msg => Frameable msg
  | junk header => header.length = msgHeaderLength ∧ announced header = 0

/-- The piece at the front of the readable bytes. -/
def next (q : Bytes) : Option (Piece × Bytes) :=
  if q.length < msgHeaderLength then none
  else if q.length < announced q + msgHeaderLength then none
  else if announced q = 0 then some (junk (q.take msgHeaderLength), q.drop msgHeaderLength)
  else some (frame ((q.drop msgHeaderLength).take (announced q)),
    (q.drop msgHeaderLength).drop (announced q))

/-- An attempt is blind to what it drops. -/
theorem attemptBytes_eq_next (q : Bytes) :
    attemptBytes q =
      match next q with
      | none => (none, q)
      | some (x, rest) => (x.payload, rest) := by
  unfold attemptBytes canReadBytes next
  split_ifs with hshort hbody hzero
  · rfl
  · rfl
  · simp [hzero, payload]
  · simp [hzero, payload]

theorem next_of_frame {msg : Bytes} (h : Frameable msg) (rest : Bytes) :
    next (headerInstaller msg ++ rest) = some (frame msg, rest) := by
  have hframe := h.attemptBytes_frame rest
  rw [attemptBytes_eq_next] at hframe
  cases hnext : next (headerInstaller msg ++ rest) with
  | none => simp [hnext] at hframe
  | some p =>
    obtain ⟨x, rest'⟩ := p
    rw [hnext, Prod.mk.injEq] at hframe
    obtain ⟨hpay, rfl⟩ := hframe
    cases x with
    | frame msg' => rw [Option.some.inj hpay]
    | junk header => cases hpay

theorem next_of_junk {header : Bytes} (hlen : header.length = msgHeaderLength)
    (hzero : announced header = 0) (rest : Bytes) :
    next (header ++ rest) = some (junk header, rest) := by
  have htake : (header ++ rest).take msgHeaderLength = header := List.take_left' hlen
  have hdrop : (header ++ rest).drop msgHeaderLength = rest := List.drop_left' hlen
  have hann : announced (header ++ rest) = 0 := by
    rw [announced, htake, ← hzero, announced, List.take_of_length_le (Nat.le_of_eq hlen)]
  have hge : ¬(header ++ rest).length < msgHeaderLength := by
    rw [List.length_append]
    omega
  rw [next, if_neg hge, hann, Nat.zero_add, if_neg hge, if_pos rfl, htake, hdrop]

theorem next_eq_some_iff (q : Bytes) (x : Piece) (rest : Bytes) :
    next q = some (x, rest) ↔ x.Valid ∧ q = x.bytes ++ rest := by
  constructor
  · intro h
    cases x with
    | frame msg =>
      have hattempt := attemptBytes_eq_next q
      rw [h] at hattempt
      exact attemptBytes_eq_some hattempt
    | junk header =>
      unfold next at h
      split_ifs at h with hshort hbody hzero
      · simp only [Option.some.injEq, Prod.mk.injEq, junk.injEq] at h
        obtain ⟨rfl, rfl⟩ := h
        have hlen : (q.take msgHeaderLength).length = msgHeaderLength := by
          rw [List.length_take]
          omega
        refine ⟨⟨hlen, ?_⟩, (List.take_append_drop _ q).symm⟩
        rw [announced, List.take_of_length_le (Nat.le_of_eq hlen)]
        exact hzero
      · simp at h
  · rintro ⟨hx, rfl⟩
    cases x with
    | frame msg => exact next_of_frame hx rest
    | junk header => exact next_of_junk hx.1 hx.2 rest

theorem length_bytes {x : Piece} (h : x.Valid) : msgHeaderLength ≤ x.bytes.length := by
  cases x with
  | frame msg =>
    have hmsg : Frameable msg := h
    rw [bytes, hmsg.headerInstaller_length]
    exact Nat.le_add_left _ _
  | junk header => exact Nat.le_of_eq h.1.symm

def code : PrefixCode UInt8 Piece where
  symbols := bytes
  Valid := Valid
  next := next
  next_eq_some_iff := next_eq_some_iff
  width := msgHeaderLength
  width_pos := by decide
  width_le _ h := length_bytes h

end Piece

/-- Bytes in which no piece can be made out yet: a header has not arrived, or the
message it announces has not. -/
def Incomplete (q : Bytes) : Prop :=
  q.length < 5 ∨ q.length < announced q + 5

theorem next_eq_none_iff (q : Bytes) : Piece.next q = none ↔ Incomplete q := by
  unfold Piece.next Incomplete msgHeaderLength
  split_ifs with hshort hbody
  · exact ⟨fun _ => .inl hshort, fun _ => rfl⟩
  · exact ⟨fun _ => .inr hbody, fun _ => rfl⟩
  all_goals simp [hshort, hbody]

/-- `q` is made of `pieces`, and of a `rest` that is not one yet. -/
structure MadeOf (q : Bytes) (pieces : List Piece) (rest : Bytes) : Prop where
  valid : ∀ x ∈ pieces, x.Valid
  eq : q = pieces.flatMap Piece.bytes ++ rest
  incomplete : Incomplete rest

theorem madeOf_iff_splits {q : Bytes} {pieces : List Piece} {rest : Bytes} :
    MadeOf q pieces rest ↔ Piece.code.Splits q pieces rest := by
  constructor
  · rintro ⟨hvalid, heq, hinc⟩
    exact ⟨hvalid, heq, (next_eq_none_iff rest).mpr hinc⟩
  · rintro ⟨hvalid, heq, hstuck⟩
    exact ⟨hvalid, heq, (next_eq_none_iff rest).mp hstuck⟩

/-- The events as the code sees them. -/
def FrameEvent.feed : FrameEvent → PrefixCode.Feed UInt8
  | chunk c => .arrive c
  | attempt => .attempt

theorem FrameEvent.onQueue_eq_feed (q : Bytes) (ev : FrameEvent) :
    ev.onQueue q = ((Piece.code.feed q ev.feed).1.bind Piece.payload,
      (Piece.code.feed q ev.feed).2) := by
  cases ev with
  | chunk c => rfl
  | attempt =>
    have hnext : Piece.code.next q = Piece.next q := rfl
    rw [FrameEvent.onQueue, FrameEvent.feed, PrefixCode.feed, Piece.attemptBytes_eq_next, hnext]
    cases Piece.next q with
    | none => rfl
    | some p => rfl

theorem runTotal_onQueue_eq_run (evs : List FrameEvent) (q : Bytes) :
    Runs.runTotal FrameEvent.onQueue evs q =
      ((Piece.code.run (evs.map FrameEvent.feed) q).1.map (·.bind Piece.payload),
        (Piece.code.run (evs.map FrameEvent.feed) q).2) := by
  induction evs generalizing q with
  | nil => rfl
  | cons ev evs ih =>
    rw [Runs.runTotal, ev.onQueue_eq_feed, List.map_cons, PrefixCode.run_cons]
    dsimp only
    rw [ih, List.map_cons]

theorem received_eq_arrived (evs : List FrameEvent) :
    PrefixCode.arrived (evs.map FrameEvent.feed) = received evs := by
  induction evs with
  | nil => rfl
  | cons ev evs ih =>
    cases ev with
    | chunk c => exact congrArg (c ++ ·) ih
    | attempt => exact ih

theorem yields_map_payload (outs : List (Option Piece)) :
    yields (outs.map (·.bind Piece.payload)) = (outs.filterMap id).filterMap Piece.payload := by
  induction outs with
  | nil => rfl
  | cons o outs ih =>
    rw [yields] at ih ⊢
    cases o with
    | none => exact ih
    | some x =>
      rw [List.map_cons, List.filterMap_cons_some (f := id) rfl, List.filterMap_cons,
        List.filterMap_cons, ih]
      rfl

/-- Any bytes whatever are made of pieces in one way.  However they are cut into
chunks and whenever a handler tries, the messages it has got are those of the
first pieces, and the buffer holds the others; once there have been attempts
enough behind the last chunk, one for every five bytes, it has all of them. -/
theorem hostile_stream_decoded (b₀ : Buffer) (hreach : b₀.Reachable) (evs : List FrameEvent)
    (hadm : Runs.Admissible FrameEvent.apply FrameEvent.Pre evs b₀) :
    ∃ outs b pieces rest, Runs.run FrameEvent.apply evs b₀ = some (outs, b) ∧
      MadeOf (b₀.contents ++ received evs) pieces rest ∧
      (∀ pieces' rest', MadeOf (b₀.contents ++ received evs) pieces' rest' →
        pieces' = pieces ∧ rest' = rest) ∧
      (∃ done left, pieces = done ++ left ∧ yields outs = done.filterMap Piece.payload ∧
        MadeOf b.contents left rest) ∧
      (∀ past n, evs = past ++ List.replicate n .attempt →
        (b₀.contents ++ received evs).length < (n + 1) * 5 →
          yields outs = pieces.filterMap Piece.payload ∧ b.contents = rest) := by
  obtain ⟨outs, b, hrun, -, hspec⟩ := Runs.run_simulates Buffer.WellFormed Buffer.contents
    FrameEvent.onQueue (fun _ ev hwf hpre => ev.apply_spec hwf hpre) hreach.wellFormed hadm
  rw [runTotal_onQueue_eq_run, Prod.mk.injEq] at hspec
  obtain ⟨pieces, rest, hsplits⟩ := Piece.code.exists_splits (b₀.contents ++ received evs)
  refine ⟨outs, b, pieces, rest, hrun, madeOf_iff_splits.mpr hsplits, ?_, ?_, ?_⟩
  · intro pieces' rest' h'
    exact (madeOf_iff_splits.mp h').unique hsplits
  · rw [← received_eq_arrived] at hsplits
    obtain ⟨left, hpieces, hleft⟩ := Piece.code.run_splits _ _ hsplits
    refine ⟨_, left, hpieces, ?_, madeOf_iff_splits.mpr (hspec.2 ▸ hleft)⟩
    rw [← hspec.1, yields_map_payload]
  · intro past n hevs hn
    have hfeed : evs.map FrameEvent.feed =
        past.map FrameEvent.feed ++ List.replicate n .attempt := by
      rw [hevs, List.map_append, List.map_replicate]
      rfl
    have hpast : received evs = PrefixCode.arrived (past.map FrameEvent.feed) := by
      rw [received_eq_arrived, hevs, received, List.flatMap_append, received]
      simp [FrameEvent.bytes]
    rw [hpast] at hsplits hn
    obtain ⟨hwords, hrest⟩ := Piece.code.run_complete hsplits hn
    rw [← hfeed] at hwords hrest
    rw [← hspec.1, ← hspec.2, yields_map_payload, hwords, hrest]
    exact ⟨rfl, rfl⟩

/-- Five bytes of noise, a message, and a byte behind it: the first attempt drops the
noise, the second one gets the message. -/
theorem hostile_stream_decoded_noise :
    ∃ outs b, Runs.run FrameEvent.apply
        [.chunk [1, 2, 3, 4, 5, 0x0D, 1, 0, 0, 0, 65, 66], .attempt, .attempt] Buffer.new =
          some (outs, b) ∧
      yields outs = [[65]] ∧ b.contents = [66] := by
  have hfit : 8 + 12 + 8 < 2 ^ 64 := by decide
  obtain ⟨outs, b, pieces, rest, hrun, -, hunique, -, hall⟩ :=
    hostile_stream_decoded Buffer.new ⟨[], [], trivial, rfl⟩
      [.chunk [1, 2, 3, 4, 5, 0x0D, 1, 0, 0, 0, 65, 66], .attempt, .attempt]
      ⟨hfit, fun _ _ _ => ⟨trivial, fun _ _ _ => ⟨trivial, fun _ _ _ => trivial⟩⟩⟩
  rw [Buffer.contents_new, List.nil_append] at hunique hall
  have hmade : MadeOf (received [.chunk [1, 2, 3, 4, 5, 0x0D, 1, 0, 0, 0, 65, 66], .attempt,
      .attempt]) [.junk [1, 2, 3, 4, 5], .frame [65]] [66] := by
    refine ⟨?_, by decide, .inl (by decide)⟩
    simp only [List.forall_mem_cons, List.not_mem_nil, false_implies, implies_true, and_true]
    exact ⟨⟨rfl, rfl⟩, by simp, by decide⟩
  obtain ⟨rfl, rfl⟩ := hunique _ _ hmade
  obtain ⟨hyields, hrest⟩ := hall [.chunk [1, 2, 3, 4, 5, 0x0D, 1, 0, 0, 0, 65, 66]] 2 rfl (by decide)
  exact ⟨outs, b, hrun, hyields, hrest⟩

end NcxTunnel
