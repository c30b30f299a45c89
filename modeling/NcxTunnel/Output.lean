import Mathlib
import NcxTunnel.BufferQueue

/-!
# Sending on a connection

`Connection::Send`, `handle_data_out` and `WriteNonBlocking`.  What the kernel
answers to each `write(2)` is an input: `Send` and the `EPOLLOUT` callback carry
the answers their call consumes, in order.
-/

namespace NcxTunnel

/-- One answer of `write(2)`; the last three are `EAGAIN`, `EINTR` and any other error. -/
inductive WriteAnswer where
  | wrote (k : ℕ)
  | again
  | interrupted
  /-- that of SIGPIPE only if the process survives it -/
  | failed
deriving Repr, DecidableEq

structure WriteOutcome where
  /-- bytes the kernel took, in order -/
  accepted : Bytes
  closed : Bool
  unused : List WriteAnswer
deriving Repr, DecidableEq

/-- The `while (send_left > 0)` loop.  Every `write` offers the whole of `send_buf`
again.  `none` if the answers end before the loop does, or if an answer is not
one the kernel may give. -/
def writeLoop (sendBuf : Bytes) : List WriteAnswer → ℤ → Option WriteOutcome
  | [], sendLeft => if 0 < sendLeft then none else some ⟨[], false, []⟩
  | answer :: answers, sendLeft =>
      if 0 < sendLeft then
        match answer with
        | .wrote k =>
            if 1 ≤ k ∧ k ≤ sendBuf.length then do
              let out ← writeLoop sendBuf answers (sendLeft - k)
              return { out with accepted := sendBuf.take k ++ out.accepted }
            else none
        | .again => some ⟨[], false, answers⟩
        | .interrupted => writeLoop sendBuf answers sendLeft
        | .failed => some ⟨[], true, answers⟩
      else some ⟨[], false, answer :: answers⟩

/-- The sending half of a connection. -/
structure Output where
  outputBuffer : Buffer
  accepted : Bytes
  closed : Bool

namespace Output

def new : Output := ⟨Buffer.new, [], false⟩

def writeNonBlocking (c : Output) (answers : List WriteAnswer) :
    Option (Output × List WriteAnswer) := do
  let (sendBuf, b) ← c.outputBuffer.retrieveAllAsString
  let out ← writeLoop sendBuf answers sendBuf.length
  return (⟨b, c.accepted ++ out.accepted, c.closed || out.closed⟩, out.unused)

def send (c : Output) (msg : Bytes) (answers : List WriteAnswer) :
    Option (Output × List WriteAnswer) := do
  let b ← c.outputBuffer.appendString msg
  writeNonBlocking { c with outputBuffer := b } answers

def handleDataOut (c : Output) (answers : List WriteAnswer) : Option (Output × List WriteAnswer) :=
  c.writeNonBlocking answers

end Output

inductive OutputEvent where
  | send (msg : Bytes) (answers : List WriteAnswer)
  | handleDataOut (answers : List WriteAnswer)

namespace OutputEvent

def msg : OutputEvent → Bytes
  | send msg _ => msg
  | handleDataOut _ => []

def answers : OutputEvent → List WriteAnswer
  | send _ answers => answers
  | handleDataOut answers => answers

def call (c : Output) : OutputEvent → Option (Output × List WriteAnswer)
  | send msg answers => c.send msg answers
  | handleDataOut answers => c.handleDataOut answers

/-- The call consumes exactly its answers; its output is the message. -/
def apply (c : Output) (ev : OutputEvent) : Option (Bytes × Output) := do
  let (c, unused) ← ev.call c
  if unused = [] then some (ev.msg, c) else none

/-- A message is a `std::string`. -/
def Fits (ev : OutputEvent) : Prop := ev.msg.length < 2 ^ 63

/-- Every `write(2)` of the call takes all it is offered, or is interrupted. -/
def TakesAll (c : Output) (ev : OutputEvent) : Prop :=
  ∀ a ∈ ev.answers, a = .interrupted ∨ a = .wrote (c.outputBuffer.contents ++ ev.msg).length

end OutputEvent

section Loop

variable {sendBuf : Bytes} {answers : List WriteAnswer} {sendLeft : ℤ}

theorem writeLoop_of_nonpos (h : sendLeft ≤ 0) :
    writeLoop sendBuf answers sendLeft = some ⟨[], false, answers⟩ := by
  have hn : ¬0 < sendLeft := by omega
  cases answers with
  | nil => simp [writeLoop, hn]
  | cons a answers => cases a <;> simp [writeLoop, hn]

theorem writeLoop_wrote (h : 0 < sendLeft) {k : ℕ} (hk : 1 ≤ k) (hle : k ≤ sendBuf.length) :
    writeLoop sendBuf (.wrote k :: answers) sendLeft =
      (writeLoop sendBuf answers (sendLeft - k)).map
        fun out => { out with accepted := sendBuf.take k ++ out.accepted } := by
  simp only [writeLoop, if_pos h, hk, hle, and_self, if_true]
  cases writeLoop sendBuf answers (sendLeft - k) <;> rfl

theorem writeLoop_interrupted (h : 0 < sendLeft) :
    writeLoop sendBuf (.interrupted :: answers) sendLeft = writeLoop sendBuf answers sendLeft := by
  simp [writeLoop, h]

/-- The ways in which the loop can have ended. -/
theorem writeLoop_cases {out : WriteOutcome} (h : writeLoop sendBuf answers sendLeft = some out)
    (hpos : 0 < sendLeft) :
    (∃ rest, answers = .again :: rest ∧ out = ⟨[], false, rest⟩) ∨
    (∃ rest, answers = .failed :: rest ∧ out = ⟨[], true, rest⟩) ∨
    (∃ rest, answers = .interrupted :: rest ∧ writeLoop sendBuf rest sendLeft = some out) ∨
    (∃ k rest out', answers = .wrote k :: rest ∧ 1 ≤ k ∧ k ≤ sendBuf.length ∧
      writeLoop sendBuf rest (sendLeft - k) = some out' ∧
      out = { out' with accepted := sendBuf.take k ++ out'.accepted }) := by
  cases answers with
  | nil => simp [writeLoop, hpos] at h
  | cons a rest =>
    cases a with
    | again => exact .inl ⟨rest, rfl, by simpa [writeLoop, hpos, eq_comm] using h⟩
    | failed => exact .inr (.inl ⟨rest, rfl, by simpa [writeLoop, hpos, eq_comm] using h⟩)
    | interrupted => exact .inr (.inr (.inl ⟨rest, rfl, by rwa [writeLoop_interrupted hpos] at h⟩))
    | wrote k =>
      by_cases hk : 1 ≤ k ∧ k ≤ sendBuf.length
      · rw [writeLoop_wrote hpos hk.1 hk.2, Option.map_eq_some_iff] at h
        obtain ⟨out', he, rfl⟩ := h
        exact .inr (.inr (.inr ⟨k, rest, out', rfl, hk.1, hk.2, he, rfl⟩))
      · simp [writeLoop, hpos, hk] at h

/-- Interruptions apart, one `write` that takes everything sends the message once. -/
theorem writeLoop_takesAll (hall : ∀ a ∈ answers, a = .interrupted ∨ a = .wrote sendBuf.length)
    {out : WriteOutcome} (h : writeLoop sendBuf answers sendBuf.length = some out) :
    out.accepted = sendBuf ∧ out.closed = false := by
  cases sendBuf with
  | nil =>
    rw [writeLoop_of_nonpos (by simp), Option.some.injEq] at h
    simp [← h]
  | cons b bs =>
    have hpos : (0 : ℤ) < ((b :: bs).length : ℕ) := by simp
    induction answers with
    | nil => simp [writeLoop] at h
    | cons a answers ih =>
      rcases hall a List.mem_cons_self with rfl | rfl
      · rw [writeLoop_interrupted hpos] at h
        exact ih (fun a ha => hall a (List.mem_cons_of_mem _ ha)) h
      · rw [writeLoop_wrote hpos (by simp) le_rfl, writeLoop_of_nonpos (by simp)] at h
        simp [← Option.some.inj h]

/-- What the kernel takes in one call, if anything, starts with the first byte. -/
theorem writeLoop_accepted_head {b : Byte} {bs : Bytes} {out : WriteOutcome}
    (h : writeLoop (b :: bs) answers sendLeft = some out) :
    out.accepted = [] ∨ ∃ t, out.accepted = b :: t := by
  by_cases hpos : 0 < sendLeft
  · induction answers generalizing out with
    | nil => simp [writeLoop, hpos] at h
    | cons a answers ih =>
      rcases writeLoop_cases h hpos with ⟨_, -, rfl⟩ | ⟨_, -, rfl⟩ | ⟨rest, he, hr⟩ |
        ⟨k, rest, out', -, hk, -, -, rfl⟩
      · exact .inl rfl
      · exact .inl rfl
      · rw [List.cons.injEq] at he
        exact ih (he.2 ▸ hr)
      · obtain ⟨j, rfl⟩ : ∃ j, k = j + 1 := ⟨k - 1, by omega⟩
        exact .inr ⟨_, rfl⟩
  · rw [writeLoop_of_nonpos (by omega), Option.some.injEq] at h
    exact .inl (by rw [← h])

/-- No weaker condition on the answers will do: if they deliver every message of
length `n` intact, they are interruptions followed by one `write` that takes all. -/
theorem takesAll_of_writeLoop_exact {n : ℕ} (hn : 0 < n)
    (h : ∀ data : Bytes, data.length = n →
      writeLoop data answers n = some ⟨data, false, []⟩) :
    ∀ a ∈ answers, a = .interrupted ∨ a = .wrote n := by
  obtain ⟨m, rfl⟩ : ∃ m, n = m + 1 := ⟨n - 1, by omega⟩
  have hpos : (0 : ℤ) < (m + 1 : ℕ) := by omega
  -- a second `write` would repeat the byte `0` at a place where this message has `1`
  let data : Bytes := 0 :: List.replicate m 1
  have hlen : data.length = m + 1 := by simp [data]
  induction answers with
  | nil => simp
  | cons a answers ih =>
    rcases writeLoop_cases (h data hlen) hpos with ⟨_, -, he⟩ | ⟨_, -, he⟩ | ⟨rest, he, -⟩ |
      ⟨k, rest, out', he, hk, hle, hr, hout⟩
    · simp [data] at he
    · simp [data] at he
    · rw [List.cons.injEq] at he
      obtain ⟨rfl, rfl⟩ := he
      have hrest := ih fun d hd => by rw [← h d hd, writeLoop_interrupted hpos]
      intro a ha
      rcases List.mem_cons.mp ha with rfl | ha
      · exact .inl rfl
      · exact hrest a ha
    · rw [List.cons.injEq] at he
      obtain ⟨rfl, rfl⟩ := he
      rw [WriteOutcome.mk.injEq] at hout
      have hacc : data.drop k = out'.accepted := by
        have := hout.1
        nth_rewrite 1 [← List.take_append_drop k data] at this
        exact List.append_cancel_left this
      rcases Nat.lt_or_ge k (m + 1) with hlt | hge
      · obtain ⟨j, rfl⟩ : ∃ j, k = j + 1 := ⟨k - 1, by omega⟩
        obtain ⟨i, hi⟩ : ∃ i, m - j = i + 1 := ⟨m - j - 1, by omega⟩
        have hones : data.drop (j + 1) = 1 :: List.replicate i 1 := by
          simp [data, hi, List.replicate_succ]
        rw [hones] at hacc
        rcases writeLoop_accepted_head hr with h0 | ⟨t, h0⟩
        · simp [h0] at hacc
        · simp [h0] at hacc
      · obtain rfl : k = m + 1 := by omega
        rw [writeLoop_of_nonpos (by omega), Option.some.injEq] at hr
        have hnil : answers = [] := by simpa [← hr] using hout.2.2.symm
        simp [hnil]

end Loop

/-- Between two calls the output buffer is drained and its indices are reset: a
call takes everything out before it writes, and puts nothing back. -/
structure Output.Idle (c : Output) : Prop where
  wellFormed : c.outputBuffer.WellFormed
  writeIndex_eq : c.outputBuffer.writeIndex = kPrePendIndex
  contents_eq : c.outputBuffer.contents = []

theorem Output.new_idle : Output.new.Idle :=
  ⟨Buffer.new_wellFormed, rfl, Buffer.contents_new⟩

/-- The connection after a call that took the bytes of `b` out and wrote them. -/
def Output.after (c : Output) (b : Buffer) (out : WriteOutcome) : Output :=
  ⟨b.retrieveAll, c.accepted ++ out.accepted, c.closed || out.closed⟩

theorem Output.after_idle {b : Buffer} (h : b.WellFormed) (c : Output) (out : WriteOutcome) :
    (c.after b out).Idle := ⟨h.retrieveAll_spec.1, rfl, h.retrieveAll_spec.2⟩

theorem Output.writeNonBlocking_eq {b : Buffer} (h : b.WellFormed) (c : Output)
    (answers : List WriteAnswer) :
    Output.writeNonBlocking { c with outputBuffer := b } answers =
      (writeLoop b.contents answers b.contents.length).map
        fun out => (c.after b out, out.unused) := by
  simp only [writeNonBlocking, h.retrieveAllAsString_spec, Option.bind_eq_bind, Option.bind_some]
  cases writeLoop b.contents answers b.contents.length <;> rfl

/-- A call on an idle connection is the loop on the message it is given. -/
theorem OutputEvent.call_eq {c : Output} (h : c.Idle) (ev : OutputEvent) (hfit : ev.Fits) :
    ∃ b : Buffer, b.WellFormed ∧ ev.call c =
      (writeLoop ev.msg ev.answers ev.msg.length).map fun out => (c.after b out, out.unused) := by
  cases ev with
  | send msg answers =>
    have hroom : c.outputBuffer.writeIndex + msg.length + 8 < 2 ^ 64 := by
      have : msg.length < 2 ^ 63 := hfit
      rw [h.writeIndex_eq, kPrePendIndex]
      omega
    obtain ⟨b, hb, hwf, hc⟩ := h.wellFormed.append_spec hroom
    rw [h.contents_eq, List.nil_append] at hc
    refine ⟨b, hwf, ?_⟩
    rw [call, Output.send, Buffer.appendString, hb, Option.bind_eq_bind, Option.bind_some,
      Output.writeNonBlocking_eq hwf, hc]
    rfl
  | handleDataOut answers =>
    refine ⟨c.outputBuffer, h.wellFormed, ?_⟩
    have he := Output.writeNonBlocking_eq h.wellFormed c answers
    rw [h.contents_eq] at he
    exact he

theorem OutputEvent.of_apply_eq_some {c : Output} (h : c.Idle) {ev : OutputEvent}
    (hfit : ev.Fits) {m : Bytes} {c' : Output} (he : ev.apply c = some (m, c')) :
    ∃ out b, writeLoop ev.msg ev.answers ev.msg.length = some out ∧ Buffer.WellFormed b ∧
      c' = c.after b out := by
  obtain ⟨b, hwf, hcall⟩ := ev.call_eq h hfit
  rw [apply, hcall, Option.bind_eq_bind, Option.bind_eq_some_iff] at he
  obtain ⟨⟨c₁, unused⟩, hmap, he⟩ := he
  obtain ⟨out, hloop, hout⟩ := Option.map_eq_some_iff.mp hmap
  rw [Prod.mk.injEq] at hout
  simp only [Option.ite_none_right_eq_some, Option.some.injEq, Prod.mk.injEq] at he
  exact ⟨out, b, hloop, hwf, by rw [← he.2.2, hout.1]⟩

theorem OutputEvent.exists_apply {c : Output} (h : c.Idle) (ev : OutputEvent) (hfit : ev.Fits)
    (out : WriteOutcome) (hloop : writeLoop ev.msg ev.answers ev.msg.length = some out)
    (hunused : out.unused = []) :
    ∃ b, Buffer.WellFormed b ∧ ev.apply c = some (ev.msg, c.after b out) := by
  obtain ⟨b, hwf, hcall⟩ := ev.call_eq h hfit
  refine ⟨b, hwf, ?_⟩
  simp [apply, hcall, hloop, hunused]

theorem Output.Idle.run_takesAll {evs : List OutputEvent} {c : Output} (hidle : c.Idle)
    (hfit : ∀ ev ∈ evs, ev.Fits)
    (hadm : Runs.Admissible OutputEvent.apply OutputEvent.TakesAll evs c)
    {msgs : List Bytes} {c' : Output}
    (hrun : Runs.run OutputEvent.apply evs c = some (msgs, c')) :
    c'.accepted ++ c'.outputBuffer.contents = c.accepted ++ (evs.map OutputEvent.msg).flatten ∧
      c'.closed = c.closed := by
  induction evs generalizing c msgs with
  | nil =>
    rw [Runs.run, Option.some.injEq, Prod.mk.injEq] at hrun
    obtain ⟨-, rfl⟩ := hrun
    simp [hidle.contents_eq]
  | cons ev evs ih =>
    obtain ⟨m, c₁, ms, hev, hrun, -⟩ := Runs.run_cons_eq_some hrun
    obtain ⟨out, b, hloop, hwf, rfl⟩ :=
      OutputEvent.of_apply_eq_some hidle (hfit ev List.mem_cons_self) hev
    have hall : ∀ a ∈ ev.answers, a = .interrupted ∨ a = .wrote ev.msg.length := by
      simpa [OutputEvent.TakesAll, hidle.contents_eq] using hadm.1
    obtain ⟨hout, hclosed⟩ := writeLoop_takesAll hall hloop
    obtain ⟨h₁, h₂⟩ := ih (c.after_idle hwf out)
      (fun ev he => hfit ev (List.mem_cons_of_mem _ he)) (hadm.2 m _ hev) hrun
    simp [h₁, h₂, Output.after, hout, hclosed]

/-- As long as every `write(2)` takes all it is offered or is interrupted, the
kernel has received the messages in order, each byte once, after every call. -/
theorem output_stream_of_takesAll (evs : List OutputEvent) (hfit : ∀ ev ∈ evs, ev.Fits)
    (hadm : Runs.Admissible OutputEvent.apply OutputEvent.TakesAll evs Output.new) :
    ∀ done, done <+: evs → ∀ msgs c, Runs.run OutputEvent.apply done Output.new = some (msgs, c) →
      c.accepted ++ c.outputBuffer.contents = (done.map OutputEvent.msg).flatten ∧
        c.closed = false := by
  rintro done ⟨rest, rfl⟩ msgs c hrun
  have h := Output.new_idle.run_takesAll (fun ev he => hfit ev (List.mem_append_left _ he))
    (Runs.Admissible.left hadm) hrun
  simpa [Output.new] using h

/-- Two messages, the second `write` interrupted once. -/
theorem output_stream_of_takesAll_interrupted :
    ∃ msgs c, Runs.run OutputEvent.apply
        [.send [7, 8] [.wrote 2], .send [9] [.interrupted, .wrote 1]] Output.new = some (msgs, c) ∧
      c.accepted ++ c.outputBuffer.contents = [7, 8, 9] ∧ c.closed = false := by
  obtain ⟨b₁, hwf₁, h₁⟩ := OutputEvent.exists_apply Output.new_idle (.send [7, 8] [.wrote 2])
    (by simp [OutputEvent.Fits, OutputEvent.msg]) ⟨[7, 8], false, []⟩ (by decide) rfl
  have hidle := Output.new.after_idle hwf₁ ⟨[7, 8], false, []⟩
  obtain ⟨b₂, hwf₂, h₂⟩ := OutputEvent.exists_apply hidle
    (.send [9] [.interrupted, .wrote 1])
    (by simp [OutputEvent.Fits, OutputEvent.msg]) ⟨[9], false, []⟩ (by decide) rfl
  have hrun := Runs.run_cons_of_eq h₁ (Runs.run_cons_of_eq h₂ (Runs.run_nil _))
  have hadm : Runs.Admissible OutputEvent.apply OutputEvent.TakesAll
      [.send [7, 8] [.wrote 2], .send [9] [.interrupted, .wrote 1]] Output.new := by
    refine ⟨by simp [OutputEvent.TakesAll, OutputEvent.answers, OutputEvent.msg,
      Output.new_idle.contents_eq], fun m c he => ?_⟩
    rw [h₁, Option.some.injEq, Prod.mk.injEq] at he
    obtain ⟨-, rfl⟩ := he
    exact ⟨by simp [OutputEvent.TakesAll, OutputEvent.answers, OutputEvent.msg,
      hidle.contents_eq], fun _ _ _ => trivial⟩
  exact ⟨_, _, hrun, output_stream_of_takesAll _
    (by simp [OutputEvent.Fits, OutputEvent.msg]) hadm _ List.prefix_rfl _ _ hrun⟩

/-- A short write makes the next one start over, and `EAGAIN` drops the message. -/
theorem output_stream_corrupted :
    (∃ msgs c, Runs.run OutputEvent.apply [.send [7, 8] [.wrote 1, .wrote 2]] Output.new =
        some (msgs, c) ∧ msgs.flatten = [7, 8] ∧ c.closed = false ∧
        c.accepted ++ c.outputBuffer.contents = [7, 7, 8]) ∧
      ∃ msgs c, Runs.run OutputEvent.apply [.send [7, 8] [.again]] Output.new =
        some (msgs, c) ∧ msgs.flatten = [7, 8] ∧ c.closed = false ∧
        c.accepted ++ c.outputBuffer.contents = [] := by
  constructor
  · obtain ⟨b, hwf, h⟩ := OutputEvent.exists_apply Output.new_idle
      (.send [7, 8] [.wrote 1, .wrote 2])
      (by simp [OutputEvent.Fits, OutputEvent.msg]) ⟨[7, 7, 8], false, []⟩ (by decide) rfl
    refine ⟨_, _, Runs.run_cons_of_eq h (Runs.run_nil _), rfl, rfl, ?_⟩
    rw [(Output.after_idle hwf _ _).contents_eq]
    rfl
  · obtain ⟨b, hwf, h⟩ := OutputEvent.exists_apply Output.new_idle
      (.send [7, 8] [.again])
      (by simp [OutputEvent.Fits, OutputEvent.msg]) ⟨[], false, []⟩ (by decide) rfl
    refine ⟨_, _, Runs.run_cons_of_eq h (Runs.run_nil _), rfl, rfl, ?_⟩
    rw [(Output.after_idle hwf _ _).contents_eq]
    rfl

end NcxTunnel
