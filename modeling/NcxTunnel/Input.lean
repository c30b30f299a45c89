import NcxTunnel.HostileFrames
import NcxTunnel.CloseEffects

/-!
# Receiving on a connection

`Connection::handle_data_in`, that is `ReadNonBlocking` and then the message handler.
What the kernel answers to each `read(2)` is an input: a read event carries the
answers that its call consumes, in order.  The handlers of the program do one of two
things with the buffer, take one message or take all.
-/

namespace NcxTunnel

/-- One answer of `read(2)`; the last three are `EAGAIN`, `EINTR` and any other error. -/
inductive ReadAnswer where
  /-- the next bytes the kernel holds -/
  | got (k : ℕ)
  /-- end of file -/
  | zero
  | again
  | interrupted
  | failed
deriving Repr, DecidableEq

def readSize : ℕ := 1024

/-- The receiving half of a connection, and what the kernel has for it. -/
structure Input where
  inputBuffer : Buffer
  /-- bytes that have arrived and have not been read -/
  queue : Bytes
  finished : Bool
  closed : Bool

namespace Input

def new : Input := ⟨Buffer.new, [], false, false⟩

def contents (c : Input) : Bytes := c.inputBuffer.contents

/-- The `while (true)` loop; the answers it does not consume are left.  `none` if the
answers end before the loop does, or if one of them is not one the kernel may give. -/
def readNonBlocking (c : Input) : List ReadAnswer → Option (Input × List ReadAnswer)
  | [] => none
  | .got k :: answers =>
      if 1 ≤ k ∧ k ≤ readSize ∧ k ≤ c.queue.length then do
        let b ← c.inputBuffer.append (c.queue.take k)
        readNonBlocking { c with inputBuffer := b, queue := c.queue.drop k } answers
      else none
  | .again :: answers =>
      if c.queue = [] ∧ c.finished = false then some (c, answers) else none
  | .interrupted :: answers => readNonBlocking c answers
  | .failed :: answers => some ({ c with closed := true }, answers)
  | .zero :: answers =>
      if c.queue = [] ∧ c.finished = true then some ({ c with closed := true }, answers) else none

end Input

/-- What is installed by `set_message_handle`. -/
inductive InputHandler where
  /-- `CanReadMsg`, and `RetrieveAsString` of what it announces -/
  | framed
  /-- `RetrieveAllAsString`, if there is anything -/
  | forwarding
  | unset
deriving Repr, DecidableEq

inductive Given where
  | message (msg : Bytes)
  | all (data : Bytes)
deriving Repr, DecidableEq

namespace Input

def handleMessage (c : Input) : InputHandler → Option (Option Given × Input)
  | .framed => do
      let (msg, b) ← attempt c.inputBuffer
      return (msg.map .message, { c with inputBuffer := b })
  | .forwarding =>
      if 0 < c.inputBuffer.readAbleBytes then do
        let (data, b) ← c.inputBuffer.retrieveAllAsString
        return (some (.all data), { c with inputBuffer := b })
      else some (none, c)
  | .unset => some (none, c)

end Input

inductive InputEvent where
  | arrive (bytes : Bytes)
  | finish
  | handleDataIn (answers : List ReadAnswer) (handler : InputHandler)

namespace InputEvent

def apply (c : Input) : InputEvent → Option (Option Given × Input)
  | arrive bytes =>
      if c.finished then none else some (none, { c with queue := c.queue ++ bytes })
  | finish => some (none, { c with finished := true })
  | handleDataIn answers handler => do
      let (c, unused) ← c.readNonBlocking answers
      if unused = [] then c.handleMessage handler else none

def bytes : InputEvent → Bytes
  | arrive bytes => bytes
  | finish => []
  | handleDataIn _ _ => []

/-- Appending what the kernel holds does not overflow `size_t`. -/
def Pre (c : Input) (_ : InputEvent) : Prop :=
  c.inputBuffer.writeIndex + c.queue.length + 8 < 2 ^ 64

end InputEvent

/-- How a call goes on the side of the kernel. -/
structure ReadOutcome where
  got : Bytes
  left : Bytes
  closed : Bool
  unused : List ReadAnswer
deriving Repr, DecidableEq

/-- `none` if the kernel may not answer so, or if the call goes on. -/
def serve (finished : Bool) : Bytes → List ReadAnswer → Option ReadOutcome
  | _, [] => none
  | queue, .got k :: answers =>
      if 1 ≤ k ∧ k ≤ readSize ∧ k ≤ queue.length then
        (serve finished (queue.drop k) answers).map
          fun out => { out with got := queue.take k ++ out.got }
      else none
  | queue, .zero :: answers =>
      if queue = [] ∧ finished = true then some ⟨[], queue, true, answers⟩ else none
  | queue, .again :: answers =>
      if queue = [] ∧ finished = false then some ⟨[], queue, false, answers⟩ else none
  | queue, .interrupted :: answers => serve finished queue answers
  | queue, .failed :: answers => some ⟨[], queue, true, answers⟩

theorem serve_parts {finished : Bool} {queue : Bytes} {answers : List ReadAnswer} {out : ReadOutcome}
    (h : serve finished queue answers = some out) :
    out.got ++ out.left = queue ∧ (out.left = [] ∨ out.closed = true) := by
  induction answers generalizing queue out with
  | nil => cases h
  | cons answer answers ih =>
    cases answer with
    | got k =>
      rw [serve] at h
      split at h
      · obtain ⟨out', hout', rfl⟩ := Option.map_eq_some_iff.mp h
        obtain ⟨hparts, hend⟩ := ih hout'
        refine ⟨?_, hend⟩
        rw [List.append_assoc, hparts, List.take_append_drop]
      · cases h
    | interrupted => exact ih h
    | zero =>
      rw [serve] at h
      split at h
      · cases h
        exact ⟨rfl, .inr rfl⟩
      · cases h
    | again =>
      rw [serve] at h
      split at h
      · rename_i hempty
        cases h
        exact ⟨rfl, .inl hempty.1⟩
      · cases h
    | failed =>
      cases h
      exact ⟨rfl, .inr rfl⟩

theorem Buffer.WellFormed.append_writeIndex_le {b b' : Buffer} (h : b.WellFormed) {message : Bytes}
    (hfit : b.writeIndex + message.length + 8 < 2 ^ 64) (he : b.append message = some b') :
    b'.writeIndex ≤ b.writeIndex + message.length := by
  have hw := h.writeAbleBytes_eq
  have hr := h.readAbleBytes_eq
  obtain ⟨h1, h2, h3, h4⟩ := h
  simp only [kPrePendIndex] at h1
  simp only [Buffer.append, Option.bind_eq_bind, Option.bind_eq_some_iff, Option.pure_def,
    Option.some.injEq] at he
  obtain ⟨b₁, he₁, v, -, rfl⟩ := he
  have hle : b₁.writeIndex ≤ b.writeIndex := by
    unfold Buffer.ensureWriteableBytes at he₁
    rw [hr, kPrePendIndex, sizeT_of_lt (by omega : 8 + (b.writeIndex - b.readIndex) < 2 ^ 64)] at he₁
    split_ifs at he₁
    · exact Nat.le_of_eq (congrArg Buffer.writeIndex (Option.some.inj he₁).symm)
    · simp only [Option.bind_eq_bind, Option.bind_eq_some_iff, Option.pure_def,
        Option.some.injEq] at he₁
      obtain ⟨_, -, rfl⟩ := he₁
      dsimp only
      omega
    · rw [← Option.some.inj he₁]
  exact (Nat.mod_le _ _).trans (Nat.add_le_add_right hle _)

namespace Input

/-- What holds between two events: the indices leave room for what the kernel holds. -/
structure Ready (c : Input) : Prop where
  wellFormed : c.inputBuffer.WellFormed
  room : c.inputBuffer.writeIndex + c.queue.length + 8 < 2 ^ 64

/-- The loop does with the buffer what the kernel does with its queue, and it fails
only where the kernel does. -/
theorem readNonBlocking_spec {c : Input} (h : c.Ready) (answers : List ReadAnswer) :
    match serve c.finished c.queue answers with
    | none => c.readNonBlocking answers = none
    | some out => ∃ b, c.readNonBlocking answers =
        some (⟨b, out.left, c.finished, c.closed || out.closed⟩, out.unused) ∧ b.WellFormed ∧
          b.contents = c.contents ++ out.got ∧
          b.writeIndex + out.left.length ≤ c.inputBuffer.writeIndex + c.queue.length := by
  induction answers generalizing c with
  | nil => rfl
  | cons answer answers ih =>
    have hroom := h.room
    cases answer with
    | interrupted =>
      rw [serve, readNonBlocking]
      exact ih h
    | failed =>
      rw [serve]
      refine ⟨c.inputBuffer, ?_, h.wellFormed, (List.append_nil _).symm, Nat.le_refl _⟩
      rw [readNonBlocking, Bool.or_true]
    | zero =>
      rw [serve]
      split_ifs with hend
      · refine ⟨c.inputBuffer, ?_, h.wellFormed, (List.append_nil _).symm, Nat.le_refl _⟩
        rw [readNonBlocking, if_pos hend, Bool.or_true]
      · rw [readNonBlocking, if_neg hend]
    | again =>
      rw [serve]
      split_ifs with hend
      · refine ⟨c.inputBuffer, ?_, h.wellFormed, (List.append_nil _).symm, Nat.le_refl _⟩
        rw [readNonBlocking, if_pos hend, Bool.or_false]
      · rw [readNonBlocking, if_neg hend]
    | got k =>
      rw [serve]
      split_ifs with hk
      · have hlen : (c.queue.take k).length = k := by
          rw [List.length_take]
          omega
        have hfit : c.inputBuffer.writeIndex + (c.queue.take k).length + 8 < 2 ^ 64 := by omega
        obtain ⟨b, hb, hwf, hc⟩ := h.wellFormed.append_spec hfit
        have hindex := h.wellFormed.append_writeIndex_le hfit hb
        have hdrop : (c.queue.drop k).length = c.queue.length - k := List.length_drop
        have hready : Ready { c with inputBuffer := b, queue := c.queue.drop k } := by
          refine ⟨hwf, ?_⟩
          dsimp only
          omega
        have hread : c.readNonBlocking (.got k :: answers) =
            readNonBlocking { c with inputBuffer := b, queue := c.queue.drop k } answers := by
          rw [readNonBlocking, if_pos hk]
          simp only [hb, Option.bind_eq_bind, Option.bind_some]
        have hrest := ih hready
        dsimp only at hrest
        rw [hread]
        cases hserve : serve c.finished (c.queue.drop k) answers with
        | none =>
          rw [hserve] at hrest
          exact hrest
        | some out =>
          rw [hserve] at hrest
          obtain ⟨b', hb', hwf', hc', hle⟩ := hrest
          refine ⟨b', hb', hwf', ?_, ?_⟩
          · rw [hc', contents, contents, hc, List.append_assoc]
          · dsimp only at hle ⊢
            omega
      · rw [readNonBlocking, if_neg hk]

/-- A read event of the server is one such call: its buffers hold the bytes of this one. -/
theorem readNonBlocking_server {c : Input} (h : c.Ready) {answers : List ReadAnswer}
    {out : ReadOutcome} (hserve : serve c.finished c.queue answers = some out) (s : NServer)
    (fr : Frame) (o : Obj) (hsame : (s.conns o).inputBuffer = c.contents) :
    ∃ c', c.readNonBlocking answers = some (c', out.unused) ∧
      ((s.readNonBlocking fr o [out.got] (if out.closed then .closed else .again)).conns
        o).inputBuffer = c'.contents := by
  have hread := readNonBlocking_spec h answers
  rw [hserve] at hread
  obtain ⟨b, he, -, hc, -⟩ := hread
  refine ⟨_, he, ?_⟩
  rw [(s.readNonBlocking_ready fr o [out.got] _).2, hsame]
  simpa [contents] using hc.symm

end Input

/-- What a handler takes out of the buffer. -/
inductive Portion where
  | piece (x : Piece)
  | raw (data : Bytes)

namespace Portion

def bytes : Portion → Bytes
  | piece x => x.bytes
  | raw data => data

def given : Portion → Option Given
  | piece x => x.payload.map .message
  | raw data => some (.all data)

def Valid : Portion → Prop
  | piece x => x.Valid
  | raw data => data ≠ []

end Portion

/-- At most one part goes out, and nothing else changes. -/
theorem Input.handleMessage_spec {c : Input} (h : c.inputBuffer.WellFormed) (handler : InputHandler) :
    ∃ out b, ∃ part : Option Portion, c.handleMessage handler = some (out, { c with inputBuffer := b }) ∧
      b.WellFormed ∧ (∀ x ∈ part, Portion.Valid x) ∧ out = part.bind Portion.given ∧
      c.contents = (part.map Portion.bytes).getD [] ++ b.contents := by
  cases handler with
  | unset => exact ⟨none, c.inputBuffer, none, rfl, h, by simp, rfl, rfl⟩
  | framed =>
    obtain ⟨out, b, he, hwf, hq⟩ := attempt_spec h
    have hhandle : c.handleMessage .framed =
        some (out.map .message, { c with inputBuffer := b }) := by
      rw [handleMessage, he]
      rfl
    rw [Piece.attemptBytes_eq_next] at hq
    cases hnext : Piece.next c.inputBuffer.contents with
    | none =>
      rw [hnext, Prod.mk.injEq] at hq
      exact ⟨_, b, none, hhandle, hwf, by simp, by rw [← hq.1]; rfl, hq.2⟩
    | some p =>
      obtain ⟨x, rest⟩ := p
      rw [hnext, Prod.mk.injEq] at hq
      obtain ⟨hx, heq⟩ := (Piece.next_eq_some_iff _ _ _).mp hnext
      refine ⟨_, b, some (.piece x), hhandle, hwf, ?_, by rw [← hq.1]; rfl, ?_⟩
      · rintro y ⟨⟩
        exact hx
      · rw [← hq.2]
        exact heq
  | forwarding =>
    have hlen := h.readAbleBytes_eq_length
    by_cases hpos : 0 < c.inputBuffer.readAbleBytes
    · obtain ⟨hwf, hnil⟩ := h.retrieveAll_spec
      refine ⟨some (.all c.contents), c.inputBuffer.retrieveAll, some (.raw c.contents), ?_, hwf, ?_,
        rfl, ?_⟩
      · rw [handleMessage, if_pos hpos, h.retrieveAllAsString_spec]
        rfl
      · rintro y ⟨⟩
        have hne : c.inputBuffer.contents ≠ [] := List.length_pos_iff.mp (hlen ▸ hpos)
        exact hne
      · rw [hnil]
        exact (List.append_nil _).symm
    · refine ⟨none, c.inputBuffer, none, ?_, h, by simp, rfl, rfl⟩
      rw [handleMessage, if_neg hpos]

namespace InputEvent

/-- The answers are ones the kernel may give, and they are as many as the call needs. -/
def Conforms (c : Input) : InputEvent → Prop
  | arrive _ => c.finished = false
  | finish => True
  | handleDataIn answers _ => ∃ out, serve c.finished c.queue answers = some out ∧ out.unused = []

/-- A call that succeeds moves bytes from the kernel to the buffer and from there to the
handler; it fails only for answers that do not conform. -/
theorem apply_spec {c : Input} (h : c.inputBuffer.WellFormed) (ev : InputEvent) (hpre : ev.Pre c) :
    (ev.Conforms c ∧ ∃ out c', ∃ part : Option Portion, ev.apply c = some (out, c') ∧
      c'.inputBuffer.WellFormed ∧
      (∀ x ∈ part, Portion.Valid x) ∧ out = part.bind Portion.given ∧
      c.contents ++ c.queue ++ ev.bytes =
        (part.map Portion.bytes).getD [] ++ (c'.contents ++ c'.queue) ∧
      ∀ answers handler, ev = .handleDataIn answers handler → c'.queue = [] ∨ c'.closed = true) ∨
    ¬ev.Conforms c ∧ ev.apply c = none := by
  cases ev with
  | arrive bytes =>
    cases hfin : c.finished with
    | true => exact .inr ⟨by simp [Conforms, hfin], by simp [apply, hfin]⟩
    | false =>
      refine .inl ⟨hfin, none, { c with queue := c.queue ++ bytes }, none, ?_, h, by simp, rfl, ?_,
        by rintro _ _ ⟨⟩⟩
      · simp [apply, hfin]
      · exact List.append_assoc _ _ _
  | finish =>
    refine .inl ⟨trivial, none, { c with finished := true }, none, rfl, h, by simp, rfl, ?_,
      by rintro _ _ ⟨⟩⟩
    exact List.append_nil _
  | handleDataIn answers handler =>
    have hread := Input.readNonBlocking_spec ⟨h, hpre⟩ answers
    rw [Conforms, apply]
    cases hserve : serve c.finished c.queue answers with
    | none =>
      rw [hserve] at hread
      exact .inr ⟨by simp, by simp [hread]⟩
    | some out =>
      rw [hserve] at hread
      obtain ⟨b, he, hwf, hc, -⟩ := hread
      simp only [he, Option.bind_eq_bind, Option.bind_some]
      by_cases hunused : out.unused = []
      · obtain ⟨hparts, hend⟩ := serve_parts hserve
        obtain ⟨given, b', part, hhandle, hwf', hvalid, hgiven, hsplit⟩ := Input.handleMessage_spec
          (c := ⟨b, out.left, c.finished, c.closed || out.closed⟩) hwf handler
        refine .inl ⟨⟨out, rfl, hunused⟩, given,
          ⟨b', out.left, c.finished, c.closed || out.closed⟩, part, ?_, hwf', hvalid, hgiven, ?_, ?_⟩
        · rw [if_pos hunused, hhandle]
        · rw [bytes, List.append_nil, ← hparts, ← List.append_assoc, ← hc, ← List.append_assoc]
          exact congrArg (· ++ out.left) hsplit
        · rintro _ _ -
          refine hend.imp id fun hclosed => ?_
          simp [hclosed]
      · refine .inr ⟨?_, by rw [if_neg hunused]⟩
        rintro ⟨out', hsome, hnil⟩
        exact hunused (Option.some.inj hsome ▸ hnil)

end InputEvent

/-- Every byte that has arrived has gone to the handlers, is in the buffer, or is with
the kernel, in this order; the handlers have got the first parts of the stream.  The
next call fails only if the kernel does not conform, and unless it closes it leaves
nothing behind that has arrived. -/
theorem input_stream_intact (evs : List InputEvent) (outs : List (Option Given)) (c : Input)
    (hadm : Runs.Admissible InputEvent.apply InputEvent.Pre evs Input.new)
    (hrun : Runs.run InputEvent.apply evs Input.new = some (outs, c)) :
    (∃ parts : List Portion, (∀ x ∈ parts, x.Valid) ∧ outs.filterMap id = parts.filterMap Portion.given ∧
      evs.flatMap InputEvent.bytes = parts.flatMap Portion.bytes ++ (c.contents ++ c.queue)) ∧
    ∀ ev : InputEvent, ev.Pre c → ((ev.apply c).isSome ↔ ev.Conforms c) ∧
      ∀ answers handler out c', ev = .handleDataIn answers handler →
        ev.apply c = some (out, c') → c'.queue = [] ∨ c'.closed = true := by
  suffices hinv : ∀ (c₀ : Input) (outs : List (Option Given)), c₀.inputBuffer.WellFormed →
      Runs.Admissible InputEvent.apply InputEvent.Pre evs c₀ →
      Runs.run InputEvent.apply evs c₀ = some (outs, c) →
      c.inputBuffer.WellFormed ∧ ∃ parts : List Portion, (∀ x ∈ parts, x.Valid) ∧
        outs.filterMap id = parts.filterMap Portion.given ∧
        c₀.contents ++ c₀.queue ++ evs.flatMap InputEvent.bytes =
          parts.flatMap Portion.bytes ++ (c.contents ++ c.queue) by
    obtain ⟨hwf, parts, hvalid, hgiven, hsplit⟩ := hinv Input.new outs Buffer.new_wellFormed hadm hrun
    refine ⟨⟨parts, hvalid, hgiven, ?_⟩, fun ev hpre => ?_⟩
    · have hnil : Input.new.contents ++ Input.new.queue = [] := by
        rw [Input.contents, Input.new, Buffer.contents_new, List.append_nil]
      rw [hnil, List.nil_append] at hsplit
      exact hsplit
    · rcases ev.apply_spec hwf hpre with ⟨hok, out, c', part, he, -, -, -, -, hend⟩ | ⟨hno, he⟩
      · refine ⟨by simp [he, hok], fun answers handler out₁ c₁ hev he₁ => ?_⟩
        rw [he, Option.some.injEq, Prod.mk.injEq] at he₁
        exact he₁.2 ▸ hend answers handler hev
      · refine ⟨by simp [he, hno], fun answers handler out₁ c₁ hev he₁ => ?_⟩
        rw [he] at he₁
        cases he₁
  clear hadm hrun
  intro c₀ outs hwf hadm hrun
  -- on the events; what is buffered and what the kernel holds make up what is to be handled
  induction evs generalizing c₀ outs with
  | nil =>
    rw [Runs.run_nil, Option.some.injEq, Prod.mk.injEq] at hrun
    obtain ⟨rfl, rfl⟩ := hrun
    exact ⟨hwf, [], by simp, rfl, by simp⟩
  | cons ev evs ih =>
    obtain ⟨out, c₁, outs', hstep, hrest, rfl⟩ := Runs.run_cons_eq_some hrun
    rcases ev.apply_spec hwf hadm.1 with ⟨-, out', c₁', part, he, hwf₁, hvalid, hgiven, hsplit, -⟩ |
      ⟨-, he⟩
    · rw [he, Option.some.injEq, Prod.mk.injEq] at hstep
      obtain ⟨rfl, rfl⟩ := hstep
      obtain ⟨hwf', parts, hvalids, hgivens, hsplits⟩ := ih c₁' outs' hwf₁ (hadm.2 _ _ he) hrest
      refine ⟨hwf', part.toList ++ parts, ?_, ?_, ?_⟩
      · intro x hx
        rcases List.mem_append.mp hx with hx | hx
        · exact hvalid x (Option.mem_toList.mp hx)
        · exact hvalids x hx
      · rw [List.filterMap_append, ← hgivens, hgiven]
        cases part with
        | none => rfl
        | some x => cases hx : x.given <;> simp [hx]
      · have hpart : (part.map Portion.bytes).getD [] = part.toList.flatMap Portion.bytes := by
          cases part <;> simp
        rw [List.flatMap_cons, List.flatMap_append, ← List.append_assoc, hsplit, hpart,
          List.append_assoc, hsplits, List.append_assoc]
    · rw [he] at hstep
      cases hstep

/-- A message and a byte behind it, in one read that is interrupted first. -/
theorem input_stream_intact_message :
    ∃ outs c, Runs.run InputEvent.apply [.arrive [0x0D, 1, 0, 0, 0, 65, 66],
        .handleDataIn [.interrupted, .got 7, .again] .framed] Input.new = some (outs, c) ∧
      outs.filterMap id = [.message [65]] ∧ c.contents = [66] ∧ c.queue = [] ∧
      ∃ parts : List Portion, [.message [65]] = parts.filterMap Portion.given ∧
        [0x0D, 1, 0, 0, 0, 65, 66] = parts.flatMap Portion.bytes ++ [66] := by
  have hadm : Runs.Admissible InputEvent.apply InputEvent.Pre [.arrive [0x0D, 1, 0, 0, 0, 65, 66],
      .handleDataIn [.interrupted, .got 7, .again] .framed] Input.new := by
    have hfirst : 8 + 0 + 8 < 2 ^ 64 := by decide
    have hsecond : 8 + 7 + 8 < 2 ^ 64 := by decide
    refine ⟨hfirst, fun out c he => ⟨?_, fun _ _ _ => trivial⟩⟩
    cases he
    exact hsecond
  have hrun : (Runs.run InputEvent.apply [.arrive [0x0D, 1, 0, 0, 0, 65, 66],
      .handleDataIn [.interrupted, .got 7, .again] .framed] Input.new).map
        (fun r => (r.1.filterMap id, r.2.contents, r.2.queue)) =
          some ([.message [65]], [66], []) := by
    decide +kernel
  obtain ⟨⟨outs, c⟩, hrun, hres⟩ := Option.map_eq_some_iff.mp hrun
  simp only [Prod.mk.injEq] at hres
  obtain ⟨houts, hc, hq⟩ := hres
  obtain ⟨⟨parts, -, hgiven, hsplit⟩, -⟩ := input_stream_intact _ outs c hadm hrun
  rw [hc, hq] at hsplit
  exact ⟨outs, c, hrun, houts, hc, hq, parts, houts ▸ hgiven, hsplit⟩

end NcxTunnel
