import NcxTunnel.FrameStream
import NcxTunnel.Protocol

/-!
# The client's end of a control channel

`ncx_client/ccontrolchannel.cpp`.  A read event drains the socket into the input
buffer and calls the message handler once; a handler takes at most one frame out
of the buffer, whatever is left in it.  Creating a data channel is an output:
the nonce handed to its constructor.
-/

namespace NcxTunnel

structure CControlChannelArgs where
  serviceName : Bytes
  proxyPort : UInt16
deriving Repr, DecidableEq

/-- What `control_client_` calls when data has been read. -/
inductive ControlHandle where
  | unset
  | waitControlChannelHello
  | waitServerCmd
deriving Repr, DecidableEq

structure CControlChannel where
  id : Bytes
  args : CControlChannelArgs
  onMessage : ControlHandle
  inputBuffer : Bytes
deriving Repr, DecidableEq

namespace CControlChannel

def new (id : Bytes) (args : CControlChannelArgs) : CControlChannel := ⟨id, args, .unset, []⟩

def controlHello (args : CControlChannelArgs) : Hello where
  helloType? := some .controlChannelHello
  digest? := none
  controlChannelHelloContent? := some ⟨some args.serviceName, some args.proxyPort.toUInt32.toInt32⟩

/-- With the bytes passed to `Send`. -/
def doControlChannelHandshake (c : CControlChannel) : Bytes × CControlChannel :=
  (headerInstaller (controlHello c.args).serializeAsString,
    { c with onMessage := .waitControlChannelHello })

def handleControlChannelHello (c : CControlChannel) (nonce : Bytes) : CControlChannel :=
  { c with id := nonce }

def waitControlChannelHello (pb : Protobuf) (c : CControlChannel) :
    Option Bytes × CControlChannel :=
  match attemptBytes c.inputBuffer with
  | (none, buf) => (none, { c with inputBuffer := buf })
  | (some recvHello, buf) =>
      let c := { c with inputBuffer := buf }
      -- a message that does not parse is reported and used as it is
      let hello := (pb.parseHello recvHello).2
      let c := match hello.helloType with
        | .controlChannelHello => c.handleControlChannelHello hello.digest
        | .dataChannelHello => c
        | .unnamed _ => c
      (none, { c with onMessage := .waitServerCmd })

def handleCmdCreateDatachannel (c : CControlChannel) : Option Bytes × CControlChannel :=
  (some c.id, c)

def waitServerCmd (pb : Protobuf) (c : CControlChannel) : Option Bytes × CControlChannel :=
  match attemptBytes c.inputBuffer with
  | (none, buf) => (none, { c with inputBuffer := buf })
  | (some recvServerCmd, buf) =>
      let c := { c with inputBuffer := buf }
      match (pb.parseControlChannelCmd recvServerCmd).2.controlChannelCmd with
      | .createDataChannel => c.handleCmdCreateDatachannel
      | .heartbeat => (none, c)
      | .unnamed _ => (none, c)

def handleMessage (pb : Protobuf) (c : CControlChannel) : Option Bytes × CControlChannel :=
  match c.onMessage with
  | .unset => (none, c)
  | .waitControlChannelHello => waitControlChannelHello pb c
  | .waitServerCmd => waitServerCmd pb c

/-- One read event: the bytes read, then the handler. -/
def handleDataIn (pb : Protobuf) (c : CControlChannel) (chunk : Bytes) :
    Option Bytes × CControlChannel :=
  handleMessage pb { c with inputBuffer := c.inputBuffer ++ chunk }

/-- The nonces of the data channels created in a sequence of read events. -/
def created (pb : Protobuf) (c : CControlChannel) (chunks : List Bytes) : List Bytes :=
  yields (Runs.runTotal (handleDataIn pb) chunks c).1

end CControlChannel

/-- The payload a read event gives to the handler. -/
def readEvent (q c : Bytes) : Option Bytes × Bytes := attemptBytes (q ++ c)

/-- How many of the frames are complete in the first `n` bytes of their stream. -/
def arrived : List Bytes → ℕ → ℕ
  | [], _ => 0
  | p :: ps, n =>
      if (headerInstaller p).length ≤ n then arrived ps (n - (headerInstaller p).length) + 1 else 0

theorem arrived_zero {ps : List Bytes} (hps : ∀ p ∈ ps, Frameable p) : arrived ps 0 = 0 := by
  cases ps with
  | nil => rfl
  | cons p ps =>
    have hlen := (hps p List.mem_cons_self).headerInstaller_length
    rw [arrived, if_neg (by rw [hlen, msgHeaderLength]; omega)]

/-- The first read event contributes the condition at `[c]` and shifts the others. -/
theorem le_arrived_cons {ps : List Bytes} {q c : Bytes} {chunks : List Bytes} {n : ℕ} :
    (∀ done rest, done ≠ [] → c :: chunks = done ++ rest →
        n ≤ arrived ps (q.length + done.flatten.length) + rest.length) ↔
      n ≤ arrived ps (q ++ c).length + chunks.length ∧
        ∀ done rest, done ≠ [] → chunks = done ++ rest →
          n ≤ arrived ps ((q ++ c).length + done.flatten.length) + rest.length := by
  constructor
  · intro hn
    refine ⟨by simpa using hn [c] chunks (by simp) rfl, fun done rest _ he => ?_⟩
    simpa [Nat.add_assoc] using hn (c :: done) rest (by simp) (by rw [he]; rfl)
  · intro hn done rest hne he
    cases done with
    | nil => exact absurd rfl hne
    | cons d done =>
      rw [List.cons_append, List.cons.injEq] at he
      obtain ⟨rfl, he⟩ := he
      by_cases hd : done = []
      · subst hd
        rw [List.nil_append] at he
        simpa [← he] using hn.1
      · simpa [Nat.add_assoc] using hn.2 done rest hd he

/-- The handler is given the first frames of the stream; how many follows from
what has arrived at each event, since every event gives it one at most. -/
theorem yields_readEvent {chunks : List Bytes} {ps : List Bytes} (hps : ∀ p ∈ ps, Frameable p)
    {q : Bytes} (h : q ++ chunks.flatten = frames ps) :
    ∃ k ≤ ps.length, yields (Runs.runTotal readEvent chunks q).1 = ps.take k ∧
      ∀ n, n ≤ k ↔ n ≤ chunks.length ∧ ∀ done rest, done ≠ [] → chunks = done ++ rest →
        n ≤ arrived ps (q.length + done.flatten.length) + rest.length := by
  induction chunks generalizing ps q with
  | nil =>
    refine ⟨0, Nat.zero_le _, rfl, fun n => ⟨fun hn => ⟨hn, ?_⟩, fun hn => hn.1⟩⟩
    intro done rest hne he
    exact absurd (List.append_eq_nil_iff.mp he.symm).1 hne
  | cons c chunks ih =>
    have h' : (q ++ c) ++ chunks.flatten = frames ps := by simpa using h
    rcases attemptBytes_of_prefix hps h' with ⟨ha, hshort⟩ | ⟨p, ps', q', rfl, ha, hq'⟩
    · obtain ⟨k, hk, hy, hiff⟩ := ih hps h'
      refine ⟨k, hk, by simpa [Runs.runTotal, readEvent, ha, yields] using hy, fun n => ?_⟩
      have hnone : arrived ps (q ++ c).length = 0 := by
        cases ps with
        | nil => rfl
        | cons p ps => rw [arrived, if_neg (Nat.not_le.mpr (hshort p ps rfl))]
      rw [hiff, le_arrived_cons, hnone, List.length_cons]
      constructor
      · intro hn
        exact ⟨by omega, by omega, hn.2⟩
      · intro hn
        exact ⟨by omega, hn.2.2⟩
    · have hp := hps p List.mem_cons_self
      obtain ⟨k, hk, hy, hiff⟩ := ih (fun r hr => hps r (List.mem_cons_of_mem _ hr)) hq'
      have hlen : (q ++ c).length = (headerInstaller p).length + q'.length := by
        have h₁ := congrArg List.length h'
        have h₂ := congrArg List.length hq'
        simp only [frames_cons, List.length_append] at h₁ h₂ ⊢
        omega
      have hsome : ∀ m, arrived (p :: ps') ((q ++ c).length + m) =
          arrived ps' (q'.length + m) + 1 := by
        intro m
        rw [arrived, if_pos (by omega), hlen]
        congr 2
        omega
      refine ⟨k + 1, by simpa using hk, ?_, fun n => ?_⟩
      · simpa [Runs.runTotal, readEvent, ha, yields] using hy
      · rw [le_arrived_cons]
        have hfirst := hsome 0
        simp only [Nat.add_zero] at hfirst
        simp only [hsome, hfirst, List.length_cons]
        cases n with
        | zero => simp
        | succ n =>
          rw [Nat.add_le_add_iff_right, hiff]
          constructor
          · intro hn
            refine ⟨by omega, by omega, fun done rest hne he => ?_⟩
            have := hn.2 done rest hne he
            omega
          · intro hn
            refine ⟨by omega, fun done rest hne he => ?_⟩
            have := hn.2.2 done rest hne he
            omega

/-! ## Data channels created -/

/-- Frames up to and including the last one that asks for a data channel. -/
def lastCreate : List CCmd → ℕ
  | [] => 0
  | cmd :: cmds =>
      if .createDataChannel ∈ cmds then lastCreate cmds + 1
      else if cmd = .createDataChannel then 1 else 0

/-- The same for the greeting followed by the commands. -/
def framesNeeded (cmds : List CCmd) : ℕ :=
  if .createDataChannel ∈ cmds then lastCreate cmds + 1 else 0

/-- What a server sends on a control connection. -/
def controlPayloads (hello : Hello) (cmds : List CCmd) : List Bytes :=
  hello.serializeAsString :: cmds.map fun cmd => ControlChannelCmd.serializeAsString ⟨some cmd⟩

theorem lastCreate_eq_zero {cmds : List CCmd} (h : .createDataChannel ∉ cmds) :
    lastCreate cmds = 0 := by
  cases cmds with
  | nil => rfl
  | cons cmd cmds =>
    rw [List.mem_cons, not_or] at h
    rw [lastCreate, if_neg h.2, if_neg (Ne.symm h.1)]

theorem lastCreate_pos {cmds : List CCmd} (h : .createDataChannel ∈ cmds) :
    0 < lastCreate cmds := by
  cases cmds with
  | nil => exact absurd h List.not_mem_nil
  | cons cmd cmds =>
    rw [lastCreate]
    split_ifs with hmem hcmd
    · exact Nat.succ_pos _
    · exact Nat.one_pos
    · rcases List.mem_cons.mp h with he | he
      · exact absurd he.symm hcmd
      · exact absurd he hmem

theorem count_take_eq_iff (cmds : List CCmd) (k : ℕ) :
    (cmds.take k).count .createDataChannel = cmds.count .createDataChannel ↔
      lastCreate cmds ≤ k := by
  induction cmds generalizing k with
  | nil => simp [lastCreate]
  | cons cmd cmds ih =>
    cases k with
    | zero =>
      rw [List.take_zero, List.count_nil, eq_comm, List.count_eq_zero, lastCreate, List.mem_cons,
        not_or]
      split_ifs with hmem hcmd
      · simp [hmem]
      · simp [hcmd]
      · simp [hmem, Ne.symm hcmd]
    | succ k =>
      rw [List.take_succ_cons, List.count_cons, List.count_cons, Nat.add_right_cancel_iff, ih,
        lastCreate]
      split_ifs with hmem hcmd
      · omega
      · have := lastCreate_eq_zero hmem
        omega
      · have := lastCreate_eq_zero hmem
        omega

namespace CControlChannel

variable (pb : Protobuf)

/-- The nonce handed to the data channel that a command creates, if it does. -/
def cmdCreates (pb : Protobuf) (id payload : Bytes) : Option Bytes :=
  if (pb.parseControlChannelCmd payload).2.controlChannelCmd = .createDataChannel then some id
  else none

theorem created_waitServerCmd (chunks : List Bytes) (c : CControlChannel)
    (hc : c.onMessage = .waitServerCmd) :
    created pb c chunks =
      (yields (Runs.runTotal readEvent chunks c.inputBuffer).1).filterMap (cmdCreates pb c.id) := by
  induction chunks generalizing c with
  | nil => rfl
  | cons chunk chunks ih =>
    rcases ha : attemptBytes (c.inputBuffer ++ chunk) with ⟨_ | p, buf⟩
    · have hstep : handleDataIn pb c chunk = (none, { c with inputBuffer := buf }) := by
        simp [handleDataIn, handleMessage, hc, waitServerCmd, ha]
      simpa [created, Runs.runTotal, hstep, readEvent, ha, yields] using
        ih { c with inputBuffer := buf } hc
    · have hstep : handleDataIn pb c chunk =
          (cmdCreates pb c.id p, { c with inputBuffer := buf }) := by
        simp only [handleDataIn, handleMessage, hc, waitServerCmd, ha, cmdCreates]
        cases (pb.parseControlChannelCmd p).2.controlChannelCmd <;> rfl
      have hrest := ih { c with inputBuffer := buf } hc
      cases hcr : cmdCreates pb c.id p with
      | none => simpa [created, Runs.runTotal, hstep, readEvent, ha, yields, hcr] using hrest
      | some n => simpa [created, Runs.runTotal, hstep, readEvent, ha, yields, hcr] using hrest

/-- The first payload is taken for the greeting. -/
theorem created_waitControlChannelHello (chunks : List Bytes) (c : CControlChannel)
    (hc : c.onMessage = .waitControlChannelHello) :
    ∃ id, created pb c chunks =
      (yields (Runs.runTotal readEvent chunks c.inputBuffer).1).tail.filterMap
        (cmdCreates pb id) := by
  induction chunks generalizing c with
  | nil => exact ⟨c.id, rfl⟩
  | cons chunk chunks ih =>
    rcases ha : attemptBytes (c.inputBuffer ++ chunk) with ⟨_ | p, buf⟩
    · have hstep : handleDataIn pb c chunk = (none, { c with inputBuffer := buf }) := by
        simp [handleDataIn, handleMessage, hc, waitControlChannelHello, ha]
      obtain ⟨id, hid⟩ := ih { c with inputBuffer := buf } hc
      exact ⟨id, by simpa [created, Runs.runTotal, hstep, readEvent, ha, yields] using hid⟩
    · obtain ⟨c', hstep, hon, hbuf⟩ : ∃ c', handleDataIn pb c chunk = (none, c') ∧
          c'.onMessage = .waitServerCmd ∧ c'.inputBuffer = buf := by
        refine ⟨(handleDataIn pb c chunk).2, ?_, ?_, ?_⟩
        · simp only [handleDataIn, handleMessage, hc, waitControlChannelHello, ha]
        · simp only [handleDataIn, handleMessage, hc, waitControlChannelHello, ha]
        · simp only [handleDataIn, handleMessage, hc, waitControlChannelHello, ha]
          cases (pb.parseHello p).2.helloType <;> rfl
      have hrest := created_waitServerCmd pb chunks c' hon
      exact ⟨c'.id, by simpa [created, Runs.runTotal, hstep, readEvent, ha, yields, hbuf] using hrest⟩

theorem cmdCreates_serialize (id : Bytes) (cmd : CCmd) :
    cmdCreates pb id (ControlChannelCmd.serializeAsString ⟨some cmd⟩) =
      if cmd = .createDataChannel then some id else none := by
  simp [cmdCreates, pb.parseControlChannelCmd_serialize, ControlChannelCmd.controlChannelCmd]

theorem length_filterMap_cmdCreates (id : Bytes) (cmds : List CCmd) :
    ((cmds.map fun cmd => ControlChannelCmd.serializeAsString ⟨some cmd⟩).filterMap
      (cmdCreates pb id)).length = cmds.count .createDataChannel := by
  induction cmds with
  | nil => rfl
  | cons cmd cmds ih =>
    rw [List.map_cons, List.filterMap_cons, cmdCreates_serialize, List.count_cons]
    by_cases hcmd : cmd = .createDataChannel
    · simp only [hcmd, if_true, List.length_cons, ih, beq_self_eq_true]
    · simp only [hcmd, if_false, ih, beq_iff_eq, Nat.add_zero]

/-- The client creates a data channel for every `CREATE_DATA_CHANNEL` it was sent
if and only if, at every point of the stream, the frames up to the last such
command that are not complete yet are no more than the read events to come. -/
theorem created_length_iff (pb : Protobuf) (c : CControlChannel)
    (hc : c.onMessage = .waitControlChannelHello) (hempty : c.inputBuffer = []) (hello : Hello)
    (hvalid : hello.Valid) (htype : hello.helloType? = some .controlChannelHello)
    (cmds : List CCmd) (chunks : List Bytes)
    (hchunks : chunks.flatten = frames (controlPayloads hello cmds)) :
    (created pb c chunks).length = cmds.count .createDataChannel ↔
      ∀ done rest, chunks = done ++ rest →
        framesNeeded cmds ≤
          arrived (controlPayloads hello cmds) done.flatten.length + rest.length := by
  have hps : ∀ p ∈ controlPayloads hello cmds, Frameable p := by
    intro p hp
    rcases List.mem_cons.mp hp with rfl | hp
    · exact hvalid.frameable htype
    · obtain ⟨cmd, -, rfl⟩ := List.mem_map.mp hp
      exact frameable_enumField cmd
  have hstream : [] ++ chunks.flatten = frames (controlPayloads hello cmds) := hchunks
  obtain ⟨k, hk, hy, hiff⟩ := yields_readEvent hps hstream
  obtain ⟨id, hid⟩ := created_waitControlChannelHello pb chunks c hc
  have hcount : (created pb c chunks).length = (cmds.take (k - 1)).count .createDataChannel := by
    rw [hid, hempty, hy]
    cases k with
    | zero => simp
    | succ k =>
      rw [controlPayloads, List.take_succ_cons, List.tail_cons, ← List.map_take,
        length_filterMap_cmdCreates, Nat.add_sub_cancel]
  have hneeded : lastCreate cmds ≤ k - 1 ↔ framesNeeded cmds ≤ k := by
    unfold framesNeeded
    split_ifs with hmem
    · have := lastCreate_pos hmem
      omega
    · simp [lastCreate_eq_zero hmem]
  rw [hcount, count_take_eq_iff, hneeded, hiff]
  constructor
  · intro h done rest he
    cases done with
    | nil =>
      rw [List.nil_append] at he
      simpa [he, arrived_zero hps] using h.1
    | cons d done => simpa using h.2 (d :: done) rest (by simp) he
  · intro h
    refine ⟨by simpa [arrived_zero hps] using h [] chunks rfl, fun done rest _ he => ?_⟩
    simpa using h done rest he

section ReadEvent

variable {pb : Protobuf} {c : CControlChannel} {chunk : Bytes}

theorem handleDataIn_incomplete
    (h : c.onMessage = .waitControlChannelHello ∨ c.onMessage = .waitServerCmd)
    (ha : attemptBytes (c.inputBuffer ++ chunk) = (none, c.inputBuffer ++ chunk)) :
    c.handleDataIn pb chunk = (none, { c with inputBuffer := c.inputBuffer ++ chunk }) := by
  rcases h with h | h
  · simp only [handleDataIn, handleMessage, h, waitControlChannelHello, ha]
  · simp only [handleDataIn, handleMessage, h, waitServerCmd, ha]

/-- The nonce in the greeting of the server becomes the id of the channel. -/
theorem handleDataIn_hello (h : c.onMessage = .waitControlChannelHello) {nonce rest : Bytes}
    (hnonce : IsUuid nonce)
    (ha : attemptBytes (c.inputBuffer ++ chunk) =
      (some (Hello.serializeAsString ⟨some .controlChannelHello, some nonce, none⟩), rest)) :
    c.handleDataIn pb chunk =
      (none, { c with id := nonce, inputBuffer := rest, onMessage := .waitServerCmd }) := by
  simp only [handleDataIn, handleMessage, h, waitControlChannelHello, ha,
    pb.parseHello_serialize _ (Hello.valid_of_isUuid _ hnonce), Hello.helloType, Option.getD_some,
    handleControlChannelHello, Hello.digest]

theorem handleDataIn_create (h : c.onMessage = .waitServerCmd) {rest : Bytes}
    (ha : attemptBytes (c.inputBuffer ++ chunk) =
      (some (ControlChannelCmd.serializeAsString ⟨some .createDataChannel⟩), rest)) :
    c.handleDataIn pb chunk = (some c.id, { c with inputBuffer := rest }) := by
  simp only [handleDataIn, handleMessage, h, waitServerCmd, ha,
    pb.parseControlChannelCmd_serialize, ControlChannelCmd.controlChannelCmd, Option.getD_some,
    handleCmdCreateDatachannel]

end ReadEvent

/-- After the handshake the client waits for the greeting of the server. -/
def greeted (args : CControlChannelArgs) : CControlChannel :=
  ((new [] args).doControlChannelHandshake).2

/-- Greeting and command in two read events: the data channel is created. -/
theorem created_length_iff_separate :
    (created .wire (greeted ⟨[], 80⟩)
      [headerInstaller (Hello.serializeAsString ⟨some .controlChannelHello, some exampleNonce, none⟩),
        headerInstaller (ControlChannelCmd.serializeAsString ⟨some .createDataChannel⟩)]).length =
      [CCmd.createDataChannel].count .createDataChannel := by
  refine (created_length_iff .wire (greeted ⟨[], 80⟩) rfl rfl _
    (Hello.valid_of_isUuid _ exampleNonce_isUuid) rfl _ _ (by simp [controlPayloads])).mpr ?_
  intro done rest he
  match done with
  | [] =>
    rw [List.nil_append] at he
    subst he
    decide
  | [d] =>
    simp only [List.cons_append, List.nil_append, List.cons.injEq] at he
    obtain ⟨rfl, rfl⟩ := he
    decide
  | [d₁, d₂] =>
    simp only [List.cons_append, List.nil_append, List.cons.injEq] at he
    obtain ⟨rfl, rfl, rfl⟩ := he
    decide
  | d₁ :: d₂ :: d₃ :: done =>
    have := congrArg List.length he
    simp at this

/-- Greeting and command in one read event: the command stays in the buffer. -/
theorem created_length_coalesced :
    (created .wire (greeted ⟨[], 80⟩)
      [frames (controlPayloads ⟨some .controlChannelHello, some exampleNonce, none⟩
        [.createDataChannel])]).length ≠ [CCmd.createDataChannel].count .createDataChannel := by
  obtain ⟨id, hid⟩ := created_waitControlChannelHello .wire
    [frames (controlPayloads ⟨some .controlChannelHello, some exampleNonce, none⟩
      [.createDataChannel])] (greeted ⟨[], 80⟩) rfl
  have hframe := (Hello.valid_of_isUuid .controlChannelHello exampleNonce_isUuid).frameable rfl
  have hbuf : (greeted ⟨[], 80⟩).inputBuffer = [] := rfl
  rw [hid, hbuf]
  simp [Runs.runTotal, readEvent, controlPayloads, hframe.attemptBytes_frame, yields]

end CControlChannel

end NcxTunnel
