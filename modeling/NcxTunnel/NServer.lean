import NcxTunnel.Pool
import NcxTunnel.Protocol

/-!
# The tunnel server

`ncx_server/nserver.cpp`, `ncx_server/scontrolchannel.cpp`,
`ncx_server/bridgecloser.cpp`, with what they use of `network/connection.cpp` and
`network/server.cpp`.  One thread runs the loop, so a handler runs to its end,
closing included.

Connections and bridges are referred to by name.  A `std::weak_ptr` can be locked
as long as a pool, a queue of waiting visitors, a control channel or a function
on the call stack still holds the object.  A bridge is named by its UUID, so two
bridges of one channel are taken to have drawn different ones.  What the kernel and
the UUID generator decide is part of the event; `accept(2)` is taken to succeed.

A fatal error of `write(2)` returns to the handler, unless it is `EPIPE`: SIGPIPE
comes with that, and as nothing handles or ignores it the process ends.
-/

namespace NcxTunnel

inductive ServerRef where
  | ncxAcceptor
  | proxy (nonce : Bytes)
deriving Repr, DecidableEq

/-- `on_message_` of a connection. -/
inductive MessageHandle where
  | unset
  | handleNewConnection
  | forward (peer : Obj)
deriving Repr, DecidableEq

structure BridgeRef where
  nonce : Bytes
  bridgeId : Bytes
deriving Repr, DecidableEq

structure Connection where
  connId : ConnId
  state : ConnectionState
  /-- readable bytes of `input_buffer` -/
  inputBuffer : Bytes
  onMessage : MessageHandle
  /-- whose `disconnectHandle` is `on_close_` -/
  server : ServerRef
  noticeOnClose : Option BridgeRef
  isEpolled : Bool
  /-- some `ncx_client_conn_` refers to it -/
  isControl : Bool
  /-- bytes passed to `Send` so far -/
  sent : Bytes
  /-- what `sent` was at each call of `on_close_` -/
  closedAt : List Bytes
deriving Repr, DecidableEq

/-- Both ends are held weakly. -/
structure BridgeCloser where
  bridgeInside : Obj
  bridgeOutside : Obj
deriving Repr, DecidableEq

structure SControlChannel where
  ncxClientConn : Obj
  proxyPort : UInt16
  waitHandleVisitors : List Obj
  bridgeClosers : Bytes → Option BridgeCloser
  /-- all visitors accepted, oldest first -/
  accepted : List Obj
  /-- visitor and data channel of every data hello handled, oldest first -/
  bridged : List (Obj × Obj)

/-- `drawn` are the UUIDs drawn so far, `sends` is the number of calls of `Send`. -/
structure NServer where
  conns : Obj → Connection
  pools : ServerRef → Connections
  scMap : Bytes → Option SControlChannel
  boundPorts : List UInt16
  drawn : List Bytes
  sends : ℕ

inductive Fault where
  /-- `errif` calls `exit(1)` -/
  | exit
  | outOfRange
  | emptyQueue
  | brokenPipe
deriving Repr, DecidableEq

/-- What the environment decides while an event is handled. -/
structure Answers where
  uuid : Bytes
  /-- whether the write of the n-th `Send` meets a fatal error -/
  writeFails : ℕ → Bool
  /-- whether that error is `EPIPE` -/
  brokenPipe : ℕ → Bool
  /-- `bind` or `listen` fails for a reason outside this process -/
  bindRefused : Bool
  ephemeralPort : UInt16

def Answers.calm (uuid : Bytes) : Answers := ⟨uuid, fun _ => false, fun _ => false, false, 0⟩

/-- The write of the n-th `Send` raises SIGPIPE. -/
def Answers.breaks (a : Answers) (n : ℕ) : Bool := a.writeFails n && a.brokenPipe n

/-- What functions on the call stack hold by `std::shared_ptr`. -/
structure Frame where
  conns : List Obj
  bridges : List Bytes

/-- How a call of `ReadNonBlocking` ends, after the data it has read. -/
inductive ReadEnd where
  | again
  /-- end of file or a fatal error -/
  | closed
deriving Repr, DecidableEq

/-- An object that has not been made yet. -/
def Connection.none : Connection where
  connId := 0
  state := .connecting
  inputBuffer := []
  onMessage := .unset
  server := .ncxAcceptor
  noticeOnClose := Option.none
  isEpolled := false
  isControl := false
  sent := []
  closedAt := []

namespace NServer

def new (port : UInt16) : NServer where
  conns _ := .none
  pools _ _ := none
  scMap _ := none
  boundPorts := [port]
  drawn := []
  sends := 0

def modifyConn (s : NServer) (o : Obj) (f : Connection → Connection) : NServer :=
  { s with conns := Function.update s.conns o (f (s.conns o)) }

def modifyChannel (s : NServer) (nonce : Bytes) (f : SControlChannel → SControlChannel) : NServer :=
  { s with scMap := Function.update s.scMap nonce ((s.scMap nonce).map f) }

def drawUuid (s : NServer) (uuid : Bytes) : NServer := { s with drawn := s.drawn ++ [uuid] }

/-- The visitor is in the queue of the channel it came through. -/
def waiting (s : NServer) (o : Obj) : Bool :=
  match (s.conns o).server with
  | .ncxAcceptor => false
  | .proxy nonce => (s.scMap nonce).any fun ch => o ∈ ch.waitHandleVisitors

def inPool (s : NServer) (o : Obj) : Bool :=
  s.pools (s.conns o).server (s.conns o).connId = some o

/-- `weak_ptr::lock` succeeds. -/
def lock (s : NServer) (fr : Frame) (o : Obj) : Bool :=
  s.inPool o || s.waiting o || (s.conns o).isControl || decide (o ∈ fr.conns)

def bridge (s : NServer) (ref : BridgeRef) : Option BridgeCloser :=
  (s.scMap ref.nonce).bind fun ch => ch.bridgeClosers ref.bridgeId

/-! ## Closing -/

/-- `Server::disconnectHandle`, which ends in `ConnectionConstructor`. -/
def disconnectHandle (s : NServer) (o : Obj) : NServer :=
  let c := s.conns o
  { s with
    pools := Function.update s.pools c.server ((s.pools c.server).erase c.connId)
    conns := Function.update s.conns o { c with
      state := if c.state = .connected then .disconnected else c.state
      isEpolled := false
      closedAt := c.closedAt ++ [c.sent] } }

def setState (s : NServer) (o : Obj) (st : ConnectionState) : NServer :=
  s.modifyConn o fun c => { c with state := st }

def eraseBridgeCloser (s : NServer) (ref : BridgeRef) : NServer :=
  s.modifyChannel ref.nonce fun ch =>
    { ch with bridgeClosers := Function.update ch.bridgeClosers ref.bridgeId none }

/-- `Connection::force_close`, with `handle_close` as a parameter. -/
def forceCloseWith (close : NServer → Obj → NServer) (s : NServer) (o : Obj) : NServer :=
  if (s.conns o).state = .connected ∨ (s.conns o).state = .disconnecting then
    close (s.setState o .disconnecting) o
  else s

/-- `~BridgeCloser`. -/
def destroyBridgeWith (close : Frame → NServer → Obj → NServer) (fr : Frame) (s : NServer)
    (b : BridgeCloser) : NServer :=
  let forceClose (s : NServer) (o : Obj) : NServer :=
    if s.lock fr o then forceCloseWith (close { fr with conns := o :: fr.conns }) s o else s
  forceClose (forceClose s b.bridgeInside) b.bridgeOutside

/-- The close notice: `cut_off_bridge` if the bridge still exists. -/
def noticeWith (close : Frame → NServer → Obj → NServer) (fr : Frame) (s : NServer)
    (ref : BridgeRef) : NServer :=
  match s.bridge ref with
  | none => s
  | some b =>
      let s := s.eraseBridgeCloser ref
      -- a bridge that is still being set up lives on in the frame that does it
      if ref.bridgeId ∈ fr.bridges then s else destroyBridgeWith close fr s b

/-- `Connection::handle_close`.  Every level of the recursion removes a bridge. -/
def handleCloseFuel : ℕ → Frame → NServer → Obj → NServer
  | 0, _, s, _ => s
  | fuel + 1, fr, s, o =>
      if (s.conns o).state = .disconnected then s
      else
        let s := s.disconnectHandle o
        let s := match (s.conns o).noticeOnClose with
          | none => s
          | some ref => noticeWith (handleCloseFuel fuel) fr s ref
        s.setState o .disconnected

/-- Every bridge has drawn a UUID, so this depth is never exceeded. -/
def handleClose (s : NServer) (fr : Frame) (o : Obj) : NServer :=
  handleCloseFuel (s.drawn.length + 1) fr s o

/-! ## Sending and forwarding -/

variable (pb : Protobuf) (a : Answers)

/-- The message goes through the output buffer to the kernel. -/
def logSend (s : NServer) (o : Obj) (msg : Bytes) : NServer :=
  { s.modifyConn o fun c => { c with sent := c.sent ++ msg } with sends := s.sends + 1 }

/-- `Connection::Send` of a non-empty message, whose write does not raise SIGPIPE. -/
def send (s : NServer) (fr : Frame) (o : Obj) (msg : Bytes) : NServer :=
  if a.writeFails s.sends then (s.logSend o msg).handleClose fr o else s.logSend o msg

/-- `s'` if none of the writes since `s` has raised SIGPIPE. -/
def outlives (s s' : NServer) : Except Fault NServer :=
  if (List.range' s.sends (s'.sends - s.sends)).any a.breaks then .error .brokenPipe else .ok s'

def forward (s : NServer) (fr : Frame) (o peer : Obj) : NServer :=
  if (s.conns o).inputBuffer ≠ [] ∧ s.lock fr peer then
    let msg := (s.conns o).inputBuffer
    let fr := { fr with conns := peer :: fr.conns }
    (s.modifyConn o fun c => { c with inputBuffer := [] }).send a fr peer msg
  else s

/-! ## Greetings -/

def controlHello (nonce : Bytes) : Hello := ⟨some .controlChannelHello, some nonce, none⟩

def createDataChannel : ControlChannelCmd := ⟨some .createDataChannel⟩

def startForwardTcp : DataChannelCmd := ⟨some .startForwardTcp⟩

/-- The address is in use by a listener of this process, or the kernel says no. -/
def bindFails (s : NServer) (port : UInt16) : Prop :=
  port ≠ 0 ∧ port ∈ s.boundPorts ∨ a.bindRefused

instance (s : NServer) (port : UInt16) : Decidable (s.bindFails a port) :=
  inferInstanceAs (Decidable (_ ∨ _))

/-- `sc_map_->emplace` of a new control channel. -/
def emplaceChannel (s : NServer) (nonce : Bytes) (origin : Obj) (port : UInt16) : NServer :=
  if (s.scMap nonce).isSome then s
  else
    { s.modifyConn origin fun c => { c with isControl := true } with
      scMap := Function.update s.scMap nonce (some ⟨origin, port, [], fun _ => none, [], []⟩)
      boundPorts := port :: s.boundPorts }

def handleControlChannelHello (s : NServer) (fr : Frame) (origin : Obj) (_serviceName : Bytes)
    (proxyPort : UInt16) : Except Fault NServer :=
  let nonce := a.uuid
  let s := s.drawUuid nonce
  if a.breaks s.sends then .error .brokenPipe
  else
    let s := s.send a fr origin (headerInstaller (controlHello nonce).serializeAsString)
    -- the listener is made after the answer has been sent
    if s.bindFails a proxyPort then .error .exit
    else .ok (s.emplaceChannel nonce origin (if proxyPort = 0 then a.ephemeralPort else proxyPort))

/-- `pop_visitor`, with a note of whom the visitor is for. -/
def popVisitor (s : NServer) (nonce : Bytes) (visitor origin : Obj) (rest : List Obj) : NServer :=
  s.modifyChannel nonce fun ch =>
    { ch with waitHandleVisitors := rest, bridged := ch.bridged ++ [(visitor, origin)] }

/-- `register_bridge_closer`, which is an `emplace`.  For a UUID that repeats, the
source destroys the new closer at the end of the handler and cuts the new bridge with
it: runs are taken to have none. -/
def registerBridgeCloser (s : NServer) (ref : BridgeRef) (b : BridgeCloser) : NServer :=
  s.modifyChannel ref.nonce fun ch =>
    let b := (ch.bridgeClosers ref.bridgeId).getD b
    { ch with bridgeClosers := Function.update ch.bridgeClosers ref.bridgeId (some b) }

/-- Message handles, close notices and the registration of a new bridge. -/
def buildBridge (s : NServer) (ref : BridgeRef) (visitor origin : Obj) : NServer :=
  let s := s.modifyConn visitor fun c => { c with onMessage := .forward origin }
  let s := s.modifyConn origin fun c => { c with onMessage := .forward visitor }
  let s := s.modifyConn visitor fun c => { c with noticeOnClose := some ref }
  let s := s.modifyConn origin fun c => { c with noticeOnClose := some ref }
  s.registerBridgeCloser ref ⟨visitor, origin⟩

/-- The last reference of the frame goes: a bridge cut off meanwhile is destroyed now. -/
def releaseBridge (s : NServer) (fr : Frame) (ref : BridgeRef) (b : BridgeCloser) : NServer :=
  match s.bridge ref with
  | some _ => s
  | none => destroyBridgeWith (fun fr s o => s.handleClose fr o) fr s b

/-- `visitor->handle_message()` once its handle is the forwarding lambda. -/
def flush (s : NServer) (fr : Frame) (visitor : Obj) : NServer :=
  match (s.conns visitor).onMessage with
  | .forward peer => s.forward a fr visitor peer
  | .unset => s
  | .handleNewConnection => s

def handleDataChannelHello (s : NServer) (fr : Frame) (origin : Obj) (nonce : Bytes) :
    Except Fault NServer :=
  match s.scMap nonce with
  | none => .error .outOfRange
  | some ch =>
      match ch.waitHandleVisitors with
      | [] => .error .emptyQueue
      | visitor :: rest =>
          let ref : BridgeRef := ⟨nonce, a.uuid⟩
          let s₁ := ((s.popVisitor nonce visitor origin rest).drawUuid a.uuid).buildBridge ref
            visitor origin
          let held : Frame := ⟨visitor :: fr.conns, a.uuid :: fr.bridges⟩
          let s₂ := s₁.send a held origin (headerInstaller startForwardTcp.serializeAsString)
          -- the visitor may have sent data before the bridge existed
          let s₃ := s₂.flush a held visitor
          s.outlives a
            (s₃.releaseBridge { fr with conns := visitor :: fr.conns } ref ⟨visitor, origin⟩)

def handleNewConnection (s : NServer) (fr : Frame) (origin : Obj) : Except Fault NServer :=
  match attemptBytes (s.conns origin).inputBuffer with
  | (none, buf) => .ok (s.modifyConn origin fun c => { c with inputBuffer := buf })
  | (some recvMsg, buf) =>
      let s := s.modifyConn origin fun c => { c with inputBuffer := buf }
      -- a message that does not parse is reported and used as it is
      let hello := (pb.parseHello recvMsg).2
      match hello.helloType with
      | .controlChannelHello =>
          s.handleControlChannelHello a fr origin hello.controlChannelHelloContent.serviceName
            hello.controlChannelHelloContent.proxyPort.toUInt32.toUInt16
      | .dataChannelHello => s.handleDataChannelHello a fr origin hello.digest
      | .unnamed _ => .ok s

/-! ## Events -/

def handleMessage (s : NServer) (fr : Frame) (o : Obj) : Except Fault NServer :=
  match (s.conns o).onMessage with
  | .unset => .ok s
  | .handleNewConnection => s.handleNewConnection pb a fr o
  | .forward peer => s.outlives a (s.forward a fr o peer)

def readNonBlocking (s : NServer) (fr : Frame) (o : Obj) (reads : List Bytes) (e : ReadEnd) :
    NServer :=
  let s := s.modifyConn o fun c => { c with inputBuffer := c.inputBuffer ++ reads.flatten }
  match e with
  | .again => s
  | .closed => s.handleClose fr o

/-- The channel of the connection holds it while its event is handled. -/
def handleDataIn (s : NServer) (o : Obj) (reads : List Bytes) (e : ReadEnd) :
    Except Fault NServer :=
  (s.readNonBlocking ⟨[o], []⟩ o reads e).handleMessage pb a ⟨[o], []⟩ o

def handleNewOutsideConnection (s : NServer) (fr : Frame) (nonce : Bytes) (ch : SControlChannel)
    (o : Obj) : NServer :=
  let s := s.modifyChannel nonce fun ch =>
    { ch with waitHandleVisitors := ch.waitHandleVisitors ++ [o], accepted := ch.accepted ++ [o] }
  s.send a fr ch.ncxClientConn (headerInstaller createDataChannel.serializeAsString)

/-- A connection as `newConnectionHandle` sets it up. -/
def newConnection (srv : ServerRef) (id : ConnId) : Connection :=
  { Connection.none with
    connId := id
    state := .connected
    server := srv
    isEpolled := true
    onMessage := match srv with
      | .ncxAcceptor => .handleNewConnection
      | .proxy _ => .unset }

/-- `Server::newConnectionHandle`: `on_connect_` runs before the pool gets the connection. -/
def newConnectionHandle (s : NServer) (srv : ServerRef) (o : Obj) (id : ConnId) : NServer :=
  let s := s.modifyConn o fun _ => newConnection srv id
  let s := match srv with
    | .ncxAcceptor => s
    | .proxy nonce => match s.scMap nonce with
      | none => s
      | some ch => s.handleNewOutsideConnection a ⟨[o], []⟩ nonce ch o
  { s with pools := Function.update s.pools srv ((s.pools srv).assign id o) }

inductive Event where
  | accept (srv : ServerRef) (o : Obj) (id : ConnId) (a : Answers)
  | readable (o : Obj) (reads : List Bytes) (e : ReadEnd) (a : Answers)

def listening (s : NServer) : ServerRef → Bool
  | .ncxAcceptor => true
  | .proxy nonce => (s.scMap nonce).isSome

/-- An accept makes a new object.  A read event is for a connection that still
exists.  One that an earlier handler of the same batch has destroyed is dropped here;
the loop would call its freed channel, and what that does is not modelled. -/
def step (s : NServer) : Event → Except Fault NServer
  | .accept srv o id a =>
      if s.listening srv ∧ (s.conns o).state = .connecting then
        s.outlives a (s.newConnectionHandle a srv o id)
      else .ok s
  | .readable o reads e a =>
      if (s.conns o).state ≠ .connecting ∧ s.lock ⟨[], []⟩ o then s.handleDataIn pb a o reads e
      else .ok s

def run (s : NServer) (evs : List Event) : Except Fault NServer := evs.foldlM (step pb) s

def Reachable (port : UInt16) (s : NServer) : Prop := ∃ evs, run pb (new port) evs = .ok s

/-- A control channel, a visitor and the data channel made for it. -/
def exampleEvents : List Event :=
  let hello (t : HelloType) := headerInstaller (Hello.serializeAsString ⟨some t, some exampleNonce, none⟩)
  [.accept .ncxAcceptor 0 1 (.calm []),
    .readable 0 [hello .controlChannelHello] .again (.calm exampleNonce),
    .accept (.proxy exampleNonce) 1 1 (.calm []),
    .accept .ncxAcceptor 2 2 (.calm []),
    .readable 2 [hello .dataChannelHello] .again (.calm (List.replicate 36 49))]

def exampleTunnel : NServer := (run .wire (new 8080) exampleEvents).toOption.getD (new 8080)

/-- A client has connected and its first bytes are in the buffer. -/
def firstClient (input : Bytes) : NServer :=
  ((new 8080).newConnectionHandle (.calm []) .ncxAcceptor 0 1).modifyConn 0 fun c =>
    { c with inputBuffer := input }

/-! ## What a greeting changes -/

section Preserve

variable {α : Type} (f : NServer → α) (s : NServer) (fr : Frame) (o : Obj)

/-- What the single actions of closing leave alone. -/
structure Untouched : Prop where
  disconnectHandle : ∀ s o, f (s.disconnectHandle o) = f s
  setState : ∀ s o st, f (s.setState o st) = f s
  eraseBridgeCloser : ∀ s ref, f (s.eraseBridgeCloser ref) = f s

variable {f} (hf : Untouched f)

include hf in
theorem Untouched.forceCloseWith {close : NServer → Obj → NServer}
    (h : ∀ s o, f (close s o) = f s) : f (forceCloseWith close s o) = f s := by
  unfold NServer.forceCloseWith
  split
  · rw [h, hf.setState]
  · rfl

include hf in
theorem Untouched.destroyBridgeWith {close : Frame → NServer → Obj → NServer}
    (h : ∀ fr s o, f (close fr s o) = f s) (b : BridgeCloser) :
    f (destroyBridgeWith close fr s b) = f s := by
  have hone : ∀ (s : NServer) o, f (if s.lock fr o then
      NServer.forceCloseWith (close { fr with conns := o :: fr.conns }) s o else s) = f s := by
    intro s o
    split
    · exact hf.forceCloseWith s o (h _)
    · rfl
  rw [NServer.destroyBridgeWith, hone, hone]

include hf in
theorem Untouched.handleCloseFuel (fuel : ℕ) : f (handleCloseFuel fuel fr s o) = f s := by
  induction fuel generalizing fr s o with
  | zero => rfl
  | succ fuel ih =>
    rw [NServer.handleCloseFuel]
    split
    · rfl
    · rw [hf.setState]
      split
      · exact hf.disconnectHandle s o
      · unfold noticeWith
        split
        · exact hf.disconnectHandle s o
        · split
          · rw [hf.eraseBridgeCloser, hf.disconnectHandle]
          · rw [hf.destroyBridgeWith _ _ (fun fr s o => ih s fr o), hf.eraseBridgeCloser,
              hf.disconnectHandle]

include hf in
theorem Untouched.handleClose : f (s.handleClose fr o) = f s := hf.handleCloseFuel s fr o _

end Preserve

theorem untouched_boundPorts : Untouched NServer.boundPorts :=
  ⟨fun _ _ => rfl, fun _ _ _ => rfl, fun _ _ => rfl⟩

theorem send_boundPorts (s : NServer) (fr : Frame) (o : Obj) (msg : Bytes) :
    (s.send a fr o msg).boundPorts = s.boundPorts := by
  unfold send
  split
  · exact untouched_boundPorts.handleClose _ _ _
  · rfl

section Outlives

variable {a} {s s' s'' : NServer}

theorem outlives_eq_ok_iff : s.outlives a s' = .ok s'' ↔
    s' = s'' ∧ ∀ n, s.sends ≤ n → n < s'.sends → a.breaks n = false := by
  have hnone : (List.range' s.sends (s'.sends - s.sends)).any a.breaks = false ↔
      ∀ n, s.sends ≤ n → n < s'.sends → a.breaks n = false := by
    rw [List.any_eq_false]
    simp only [List.mem_range'_1, Bool.not_eq_true, and_imp]
    refine forall_congr' fun n => forall_congr' fun hle => ?_
    have hlt : n < s.sends + (s'.sends - s.sends) ↔ n < s'.sends := by omega
    rw [hlt]
  rw [← hnone, outlives]
  split
  · rename_i hbreaks
    simp [hbreaks]
  · rename_i hbreaks
    simp [hbreaks]

theorem eq_of_outlives (h : s.outlives a s' = .ok s'') : s' = s'' := (outlives_eq_ok_iff.mp h).1

theorem breaks_of_writes (hw : ∀ n, a.writeFails n = false) (n : ℕ) : a.breaks n = false := by
  rw [Answers.breaks, hw, Bool.false_and]

theorem outlives_of_writes (hw : ∀ n, a.writeFails n = false) (s s' : NServer) :
    s.outlives a s' = .ok s' :=
  outlives_eq_ok_iff.mpr ⟨rfl, fun n _ _ => breaks_of_writes hw n⟩

end Outlives

theorem handleControlChannelHello_isOk_iff (s : NServer) (fr : Frame) (o : Obj) (name : Bytes)
    (port : UInt16) : (∃ s', s.handleControlChannelHello a fr o name port = .ok s') ↔
      a.breaks s.sends = false ∧ ¬s.bindFails a port := by
  unfold handleControlChannelHello
  dsimp only
  generalize hs' : send a _ fr o _ = s'
  have hports : s'.boundPorts = s.boundPorts := by
    rw [← hs', send_boundPorts]
    rfl
  have hsends : (s.drawUuid a.uuid).sends = s.sends := rfl
  have hb : s'.bindFails a port ↔ s.bindFails a port := by rw [bindFails, bindFails, hports]
  rw [hsends, ← hb]
  cases hbreaks : a.breaks s.sends with
  | true => simp
  | false =>
    by_cases hfail : s'.bindFails a port
    · simp [hfail]
    · simp [hfail]

theorem handleDataChannelHello_isOk_of_writes (hw : ∀ n, a.writeFails n = false) (s : NServer)
    (fr : Frame) (o : Obj) (nonce : Bytes) : (∃ s', s.handleDataChannelHello a fr o nonce = .ok s') ↔
      ∃ ch, s.scMap nonce = some ch ∧ ch.waitHandleVisitors ≠ [] := by
  unfold handleDataChannelHello
  cases hch : s.scMap nonce with
  | none => simp
  | some ch => cases hq : ch.waitHandleVisitors <;> simp [hq, outlives_of_writes hw]

theorem emplaceChannel_boundPorts {s : NServer} {nonce : Bytes} {origin : Obj}
    {port port' : UInt16} (h : (s.emplaceChannel nonce origin port).boundPorts = port' :: s.boundPorts) :
    port = port' := by
  unfold emplaceChannel at h
  split at h
  · exact absurd (congrArg List.length h) (by simp)
  · exact List.head_eq_of_cons_eq h

theorem handleControlChannelHello_boundPorts {a : Answers} {s s' : NServer} {fr : Frame} {o : Obj}
    {name : Bytes} {proxyPort port : UInt16}
    (h : s.handleControlChannelHello a fr o name proxyPort = .ok s')
    (hbound : s'.boundPorts = port :: s.boundPorts) :
    port = if proxyPort = 0 then a.ephemeralPort else proxyPort := by
  unfold handleControlChannelHello at h
  dsimp only at h
  split at h
  · cases h
  · split at h
    · cases h
    · cases h
      refine (emplaceChannel_boundPorts (hbound.trans ?_)).symm
      rw [send_boundPorts]
      rfl

theorem handleControlChannelHello_listens {a : Answers} {s : NServer} {fr : Frame} {o : Obj}
    {name : Bytes} {port : UInt16} (hw : ∀ n, a.writeFails n = false)
    (hfresh : s.scMap a.uuid = none) (hfree : ¬s.bindFails a port) :
    ∃ s', s.handleControlChannelHello a fr o name port = .ok s' ∧
      s'.boundPorts = (if port = 0 then a.ephemeralPort else port) :: s.boundPorts := by
  unfold handleControlChannelHello
  simp only [send, hw, breaks_of_writes hw, Bool.false_eq_true, if_false]
  refine ⟨_, if_neg hfree, ?_⟩
  rw [emplaceChannel, if_neg]
  · rfl
  · simp [logSend, modifyConn, drawUuid, hfresh]

theorem forward_boundPorts (s : NServer) (fr : Frame) (o peer : Obj) :
    (s.forward a fr o peer).boundPorts = s.boundPorts := by
  unfold forward
  split
  · exact send_boundPorts a _ _ _ _
  · rfl

theorem flush_boundPorts (s : NServer) (fr : Frame) (o : Obj) :
    (s.flush a fr o).boundPorts = s.boundPorts := by
  unfold flush
  split
  · exact forward_boundPorts a _ _ _ _
  · rfl
  · rfl

theorem releaseBridge_boundPorts (s : NServer) (fr : Frame) (ref : BridgeRef) (b : BridgeCloser) :
    (s.releaseBridge fr ref b).boundPorts = s.boundPorts := by
  unfold releaseBridge
  split
  · rfl
  · exact untouched_boundPorts.destroyBridgeWith _ _
      (fun fr s o => untouched_boundPorts.handleClose s fr o) b

theorem handleDataChannelHello_boundPorts {a : Answers} {s s' : NServer} {fr : Frame} {o : Obj}
    {nonce : Bytes} (h : s.handleDataChannelHello a fr o nonce = .ok s') :
    s'.boundPorts = s.boundPorts := by
  unfold handleDataChannelHello at h
  split at h
  · cases h
  · split at h
    · cases h
    · rw [← eq_of_outlives h, releaseBridge_boundPorts, flush_boundPorts, send_boundPorts]
      rfl

end NServer

end NcxTunnel
