import NcxTunnel.BridgeRuns
import NcxTunnel.CControlChannel
import NcxTunnel.DataChannel
import NcxTunnel.Streams

/-!
# Server, clients, visitors and services together

Every TCP connection to the server is a link, known to the server by the same
name once it is accepted.  A link delivers bytes in order: what one side has sent
and how much of it the other side has read.  One read event takes any number of
bytes that are on their way.  No connection closes, writes take everything,
connects succeed.
-/

namespace NcxTunnel

open Streams

/-- A control channel of a client, with the links of the data channels it has created. -/
structure ControlEnd where
  channel : CControlChannel
  sent : Bytes
  dataLinks : List Obj

structure DataEnd where
  channel : DataChannel
  service : Bytes
  serviceRead : ℕ

/-- A visitor of the proxy port that belongs to the nonce. -/
structure VisitorEnd where
  nonce : Bytes
  sent : Bytes

inductive Peer where
  | control (c : ControlEnd)
  | data (d : DataEnd)
  | visitor (v : VisitorEnd)

namespace Peer

/-- The bytes sent to the server. -/
def sent : Peer → Bytes
  | control c => c.sent
  | data d => d.channel.toServer
  | visitor v => v.sent

def server : Peer → ServerRef
  | control _ => .ncxAcceptor
  | data _ => .ncxAcceptor
  | visitor v => .proxy v.nonce

/-- The bytes a data end has handed to its service. -/
def delivered? : Peer → Option Bytes
  | control _ => none
  | data d => some d.channel.toService
  | visitor _ => none

end Peer

structure Link where
  peer : Peer
  /-- bytes the server has read -/
  upRead : ℕ
  /-- bytes the other end has read -/
  downRead : ℕ

structure Tunnel where
  server : NServer
  links : Obj → Option Link

inductive Action where
  | openControl (l : Obj) (id : Bytes) (args : CControlChannelArgs)
  | openVisitor (l : Obj) (nonce : Bytes)
  | accept (l : Obj) (id : ConnId)
  | visitorSend (l : Obj) (data : Bytes)
  | serviceSend (l : Obj) (data : Bytes)
  | serverRead (l : Obj) (k : ℕ) (uuid : Bytes) (bindRefused : Bool) (ephemeralPort : UInt16)
  /-- `l'` is the link of the data channel this creates, if it does -/
  | clientRead (l : Obj) (k : ℕ) (l' : Obj)
  | serviceRead (l : Obj) (k : ℕ)

namespace Tunnel

def new (port : UInt16) : Tunnel := ⟨.new port, fun _ => none⟩

def setLink (t : Tunnel) (l : Obj) (link : Link) : Tunnel :=
  { t with links := Function.update t.links l (some link) }

def dataLinks (t : Tunnel) (l : Obj) : List Obj :=
  match t.links l with
  | none => []
  | some link => match link.peer with
    | .control c => c.dataLinks
    | .data _ => []
    | .visitor _ => []

variable (pb : Protobuf)

def openControl (t : Tunnel) (l : Obj) (id : Bytes) (args : CControlChannelArgs) : Tunnel :=
  let (sent, c) := (CControlChannel.new id args).doControlChannelHandshake
  t.setLink l ⟨.control ⟨c, sent, []⟩, 0, 0⟩

/-- A control channel has read; a data channel it creates connects and greets. -/
def controlRead (t : Tunnel) (l : Obj) (link : Link) (c : ControlEnd) (chunk : Bytes) (l' : Obj) :
    Tunnel :=
  let (created, channel) := c.channel.handleDataIn pb chunk
  let downRead := link.downRead + chunk.length
  match created with
  | none => t.setLink l ⟨.control { c with channel := channel }, link.upRead, downRead⟩
  | some nonce =>
      (t.setLink l ⟨.control { c with channel := channel, dataLinks := c.dataLinks ++ [l'] },
        link.upRead, downRead⟩).setLink l' ⟨.data ⟨.new nonce, [], 0⟩, 0, 0⟩

def clientRead (t : Tunnel) (l : Obj) (link : Link) (k : ℕ) (l' : Obj) : Tunnel :=
  let chunk := arriving (t.server.conns l).sent link.downRead k
  match link.peer with
  | .control c => if (t.links l').isSome then t else t.controlRead pb l link c chunk l'
  | .data d => t.setLink l
      ⟨.data { d with channel := d.channel.handleDataIn pb chunk }, link.upRead,
        link.downRead + chunk.length⟩
  | .visitor v => t.setLink l ⟨.visitor v, link.upRead, link.downRead + chunk.length⟩

def serviceSend (t : Tunnel) (l : Obj) (link : Link) (data : Bytes) : Tunnel :=
  match link.peer with
  | .data d =>
      if d.channel.serviceConnected then
        t.setLink l { link with peer := .data { d with service := d.service ++ data } }
      else t
  | .control _ => t
  | .visitor _ => t

def serviceRead (t : Tunnel) (l : Obj) (link : Link) (k : ℕ) : Tunnel :=
  match link.peer with
  | .data d =>
      let chunk := arriving d.service d.serviceRead k
      t.setLink l { link with peer := .data ⟨d.channel.handleServiceIn chunk, d.service,
        d.serviceRead + chunk.length⟩ }
  | .control _ => t
  | .visitor _ => t

def visitorSend (t : Tunnel) (l : Obj) (link : Link) (data : Bytes) : Tunnel :=
  match link.peer with
  | .visitor v => t.setLink l { link with peer := .visitor { v with sent := v.sent ++ data } }
  | .control _ => t
  | .data _ => t

/-- The event of a read that takes at most `k` bytes from the link. -/
def readEvent (l : Obj) (link : Link) (k : ℕ) (a : Answers) : NServer.Event :=
  .readable l [arriving link.peer.sent link.upRead k] .again a

def serverRead (t : Tunnel) (l : Obj) (link : Link) (k : ℕ) (a : Answers) :
    Except Fault Tunnel := do
  let server ← t.server.step pb (readEvent l link k a)
  let chunk := arriving link.peer.sent link.upRead k
  return { t with server := server }.setLink l { link with upRead := link.upRead + chunk.length }

def accept (t : Tunnel) (l : Obj) (link : Link) (id : ConnId) : Except Fault Tunnel := do
  let server ← t.server.step pb (.accept link.peer.server l id (.calm []))
  return { t with server := server }

/-- An action that is not possible in the state does nothing. -/
def step (t : Tunnel) : Action → Except Fault Tunnel
  | .openControl l id args =>
      .ok (if (t.links l).isSome then t else t.openControl l id args)
  | .openVisitor l nonce =>
      .ok (if (t.links l).isSome ∨ ¬t.server.listening (.proxy nonce) then t
        else t.setLink l ⟨.visitor ⟨nonce, []⟩, 0, 0⟩)
  | .accept l id => match t.links l with
      | none => .ok t
      | some link => t.accept pb l link id
  | .visitorSend l data => match t.links l with
      | none => .ok t
      | some link => .ok (t.visitorSend l link data)
  | .serviceSend l data => match t.links l with
      | none => .ok t
      | some link => .ok (t.serviceSend l link data)
  | .serverRead l k uuid bindRefused ephemeralPort => match t.links l with
      | none => .ok t
      | some link =>
          if (t.server.conns l).state = .connecting then .ok t
          else t.serverRead pb l link k ⟨uuid, fun _ => false, fun _ => false, bindRefused, ephemeralPort⟩
  | .clientRead l k l' => match t.links l with
      | none => .ok t
      | some link => .ok (t.clientRead pb l link k l')
  | .serviceRead l k => match t.links l with
      | none => .ok t
      | some link => .ok (t.serviceRead l link k)

/-- What an action does where it is possible, and nothing where it is not. -/
inductive Does (t : Tunnel) : Action → Tunnel → Prop where
  | nothing (act : Action) : Does t act t
  | openControl {l : Obj} (hl : t.links l = none) (id : Bytes) (args : CControlChannelArgs) :
      Does t (.openControl l id args) (t.openControl l id args)
  | openVisitor {l : Obj} {nonce : Bytes} (hl : t.links l = none)
      (hlistens : t.server.listening (.proxy nonce) = true) :
      Does t (.openVisitor l nonce) (t.setLink l ⟨.visitor ⟨nonce, []⟩, 0, 0⟩)
  | accept {l : Obj} {link : Link} {id : ConnId} {t' : Tunnel} (hl : t.links l = some link)
      (hok : t.accept pb l link id = .ok t') : Does t (.accept l id) t'
  | visitorSend {l : Obj} {link : Link} (hl : t.links l = some link) (data : Bytes) :
      Does t (.visitorSend l data) (t.visitorSend l link data)
  | serviceSend {l : Obj} {link : Link} (hl : t.links l = some link) (data : Bytes) :
      Does t (.serviceSend l data) (t.serviceSend l link data)
  | serverRead {l : Obj} {link : Link} {k : ℕ} {uuid : Bytes} {bindRefused : Bool}
      {ephemeralPort : UInt16} {t' : Tunnel} (hl : t.links l = some link)
      (hst : (t.server.conns l).state ≠ .connecting)
      (hok : t.serverRead pb l link k
        ⟨uuid, fun _ => false, fun _ => false, bindRefused, ephemeralPort⟩ = .ok t') :
      Does t (.serverRead l k uuid bindRefused ephemeralPort) t'
  | clientRead {l : Obj} {link : Link} (hl : t.links l = some link) (k : ℕ) (l' : Obj) :
      Does t (.clientRead l k l') (t.clientRead pb l link k l')
  | serviceRead {l : Obj} {link : Link} (hl : t.links l = some link) (k : ℕ) :
      Does t (.serviceRead l k) (t.serviceRead l link k)

variable {pb} in
theorem step_does {t t' : Tunnel} {act : Action} (h : t.step pb act = .ok t') :
    t.Does pb act t' := by
  cases act with
  | openControl l id args =>
    simp only [step, Except.ok.injEq] at h
    subst h
    split
    · exact .nothing _
    · rename_i hfree
      exact .openControl (by simpa using hfree) id args
  | openVisitor l nonce =>
    simp only [step, Except.ok.injEq] at h
    subst h
    split
    · exact .nothing _
    · rename_i hfree
      rw [not_or, not_not] at hfree
      exact .openVisitor (by simpa using hfree.1) hfree.2
  | accept l id =>
    simp only [step] at h
    split at h
    · exact Except.ok.inj h ▸ .nothing _
    · rename_i hl
      exact .accept hl h
  | visitorSend l data =>
    simp only [step] at h
    split at h
    · exact Except.ok.inj h ▸ .nothing _
    · rename_i hl
      exact Except.ok.inj h ▸ .visitorSend hl data
  | serviceSend l data =>
    simp only [step] at h
    split at h
    · exact Except.ok.inj h ▸ .nothing _
    · rename_i hl
      exact Except.ok.inj h ▸ .serviceSend hl data
  | serverRead l k uuid bindRefused ephemeralPort =>
    simp only [step] at h
    split at h
    · exact Except.ok.inj h ▸ .nothing _
    · rename_i hl
      split at h
      · exact Except.ok.inj h ▸ .nothing _
      · rename_i hst
        exact .serverRead hl hst h
  | clientRead l k l' =>
    simp only [step] at h
    split at h
    · exact Except.ok.inj h ▸ .nothing _
    · rename_i hl
      exact Except.ok.inj h ▸ .clientRead hl k l'
  | serviceRead l k =>
    simp only [step] at h
    split at h
    · exact Except.ok.inj h ▸ .nothing _
    · rename_i hl
      exact Except.ok.inj h ▸ .serviceRead hl k

/-- What is taken for granted: greetings can be serialized, an accept draws an id
that its server does not have, and UUIDs do not repeat. -/
def Granted (t : Tunnel) : Action → Prop
  | .openControl _ _ args => (CControlChannel.controlHello args).Valid
  | .accept l id => ∀ link ∈ t.links l, t.server.pools link.peer.server id = none
  | .serverRead _ _ uuid _ _ => IsUuid uuid ∧ uuid ∉ t.server.drawn
  | .openVisitor _ _ => True
  | .visitorSend _ _ => True
  | .serviceSend _ _ => True
  | .clientRead _ _ _ => True
  | .serviceRead _ _ => True

instance (t : Tunnel) (act : Action) : Decidable (t.Granted act) :=
  match act with
  | .openControl _ _ _ => inferInstanceAs (Decidable (Hello.Valid _))
  | .openVisitor _ _ => isTrue trivial
  | .accept _ _ => inferInstanceAs (Decidable (∀ link ∈ t.links _, _))
  | .visitorSend _ _ => isTrue trivial
  | .serviceSend _ _ => isTrue trivial
  | .serverRead _ _ _ _ _ => inferInstanceAs (Decidable (_ ∧ _))
  | .clientRead _ _ _ => isTrue trivial
  | .serviceRead _ _ => isTrue trivial

def Reachable (port : UInt16) : Tunnel → Prop :=
  Runs.ReachableBy (step pb) Granted (new port)

/-- A visitor says "Hi" in two parts, one of them before it is bridged; the service says "OK". -/
def exampleActions : List Action :=
  let uuid (x : UInt8) : Bytes := List.replicate 36 x
  [.openControl 0 [] ⟨[], 80⟩, .accept 0 1, .serverRead 0 99 exampleNonce false 0,
    .clientRead 0 99 2, .openVisitor 1 exampleNonce, .accept 1 1, .visitorSend 1 [72],
    .serverRead 1 99 (uuid 1) false 0, .clientRead 0 99 2, .accept 2 2,
    .serverRead 2 99 (uuid 2) false 0, .visitorSend 1 [105], .serverRead 1 99 (uuid 3) false 0,
    .clientRead 2 99 3, .serviceSend 2 [79, 75], .serviceRead 2 99,
    .serverRead 2 99 (uuid 4) false 0]

/-- The state after the first `n` of them. -/
def exampleState (n : ℕ) : Tunnel :=
  (Runs.checkedRun (step .wire) Granted (exampleActions.take n) (new 8080)).getD (new 8080)

theorem exampleState_reachable (n : ℕ) : Reachable .wire 8080 (exampleState n) := by
  unfold exampleState
  cases hrun : Runs.checkedRun (step .wire) Granted (exampleActions.take n) (new 8080) with
  | none => exact .refl
  | some t => exact .of_checkedRun .refl hrun

end Tunnel

end NcxTunnel
