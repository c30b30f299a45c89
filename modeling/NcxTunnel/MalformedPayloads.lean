import NcxTunnel.CloseCascade
import NcxTunnel.CControlChannel
import NcxTunnel.DataChannel

/-!
# Payloads that do not parse

All four handlers report a failed `ParseFromString` and go on with the fields that
were set before the failure.  What follows is decided by the enum field; its default
selects the branch that does most.
-/

namespace NcxTunnel

theorem headerInstaller_ne_nil {p : Bytes} (h : p ≠ []) : headerInstaller p ≠ [] := by
  rw [headerInstaller]
  exact List.append_ne_nil_of_right_ne_nil _ h

namespace NServer

section Sent

variable {s : NServer} {a : Answers} {fr : Frame} (p : Obj)

theorem untouched_sent : Untouched fun s => (s.conns p).sent :=
  untouched_field Connection.sent (fun _ _ _ _ => rfl) p

theorem modifyConn_sent (s : NServer) (o : Obj) {f : Connection → Connection}
    (hf : ∀ c, (f c).sent = c.sent) : ((s.modifyConn o f).conns p).sent = (s.conns p).sent :=
  s.modifyConn_field Connection.sent hf p

theorem send_sent (s : NServer) (o : Obj) (msg : Bytes) :
    ((s.send a fr o msg).conns p).sent =
      if p = o then (s.conns o).sent ++ msg else (s.conns p).sent := by
  have hlog : ((s.logSend o msg).conns p).sent =
      if p = o then (s.conns o).sent ++ msg else (s.conns p).sent := by
    simp only [logSend, modifyConn_conns]
    split <;> rfl
  rw [send]
  split
  · rw [(untouched_sent p).handleClose]
    exact hlog
  · exact hlog

theorem forward_sent_prefix (s : NServer) (o peer : Obj) :
    (s.conns p).sent <+: ((s.forward a fr o peer).conns p).sent := by
  rw [forward]
  split
  · have hsame : ∀ q, ((s.modifyConn o fun c => { c with inputBuffer := [] }).conns q).sent =
        (s.conns q).sent := fun q => modifyConn_sent q s o fun _ => rfl
    rw [send_sent, hsame, hsame]
    split
    · rename_i hp
      rw [hp]
      exact List.prefix_append _ _
    · exact List.prefix_rfl
  · exact List.prefix_rfl

theorem flush_sent_prefix (a : Answers) (fr : Frame) (s : NServer) (visitor : Obj) :
    (s.conns p).sent <+: ((s.flush a fr visitor).conns p).sent := by
  rw [flush]
  split
  · exact forward_sent_prefix p s visitor _
  · exact List.prefix_rfl
  · exact List.prefix_rfl

theorem releaseBridge_sent (s : NServer) (ref : BridgeRef) (b : BridgeCloser) :
    ((s.releaseBridge fr ref b).conns p).sent = (s.conns p).sent := by
  rw [releaseBridge]
  split
  · rfl
  · exact (untouched_sent p).destroyBridgeWith s fr (fun fr s o => (untouched_sent p).handleClose s fr o)
      b

end Sent

section Greeting

variable {s s' : NServer} {a : Answers} {fr : Frame} {o : Obj}

/-- A control hello that does not end the process is answered. -/
theorem handleControlChannelHello_sent_ne {name : Bytes} {port : UInt16}
    (h : s.handleControlChannelHello a fr o name port = .ok s') :
    (s'.conns o).sent ≠ (s.conns o).sent := by
  have hmsg : headerInstaller (controlHello a.uuid).serializeAsString ≠ [] := by
    apply headerInstaller_ne_nil
    simp [controlHello, Hello.serializeAsString, Hello.fields, optionalField,
      WireFormat.Field.encode_ne_nil]
  unfold handleControlChannelHello at h
  dsimp only at h
  split at h
  · cases h
  split at h
  · cases h
  · rw [Except.ok.injEq] at h
    have hsent : (s'.conns o).sent =
        (s.conns o).sent ++ headerInstaller (controlHello a.uuid).serializeAsString := by
      rw [← h, emplaceChannel]
      split
      · rw [send_sent, if_pos rfl]
        rfl
      · simp only [modifyConn_conns, if_true]
        rw [send_sent, if_pos rfl]
        rfl
    rw [hsent]
    exact fun he => hmsg (List.append_right_eq_self.mp he)

theorem buildBridge_sent (s : NServer) (ref : BridgeRef) (visitor origin p : Obj) :
    ((s.buildBridge ref visitor origin).conns p).sent = (s.conns p).sent := by
  have hregister : ∀ (s : NServer) b, (s.registerBridgeCloser ref b).conns = s.conns :=
    fun _ _ => rfl
  rw [buildBridge, hregister]
  rw [modifyConn_sent, modifyConn_sent, modifyConn_sent, modifyConn_sent]
  all_goals exact fun _ => rfl

/-- A data hello that does not end the process is answered with START. -/
theorem handleDataChannelHello_sent_ne {nonce : Bytes}
    (h : s.handleDataChannelHello a fr o nonce = .ok s') :
    (s'.conns o).sent ≠ (s.conns o).sent := by
  have hmsg : headerInstaller startForwardTcp.serializeAsString ≠ [] :=
    headerInstaller_ne_nil (frameable_enumField DCmd.startForwardTcp).ne_nil
  unfold handleDataChannelHello at h
  cases hch : s.scMap nonce with
  | none => simp [hch] at h
  | some ch =>
    cases hq : ch.waitHandleVisitors with
    | nil => simp [hch, hq] at h
    | cons visitor rest =>
      simp only [hch, hq] at h
      rw [← eq_of_outlives h, releaseBridge_sent]
      -- START is in front of whatever the visitor's data adds, so the length has grown
      intro he
      have hpre := flush_sent_prefix o a ⟨visitor :: fr.conns, a.uuid :: fr.bridges⟩
        ((((s.popVisitor nonce visitor o rest).drawUuid a.uuid).buildBridge ⟨nonce, a.uuid⟩ visitor
          o).send a ⟨visitor :: fr.conns, a.uuid :: fr.bridges⟩ o
            (headerInstaller startForwardTcp.serializeAsString)) visitor
      rw [he, send_sent, if_pos rfl, buildBridge_sent] at hpre
      have hlen := hpre.length_le
      rw [List.length_append] at hlen
      have hpos := List.length_pos_iff.mpr hmsg
      have hsame : (((s.popVisitor nonce visitor o rest).drawUuid a.uuid).conns o).sent =
          (s.conns o).sent := rfl
      rw [hsame] at hlen
      omega

/-- Taking the frame out of the buffer is all that happens if the greeting is of
neither known type. -/
theorem handleNewConnection_consumes_iff (pb : Protobuf) (a : Answers) (s : NServer) (fr : Frame)
    (o : Obj) {payload rest : Bytes}
    (hframe : attemptBytes (s.conns o).inputBuffer = (some payload, rest)) :
    s.handleNewConnection pb a fr o =
        .ok (s.modifyConn o fun c => { c with inputBuffer := rest }) ↔
      ∃ v, (pb.parseHello payload).2.helloType = .unnamed v := by
  rw [handleNewConnection, hframe]
  dsimp only
  cases ht : (pb.parseHello payload).2.helloType with
  | controlChannelHello =>
    constructor
    · intro h
      exact absurd rfl (handleControlChannelHello_sent_ne h)
    · rintro ⟨v, hv⟩
      cases hv
  | dataChannelHello =>
    constructor
    · intro h
      exact absurd rfl (handleDataChannelHello_sent_ne h)
    · rintro ⟨v, hv⟩
      cases hv
  | unnamed v => exact ⟨fun _ => ⟨v, rfl⟩, fun _ => rfl⟩

end Greeting

end NServer

theorem CControlChannel.waitControlChannelHello_onMessage (pb : Protobuf) {c : CControlChannel}
    {payload rest : Bytes} (hframe : attemptBytes c.inputBuffer = (some payload, rest)) :
    (c.waitControlChannelHello pb).2.onMessage = .waitServerCmd := by
  rw [waitControlChannelHello, hframe]

theorem CControlChannel.waitServerCmd_consumes_iff (pb : Protobuf) {c : CControlChannel}
    {payload rest : Bytes} (hframe : attemptBytes c.inputBuffer = (some payload, rest)) :
    c.waitServerCmd pb = (none, { c with inputBuffer := rest }) ↔
      (pb.parseControlChannelCmd payload).2.controlChannelCmd ≠ .createDataChannel := by
  rw [waitServerCmd, hframe]
  cases hcmd : (pb.parseControlChannelCmd payload).2.controlChannelCmd with
  | createDataChannel => simp [handleCmdCreateDatachannel, hcmd]
  | heartbeat => simp [hcmd]
  | unnamed v => simp [hcmd]

theorem DataChannel.waitDataChannelStartCmd_consumes_iff (pb : Protobuf) {d : DataChannel}
    (hwait : d.onMessage = .waitDataChannelStartCmd) {payload rest : Bytes}
    (hframe : attemptBytes d.inputBuffer = (some payload, rest)) :
    d.waitDataChannelStartCmd pb = { d with inputBuffer := rest } ↔
      (pb.parseDataChannelCmd payload).2.dataChannelCmd ≠ .startForwardTcp := by
  rw [waitDataChannelStartCmd, hframe]
  cases hcmd : (pb.parseDataChannelCmd payload).2.dataChannelCmd with
  | startForwardTcp => simp [doDataChannelTransforward, forward_eq, hwait, hcmd]
  | startForwardUdp => simp [hcmd]
  | unnamed v => simp [hcmd]

/-- A frame whose payload does not parse is only consumed, if and only if the enum
that the parser has left in the message does not select the branch of the handler
that acts; the client that waits for the greeting of the server always acts. -/
theorem malformed_consumed_iff (pb : Protobuf) (payload rest : Bytes) :
    (∀ (a : Answers) (s : NServer) (fr : Frame) (o : Obj) (hello : Hello),
      attemptBytes (s.conns o).inputBuffer = (some payload, rest) →
      pb.parseHello payload = (false, hello) →
      (s.handleNewConnection pb a fr o =
          .ok (s.modifyConn o fun c => { c with inputBuffer := rest }) ↔
        ∃ v, hello.helloType = .unnamed v)) ∧
    (∀ (c : CControlChannel) (hello : Hello), c.onMessage = .waitControlChannelHello →
      attemptBytes c.inputBuffer = (some payload, rest) →
      pb.parseHello payload = (false, hello) →
      c.waitControlChannelHello pb ≠ (none, { c with inputBuffer := rest })) ∧
    (∀ (c : CControlChannel) (cmd : ControlChannelCmd),
      attemptBytes c.inputBuffer = (some payload, rest) →
      pb.parseControlChannelCmd payload = (false, cmd) →
      (c.waitServerCmd pb = (none, { c with inputBuffer := rest }) ↔
        cmd.controlChannelCmd ≠ .createDataChannel)) ∧
    (∀ (d : DataChannel) (cmd : DataChannelCmd), d.onMessage = .waitDataChannelStartCmd →
      attemptBytes d.inputBuffer = (some payload, rest) →
      pb.parseDataChannelCmd payload = (false, cmd) →
      (d.waitDataChannelStartCmd pb = { d with inputBuffer := rest } ↔
        cmd.dataChannelCmd ≠ .startForwardTcp)) := by
  refine ⟨?_, ?_, ?_, ?_⟩
  · intro a s fr o hello hframe hparse
    rw [NServer.handleNewConnection_consumes_iff pb a s fr o hframe, hparse]
  -- the handler is set to `wait_server_cmd` after every complete frame
  · intro c hello hwait hframe _ he
    have hon := CControlChannel.waitControlChannelHello_onMessage pb hframe
    rw [he, hwait] at hon
    cases hon
  · intro c cmd hframe hparse
    rw [CControlChannel.waitServerCmd_consumes_iff pb hframe, hparse]
  · intro d cmd hwait hframe hparse
    rw [DataChannel.waitDataChannelStartCmd_consumes_iff pb hwait hframe, hparse]

/-- A command followed by a field that is cut off. -/
def truncatedCmd : Bytes := [0x08, 0x01, 0x08]

/-- A parser that keeps the fields in front of the cut. -/
def Protobuf.keepsFields : Protobuf :=
  { Protobuf.wire with
    parseControlChannelCmd := fun bs =>
      if bs = truncatedCmd then (false, ⟨some .heartbeat⟩) else Protobuf.wire.parseControlChannelCmd bs
    parseControlChannelCmd_serialize := by
      intro m
      have hm := Protobuf.wire.parseControlChannelCmd_serialize m
      have hrejected : (Protobuf.wire.parseControlChannelCmd truncatedCmd).1 = false := by
        decide +kernel
      split
      · rename_i he
        rw [he] at hm
        rw [hm] at hrejected
        cases hrejected
      · exact hm }

/-- The client after the greeting, with a frame in its buffer. -/
def readyClient (payload : Bytes) : CControlChannel :=
  ⟨exampleNonce, ⟨[], 80⟩, .waitServerCmd, headerInstaller payload⟩

/-- The heartbeat in front of the cut is all that is seen. -/
theorem malformed_consumed_iff_heartbeat :
    (readyClient truncatedCmd).waitServerCmd .keepsFields =
      (none, { readyClient truncatedCmd with inputBuffer := [] }) :=
  ((malformed_consumed_iff .keepsFields truncatedCmd []).2.2.1 (readyClient truncatedCmd)
    ⟨some .heartbeat⟩ (by decide +kernel) (by decide +kernel)).mpr (by decide)

/-- A tag without a value is rejected and leaves every enum at its default.  The
server makes a control channel for it, the client changes its handler, creates a
data channel, and connects to the service. -/
theorem malformed_payload_acts :
    (Protobuf.wire.parseHello [0x08]).1 = false ∧
    (Protobuf.wire.parseControlChannelCmd [0x08]).1 = false ∧
    (Protobuf.wire.parseDataChannelCmd [0x08]).1 = false ∧
    (((NServer.firstClient (headerInstaller [0x08])).handleNewConnection .wire
      (.calm exampleNonce) ⟨[0], []⟩ 0).toOption.bind fun s => s.scMap exampleNonce).isSome ∧
    (({ CControlChannel.greeted ⟨[], 80⟩ with
        inputBuffer := headerInstaller [0x08] }).waitControlChannelHello .wire).2.onMessage =
      .waitServerCmd ∧
    ((readyClient [0x08]).waitServerCmd .wire).1 = some exampleNonce ∧
    (({ DataChannel.new exampleNonce with
        inputBuffer := headerInstaller [0x08] }).waitDataChannelStartCmd .wire).serviceConnected =
      true := by
  refine ⟨?_, ?_, ?_, ?_, ?_, ?_, ?_⟩ <;> decide +kernel

end NcxTunnel
