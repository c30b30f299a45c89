import NcxTunnel.BridgeRuns

/-!
# Events on the server when nothing fails

What one event changes if every write succeeds and no connection ends: the
connections and the channels afterwards, in terms of those before.
-/

namespace NcxTunnel.NServer

variable {pb : Protobuf} {a : Answers} {s s' : NServer} {l : Obj}

/-- The effect of an event: connections, channels and the UUIDs drawn. -/
structure Becomes (s' : NServer) (conns : Obj → Connection) (scMap : Bytes → Option SControlChannel)
    (drawn : List Bytes) : Prop where
  conns_eq : s'.conns = conns
  scMap_eq : s'.scMap = scMap
  drawn_eq : s'.drawn = drawn

/-- The connections with other bytes in the input buffer of one of them. -/
def withInput (s : NServer) (l : Obj) (input : Bytes) : Obj → Connection :=
  Function.update s.conns l { s.conns l with inputBuffer := input }

theorem send_calm (hw : ∀ n, a.writeFails n = false) (fr : Frame) (o : Obj) (msg : Bytes) :
    s.send a fr o msg = s.logSend o msg := by
  simp [send, hw]

/-! ## Accepting -/

theorem step_accept_again (hmade : (s.conns l).state ≠ .connecting) (srv : ServerRef) (id : ConnId) :
    s.step pb (.accept srv l id a) = .ok s := by
  rw [step, if_neg fun h => hmade h.2]

theorem step_accept_ncx (hnew : (s.conns l).state = .connecting) {id : ConnId}
    (hs : s.step pb (.accept .ncxAcceptor l id a) = .ok s') :
    s'.Becomes (Function.update s.conns l (newConnection .ncxAcceptor id)) s.scMap s.drawn := by
  rw [step, if_pos ⟨rfl, hnew⟩] at hs
  obtain rfl := eq_of_outlives hs
  exact ⟨rfl, rfl, rfl⟩

theorem step_accept_deaf {nonce : Bytes} (hch : s.scMap nonce = none) (id : ConnId) :
    s.step pb (.accept (.proxy nonce) l id a) = .ok s := by
  rw [step, if_neg]
  simp [listening, hch]

/-- The client of the channel is told to create a data channel. -/
theorem step_accept_proxy (hw : ∀ n, a.writeFails n = false)
    (hnew : (s.conns l).state = .connecting) {nonce : Bytes} {ch : SControlChannel}
    (hch : s.scMap nonce = some ch) (hne : ch.ncxClientConn ≠ l) {id : ConnId}
    (hs : s.step pb (.accept (.proxy nonce) l id a) = .ok s') :
    s'.Becomes
      (Function.update (Function.update s.conns l (newConnection (.proxy nonce) id))
        ch.ncxClientConn { s.conns ch.ncxClientConn with
          sent := (s.conns ch.ncxClientConn).sent ++
            headerInstaller createDataChannel.serializeAsString })
      (Function.update s.scMap nonce (some { ch with
        waitHandleVisitors := ch.waitHandleVisitors ++ [l]
        accepted := ch.accepted ++ [l] }))
      s.drawn := by
  have hlisten : s.listening (.proxy nonce) = true := by simp [listening, hch]
  have hch' : (s.modifyConn l fun _ => newConnection (.proxy nonce) id).scMap nonce = some ch := hch
  rw [step, if_pos ⟨hlisten, hnew⟩] at hs
  obtain rfl := eq_of_outlives hs
  simp only [newConnectionHandle, hch', handleNewOutsideConnection, send_calm hw]
  refine ⟨?_, ?_, rfl⟩
  · simp only [logSend, modifyConn, modifyChannel, Function.update_of_ne hne]
  · simp only [logSend, modifyConn, modifyChannel, hch, Option.map_some]

/-! ## Joining a visitor and a data channel -/

/-- The two connections of a new bridge: the data channel is sent START and what
the visitor has sent so far. -/
def joined (s : NServer) (ref : BridgeRef) (visitor l : Obj) : Obj → Connection :=
  Function.update
    (Function.update s.conns visitor { s.conns visitor with
      inputBuffer := []
      onMessage := .forward l
      noticeOnClose := some ref })
    l { s.conns l with
      onMessage := .forward visitor
      noticeOnClose := some ref
      sent := (s.conns l).sent ++ headerInstaller startForwardTcp.serializeAsString ++
        (s.conns visitor).inputBuffer }

/-- What the visitor has sent so far is passed on; the bridge stays registered. -/
theorem flush_releaseBridge (hw : ∀ n, a.writeFails n = false) (fr fr' : Frame) (hl : l ∈ fr.conns)
    {visitor : Obj} (hne : visitor ≠ l) (hhandle : (s.conns visitor).onMessage = .forward l)
    {ref : BridgeRef} (hbridge : (s.bridge ref).isSome) (b : BridgeCloser) :
    ((s.flush a fr visitor).releaseBridge fr' ref b).Becomes
      (Function.update (s.withInput visitor []) l
        { s.conns l with sent := (s.conns l).sent ++ (s.conns visitor).inputBuffer })
      s.scMap s.drawn := by
  obtain ⟨b', hb⟩ := Option.isSome_iff_exists.mp hbridge
  have hlock : s.lock fr l = true := by simp [lock, hl]
  simp only [flush, hhandle]
  by_cases hempty : (s.conns visitor).inputBuffer = []
  · rw [forward, if_neg (by simp [hempty]), releaseBridge, hb]
    refine ⟨?_, rfl, rfl⟩
    rw [hempty, List.append_nil]
    have hinput : s.withInput visitor [] = s.conns :=
      Function.update_eq_self_iff.mpr (by rw [← hempty])
    rw [hinput]
    exact (Function.update_eq_self l s.conns).symm
  · rw [forward, if_pos ⟨hempty, hlock⟩]
    simp only [send_calm hw]
    generalize hs₁ : (s.modifyConn visitor fun c => { c with inputBuffer := [] }).logSend l
      (s.conns visitor).inputBuffer = s₁
    have hscMap : s₁.scMap = s.scMap := by rw [← hs₁]; rfl
    rw [releaseBridge, bridge_of_scMap_eq hscMap, hb]
    refine ⟨?_, hscMap, by rw [← hs₁]; rfl⟩
    rw [← hs₁]
    simp [logSend, modifyConn, withInput, hne.symm]

/-- The channel once the visitor at the front of the queue has been joined. -/
theorem buildBridge_joined {nonce : Bytes} {ch : SControlChannel} (hch : s.scMap nonce = some ch)
    (uuid : Bytes) (visitor l : Obj) (others : List Obj) :
    ∃ closers, (closers uuid).isSome ∧
      (((s.popVisitor nonce visitor l others).drawUuid uuid).buildBridge ⟨nonce, uuid⟩
        visitor l).scMap = Function.update s.scMap nonce (some { ch with
          waitHandleVisitors := others
          bridgeClosers := closers
          bridged := ch.bridged ++ [(visitor, l)] }) := by
  refine ⟨Function.update ch.bridgeClosers uuid
    (some ((ch.bridgeClosers uuid).getD ⟨visitor, l⟩)), by simp, ?_⟩
  funext m
  rw [buildBridge_scMap]
  by_cases hm : m = nonce
  · simp [hm, drawUuid, popVisitor, modifyChannel, hch]
  · simp [hm, drawUuid, popVisitor, modifyChannel]

theorem handleDataChannelHello_joined (hw : ∀ n, a.writeFails n = false) {nonce : Bytes}
    {ch : SControlChannel} (hch : s.scMap nonce = some ch) {visitor : Obj} {others : List Obj}
    (hwait : ch.waitHandleVisitors = visitor :: others) (hne : visitor ≠ l)
    (hs : s.handleDataChannelHello a ⟨[l], []⟩ l nonce = .ok s') :
    ∃ closers, s'.Becomes (s.joined ⟨nonce, a.uuid⟩ visitor l)
      (Function.update s.scMap nonce (some { ch with
        waitHandleVisitors := others
        bridgeClosers := closers
        bridged := ch.bridged ++ [(visitor, l)] }))
      (s.drawn ++ [a.uuid]) := by
  rw [handleDataChannelHello, hch] at hs
  simp only [hwait, send_calm hw] at hs
  have hs := eq_of_outlives hs
  have hconns := ((s.popVisitor nonce visitor l others).drawUuid a.uuid).buildBridge_conns
    ⟨nonce, a.uuid⟩ hne
  obtain ⟨closers, hclosers, hscMap⟩ := buildBridge_joined hch a.uuid visitor l others
  have hdrawn : (((s.popVisitor nonce visitor l others).drawUuid a.uuid).buildBridge
    ⟨nonce, a.uuid⟩ visitor l).drawn = s.drawn ++ [a.uuid] := rfl
  generalize ((s.popVisitor nonce visitor l others).drawUuid a.uuid).buildBridge
    ⟨nonce, a.uuid⟩ visitor l = s₁ at hs hconns hscMap hdrawn
  have hbridge : ((s₁.logSend l (headerInstaller startForwardTcp.serializeAsString)).bridge
      ⟨nonce, a.uuid⟩).isSome := by
    have hsame : (s₁.logSend l (headerInstaller startForwardTcp.serializeAsString)).scMap =
      s₁.scMap := rfl
    rw [bridge, hsame, hscMap]
    simpa using hclosers
  have hforward : ((s₁.logSend l (headerInstaller startForwardTcp.serializeAsString)).conns
      visitor).onMessage = .forward l := by
    simp [logSend, modifyConn, hne, hconns]
  have hb := flush_releaseBridge hw ⟨[visitor, l], [a.uuid]⟩ ⟨[visitor, l], []⟩ (by simp) hne hforward hbridge ⟨visitor, l⟩
  rw [hs] at hb
  refine ⟨closers, ?_, hb.scMap_eq.trans hscMap, hb.drawn_eq.trans hdrawn⟩
  rw [hb.conns_eq]
  funext p
  by_cases hp : p = l
  · subst hp
    simp [joined, logSend, modifyConn, withInput, hne, hne.symm, hconns, drawUuid, popVisitor,
      modifyChannel]
  · by_cases hpv : p = visitor
    · subst hpv
      simp [joined, logSend, modifyConn, withInput, hp, hconns, drawUuid, popVisitor,
        modifyChannel]
    · simp [joined, logSend, modifyConn, withInput, hp, hpv, hconns, drawUuid, popVisitor,
        modifyChannel]

/-! ## Reading -/

/-- The server after it has answered a control hello. -/
def answered (s : NServer) (uuid : Bytes) (l : Obj) : NServer :=
  (s.drawUuid uuid).logSend l (headerInstaller (controlHello uuid).serializeAsString)

theorem emplaceChannel_free {nonce : Bytes} (hfree : s.scMap nonce = none) (l : Obj)
    (port : UInt16) :
    (s.emplaceChannel nonce l port).Becomes
      (Function.update s.conns l { s.conns l with isControl := true })
      (Function.update s.scMap nonce (some ⟨l, port, [], fun _ => none, [], []⟩)) s.drawn := by
  rw [emplaceChannel, if_neg (by simp [hfree])]
  exact ⟨rfl, rfl, rfl⟩

section Read

variable (hmade : (s.conns l).state = .connected)
  (hpool : s.pools (s.conns l).server (s.conns l).connId = some l) {chunk : Bytes}

theorem afterReads_conns_eq (s : NServer) (l : Obj) (chunk : Bytes) :
    (s.afterReads l [chunk]).conns = s.withInput l ((s.conns l).inputBuffer ++ chunk) := by
  simp [afterReads, modifyConn, withInput]

include hmade hpool

theorem step_read_eq : s.step pb (.readable l [chunk] .again a) =
    (s.afterReads l [chunk]).handleMessage pb a ⟨[l], []⟩ l := by
  rw [step_readable pb _ _ hmade hpool, handleDataIn, readNonBlocking_again]

/-- A visitor that waits: the bytes stay in the buffer. -/
theorem step_read_unset (hhandle : (s.conns l).onMessage = .unset)
    (hs : s.step pb (.readable l [chunk] .again a) = .ok s') :
    s'.Becomes (s.withInput l ((s.conns l).inputBuffer ++ chunk)) s.scMap s.drawn := by
  have hcore := (s.afterReads_sameCore l [chunk] l).onMessage_eq
  rw [step_read_eq hmade hpool, handleMessage, hcore, hhandle, Except.ok.injEq] at hs
  subst hs
  exact ⟨s.afterReads_conns_eq l chunk, rfl, rfl⟩

/-- An end of a bridge: the bytes are passed on. -/
theorem step_read_forward (hw : ∀ n, a.writeFails n = false) {peer : Obj} (hne : peer ≠ l)
    (hhandle : (s.conns l).onMessage = .forward peer)
    (hpeer : s.pools (s.conns peer).server (s.conns peer).connId = some peer)
    (hs : s.step pb (.readable l [chunk] .again a) = .ok s') :
    s'.Becomes
      (Function.update (s.withInput l []) peer
        { s.conns peer with
          sent := (s.conns peer).sent ++ ((s.conns l).inputBuffer ++ chunk) })
      s.scMap s.drawn := by
  have hcore := (s.afterReads_sameCore l [chunk] l).onMessage_eq
  have hbuf : ((s.afterReads l [chunk]).conns l).inputBuffer =
      (s.conns l).inputBuffer ++ chunk := by
    simpa using s.afterReads_inputBuffer l [chunk]
  have hconn := s.afterReads_conns_of_ne hne [chunk]
  rw [step_read_eq hmade hpool, handleMessage, hcore, hhandle] at hs
  obtain rfl := eq_of_outlives hs
  by_cases hempty : (s.conns l).inputBuffer ++ chunk = []
  · -- an empty message is not sent
    rw [forward, if_neg (by simp [hbuf, hempty])]
    refine ⟨?_, rfl, rfl⟩
    rw [afterReads_conns_eq, hempty, List.append_nil]
    exact (Function.update_eq_self_iff.mpr (by simp [withInput, hne])).symm
  · have hlock : (s.afterReads l [chunk]).lock ⟨[l], []⟩ peer = true := by
      apply lock_of_pooled
      rw [hconn]
      exact hpeer
    rw [forward, if_pos ⟨by rwa [hbuf], hlock⟩]
    simp only [send_calm hw, hbuf]
    refine ⟨?_, rfl, rfl⟩
    simp [logSend, afterReads, modifyConn, withInput, Function.update_of_ne hne]

section Greeting

variable (hhandle : (s.conns l).onMessage = .handleNewConnection)

include hhandle

theorem step_read_greeting_eq : s.step pb (.readable l [chunk] .again a) =
    (s.afterReads l [chunk]).handleNewConnection pb a ⟨[l], []⟩ l := by
  have hcore := (s.afterReads_sameCore l [chunk] l).onMessage_eq
  rw [step_read_eq hmade hpool, handleMessage, hcore, hhandle]

/-- A greeting that is not complete yet. -/
theorem step_read_incomplete
    (hat : attemptBytes ((s.conns l).inputBuffer ++ chunk) =
      (none, (s.conns l).inputBuffer ++ chunk))
    (hs : s.step pb (.readable l [chunk] .again a) = .ok s') :
    s'.Becomes (s.withInput l ((s.conns l).inputBuffer ++ chunk)) s.scMap s.drawn := by
  have hbuf : ((s.afterReads l [chunk]).conns l).inputBuffer =
      (s.conns l).inputBuffer ++ chunk := by
    simpa using s.afterReads_inputBuffer l [chunk]
  rw [step_read_greeting_eq hmade hpool hhandle, handleNewConnection, hbuf] at hs
  simp only [hat, Except.ok.injEq] at hs
  subst hs
  refine ⟨?_, rfl, rfl⟩
  simp [afterReads, modifyConn, withInput]

/-- A control hello that the server survives. -/
theorem step_read_controlHello (hw : ∀ n, a.writeFails n = false) (hfree : s.scMap a.uuid = none)
    {payload rest : Bytes} {hello : Hello}
    (hat : attemptBytes ((s.conns l).inputBuffer ++ chunk) = (some payload, rest))
    (hparse : pb.parseHello payload = (true, hello))
    (htype : hello.helloType = .controlChannelHello)
    (hs : s.step pb (.readable l [chunk] .again a) = .ok s') :
    ∃ port, s'.Becomes
      (Function.update s.conns l { s.conns l with
        inputBuffer := rest
        sent := (s.conns l).sent ++ headerInstaller (controlHello a.uuid).serializeAsString
        isControl := true })
      (Function.update s.scMap a.uuid (some ⟨l, port, [], fun _ => none, [], []⟩))
      (s.drawn ++ [a.uuid]) := by
  have hbuf : ((s.afterReads l [chunk]).conns l).inputBuffer =
      (s.conns l).inputBuffer ++ chunk := by
    simpa using s.afterReads_inputBuffer l [chunk]
  rw [step_read_greeting_eq hmade hpool hhandle, handleNewConnection, hbuf] at hs
  simp only [hat, hparse, htype, handleControlChannelHello, send_calm hw] at hs
  split at hs
  · cases hs
  split at hs
  · cases hs
  · rw [Except.ok.injEq] at hs
    obtain ⟨s₁, port, hs₁, hs⟩ : ∃ s₁ port, s₁ = ((s.afterReads l [chunk]).modifyConn l fun c =>
        { c with inputBuffer := rest }).answered a.uuid l ∧ s₁.emplaceChannel a.uuid l port = s' :=
      ⟨_, _, rfl, hs⟩
    have hfree₁ : s₁.scMap a.uuid = none := by rw [hs₁]; exact hfree
    have hb := emplaceChannel_free hfree₁ l port
    rw [hs] at hb
    refine ⟨port, ?_, by rw [hb.scMap_eq, hs₁]; rfl, by rw [hb.drawn_eq, hs₁]; rfl⟩
    rw [hb.conns_eq, hs₁]
    simp [answered, logSend, modifyConn, drawUuid, afterReads]

/-- A data hello for a channel with a waiting visitor: START and what the visitor
has sent so far go to the data channel. -/
theorem step_read_dataHello (hw : ∀ n, a.writeFails n = false) {payload rest : Bytes}
    {hello : Hello}
    (hat : attemptBytes ((s.conns l).inputBuffer ++ chunk) = (some payload, rest))
    (hparse : pb.parseHello payload = (true, hello))
    (htype : hello.helloType = .dataChannelHello) {nonce : Bytes} (hdigest : hello.digest = nonce)
    {ch : SControlChannel} (hch : s.scMap nonce = some ch) {visitor : Obj} {others : List Obj}
    (hwait : ch.waitHandleVisitors = visitor :: others) (hne : visitor ≠ l)
    (hs : s.step pb (.readable l [chunk] .again a) = .ok s') :
    ∃ closers, s'.Becomes
      (Function.update
        (Function.update s.conns visitor { s.conns visitor with
          inputBuffer := []
          onMessage := .forward l
          noticeOnClose := some ⟨nonce, a.uuid⟩ })
        l { s.conns l with
          inputBuffer := rest
          onMessage := .forward visitor
          noticeOnClose := some ⟨nonce, a.uuid⟩
          sent := (s.conns l).sent ++ headerInstaller startForwardTcp.serializeAsString ++
            (s.conns visitor).inputBuffer })
      (Function.update s.scMap nonce (some { ch with
        waitHandleVisitors := others
        bridgeClosers := closers
        bridged := ch.bridged ++ [(visitor, l)] }))
      (s.drawn ++ [a.uuid]) := by
  have hbuf : ((s.afterReads l [chunk]).conns l).inputBuffer =
      (s.conns l).inputBuffer ++ chunk := by
    simpa using s.afterReads_inputBuffer l [chunk]
  rw [step_read_greeting_eq hmade hpool hhandle, handleNewConnection, hbuf] at hs
  simp only [hat, hparse, htype, hdigest] at hs
  generalize hs₁ : (s.afterReads l [chunk]).modifyConn l (fun c => { c with inputBuffer := rest }) =
    s₁ at hs
  have hconns₁ : s₁.conns = s.withInput l rest := by
    rw [← hs₁]
    simp [afterReads, modifyConn, withInput]
  have hscMap₁ : s₁.scMap = s.scMap := by rw [← hs₁]; rfl
  have hdrawn₁ : s₁.drawn = s.drawn := by rw [← hs₁]; rfl
  obtain ⟨closers, hb⟩ := handleDataChannelHello_joined hw (hscMap₁ ▸ hch) hwait hne hs
  refine ⟨closers, ?_, by rw [hb.scMap_eq, hscMap₁], by rw [hb.drawn_eq, hdrawn₁]⟩
  rw [hb.conns_eq]
  funext p
  by_cases hp : p = l
  · subst hp
    simp [joined, hconns₁, withInput, hne]
  · simp [joined, hconns₁, withInput, hp, hne, Function.update_apply]

end Greeting

/-- If a read ends the process and no write has failed, it completes a greeting: of a control
channel whose port cannot be bound, or of a data channel that no visitor waits for. -/
theorem step_read_error (hw : ∀ n, a.writeFails n = false) {f : Fault} (hs : s.step pb (.readable l [chunk] .again a) = .error f) :
    f = .exit ∨ (s.conns l).onMessage = .handleNewConnection ∧ ∃ payload rest,
      attemptBytes ((s.conns l).inputBuffer ++ chunk) = (some payload, rest) ∧
      (pb.parseHello payload).2.helloType = .dataChannelHello ∧
      ¬∃ ch, s.scMap (pb.parseHello payload).2.digest = some ch ∧ ch.waitHandleVisitors ≠ [] := by
  have hcore := (s.afterReads_sameCore l [chunk] l).onMessage_eq
  have hbuf : ((s.afterReads l [chunk]).conns l).inputBuffer =
      (s.conns l).inputBuffer ++ chunk := by
    simpa using s.afterReads_inputBuffer l [chunk]
  rw [step_read_eq hmade hpool, handleMessage, hcore] at hs
  cases hhandle : (s.conns l).onMessage with
  | unset => simp [hhandle] at hs
  | forward peer => simp [hhandle, outlives_of_writes hw] at hs
  | handleNewConnection =>
    simp only [hhandle, handleNewConnection, hbuf] at hs
    rcases hat : attemptBytes ((s.conns l).inputBuffer ++ chunk) with ⟨_ | payload, rest⟩
    · simp [hat] at hs
    · simp only [hat] at hs
      cases ht : (pb.parseHello payload).2.helloType with
      | controlChannelHello =>
        simp only [ht, handleControlChannelHello, breaks_of_writes hw, Bool.false_eq_true,
          if_false] at hs
        split at hs
        · exact .inl (Except.error.inj hs).symm
        · cases hs
      | unnamed x => simp [ht] at hs
      | dataChannelHello =>
        simp only [ht] at hs
        refine .inr ⟨rfl, payload, rest, rfl, ht, fun hch => ?_⟩
        obtain ⟨s₁, hs₁⟩ := (handleDataChannelHello_isOk_of_writes a hw
          ((s.afterReads l [chunk]).modifyConn l fun c => { c with inputBuffer := rest })
          ⟨[l], []⟩ l _).mpr hch
        cases hs.symm.trans hs₁

end Read

theorem step_accept_isOk (pb : Protobuf) (hw : ∀ n, a.writeFails n = false) (s : NServer)
    (srv : ServerRef) (o : Obj) (id : ConnId) : ∃ s', s.step pb (.accept srv o id a) = .ok s' := by
  rw [step]
  split
  · exact ⟨_, outlives_of_writes hw _ _⟩
  · exact ⟨_, rfl⟩

end NcxTunnel.NServer
