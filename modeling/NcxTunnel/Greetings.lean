import NcxTunnel.CloseEffects

/-!
# Greetings that end the process

`handle_new_connection` has no way to turn a greeting down.  It looks the digest up
with `at`, takes the front of the queue without a look at its length, and the listener
of a new channel exits where `bind` fails.  Nor can it be told of a broken pipe.
-/

namespace NcxTunnel.NServer

section Writes

variable {a : Answers} {s : NServer} {o : Obj}

theorem forward_sends {peer : Obj} {fr : Frame} (hlock : s.lock fr peer = true) :
    (s.forward a fr o peer).sends = s.sends + if (s.conns o).inputBuffer = [] then 0 else 1 := by
  have hinput : (s.modifyConn o fun c => { c with inputBuffer := [] }).sends = s.sends := rfl
  rw [forward]
  by_cases hempty : (s.conns o).inputBuffer = []
  · rw [if_neg (by simp [hempty]), if_pos hempty, Nat.add_zero]
  · rw [if_pos ⟨hempty, hlock⟩, if_neg hempty, send_sends, hinput]

theorem releaseBridge_sends (s : NServer) (fr : Frame) (ref : BridgeRef) (b : BridgeCloser) :
    (s.releaseBridge fr ref b).sends = s.sends := by
  unfold releaseBridge
  split
  · rfl
  · exact untouched_sends.destroyBridgeWith _ _
      (fun fr s o => untouched_sends.handleClose s fr o) b

/-- A new bridge costs a write for START and one for what the visitor has sent. -/
theorem startBridge_sends (s : NServer) (a : Answers) (held fr : Frame) (ref : BridgeRef)
    {visitor : Obj} (msg : Bytes) (b : BridgeCloser)
    (hforward : (s.conns visitor).onMessage = .forward o) (hheld : o ∈ held.conns) :
    (((s.send a held o msg).flush a held visitor).releaseBridge fr ref b).sends =
      s.sends + 1 + if (s.conns visitor).inputBuffer = [] then 0 else 1 := by
  have hclosing : Closing (fun _ => True) s (s.send a held o msg) :=
    .send a held msg fun _ => ⟨fun _ _ _ _ => trivial, fun _ => trivial⟩
  have hlock : (s.send a held o msg).lock held o = true := by simp [lock, hheld]
  have hflush : (s.send a held o msg).flush a held visitor =
      (s.send a held o msg).forward a held visitor o := by
    rw [flush, hclosing.onMessage_eq, hforward]
  rw [releaseBridge_sends, hflush, forward_sends hlock, send_sends, send_inputBuffer]

theorem breaks_first_two_iff {m : ℕ} {p : Prop} [Decidable p] :
    (∀ n, m ≤ n → n < m + 1 + (if p then 0 else 1) → a.breaks n = false) ↔
      a.breaks m = false ∧ (¬p → a.breaks (m + 1) = false) := by
  constructor
  · intro h
    refine ⟨h m le_rfl (by omega), fun hp => h (m + 1) (by omega) ?_⟩
    rw [if_neg hp]
    omega
  · rintro ⟨hfirst, hsecond⟩ n hle hlt
    by_cases hn : n = m
    · rwa [hn]
    · split at hlt
      · omega
      · rename_i hp
        obtain rfl : n = m + 1 := by omega
        exact hsecond hp

/-- None of the writes raises SIGPIPE: START, and what the visitor has sent if anything. -/
theorem handleDataChannelHello_isOk_iff (s : NServer) (a : Answers) (fr : Frame)
    (hheld : o ∈ fr.conns) (nonce : Bytes) :
    (∃ s', s.handleDataChannelHello a fr o nonce = .ok s') ↔
      (∃ ch, s.scMap nonce = some ch ∧ ch.waitHandleVisitors ≠ []) ∧
        ∀ visitor ∈ (s.queue nonce).head?, a.breaks s.sends = false ∧
          ((s.conns visitor).inputBuffer ≠ [] → a.breaks (s.sends + 1) = false) := by
  unfold handleDataChannelHello
  cases hch : s.scMap nonce with
  | none => simp
  | some ch =>
    rw [queue_eq hch]
    cases hq : ch.waitHandleVisitors with
    | nil => simp [hq]
    | cons visitor rest =>
      have hsends : (((s.popVisitor nonce visitor o rest).drawUuid a.uuid).buildBridge
          ⟨nonce, a.uuid⟩ visitor o).sends = s.sends := rfl
      have hbuf : ((((s.popVisitor nonce visitor o rest).drawUuid a.uuid).buildBridge
          ⟨nonce, a.uuid⟩ visitor o).conns visitor).inputBuffer = (s.conns visitor).inputBuffer :=
        buildBridge_inputBuffer _ _ visitor o visitor
      have hlast := startBridge_sends (((s.popVisitor nonce visitor o rest).drawUuid
        a.uuid).buildBridge ⟨nonce, a.uuid⟩ visitor o) a
        ⟨visitor :: fr.conns, a.uuid :: fr.bridges⟩ ⟨visitor :: fr.conns, fr.bridges⟩ ⟨nonce, a.uuid⟩
        (headerInstaller startForwardTcp.serializeAsString) ⟨visitor, o⟩
        (buildBridge_ends _ ⟨nonce, a.uuid⟩ visitor o).2 (List.mem_cons_of_mem visitor hheld)
      rw [hsends, hbuf] at hlast
      simp only [hq]
      generalize hs₁ : releaseBridge _ _ ⟨nonce, a.uuid⟩ ⟨visitor, o⟩ = s₁
      rw [hs₁] at hlast
      constructor
      · rintro ⟨s', hs'⟩
        refine ⟨⟨ch, rfl, by simp [hq]⟩, fun v hv => ?_⟩
        obtain rfl : visitor = v := by simpa using hv
        rw [← breaks_first_two_iff, ← hlast]
        exact (outlives_eq_ok_iff.mp hs').2
      · rintro ⟨-, hquiet⟩
        refine ⟨s₁, outlives_eq_ok_iff.mpr ⟨rfl, ?_⟩⟩
        rw [hlast, breaks_first_two_iff]
        exact hquiet visitor rfl

end Writes

section Hello

variable (pb : Protobuf) (a : Answers)

/-- The request can be honoured: the port can be bound, or a visitor waits. -/
def Honourable (s : NServer) (hello : Hello) : Prop :=
  match hello.helloType with
  | .controlChannelHello =>
      ¬s.bindFails a hello.controlChannelHelloContent.proxyPort.toUInt32.toUInt16
  | .dataChannelHello => ∃ ch, s.scMap hello.digest = some ch ∧ ch.waitHandleVisitors ≠ []
  | .unnamed _ => True

/-- No write that the request leads to raises SIGPIPE: the answer or START, and for the
visitor that is bridged what it has sent so far. -/
def PipesHold (s : NServer) (hello : Hello) : Prop :=
  match hello.helloType with
  | .controlChannelHello => a.breaks s.sends = false
  | .dataChannelHello => ∀ visitor ∈ (s.queue hello.digest).head?, a.breaks s.sends = false ∧
      ((s.conns visitor).inputBuffer ≠ [] → a.breaks (s.sends + 1) = false)
  | .unnamed _ => True

/-- A complete greeting is survived if and only if the request can be honoured and no write
for it raises SIGPIPE.  That the channels are left alone by a request that cannot be
honoured is never put to the test: the process ends.  The handler is given the
connection by `std::shared_ptr`, so the frame holds it. -/
theorem hello_survived_iff (s : NServer) (fr : Frame) (o : Obj) (payload rest : Bytes)
    (hello : Hello) (hframe : attemptBytes (s.conns o).inputBuffer = (some payload, rest))
    (hparse : pb.parseHello payload = (true, hello)) (hheld : o ∈ fr.conns) :
    (∃ s', s.handleNewConnection pb a fr o = .ok s' ∧
      (¬s.Honourable a hello → s'.scMap = s.scMap)) ↔
      s.Honourable a hello ∧
        (s.modifyConn o fun c => { c with inputBuffer := rest }).PipesHold a hello := by
  have hok : (∃ s', s.handleNewConnection pb a fr o = .ok s') ↔ s.Honourable a hello ∧
      (s.modifyConn o fun c => { c with inputBuffer := rest }).PipesHold a hello := by
    unfold handleNewConnection Honourable PipesHold
    simp only [hframe, hparse]
    cases ht : hello.helloType with
    | controlChannelHello =>
      exact (handleControlChannelHello_isOk_iff a _ fr o _ _).trans and_comm
    | dataChannelHello =>
      exact handleDataChannelHello_isOk_iff _ a fr hheld hello.digest
    | unnamed v => simp
  constructor
  · intro h
    obtain ⟨s', hs', -⟩ := h
    exact hok.mp ⟨s', hs'⟩
  · intro h
    obtain ⟨s', hs'⟩ := hok.mpr h
    exact ⟨s', hs', fun hn => absurd h.1 hn⟩

/-- A control hello for port 80, which nobody listens on. -/
theorem hello_survived_iff_free_port :
    ∃ s', (firstClient (headerInstaller (Hello.serializeAsString
        ⟨some .controlChannelHello, none, some ⟨some [], some 80⟩⟩))).handleNewConnection .wire
          (.calm exampleNonce) ⟨[0], []⟩ 0 = .ok s' := by
  have hvalid : Hello.Valid ⟨some .controlChannelHello, none, some ⟨some [], some 80⟩⟩ :=
    ⟨utf8_of_ascii (by decide +kernel), utf8_of_ascii (by decide +kernel), by decide⟩
  have hframe := (hvalid.frameable rfl).attemptBytes_frame []
  rw [List.append_nil] at hframe
  have hfree : ¬(firstClient (headerInstaller (Hello.serializeAsString
      ⟨some .controlChannelHello, none, some ⟨some [], some 80⟩⟩))).bindFails
        (.calm exampleNonce) 80 := by
    decide
  obtain ⟨s', hs', -⟩ := (hello_survived_iff .wire (.calm exampleNonce) _ ⟨[0], []⟩ 0 _ _ _ hframe
    (Protobuf.wire.parseHello_serialize _ hvalid) (by simp)).mpr ⟨hfree, rfl⟩
  exact ⟨s', hs'⟩

/-- A data hello with a digest the server never gave out ends the process. -/
theorem unknown_digest_ends_server :
    ∃ s, Reachable .wire 8080 s ∧
      s.step .wire (.readable 0 [headerInstaller (Hello.serializeAsString
        ⟨some .dataChannelHello, some exampleNonce, none⟩)] .again (.calm [])) =
          .error .outOfRange := by
  refine ⟨(new 8080).newConnectionHandle (.calm []) .ncxAcceptor 0 1,
    ⟨[.accept .ncxAcceptor 0 1 (.calm [])], rfl⟩, ?_⟩
  have hvalid := Hello.valid_of_isUuid .dataChannelHello exampleNonce_isUuid
  have hframe := (hvalid.frameable rfl).attemptBytes_frame []
  rw [List.append_nil] at hframe
  have hparse := Protobuf.wire.parseHello_serialize _ hvalid
  simp only [step]
  rw [if_pos (by decide)]
  simp [handleDataIn, readNonBlocking, handleMessage, newConnectionHandle, new, modifyConn,
    newConnection, Connection.none, handleNewConnection, hframe, hparse, Hello.helloType,
    handleDataChannelHello]

end Hello

end NcxTunnel.NServer
