import NcxTunnel.ServerStreams

/-!
# The listeners of the server

A control hello is the one thing that makes a listener, and nothing takes one away:
`sc_map_` only grows, so the port of a channel stays bound when its client, its
visitors and its bridges are gone.  The ports in use are those granted in the past.
-/

namespace NcxTunnel.NServer

/-- The port of each channel. -/
def ports (s : NServer) (nonce : Bytes) : Option UInt16 := (s.scMap nonce).map SControlChannel.proxyPort

/-- What there is to know about listeners. -/
def listeners (s : NServer) : List UInt16 × (Bytes → Option UInt16) := (s.boundPorts, s.ports)

def Event.answers : Event → Answers
  | .accept _ _ _ a => a
  | .readable _ _ _ a => a

/-- The port a greeting asks for. -/
def asks (hello : Hello) : Option UInt16 :=
  if hello.helloType = .controlChannelHello then
    some hello.controlChannelHelloContent.proxyPort.toUInt32.toUInt16
  else none

/-- The listener made for it, by the nonce of its channel.  A nonce that is taken keeps
the channel it names. -/
def grant (s : NServer) (a : Answers) (p : UInt16) : List (Bytes × UInt16) :=
  if (s.scMap a.uuid).isSome then [] else [(a.uuid, if p = 0 then a.ephemeralPort else p)]

section Request

variable (pb : Protobuf)

/-- The port that a control hello asks for, if the event completes one. -/
def request (s : NServer) : Event → Option UInt16
  | .accept _ _ _ _ => none
  | .readable o reads _ _ =>
      if (s.conns o).state ≠ .connecting ∧ s.lock ⟨[], []⟩ o then
        (s.greeting pb o reads).bind asks
      else none

/-- The listener the event makes. -/
def granted (s : NServer) (ev : Event) : List (Bytes × UInt16) :=
  ((s.request pb ev).map (s.grant ev.answers)).getD []

/-- The listeners made by a sequence of events, oldest first. -/
def grants : NServer → List Event → List (Bytes × UInt16)
  | _, [] => []
  | s, ev :: evs =>
      match s.step pb ev with
      | .error _ => []
      | .ok s' => s.granted pb ev ++ grants s' evs

/-- The kernel picks a port that is not in use. -/
def KernelPicks : NServer → List Event → Prop
  | _, [] => True
  | s, ev :: evs =>
      ev.answers.ephemeralPort ∉ s.boundPorts ∧
        ∀ s', s.step pb ev = .ok s' → KernelPicks s' evs

end Request

variable {pb : Protobuf} {s s' : NServer} {o : Obj}

/-! ## What leaves the listeners alone -/

theorem listeners_modifyChannel (s : NServer) (nonce : Bytes)
    (f : SControlChannel → SControlChannel) (hf : ∀ ch, (f ch).proxyPort = ch.proxyPort) :
    (s.modifyChannel nonce f).listeners = s.listeners := by
  refine Prod.ext rfl (funext fun n => ?_)
  show ((s.modifyChannel nonce f).scMap n).map _ = (s.scMap n).map _
  rw [modifyChannel_scMap]
  split
  · rename_i hn
    rw [hn, Option.map_map]
    exact congrArg (Option.map · _) (funext hf)
  · rfl

theorem untouched_listeners : Untouched NServer.listeners where
  disconnectHandle _ _ := rfl
  setState _ _ _ := rfl
  eraseBridgeCloser s ref := listeners_modifyChannel s ref.nonce _ fun _ => rfl

theorem listeners_send (s : NServer) (a : Answers) (fr : Frame) (o : Obj) (msg : Bytes) :
    (s.send a fr o msg).listeners = s.listeners := by
  unfold send
  split
  · exact untouched_listeners.handleClose _ _ _
  · rfl

theorem listeners_forward (s : NServer) (a : Answers) (fr : Frame) (o peer : Obj) :
    (s.forward a fr o peer).listeners = s.listeners := by
  unfold forward
  split
  · exact listeners_send _ a _ _ _
  · rfl

theorem listeners_flush (s : NServer) (a : Answers) (fr : Frame) (o : Obj) :
    (s.flush a fr o).listeners = s.listeners := by
  unfold flush
  split
  · exact listeners_forward s a fr o _
  · rfl
  · rfl

theorem listeners_releaseBridge (s : NServer) (fr : Frame) (ref : BridgeRef) (b : BridgeCloser) :
    (s.releaseBridge fr ref b).listeners = s.listeners := by
  unfold releaseBridge
  split
  · rfl
  · exact untouched_listeners.destroyBridgeWith _ _
      (fun fr s o => untouched_listeners.handleClose s fr o) b

/-- A data hello makes a bridge and no listener. -/
theorem listeners_handleDataChannelHello {a : Answers} {fr : Frame} {nonce : Bytes}
    (h : s.handleDataChannelHello a fr o nonce = .ok s') : s'.listeners = s.listeners := by
  unfold handleDataChannelHello at h
  split at h
  · cases h
  · split at h
    · cases h
    · rename_i visitor rest hwait
      obtain rfl := eq_of_outlives h
      have hbuild : ∀ s : NServer, (s.buildBridge ⟨nonce, a.uuid⟩ visitor o).listeners =
          s.listeners := fun s => listeners_modifyChannel _ nonce _ fun _ => rfl
      have hpop : ((s.popVisitor nonce visitor o rest).drawUuid a.uuid).listeners = s.listeners :=
        listeners_modifyChannel s nonce _ fun _ => rfl
      rw [listeners_releaseBridge, listeners_flush, listeners_send, hbuild, hpop]

theorem listeners_newConnectionHandle (s : NServer) (a : Answers) (srv : ServerRef) (o : Obj)
    (id : ConnId) : (s.newConnectionHandle a srv o id).listeners = s.listeners := by
  have hpools : ∀ (s : NServer) p, ({ s with pools := p } : NServer).listeners = s.listeners :=
    fun _ _ => rfl
  unfold newConnectionHandle
  dsimp only
  rw [hpools]
  split
  · rfl
  · split
    · rfl
    · rw [handleNewOutsideConnection, listeners_send]
      exact listeners_modifyChannel _ _ _ fun _ => rfl

theorem listeners_readNonBlocking (s : NServer) (fr : Frame) (o : Obj) (reads : List Bytes)
    (e : ReadEnd) : (s.readNonBlocking fr o reads e).listeners = s.listeners := by
  cases e with
  | again => rfl
  | closed => exact untouched_listeners.handleClose _ _ _

theorem readNonBlocking_sends (s : NServer) (fr : Frame) (o : Obj) (reads : List Bytes)
    (e : ReadEnd) : (s.readNonBlocking fr o reads e).sends = s.sends := by
  cases e with
  | again => rfl
  | closed => exact untouched_sends.handleClose _ _ _

/-! ## What makes one -/

/-- The listeners behind those granted. -/
def Grants (s : NServer) (gs : List (Bytes × UInt16)) (s' : NServer) : Prop :=
  s'.boundPorts = (gs.map Prod.snd).reverse ++ s.boundPorts ∧
    ∀ n p, s'.ports n = some p ↔ s.ports n = some p ∨ (n, p) ∈ gs

theorem Grants.of_eq (h : s'.listeners = s.listeners) : Grants s [] s' := by
  obtain ⟨hbound, hports⟩ := Prod.ext_iff.mp h
  refine ⟨hbound, fun n p => ?_⟩
  rw [show s'.ports = s.ports from hports]
  simp

theorem Grants.congr_left {t : NServer} {gs : List (Bytes × UInt16)} (h : Grants t gs s')
    (hst : t.listeners = s.listeners) : Grants s gs s' := by
  obtain ⟨hbound, hports⟩ := Prod.ext_iff.mp hst
  rw [Grants, ← show t.boundPorts = s.boundPorts from hbound,
    ← show t.ports = s.ports from hports]
  exact h

theorem emplaceChannel_grants (s : NServer) (nonce : Bytes) (o : Obj) (port : UInt16) :
    Grants s (if (s.scMap nonce).isSome then [] else [(nonce, port)])
      (s.emplaceChannel nonce o port) := by
  unfold emplaceChannel
  split
  · exact .of_eq rfl
  · rename_i hfree
    have hnone : s.ports nonce = none := by simpa [ports] using hfree
    refine ⟨rfl, fun n p => ?_⟩
    show (Function.update s.scMap nonce _ n).map _ = some p ↔ (s.scMap n).map _ = some p ∨ _
    by_cases hn : n = nonce
    · subst hn
      rw [Function.update_self, show (s.scMap n).map _ = none from hnone]
      simp [eq_comm]
    · rw [Function.update_of_ne hn]
      simp [hn]

theorem handleControlChannelHello_grants {a : Answers} {fr : Frame} {name : Bytes} {p : UInt16}
    (h : s.handleControlChannelHello a fr o name p = .ok s') :
    Grants s (s.grant a p) s' := by
  unfold handleControlChannelHello at h
  dsimp only at h
  have hsent := listeners_send (s.drawUuid a.uuid) a fr o
    (headerInstaller (controlHello a.uuid).serializeAsString)
  generalize (s.drawUuid a.uuid).send a fr o
    (headerInstaller (controlHello a.uuid).serializeAsString) = s₁ at h hsent
  split at h
  · cases h
  split at h
  · cases h
  · cases h
    have hsame : s₁.listeners = s.listeners := hsent
    have hsome : (s₁.scMap a.uuid).isSome = (s.scMap a.uuid).isSome := by
      have hports := congrFun (Prod.ext_iff.mp hsame).2 a.uuid
      simpa [listeners, ports] using congrArg Option.isSome hports
    rw [grant, ← hsome]
    exact (emplaceChannel_grants s₁ a.uuid o _).congr_left hsame

theorem Grants.bindFails_iff (h : s'.listeners = s.listeners) (a : Answers) (p : UInt16) :
    s'.bindFails a p ↔ s.bindFails a p := by
  have hbound : s'.boundPorts = s.boundPorts := (Prod.ext_iff.mp h).1
  rw [bindFails, bindFails, hbound]

/-- The answer is written before the listener is made, so a broken pipe comes first. -/
theorem handleControlChannelHello_error (s : NServer) (a : Answers) (fr : Frame) (o : Obj)
    (name : Bytes) (p : UInt16) (h : a.breaks s.sends = true ∨ s.bindFails a p) :
    s.handleControlChannelHello a fr o name p =
      .error (if a.breaks s.sends then .brokenPipe else .exit) := by
  have hsends : (s.drawUuid a.uuid).sends = s.sends := rfl
  unfold handleControlChannelHello
  dsimp only
  rw [hsends]
  cases hbreaks : a.breaks s.sends with
  | true => rfl
  | false =>
    have hfails := h.resolve_left (by simp [hbreaks])
    rw [← Grants.bindFails_iff (s := s) (listeners_send (s.drawUuid a.uuid) a fr o
      (headerInstaller (controlHello a.uuid).serializeAsString)) a p] at hfails
    simp [hfails]

section Message

variable {a : Answers} {fr : Frame} {reads : List Bytes} {e : ReadEnd} {s₁ : NServer}
  (hsame : s₁.listeners = s.listeners)
  (hhandle : (s₁.conns o).onMessage = (s.conns o).onMessage)
  (hbuf : (s₁.conns o).inputBuffer = (s.conns o).inputBuffer ++ reads.flatten)

include hsame hhandle hbuf

/-- The handler, in the state `s₁` after the read. -/
theorem handleMessage_grants (hok : s₁.handleMessage pb a fr o = .ok s') :
    Grants s ((((s.greeting pb o reads).bind asks).map (s.grant a)).getD []) s' := by
  have hcongr : ∀ p, s₁.grant a p = s.grant a p := by
    intro p
    have hports := congrFun (Prod.ext_iff.mp hsame).2 a.uuid
    have hsome : (s₁.scMap a.uuid).isSome = (s.scMap a.uuid).isSome := by
      simpa [listeners, ports] using congrArg Option.isSome hports
    rw [grant, grant, hsome]
  unfold handleMessage at hok
  rw [hhandle] at hok
  cases hmode : (s.conns o).onMessage with
  | unset =>
    simp only [hmode, Except.ok.injEq] at hok
    rw [greeting, if_neg (by simp [hmode])]
    exact (Grants.of_eq (hok ▸ rfl)).congr_left hsame
  | forward peer =>
    simp only [hmode] at hok
    rw [greeting, if_neg (by simp [hmode])]
    exact (Grants.of_eq (eq_of_outlives hok ▸ listeners_forward s₁ a fr o peer)).congr_left hsame
  | handleNewConnection =>
    simp only [hmode, handleNewConnection, hbuf] at hok
    rw [greeting, if_pos hmode]
    rcases hat : attemptBytes ((s.conns o).inputBuffer ++ reads.flatten) with ⟨_ | payload, buf⟩
    · simp only [hat, Except.ok.injEq] at hok
      exact (Grants.of_eq (hok ▸ rfl)).congr_left hsame
    · simp only [hat] at hok
      rw [Option.map_some, Option.bind_some, asks]
      cases ht : (pb.parseHello payload).2.helloType with
      | unnamed v =>
        simp only [ht, Except.ok.injEq] at hok
        rw [if_neg (by simp)]
        exact (Grants.of_eq (hok ▸ rfl)).congr_left hsame
      | dataChannelHello =>
        simp only [ht] at hok
        rw [if_neg (by simp)]
        have hnone := listeners_handleDataChannelHello hok
        exact (Grants.of_eq hnone).congr_left hsame
      | controlChannelHello =>
        simp only [ht] at hok
        rw [if_pos rfl, Option.map_some, Option.getD_some, ← hcongr]
        exact (handleControlChannelHello_grants hok).congr_left hsame

/-- A broken pipe under the answer ends the process, and so does a request for a port that
cannot be bound; nothing else happens to a request. -/
theorem handleMessage_request {p : UInt16} (hreq : (s.greeting pb o reads).bind asks = some p) :
    ((∃ s', s₁.handleMessage pb a fr o = .ok s') ↔ a.breaks s₁.sends = false ∧ ¬s.bindFails a p) ∧
      (a.breaks s₁.sends = true ∨ s.bindFails a p → s₁.handleMessage pb a fr o =
        .error (if a.breaks s₁.sends then .brokenPipe else .exit)) := by
  obtain ⟨hello, hgreet, hasks⟩ := Option.bind_eq_some_iff.mp hreq
  rw [greeting] at hgreet
  split at hgreet
  · rename_i hmode
    obtain ⟨payload, hat, rfl⟩ := Option.map_eq_some_iff.mp hgreet
    rw [asks] at hasks
    split at hasks
    · rename_i ht
      obtain rfl := Option.some.inj hasks
      rw [← Grants.bindFails_iff hsame]
      unfold handleMessage handleNewConnection
      rcases hat' : attemptBytes ((s.conns o).inputBuffer ++ reads.flatten) with ⟨out, buf⟩
      rw [hat'] at hat
      obtain rfl : out = some payload := hat
      simp only [hhandle, hmode, hbuf, hat', ht]
      exact ⟨handleControlChannelHello_isOk_iff _ _ _ _ _ _,
        fun hfails => handleControlChannelHello_error _ a fr o _ _ hfails⟩
    · cases hasks
  · cases hgreet

end Message

theorem step_grants {ev : Event} (hok : s.step pb ev = .ok s') : Grants s (s.granted pb ev) s' := by
  cases ev with
  | accept srv o id a =>
    rcases step_accept_cases hok with ⟨-, rfl⟩ | rfl
    · exact .of_eq (listeners_newConnectionHandle s a srv o id)
    · exact .of_eq rfl
  | readable o reads e a =>
    rw [granted, request]
    simp only [NServer.step] at hok
    split at hok
    · rename_i hc
      rw [if_pos hc]
      obtain ⟨hhandle, hbuf⟩ := s.readNonBlocking_ready ⟨[o], []⟩ o reads e
      exact handleMessage_grants (listeners_readNonBlocking s _ o reads e) hhandle hbuf hok
    · rename_i hc
      rw [if_neg hc]
      exact .of_eq (Except.ok.inj hok ▸ rfl)

theorem step_request {ev : Event} {p : UInt16} (hreq : s.request pb ev = some p) :
    ((∃ s', s.step pb ev = .ok s') ↔
      ev.answers.breaks s.sends = false ∧ ¬s.bindFails ev.answers p) ∧
      (ev.answers.breaks s.sends = true ∨ s.bindFails ev.answers p →
        s.step pb ev = .error (if ev.answers.breaks s.sends then .brokenPipe else .exit)) := by
  cases ev with
  | accept srv o id a => cases hreq
  | readable o reads e a =>
    rw [request] at hreq
    split at hreq
    · rename_i hc
      rw [NServer.step, if_pos hc]
      obtain ⟨hhandle, hbuf⟩ := s.readNonBlocking_ready ⟨[o], []⟩ o reads e
      rw [Event.answers, ← readNonBlocking_sends s ⟨[o], []⟩ o reads e]
      exact handleMessage_request (listeners_readNonBlocking s _ o reads e) hhandle hbuf hreq
    · cases hreq

theorem Grants.refl (s : NServer) : Grants s [] s := .of_eq rfl

theorem Grants.trans {s'' : NServer} {gs gs' : List (Bytes × UInt16)} (h : Grants s gs s')
    (h' : Grants s' gs' s'') : Grants s (gs ++ gs') s'' := by
  refine ⟨?_, fun n p => ?_⟩
  · rw [h'.1, h.1, List.map_append, List.reverse_append, List.append_assoc]
  · rw [h'.2, h.2, List.mem_append, or_assoc]

theorem run_cons {ev : Event} {evs : List Event} (h : run pb s (ev :: evs) = .ok s') :
    ∃ s₁, s.step pb ev = .ok s₁ ∧ run pb s₁ evs = .ok s' := by
  rw [run, List.foldlM_cons] at h
  cases hstep : s.step pb ev with
  | error e =>
    rw [hstep] at h
    cases h
  | ok s₁ =>
    rw [hstep] at h
    exact ⟨s₁, rfl, h⟩

theorem run_grants {evs : List Event} (h : run pb s evs = .ok s') :
    Grants s (grants pb s evs) s' := by
  induction evs generalizing s with
  | nil => exact Except.ok.inj h ▸ .refl s
  | cons ev evs ih =>
    obtain ⟨s₁, hstep, hrest⟩ := run_cons h
    rw [grants, hstep]
    exact (step_grants hstep).trans (ih hrest)

/-- A nonce is granted a port once, and only while it names no channel. -/
theorem grants_nodup {evs : List Event} (h : run pb s evs = .ok s') :
    ((grants pb s evs).map Prod.fst).Nodup ∧ ∀ g ∈ grants pb s evs, s.ports g.1 = none := by
  induction evs generalizing s with
  | nil => exact ⟨List.nodup_nil, fun _ hg => absurd hg List.not_mem_nil⟩
  | cons ev evs ih =>
    obtain ⟨s₁, hstep, hrest⟩ := run_cons h
    obtain ⟨hnodup, hfree⟩ := ih hrest
    have hports := (step_grants hstep).2
    have hgranted : ∀ g ∈ s.granted pb ev, s.ports g.1 = none := by
      intro g hg
      rw [granted] at hg
      cases hreq : s.request pb ev with
      | none => simp [hreq] at hg
      | some p =>
        simp only [hreq, Option.map_some, Option.getD_some, grant] at hg
        split at hg
        · cases hg
        · rename_i hnone
          rw [List.mem_singleton] at hg
          simpa [hg, ports] using hnone
    have hsingle : ((s.granted pb ev).map Prod.fst).Nodup := by
      rw [granted]
      cases s.request pb ev with
      | none => exact List.nodup_nil
      | some p =>
        rw [Option.map_some, Option.getD_some, grant]
        split
        · exact List.nodup_nil
        · exact List.nodup_singleton _
    rw [grants, hstep]
    dsimp only
    rw [List.map_append]
    refine ⟨List.nodup_append.mpr ⟨hsingle, hnodup, ?_⟩, fun g hg => ?_⟩
    · -- what this event has granted names a channel from now on
      intro n hn m hm hnm
      obtain ⟨⟨n, p⟩, hg, rfl⟩ := List.mem_map.mp hn
      obtain ⟨⟨m, q⟩, hg', rfl⟩ := List.mem_map.mp hm
      obtain rfl : n = m := hnm
      have hsome := (hports n p).mpr (.inr hg)
      rw [hfree _ hg'] at hsome
      cases hsome
    · rcases List.mem_append.mp hg with hg | hg
      · exact hgranted g hg
      · rw [Option.eq_none_iff_forall_ne_some]
        intro p hp
        have hsome := (hports g.1 p).mpr (.inl hp)
        rw [hfree g hg] at hsome
        cases hsome

theorem step_boundPorts_nodup {ev : Event} (hok : s.step pb ev = .ok s')
    (hpick : ev.answers.ephemeralPort ∉ s.boundPorts) (h : s.boundPorts.Nodup) :
    s'.boundPorts.Nodup := by
  rw [(step_grants hok).1, granted]
  cases hreq : s.request pb ev with
  | none => exact h
  | some p =>
    have hfree := ((step_request hreq).1.mp ⟨s', hok⟩).2
    rw [Option.map_some, Option.getD_some, grant]
    split
    · exact h
    · refine List.nodup_cons.mpr ⟨?_, h⟩
      dsimp only
      split
      · exact hpick
      · rename_i hp
        exact fun hmem => hfree (.inl ⟨hp, hmem⟩)

theorem run_boundPorts_nodup {evs : List Event} (hok : run pb s evs = .ok s')
    (hpick : KernelPicks pb s evs) (h : s.boundPorts.Nodup) : s'.boundPorts.Nodup := by
  induction evs generalizing s with
  | nil => exact Except.ok.inj hok ▸ h
  | cons ev evs ih =>
    obtain ⟨s₁, hstep, hrest⟩ := run_cons hok
    exact ih hrest (hpick.2 s₁ hstep) (step_boundPorts_nodup hstep hpick.1 h)

/-- Whatever has been closed in the meantime: the ports in use are the server's own and
all that control hellos have been granted, one for each channel there has ever been;
the next request is survived exactly if the answer to it meets no broken pipe, it asks
for none of these and the system does not refuse it, and otherwise ends the process.  If
the ports that the kernel picks are free, no port is in use twice. -/
theorem ports_never_released (pb : Protobuf) (port : UInt16) (evs : List Event) (s : NServer)
    (hrun : run pb (new port) evs = .ok s) :
    s.boundPorts = ((grants pb (new port) evs).map Prod.snd).reverse ++ [port] ∧
    (∀ nonce p, s.ports nonce = some p ↔ (nonce, p) ∈ grants pb (new port) evs) ∧
    ((grants pb (new port) evs).map Prod.fst).Nodup ∧
    (∀ ev p, s.request pb ev = some p →
      ((∃ s', s.step pb ev = .ok s') ↔ ev.answers.breaks s.sends = false ∧
        (p ≠ 0 → p ≠ port ∧ p ∉ (grants pb (new port) evs).map Prod.snd) ∧
          ev.answers.bindRefused = false) ∧
      ((∀ s', s.step pb ev ≠ .ok s') →
        s.step pb ev = .error (if ev.answers.breaks s.sends then .brokenPipe else .exit))) ∧
    (KernelPicks pb (new port) evs → s.boundPorts.Nodup) := by
  obtain ⟨hbound, hports⟩ := run_grants hrun
  have hbound' : s.boundPorts = ((grants pb (new port) evs).map Prod.snd).reverse ++ [port] := hbound
  refine ⟨hbound', fun nonce p => ?_, (grants_nodup hrun).1, fun ev p hreq => ?_, fun hpick => ?_⟩
  · have hnone : (new port).ports nonce = none := rfl
    rw [hports, hnone]
    simp
  · obtain ⟨hok, hexit⟩ := step_request hreq
    refine ⟨hok.trans (and_congr_right fun _ => ?_), fun hnone => hexit ?_⟩
    · rw [bindFails, hbound']
      simp only [List.mem_append, List.mem_reverse, List.mem_singleton, not_or, not_and, ne_eq,
        Bool.not_eq_true]
      exact and_congr_left fun _ => forall_congr' fun _ => and_comm
    · by_contra hfree
      rw [not_or, Bool.not_eq_true] at hfree
      obtain ⟨s', hs'⟩ := hok.mpr hfree
      exact hnone s' hs'
  · exact run_boundPorts_nodup hrun hpick (List.nodup_singleton port)

/-- A control hello that asks for port 80. -/
def askFor80 : Bytes :=
  headerInstaller (Hello.serializeAsString ⟨some .controlChannelHello, none, some ⟨some [], some 80⟩⟩)

/-- A client registers for port 80 and goes; another one connects. -/
def reconnectEvents : List Event :=
  [.accept .ncxAcceptor 0 1 (.calm []), .readable 0 [askFor80] .again (.calm exampleNonce),
    .readable 0 [] .closed (.calm []), .accept .ncxAcceptor 1 2 (.calm [])]

/-- It asks for port 80 as well, and the server exits; if the request comes together with
a reset, SIGPIPE is faster. -/
theorem ports_never_released_reconnect :
    ∃ s, run .wire (new 8080) reconnectEvents = .ok s ∧ (s.conns 0).state = .disconnected ∧
      s.step .wire (.readable 1 [askFor80] .again (.calm (List.replicate 36 49))) =
        .error .exit ∧
      s.step .wire (.readable 1 [askFor80] .closed
        ⟨List.replicate 36 49, fun _ => true, fun _ => true, false, 0⟩) = .error .brokenPipe := by
  have hsome : (run .wire (new 8080) reconnectEvents).toOption.map (fun s =>
      ((s.conns 0).state, s.request .wire
        (.readable 1 [askFor80] .again (.calm (List.replicate 36 49))))) =
          some (.disconnected, some 80) := by
    decide +kernel
  obtain ⟨s, hs, hboth⟩ := Option.map_eq_some_iff.mp hsome
  rw [Prod.mk.injEq] at hboth
  have hrun := Runs.ok_of_toOption hs
  obtain ⟨-, -, -, hnext, -⟩ := ports_never_released .wire 8080 reconnectEvents s hrun
  obtain ⟨hok, hexit⟩ := hnext _ 80 hboth.2
  -- the request is the same however the read ends
  obtain ⟨hpipe, hbroken⟩ := hnext (.readable 1 [askFor80] .closed
    ⟨List.replicate 36 49, fun _ => true, fun _ => true, false, 0⟩) 80 hboth.2
  have hgranted : 80 ∈ (grants .wire (new 8080) reconnectEvents).map Prod.snd := by decide +kernel
  refine ⟨s, hrun, hboth.1, hexit fun s' hs' => ?_, hbroken fun s' hs' => ?_⟩
  · exact ((hok.mp ⟨s', hs'⟩).2.1 (by decide)).2 hgranted
  · have hquiet := (hpipe.mp ⟨s', hs'⟩).1
    cases hquiet

end NcxTunnel.NServer
