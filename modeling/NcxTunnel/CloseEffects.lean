import NcxTunnel.BridgeRuns

/-!
# What an event can close

`BridgeRuns` follows orderly runs.  Here nothing is assumed of the state: closing a
connection cuts the bridge of its close notice, which closes both ends, and so on.
Every set of connections that this cannot leave contains all that is closed.
-/

namespace NcxTunnel.NServer

/-- `handle_close` has something to do. -/
def IsOpen (s : NServer) (x : Obj) : Prop := (s.conns x).state ≠ .disconnected

/-- Closing `x` cuts a bridge that ends in `y`, which is open. -/
def CutsOne (s : NServer) (x y : Obj) : Prop :=
  s.IsOpen x ∧ s.IsOpen y ∧ ∃ ref b, (s.conns x).noticeOnClose = some ref ∧
    s.bridge ref = some b ∧ (y = b.bridgeInside ∨ y = b.bridgeOutside)

/-- The close of `x` can spread to `y`. -/
def Cuts (s : NServer) (x y : Obj) : Prop := s.IsOpen x ∧ Relation.ReflTransGen s.CutsOne x y

/-- A close inside `C` does not spread out of it. -/
def ClosedUnder (s : NServer) (C : Obj → Prop) : Prop := ∀ x y, C x → s.CutsOne x y → C y

theorem closedUnder_cuts (s : NServer) (o : Obj) : s.ClosedUnder (s.Cuts o) :=
  fun _ _ hx hxy => ⟨hx.1, hx.2.tail hxy⟩

theorem Cuts.isOpen {s : NServer} {x y : Obj} (h : s.Cuts x y) : s.IsOpen y := by
  rcases Relation.ReflTransGen.cases_tail h.2 with rfl | ⟨z, -, hz⟩
  · exact h.1
  · exact hz.2.1

/-- States of connections in `C` change, which lose their places in the pools. -/
structure Affects (C : Obj → Prop) (s s' : NServer) : Prop where
  state_eq : ∀ p, ¬C p → (s'.conns p).state = (s.conns p).state
  made : ∀ p, (s.conns p).state ≠ .connecting → (s'.conns p).state ≠ .connecting
  isOpen : ∀ p, s'.IsOpen p → s.IsOpen p
  server_eq : ∀ p, (s'.conns p).server = (s.conns p).server
  connId_eq : ∀ p, (s'.conns p).connId = (s.conns p).connId
  isControl : ∀ p, (s.conns p).isControl = true → (s'.conns p).isControl = true
  pools_eq : ∀ srv id, (∀ x, C x → (s.conns x).server = srv → (s.conns x).connId ≠ id) →
    s'.pools srv id = s.pools srv id

/-- In closing and sending, handles and queues stay and bridges only go. -/
structure Closing (C : Obj → Prop) (s s' : NServer) : Prop extends Affects C s s' where
  onMessage_eq : ∀ p, (s'.conns p).onMessage = (s.conns p).onMessage
  notice_eq : ∀ p, (s'.conns p).noticeOnClose = (s.conns p).noticeOnClose
  bridge_sub : ∀ ref b, s'.bridge ref = some b → s.bridge ref = some b
  queue_eq : ∀ nonce, s'.queue nonce = s.queue nonce
  control_eq : ∀ nonce, s'.control nonce = s.control nonce

section Closing

variable {C D : Obj → Prop} {s s' s'' : NServer}

theorem Affects.refl (s : NServer) : Affects C s s :=
  ⟨fun _ _ => rfl, fun _ h => h, fun _ h => h, fun _ => rfl, fun _ => rfl, fun _ h => h,
    fun _ _ _ => rfl⟩

theorem Affects.trans (h : Affects C s s') (h' : Affects C s' s'') : Affects C s s'' where
  state_eq p hp := (h'.state_eq p hp).trans (h.state_eq p hp)
  made p hp := h'.made p (h.made p hp)
  isOpen p hp := h.isOpen p (h'.isOpen p hp)
  server_eq p := (h'.server_eq p).trans (h.server_eq p)
  connId_eq p := (h'.connId_eq p).trans (h.connId_eq p)
  isControl p hp := h'.isControl p (h.isControl p hp)
  pools_eq srv id hkey := by
    rw [h'.pools_eq srv id, h.pools_eq srv id hkey]
    intro x hx
    rw [h.server_eq, h.connId_eq]
    exact hkey x hx

theorem Affects.mono (h : Affects C s s') (hsub : ∀ x, C x → D x) : Affects D s s' where
  state_eq p hp := h.state_eq p fun hc => hp (hsub p hc)
  made := h.made
  isOpen := h.isOpen
  server_eq := h.server_eq
  connId_eq := h.connId_eq
  isControl := h.isControl
  pools_eq srv id hkey := h.pools_eq srv id fun x hx => hkey x (hsub x hx)

theorem Affects.of_conns_eq (hconns : s'.conns = s.conns) (hpools : s'.pools = s.pools) :
    Affects C s s' := by
  constructor <;> simp [IsOpen, hconns, hpools]

theorem Affects.modifyConn (s : NServer) (o : Obj) {f : Connection → Connection}
    (hf : ∀ c, (f c).state = c.state ∧ (f c).server = c.server ∧ (f c).connId = c.connId ∧
      (c.isControl = true → (f c).isControl = true)) : Affects C s (s.modifyConn o f) := by
  have hstate := s.modifyConn_field (o := o) Connection.state fun c => (hf c).1
  refine ⟨fun p _ => hstate p, fun p hp => ?_, fun p hp => ?_,
    s.modifyConn_field Connection.server fun c => (hf c).2.1,
    s.modifyConn_field Connection.connId fun c => (hf c).2.2.1, fun p hp => ?_, fun _ _ _ => rfl⟩
  · rwa [hstate p]
  · rwa [IsOpen, hstate p] at hp
  · rw [modifyConn_conns]
    split
    · rename_i hpo
      exact (hf _).2.2.2 (hpo ▸ hp)
    · exact hp

namespace Closing

theorem refl (s : NServer) : Closing C s s :=
  ⟨.refl s, fun _ => rfl, fun _ => rfl, fun _ _ h => h, fun _ => rfl, fun _ => rfl⟩

theorem trans (h : Closing C s s') (h' : Closing C s' s'') : Closing C s s'' where
  toAffects := h.toAffects.trans h'.toAffects
  onMessage_eq p := (h'.onMessage_eq p).trans (h.onMessage_eq p)
  notice_eq p := (h'.notice_eq p).trans (h.notice_eq p)
  bridge_sub ref b hb := h.bridge_sub ref b (h'.bridge_sub ref b hb)
  queue_eq nonce := (h'.queue_eq nonce).trans (h.queue_eq nonce)
  control_eq nonce := (h'.control_eq nonce).trans (h.control_eq nonce)

theorem mono (h : Closing C s s') (hsub : ∀ x, C x → D x) : Closing D s s' :=
  { h with toAffects := h.toAffects.mono hsub }

theorem cutsOne (h : Closing C s s') {x y : Obj} (hxy : s'.CutsOne x y) : s.CutsOne x y := by
  obtain ⟨hx, hy, ref, b, hn, hb, hend⟩ := hxy
  exact ⟨h.isOpen x hx, h.isOpen y hy, ref, b, (h.notice_eq x) ▸ hn, h.bridge_sub ref b hb, hend⟩

/-- Fewer bridges, so what could not be left still cannot. -/
theorem closedUnder (h : Closing C s s') (hD : s.ClosedUnder D) : s'.ClosedUnder D :=
  fun x y hx hxy => hD x y hx (h.cutsOne hxy)

/-- A change of one connection in fields that `Closing` does not mention, and of its state. -/
theorem of_conns {o : Obj} {c : Connection} (hconns : s'.conns = Function.update s.conns o c)
    (hscMap : s'.scMap = s.scMap) (hpools : ∀ srv id,
      (∀ x, C x → (s.conns x).server = srv → (s.conns x).connId ≠ id) →
        s'.pools srv id = s.pools srv id)
    (hstate : C o ∨ c.state = (s.conns o).state)
    (hmade : (s.conns o).state ≠ .connecting → c.state ≠ .connecting)
    (hclosed : (s.conns o).state = .disconnected → c.state = .disconnected)
    (hserver : c.server = (s.conns o).server) (hconnId : c.connId = (s.conns o).connId)
    (hcontrol : c.isControl = (s.conns o).isControl)
    (honMessage : c.onMessage = (s.conns o).onMessage)
    (hnotice : c.noticeOnClose = (s.conns o).noticeOnClose) : Closing C s s' := by
  have hfield : ∀ {α : Type} (g : Connection → α), g c = g (s.conns o) →
      ∀ p, g (s'.conns p) = g (s.conns p) := by
    intro α g hg p
    rw [hconns]
    exact field_update s.conns g hg p
  refine ⟨⟨fun p hp => ?_, fun p hp => ?_, fun p hp hpc => hp ?_, hfield _ hserver,
    hfield _ hconnId, fun p hp => ?_, hpools⟩, hfield _ honMessage, hfield _ hnotice, fun ref b hb => ?_, fun nonce => ?_,
    fun nonce => ?_⟩
  · rw [hconns, Function.update_apply]
    split
    · rename_i hpo
      rw [hpo] at hp ⊢
      exact hstate.resolve_left hp
    · rfl
  · rw [hconns, Function.update_apply]
    split
    · rename_i hpo
      exact hmade (hpo ▸ hp)
    · exact hp
  · rw [hconns, Function.update_apply]
    split
    · rename_i hpo
      exact hclosed (hpo ▸ hpc)
    · exact hpc
  · rw [hfield _ hcontrol]
    exact hp
  · rwa [bridge_of_scMap_eq hscMap] at hb
  · exact queue_of_scMap_eq hscMap nonce
  · exact control_of_scMap_eq hscMap nonce

theorem setState {o : Obj} (ho : C o) {st : ConnectionState} (hst : st ≠ .connecting)
    (hopen : s.IsOpen o ∨ st = .disconnected) : Closing C s (s.setState o st) :=
  of_conns rfl rfl (fun _ _ _ => rfl) (.inl ho) (fun _ => hst)
    (fun hclosed => hopen.resolve_left fun ho => ho hclosed) rfl rfl rfl rfl rfl

theorem disconnectHandle {o : Obj} (ho : C o) : Closing C s (s.disconnectHandle o) := by
  refine of_conns rfl rfl (fun srv id hkey => ?_) (.inl ho) (fun hmade => ?_) (fun hclosed => ?_)
    rfl rfl rfl rfl rfl
  · have hne := hkey o ho
    by_cases hsrv : srv = (s.conns o).server
    · subst hsrv
      simp [NServer.disconnectHandle, Connections.erase_apply, Ne.symm (hne rfl)]
    · simp [NServer.disconnectHandle, hsrv]
  · dsimp only
    split
    · simp
    · exact hmade
  · simp [hclosed]

theorem eraseBridgeCloser (s : NServer) (ref : BridgeRef) :
    Closing C s (s.eraseBridgeCloser ref) := by
  refine ⟨.of_conns_eq rfl rfl, fun _ => rfl, fun _ => rfl, fun r b hb => ?_,
    eraseBridgeCloser_queue s ref, eraseBridgeCloser_control s ref⟩
  rw [eraseBridgeCloser_bridge] at hb
  split at hb
  · cases hb
  · exact hb

theorem destroyBridgeWith {close : Frame → NServer → Obj → NServer}
    (hclose : ∀ fr s o, s.ClosedUnder C → (s.IsOpen o → C o) → Closing C s (close fr s o))
    (fr : Frame) (hC : s.ClosedUnder C) {b : BridgeCloser}
    (hin : s.IsOpen b.bridgeInside → C b.bridgeInside)
    (hout : s.IsOpen b.bridgeOutside → C b.bridgeOutside) :
    Closing C s (destroyBridgeWith close fr s b) := by
  have hone : ∀ (s : NServer) o, s.ClosedUnder C → (s.IsOpen o → C o) →
      Closing C s (if s.lock fr o then
        NServer.forceCloseWith (close { fr with conns := o :: fr.conns }) s o else s) := by
    intro s o hC ho
    split
    · rw [NServer.forceCloseWith]
      split
      · rename_i hst
        have hopen : s.IsOpen o := by
          rcases hst with hst | hst <;> simp [IsOpen, hst]
        have hst : Closing C s (s.setState o .disconnecting) :=
          setState (ho hopen) (by simp) (.inl hopen)
        exact hst.trans (hclose _ _ o (hst.closedUnder hC) fun _ => ho hopen)
      · exact .refl s
    · exact .refl s
  have hfirst := hone s b.bridgeInside hC hin
  exact hfirst.trans (hone _ b.bridgeOutside (hfirst.closedUnder hC) fun hopen =>
    hout (hfirst.isOpen _ hopen))

theorem handleCloseFuel (fuel : ℕ) (fr : Frame) {o : Obj} (hC : s.ClosedUnder C)
    (ho : s.IsOpen o → C o) : Closing C s (handleCloseFuel fuel fr s o) := by
  -- by induction on the depth, with `C` fixed: a bridge that is cut has its ends in `C`
  induction fuel generalizing fr s o with
  | zero => exact .refl s
  | succ fuel ih =>
    rw [NServer.handleCloseFuel]
    split
    · exact .refl s
    · rename_i hopen
      have ho := ho hopen
      have h₁ : Closing C s (s.disconnectHandle o) := disconnectHandle ho
      refine trans ?_ (setState ho (by simp) (.inr rfl))
      split
      · exact h₁
      · rename_i ref hnotice
        refine h₁.trans ?_
        unfold noticeWith
        split
        · exact .refl _
        · rename_i b hb
          have h₂ : Closing C (s.disconnectHandle o) ((s.disconnectHandle o).eraseBridgeCloser ref) :=
            eraseBridgeCloser _ ref
          have h := h₁.trans h₂
          have hend : ∀ x, x = b.bridgeInside ∨ x = b.bridgeOutside →
              IsOpen ((s.disconnectHandle o).eraseBridgeCloser ref) x → C x := by
            intro x hx hxo
            rw [h₁.notice_eq] at hnotice
            exact hC o x ho ⟨hopen, h.isOpen x hxo, ref, b, hnotice, h₁.bridge_sub ref b hb, hx⟩
          split
          · exact h₂
          · exact h₂.trans (destroyBridgeWith (fun fr s o hC ho => ih fr hC ho) fr
              (h.closedUnder hC) (hend _ (.inl rfl)) (hend _ (.inr rfl)))

theorem handleClose (fr : Frame) {o : Obj} (hC : s.ClosedUnder C) (ho : s.IsOpen o → C o) :
    Closing C s (s.handleClose fr o) := handleCloseFuel _ fr hC ho

theorem logSend (s : NServer) (o : Obj) (msg : Bytes) : Closing C s (s.logSend o msg) :=
  of_conns rfl rfl (fun _ _ _ => rfl) (.inr rfl) (fun h => h) (fun h => h) rfl rfl rfl rfl rfl

theorem setInput (s : NServer) (o : Obj) (g : Bytes → Bytes) :
    Closing C s (s.modifyConn o fun c => { c with inputBuffer := g c.inputBuffer }) :=
  of_conns rfl rfl (fun _ _ _ => rfl) (.inr rfl) (fun h => h) (fun h => h) rfl rfl rfl rfl rfl

theorem drawUuid (s : NServer) (uuid : Bytes) : Closing C s (s.drawUuid uuid) :=
  ⟨.of_conns_eq rfl rfl, fun _ => rfl, fun _ => rfl, fun _ _ h => h, fun _ => rfl, fun _ => rfl⟩

theorem send (a : Answers) (fr : Frame) {o : Obj} (msg : Bytes)
    (h : a.writeFails s.sends = true → s.ClosedUnder C ∧ (s.IsOpen o → C o)) :
    Closing C s (s.send a fr o msg) := by
  have hlog := logSend (C := C) s o msg
  rw [NServer.send]
  split
  · rename_i hfails
    exact hlog.trans (handleClose fr (hlog.closedUnder (h hfails).1) fun hopen =>
      (h hfails).2 (hlog.isOpen o hopen))
  · exact hlog

theorem forward (a : Answers) (fr : Frame) {o peer : Obj}
    (h : (s.conns o).inputBuffer ≠ [] → a.writeFails s.sends = true →
      s.ClosedUnder C ∧ (s.IsOpen peer → C peer)) :
    Closing C s (s.forward a fr o peer) := by
  rw [NServer.forward]
  split
  · rename_i hdata
    have hinput := setInput (C := C) s o fun _ => []
    exact hinput.trans (send a _ _ fun hfails =>
      ⟨hinput.closedUnder (h hdata.1 hfails).1, fun hopen =>
        (h hdata.1 hfails).2 (hinput.isOpen peer hopen)⟩)
  · exact .refl s

end Closing

end Closing

/-! ## What an event does -/

section Greeting

variable {a : Answers} {s s' : NServer} {o : Obj}

theorem untouched_sends : Untouched NServer.sends :=
  ⟨fun _ _ => rfl, fun _ _ _ => rfl, fun _ _ => rfl⟩

theorem send_sends (s : NServer) (fr : Frame) (o : Obj) (msg : Bytes) :
    (s.send a fr o msg).sends = s.sends + 1 := by
  rw [send]
  split
  · exact untouched_sends.handleClose _ _ _
  · rfl

theorem handleClose_of_not_isOpen (h : ¬s.IsOpen o) (fr : Frame) : s.handleClose fr o = s := by
  rw [handleClose, handleCloseFuel, if_pos (not_not.mp h)]

theorem handleClose_not_isOpen (s : NServer) (fr : Frame) (o : Obj) :
    ¬(s.handleClose fr o).IsOpen o := by
  rw [handleClose, handleCloseFuel]
  split
  · rename_i hclosed
    exact not_not.mpr hclosed
  · simp [IsOpen, setState, modifyConn_conns]

theorem send_scMap (hw : s.IsOpen o → a.writeFails s.sends ≠ true) (fr : Frame) (msg : Bytes) :
    (s.send a fr o msg).scMap = s.scMap := by
  rw [send]
  split
  · rename_i hfails
    have hclosed : ¬(s.logSend o msg).IsOpen o := fun hopen =>
      hw (((Closing.logSend (C := fun _ => True) s o msg).isOpen o hopen)) hfails
    rw [handleClose_of_not_isOpen hclosed]
    rfl
  · rfl

theorem send_inputBuffer (s : NServer) (fr : Frame) (o : Obj) (msg : Bytes) (p : Obj) :
    ((s.send a fr o msg).conns p).inputBuffer = (s.conns p).inputBuffer := by
  have hlog : ((s.logSend o msg).conns p).inputBuffer = (s.conns p).inputBuffer :=
    s.modifyConn_field (f := fun c => { c with sent := c.sent ++ msg }) Connection.inputBuffer
      (fun _ => rfl) p
  rw [send]
  split
  · exact ((untouched_inputBuffer p).handleClose _ _ _).trans hlog
  · exact hlog

theorem forward_scMap {peer : Obj}
    (hw : (s.conns o).inputBuffer ≠ [] → s.IsOpen peer → a.writeFails s.sends ≠ true)
    (fr : Frame) : (s.forward a fr o peer).scMap = s.scMap := by
  rw [forward]
  split
  · rename_i hdata
    have hinput : Closing (fun _ => True) s (s.modifyConn o fun c => { c with inputBuffer := [] }) :=
      .setInput s o fun _ => []
    exact send_scMap (s := s.modifyConn o fun c => { c with inputBuffer := [] })
      (fun hopen => hw hdata.1 (hinput.isOpen peer hopen)) _ _
  · rfl

theorem buildBridge_inputBuffer (s : NServer) (ref : BridgeRef) (visitor origin p : Obj) :
    ((s.buildBridge ref visitor origin).conns p).inputBuffer = (s.conns p).inputBuffer := by
  have hregister : ∀ (s : NServer) b, (s.registerBridgeCloser ref b).conns = s.conns :=
    fun _ _ => rfl
  have hkept : ∀ (s : NServer) o {f : Connection → Connection},
      (∀ c, (f c).inputBuffer = c.inputBuffer) →
        ((s.modifyConn o f).conns p).inputBuffer = (s.conns p).inputBuffer :=
    fun s _ _ hf => s.modifyConn_field Connection.inputBuffer hf p
  rw [buildBridge, hregister, hkept, hkept, hkept, hkept]
  all_goals exact fun _ => rfl

/-- The two ends of a new bridge forward to each other and have its notice. -/
theorem buildBridge_ends (s : NServer) (ref : BridgeRef) (visitor origin : Obj) :
    (∀ x, x = visitor ∨ x = origin →
      ((s.buildBridge ref visitor origin).conns x).noticeOnClose = some ref) ∧
    ((s.buildBridge ref visitor origin).conns visitor).onMessage = .forward origin := by
  have hregister : ∀ (s : NServer) b, (s.registerBridgeCloser ref b).conns = s.conns :=
    fun _ _ => rfl
  refine ⟨?_, ?_⟩
  · rintro x (rfl | rfl)
    · rw [buildBridge, hregister]
      simp only [modifyConn_conns]
      split <;> simp
    · rw [buildBridge, hregister]
      simp only [modifyConn_conns, if_true]
  · rw [buildBridge, hregister]
    simp only [modifyConn_conns, if_true]
    by_cases hvo : visitor = origin
    · simp [hvo]
    · simp [hvo]

/-- The close of a connection that is being bridged spreads to the two ends. -/
theorem closedUnder_buildBridge {ref : BridgeRef} (hch : (s.scMap ref.nonce).isSome)
    (hfresh : s.bridge ref = none) (visitor origin : Obj) :
    (s.buildBridge ref visitor origin).ClosedUnder fun x => x = visitor ∨ x = origin := by
  rintro x y hx ⟨-, -, ref', b, hn, hb, hy⟩
  rw [(s.buildBridge_ends ref visitor origin).1 x hx, Option.some.injEq] at hn
  rw [← hn, buildBridge_bridge hch hfresh, if_pos rfl, Option.some.injEq] at hb
  rw [← hb] at hy
  exact hy

/-- Handles, notices and registration leave states, pools, queues and controls alone. -/
theorem affects_buildBridge {C : Obj → Prop} (s : NServer) (ref : BridgeRef)
    (visitor origin : Obj) : Affects C s (s.buildBridge ref visitor origin) := by
  have hconn : ∀ (s : NServer) o (f : Connection → Connection),
      (∀ c, (f c).state = c.state ∧ (f c).server = c.server ∧ (f c).connId = c.connId ∧
        (c.isControl = true → (f c).isControl = true)) → Affects C s (s.modifyConn o f) :=
    fun s o _ hf => .modifyConn s o hf
  have hregister : ∀ (s : NServer) b, Affects C s (s.registerBridgeCloser ref b) :=
    fun _ _ => .of_conns_eq rfl rfl
  rw [buildBridge]
  refine Affects.trans ?_ (hregister _ _)
  refine Affects.trans ?_ (hconn _ _ _ fun _ => ⟨rfl, rfl, rfl, fun h => h⟩)
  refine Affects.trans ?_ (hconn _ _ _ fun _ => ⟨rfl, rfl, rfl, fun h => h⟩)
  refine Affects.trans ?_ (hconn _ _ _ fun _ => ⟨rfl, rfl, rfl, fun h => h⟩)
  exact hconn _ _ _ fun _ => ⟨rfl, rfl, rfl, fun h => h⟩

/-- START, what the visitor has sent, and the bridge if it was cut meanwhile: unless a
write to the open client fails nothing is closed. -/
theorem startBridge_closing {C : Obj → Prop} (held fr : Frame) {ref : BridgeRef}
    {visitor : Obj} (msg : Bytes) (hclosed : s.ClosedUnder C)
    (hbridge : s.bridge ref = some ⟨visitor, o⟩)
    (hforward : (s.conns visitor).onMessage = .forward o)
    (hC : s.IsOpen o ∧ (a.writeFails s.sends = true ∨
      (s.conns visitor).inputBuffer ≠ [] ∧ a.writeFails (s.sends + 1) = true) →
        C o ∧ (s.IsOpen visitor → C visitor)) :
    Closing C s (((s.send a held o msg).flush a held visitor).releaseBridge fr ref
      ⟨visitor, o⟩) := by
  have h₁ : Closing C s (s.send a held o msg) :=
    .send a held msg fun hf => ⟨hclosed, fun hopen => (hC ⟨hopen, .inl hf⟩).1⟩
  have hsends := send_sends (a := a) s held o msg
  have hbuf := send_inputBuffer (a := a) s held o msg visitor
  have hflush : (s.send a held o msg).flush a held visitor =
      (s.send a held o msg).forward a held visitor o := by
    rw [flush, h₁.onMessage_eq, hforward]
  have h₂ : Closing C (s.send a held o msg) ((s.send a held o msg).flush a held visitor) := by
    rw [hflush]
    refine .forward a held fun hdata hf =>
      ⟨h₁.closedUnder hclosed, fun hopen => (hC ⟨h₁.isOpen o hopen, .inr ⟨?_, ?_⟩⟩).1⟩
    · rwa [hbuf] at hdata
    · rwa [hsends] at hf
  have h := h₁.trans h₂
  refine h.trans ?_
  rw [releaseBridge]
  split
  · exact .refl _
  · rename_i hcut
    -- the bridge was cut, so a write to the open client has failed
    have hfails : s.IsOpen o ∧ (a.writeFails s.sends = true ∨
        (s.conns visitor).inputBuffer ≠ [] ∧ a.writeFails (s.sends + 1) = true) := by
      by_contra hno
      have hsend : (s.send a held o msg).scMap = s.scMap :=
        send_scMap (fun hopen hf => hno ⟨hopen, .inl hf⟩) held msg
      have hforward : ((s.send a held o msg).forward a held visitor o).scMap =
          (s.send a held o msg).scMap := by
        refine forward_scMap (fun hdata hopen hf => hno ⟨h₁.isOpen o hopen, .inr ⟨?_, ?_⟩⟩) held
        · rwa [hbuf] at hdata
        · rwa [hsends] at hf
      rw [hflush, bridge_of_scMap_eq hforward, bridge_of_scMap_eq hsend, hbridge] at hcut
      cases hcut
    obtain ⟨ho, hvisitor⟩ := hC hfails
    exact .destroyBridgeWith (fun fr s o hcl ho => .handleClose fr hcl ho) fr
      (h.closedUnder hclosed) (fun hopen => hvisitor (h.isOpen _ hopen)) (fun _ => ho)

theorem handleDataChannelHello_effect {fr : Frame} {nonce : Bytes}
    (huuid : (s.queue nonce).head?.isSome → s.bridge ⟨nonce, a.uuid⟩ = none)
    (hok : s.handleDataChannelHello a fr o nonce = .ok s') :
    ∃ visitor, (s.queue nonce).head? = some visitor ∧
      Affects (fun x => (s.IsOpen o ∧ (a.writeFails s.sends = true ∨
          (s.conns visitor).inputBuffer ≠ [] ∧ a.writeFails (s.sends + 1) = true)) ∧
        s.IsOpen x ∧ (x = visitor ∨ x = o)) s s' ∧
      (∀ n, s'.control n = s.control n) ∧ ∀ n p, p ∈ s.queue n → p ∈ s'.queue n ∨ p = visitor := by
  unfold handleDataChannelHello at hok
  cases hch : s.scMap nonce with
  | none => simp [hch] at hok
  | some ch =>
    cases hq : ch.waitHandleVisitors with
    | nil => simp [hch, hq] at hok
    | cons visitor rest =>
      simp only [hch, hq] at hok
      have hok := eq_of_outlives hok
      have hhead : (s.queue nonce).head? = some visitor := by simp [queue_eq hch, hq]
      refine ⟨visitor, hhead, ?_⟩
      have huuid := huuid (by rw [hhead, Option.isSome_some])
      have hpop : ∀ {C}, Affects C s ((s.popVisitor nonce visitor o rest).drawUuid a.uuid) :=
        .of_conns_eq rfl rfl
      have hqueue : ∀ n, ((s.popVisitor nonce visitor o rest).drawUuid a.uuid).queue n =
          if n = nonce then rest else s.queue n := popVisitor_queue hch visitor o rest
      have hcontrol : ∀ n, ((s.popVisitor nonce visitor o rest).drawUuid a.uuid).control n =
          s.control n := by
        intro n
        apply map_modifyChannel_scMap
        intro ch
        rfl
      have hsends : ((s.popVisitor nonce visitor o rest).drawUuid a.uuid).sends = s.sends := rfl
      have hbuf : ((((s.popVisitor nonce visitor o rest).drawUuid a.uuid).buildBridge
          ⟨nonce, a.uuid⟩ visitor o).conns visitor).inputBuffer = (s.conns visitor).inputBuffer :=
        buildBridge_inputBuffer _ _ visitor o visitor
      have hch₂ : (((s.popVisitor nonce visitor o rest).drawUuid a.uuid).scMap nonce).isSome := by
        simp [drawUuid, popVisitor, modifyChannel_scMap, hch]
      have hfresh : ((s.popVisitor nonce visitor o rest).drawUuid a.uuid).bridge ⟨nonce, a.uuid⟩ =
          none := by
        rw [bridge_eq hch] at huuid
        simp [drawUuid, bridge, popVisitor, modifyChannel_scMap, hch, huuid]
      generalize (s.popVisitor nonce visitor o rest).drawUuid a.uuid = s₂ at *
      have hbuild : ∀ {C}, Affects C s (s₂.buildBridge ⟨nonce, a.uuid⟩ visitor o) :=
        hpop.trans (affects_buildBridge s₂ _ visitor o)
      have hopen : ∀ x, IsOpen (s₂.buildBridge ⟨nonce, a.uuid⟩ visitor o) x → s.IsOpen x :=
        (hbuild (C := fun _ => True)).isOpen
      -- from here on only the two ends can be closed
      have hclosing := startBridge_closing (a := a)
        (C := fun x => (s.IsOpen o ∧ (a.writeFails s.sends = true ∨
            (s.conns visitor).inputBuffer ≠ [] ∧ a.writeFails (s.sends + 1) = true)) ∧
          s.IsOpen x ∧ (x = visitor ∨ x = o)) ⟨visitor :: fr.conns, a.uuid :: fr.bridges⟩
        ⟨visitor :: fr.conns, fr.bridges⟩ (headerInstaller startForwardTcp.serializeAsString)
        (fun x y hx hxy => ⟨hx.1, hopen y hxy.2.1,
          closedUnder_buildBridge hch₂ hfresh visitor o x y hx.2.2 hxy⟩)
        ((buildBridge_bridge hch₂ hfresh visitor o _).trans (if_pos rfl))
        (s₂.buildBridge_ends ⟨nonce, a.uuid⟩ visitor o).2
        (fun hf => by
          rw [hbuf] at hf
          have hfails := And.intro (hopen o hf.1) (hsends ▸ hf.2)
          exact ⟨⟨hfails, hfails.1, .inr rfl⟩, fun hv => ⟨hfails, hopen _ hv, .inl rfl⟩⟩)
      rw [hok] at hclosing
      refine ⟨hbuild.trans hclosing.toAffects, fun n => ?_, fun n p hp => ?_⟩
      · rw [hclosing.control_eq, buildBridge_control, hcontrol]
      · rw [hclosing.queue_eq, buildBridge_queue, hqueue]
        split
        · rename_i hn
          rw [hn, queue_eq hch, hq, List.mem_cons] at hp
          exact hp.symm
        · exact .inl hp

/-- The answer may close the client; its channel is made all the same. -/
theorem handleControlChannelHello_effect {C : Obj → Prop} {fr : Frame} {name : Bytes}
    {port : UInt16} (hC : a.writeFails s.sends = true → s.ClosedUnder C ∧ (s.IsOpen o → C o))
    (hok : s.handleControlChannelHello a fr o name port = .ok s') :
    Affects C s s' ∧ (∀ n c, s.control n = some c → s'.control n = some c) ∧
      (∀ n c, s'.control n = some c → s.control n = some c ∨ c = o) ∧
      ∀ n p, p ∈ s.queue n → p ∈ s'.queue n := by
  unfold handleControlChannelHello at hok
  dsimp only at hok
  have hdraw : Closing C s (s.drawUuid a.uuid) := .drawUuid s a.uuid
  have hsent := hdraw.trans (.send a fr (o := o)
    (headerInstaller (controlHello a.uuid).serializeAsString) fun hf =>
      ⟨hdraw.closedUnder (hC hf).1, (hC hf).2⟩)
  generalize (s.drawUuid a.uuid).send a fr o
    (headerInstaller (controlHello a.uuid).serializeAsString) = s₁ at *
  split at hok
  · cases hok
  split at hok
  · cases hok
  · rw [Except.ok.injEq] at hok
    subst hok
    rw [emplaceChannel]
    split
    -- a nonce that is taken keeps its channel
    · refine ⟨hsent.toAffects, fun n c hc => ?_, fun n c hc => .inl ?_, fun n p hp => ?_⟩
      · rwa [hsent.control_eq]
      · rwa [hsent.control_eq] at hc
      · rwa [hsent.queue_eq]
    · rename_i hfree
      have hnone : s₁.scMap a.uuid = none := by simpa using hfree
      have hcontrol : Affects C s₁ (s₁.modifyConn o fun c => { c with isControl := true }) :=
        .modifyConn s₁ o fun _ => ⟨rfl, rfl, rfl, fun _ => rfl⟩
      refine ⟨hsent.toAffects.trans (hcontrol.trans (.of_conns_eq rfl rfl)), fun n c hc => ?_,
        fun n c hc => ?_, fun n p hp => ?_⟩
      · rw [← hsent.control_eq] at hc
        simp only [control, Function.update_apply]
        split
        · rename_i hn
          rw [hn, control, hnone] at hc
          cases hc
        · exact hc
      · simp only [control, Function.update_apply] at hc
        split at hc
        · right
          simpa using hc.symm
        · rw [← hsent.control_eq]
          exact .inl hc
      · rw [← hsent.queue_eq] at hp
        simp only [queue, Function.update_apply]
        split
        · rename_i hn
          rw [hn, queue, hnone] at hp
          simp at hp
        · exact hp

end Greeting

section Events

variable (pb : Protobuf) {s s' : NServer}

/-- The message that a read event gives to `handle_new_connection`. -/
def greeting (s : NServer) (o : Obj) (reads : List Bytes) : Option Hello :=
  if (s.conns o).onMessage = .handleNewConnection then
    (attemptBytes ((s.conns o).inputBuffer ++ reads.flatten)).1.map fun p => (pb.parseHello p).2
  else none

/-- What an event closes is among these: an open connection that is at its end or refuses
a write, and where that can spread. -/
def Closes (s : NServer) : Event → Obj → Prop
  | .accept srv _ _ a, x => a.writeFails s.sends = true ∧
      ∃ nonce c, srv = .proxy nonce ∧ s.control nonce = some c ∧ s.Cuts c x
  | .readable o reads e a, x =>
      e = .closed ∧ s.Cuts o x ∨
      (∃ peer, (s.conns o).onMessage = .forward peer ∧
        (s.conns o).inputBuffer ++ reads.flatten ≠ [] ∧ a.writeFails s.sends = true ∧
        s.Cuts peer x) ∨
      (∃ hello, s.greeting pb o reads = some hello ∧ hello.helloType = .controlChannelHello ∧
        a.writeFails s.sends = true ∧ s.Cuts o x) ∨
      ∃ visitor, s.nextVisitor pb o reads = some visitor ∧ e = .again ∧ s.IsOpen o ∧
        (a.writeFails s.sends = true ∨ (visitor ≠ o → (s.conns visitor).inputBuffer ≠ []) ∧
          a.writeFails (s.sends + 1) = true) ∧ s.IsOpen x ∧ (x = visitor ∨ x = o)

/-- The UUID drawn for a new bridge is not the id of another one. -/
def UuidFresh (s : NServer) : Event → Prop
  | .accept _ _ _ _ => True
  | .readable o reads _ a =>
      (s.nextVisitor pb o reads).isSome → ∀ nonce, s.bridge ⟨nonce, a.uuid⟩ = none

/-- After the read the connection may be closed; handles, queues and counters are as they were. -/
theorem readNonBlocking_closing {C : Obj → Prop} (fr : Frame) (o : Obj) (reads : List Bytes)
    (e : ReadEnd) (hC : e = .closed → s.ClosedUnder C ∧ (s.IsOpen o → C o)) :
    Closing C s (s.readNonBlocking fr o reads e) ∧
      (s.readNonBlocking fr o reads e).sends = s.sends ∧
      ∀ p, ((s.readNonBlocking fr o reads e).conns p).inputBuffer =
        ((s.afterReads o reads).conns p).inputBuffer := by
  have hread : Closing C s (s.afterReads o reads) := .setInput s o (· ++ reads.flatten)
  cases e with
  | again =>
    rw [readNonBlocking_again]
    exact ⟨hread, rfl, fun _ => rfl⟩
  | closed =>
    obtain ⟨hclosed, ho⟩ := hC rfl
    rw [readNonBlocking_closed]
    refine ⟨hread.trans (.handleClose fr (hread.closedUnder hclosed) fun hopen =>
      ho (hread.isOpen o hopen)), ?_, ?_⟩
    · exact untouched_sends.handleClose _ _ _
    · intro p
      exact (untouched_inputBuffer p).handleClose _ _ o

/-- The handler of the connection and its buffer, after the read. -/
theorem readNonBlocking_ready (s : NServer) (fr : Frame) (o : Obj) (reads : List Bytes) (e : ReadEnd) :
    ((s.readNonBlocking fr o reads e).conns o).onMessage = (s.conns o).onMessage ∧
      ((s.readNonBlocking fr o reads e).conns o).inputBuffer =
        (s.conns o).inputBuffer ++ reads.flatten := by
  obtain ⟨h, -, hbufs⟩ := s.readNonBlocking_closing (C := fun _ => True) fr o reads e
    fun _ => ⟨fun _ _ _ _ => trivial, fun _ => trivial⟩
  exact ⟨h.onMessage_eq o, (hbufs o).trans (s.afterReads_inputBuffer o reads)⟩

/-- A connection that is open after the read has not met its end. -/
theorem again_of_readNonBlocking_isOpen {fr : Frame} {o : Obj} {reads : List Bytes} {e : ReadEnd}
    (h : IsOpen (s.readNonBlocking fr o reads e) o) : e = .again := by
  cases e with
  | again => rfl
  | closed =>
    rw [readNonBlocking_closed] at h
    exact absurd h (handleClose_not_isOpen _ fr o)

/-- What a read event does, whatever the state. -/
structure ReadEffect (s : NServer) (o : Obj) (reads : List Bytes) (e : ReadEnd) (a : Answers)
    (s' : NServer) : Prop where
  affects : Affects (s.Closes pb (.readable o reads e a)) s s'
  control_kept : ∀ n c, s.control n = some c → s'.control n = some c
  control_new : ∀ n c, s'.control n = some c → s.control n = some c ∨ c = o ∧
    ∃ hello, s.greeting pb o reads = some hello ∧ hello.helloType = .controlChannelHello
  queue_kept : ∀ n p, p ∈ s.queue n → p ∈ s'.queue n ∨ s.nextVisitor pb o reads = some p

section Read

variable {pb} {o : Obj} {reads : List Bytes} {e : ReadEnd} {a : Answers}

/-- Closing and sending alone change neither queues nor controls. -/
theorem ReadEffect.of_closing (h : Closing (s.Closes pb (.readable o reads e a)) s s') :
    s.ReadEffect pb o reads e a s' where
  affects := h.toAffects
  control_kept n c hc := by rwa [h.control_eq]
  control_new n c hc := by
    rw [h.control_eq] at hc
    exact .inl hc
  queue_kept n p hp := by
    rw [h.queue_eq]
    exact .inl hp

/-- A greeting, in the state `s₁` after the read. -/
theorem handleNewConnection_effect {s₁ : NServer} {fr : Frame}
    (hread : Closing (s.Closes pb (.readable o reads e a)) s s₁)
    (hbuf : (s₁.conns o).inputBuffer = (s.conns o).inputBuffer ++ reads.flatten)
    (hothers : ∀ p, p ≠ o → (s₁.conns p).inputBuffer = (s.conns p).inputBuffer)
    (hsends : s₁.sends = s.sends) (hagain : s₁.IsOpen o → e = .again)
    (hhandle : (s.conns o).onMessage = .handleNewConnection)
    (hfresh : (s.nextVisitor pb o reads).isSome → ∀ n, s₁.bridge ⟨n, a.uuid⟩ = none)
    (hok : s₁.handleNewConnection pb a fr o = .ok s') : s.ReadEffect pb o reads e a s' := by
  rw [handleNewConnection, hbuf] at hok
  rcases hat : attemptBytes ((s.conns o).inputBuffer ++ reads.flatten) with ⟨_ | payload, buf⟩
  · simp only [hat, Except.ok.injEq] at hok
    exact .of_closing (hok ▸ hread.trans (.setInput s₁ o fun _ => buf))
  · simp only [hat] at hok
    have hset : Closing (s.Closes pb (.readable o reads e a)) s₁
        (s₁.modifyConn o fun c => { c with inputBuffer := buf }) := .setInput s₁ o fun _ => buf
    have hinput := hread.trans hset
    have hgreeting : s.greeting pb o reads = some (pb.parseHello payload).2 := by
      rw [greeting, if_pos hhandle, hat, Option.map_some]
    obtain ⟨s₂, hs₂⟩ : ∃ s₂, s₂ = s₁.modifyConn o fun c => { c with inputBuffer := buf } := ⟨_, rfl⟩
    have hsends₂ : s₂.sends = s.sends := hs₂ ▸ hsends
    have hfresh₂ : (s.nextVisitor pb o reads).isSome → ∀ n, s₂.bridge ⟨n, a.uuid⟩ = none :=
      fun hv n => hs₂ ▸ hfresh hv n
    rw [← hs₂] at hset hinput hok
    cases ht : (pb.parseHello payload).2.helloType with
    | unnamed v =>
      simp only [ht, Except.ok.injEq] at hok
      exact .of_closing (hok ▸ hinput)
    | controlChannelHello =>
      simp only [ht] at hok
      have hcuts := hinput.closedUnder (s.closedUnder_cuts o)
      obtain ⟨haffects, hkept, hnew, hqueue⟩ := handleControlChannelHello_effect
        (C := fun x => a.writeFails s.sends = true ∧ s.Cuts o x)
        (fun hf => ⟨fun x y hx hxy => ⟨hx.1, hcuts x y hx.2 hxy⟩, fun hopen =>
          ⟨hsends₂ ▸ hf, hinput.isOpen o hopen, .refl⟩⟩) hok
      refine ⟨hinput.toAffects.trans (haffects.mono fun x hx => ?_), fun n c hc => ?_,
        fun n c hc => ?_, fun n p hp => .inl ?_⟩
      · exact .inr (.inr (.inl ⟨_, hgreeting, ht, hx⟩))
      · exact hkept n c ((hinput.control_eq n).trans hc)
      · rcases hnew n c hc with hc | hc
        · exact .inl ((hinput.control_eq n).symm.trans hc)
        · exact .inr ⟨hc, _, hgreeting, ht⟩
      · rw [← hinput.queue_eq] at hp
        exact hqueue n p hp
    | dataChannelHello =>
      simp only [ht] at hok
      have hnextVisitor : s.nextVisitor pb o reads =
          (s₂.queue (pb.parseHello payload).2.digest).head? := by
        rw [nextVisitor, if_pos hhandle, hinput.queue_eq]
        simp only [hat, ht, if_true]
      obtain ⟨visitor, hvisitor, haffects, hcontrol, hqueue⟩ :=
        handleDataChannelHello_effect (fun hv => hfresh₂ (hnextVisitor ▸ hv) _) hok
      have hnext := hnextVisitor.trans hvisitor
      refine ⟨hinput.toAffects.trans (haffects.mono fun x hx => ?_), fun n c hc => ?_,
        fun n c hc => .inl ?_, fun n p hp => ?_⟩
      · rw [hsends₂] at hx
        obtain ⟨⟨ho, hfails⟩, hopen, hend⟩ := hx
        refine .inr (.inr (.inr ⟨visitor, hnext, hagain (hset.isOpen o ho), hinput.isOpen o ho,
          hfails.imp_right fun hf => ⟨fun hv => ?_, hf.2⟩, hinput.isOpen x hopen, hend⟩))
        rw [hs₂, modifyConn_conns, if_neg hv, hothers visitor hv] at hf
        exact hf.1
      · rwa [hcontrol, hinput.control_eq]
      · rwa [hcontrol, hinput.control_eq] at hc
      · rw [← hinput.queue_eq] at hp
        rcases hqueue n p hp with hp | rfl
        · exact .inl hp
        · exact .inr hnext

theorem handleDataIn_effect (huuid : s.UuidFresh pb (.readable o reads e a))
    (hok : s.handleDataIn pb a o reads e = .ok s') : s.ReadEffect pb o reads e a s' := by
  obtain ⟨h₁, hsends, hbufs⟩ := s.readNonBlocking_closing (C := fun x => e = .closed ∧ s.Cuts o x)
    ⟨[o], []⟩ o reads e fun he =>
      ⟨fun x y hx hxy => ⟨hx.1, s.closedUnder_cuts o x y hx.2 hxy⟩, fun hopen => ⟨he, hopen, .refl⟩⟩
  have hagain : IsOpen (s.readNonBlocking ⟨[o], []⟩ o reads e) o → e = .again :=
    again_of_readNonBlocking_isOpen
  have hbuf := (hbufs o).trans (s.afterReads_inputBuffer o reads)
  have hread := h₁.mono (D := s.Closes pb (.readable o reads e a)) fun _ hx => .inl hx
  rw [handleDataIn, handleMessage] at hok
  generalize s.readNonBlocking ⟨[o], []⟩ o reads e = s₁ at *
  cases hhandle : (s₁.conns o).onMessage with
  | unset =>
    simp only [hhandle, Except.ok.injEq] at hok
    exact .of_closing (hok ▸ hread)
  | forward peer =>
    simp only [hhandle] at hok
    have hforward : Closing (s.Closes pb (.readable o reads e a)) s₁ s' := by
      rw [← eq_of_outlives hok]
      -- what a failed write closes depends on the bridges before the read
      by_cases hf : (s₁.conns o).inputBuffer ≠ [] ∧ a.writeFails s₁.sends = true
      · refine Closing.mono (.forward a _ fun _ _ =>
          ⟨h₁.closedUnder (s.closedUnder_cuts peer), fun hopen => ⟨h₁.isOpen peer hopen, .refl⟩⟩)
          fun x hx => ?_
        rw [hsends, hbuf] at hf
        exact .inr (.inl ⟨peer, (h₁.onMessage_eq o).symm.trans hhandle, hf.1, hf.2, hx⟩)
      · exact .forward a _ fun hdata hfails => absurd ⟨hdata, hfails⟩ hf
    exact .of_closing (hread.trans hforward)
  | handleNewConnection =>
    simp only [hhandle] at hok
    refine handleNewConnection_effect hread hbuf (fun p hp => ?_) hsends hagain
      ((h₁.onMessage_eq o).symm.trans hhandle) (fun hv n => ?_) hok
    · rw [hbufs, afterReads_conns_of_ne s hp]
    · rw [Option.eq_none_iff_forall_ne_some]
      intro b hb
      have hn := huuid hv n
      rw [h₁.bridge_sub _ b hb] at hn
      cases hn

end Read

/-- A write after a change of a channel that lets nobody out of its queue. -/
theorem modifyChannel_send_effect (s : NServer) (nonce : Bytes) {f : SControlChannel → SControlChannel}
    (hclient : ∀ ch, (f ch).ncxClientConn = ch.ncxClientConn)
    (hclosers : ∀ ch, (f ch).bridgeClosers = ch.bridgeClosers)
    (hwaits : ∀ ch, ch.waitHandleVisitors ⊆ (f ch).waitHandleVisitors)
    (a : Answers) (fr : Frame) (c : Obj) (msg : Bytes) :
    Affects (fun x => a.writeFails s.sends = true ∧ s.Cuts c x) s
        ((s.modifyChannel nonce f).send a fr c msg) ∧
      (∀ n, ((s.modifyChannel nonce f).send a fr c msg).control n = s.control n) ∧
      ∀ n p, p ∈ s.queue n → p ∈ ((s.modifyChannel nonce f).send a fr c msg).queue n := by
  have hcutsOne : ∀ x y, (s.modifyChannel nonce f).CutsOne x y → s.CutsOne x y := by
    rintro x y ⟨hx, hy, ref, b, hn, hb, hend⟩
    exact ⟨hx, hy, ref, b, hn, (modifyChannel_bridge hclosers nonce ref) ▸ hb, hend⟩
  have hsend := Closing.send (C := fun x => a.writeFails s.sends = true ∧ s.Cuts c x)
    (s := s.modifyChannel nonce f) a fr msg fun hfails =>
      ⟨fun x y hx hxy => ⟨hx.1, s.closedUnder_cuts c x y hx.2 (hcutsOne x y hxy)⟩,
        fun hopen => ⟨hfails, hopen, .refl⟩⟩
  have hpush : ∀ {C}, Affects C s (s.modifyChannel nonce f) := .of_conns_eq rfl rfl
  refine ⟨hpush.trans hsend.toAffects, fun n => ?_, fun n p hp => ?_⟩
  · rw [hsend.control_eq]
    exact s.map_modifyChannel_scMap SControlChannel.ncxClientConn hclient nonce n
  · rw [hsend.queue_eq, queue, modifyChannel_scMap]
    split
    · rename_i hn
      subst hn
      cases hch : s.scMap n with
      | none => simp [queue, hch] at hp
      | some ch =>
        rw [queue_eq hch] at hp
        exact hwaits ch hp
    · exact hp

/-- Before the new connection is filed, the command for the client may have closed others. -/
theorem newConnectionHandle_effect (s : NServer) (a : Answers) (srv : ServerRef) {o : Obj}
    (hnew : (s.conns o).state = .connecting) (id : ConnId) :
    ∃ s₁, s.newConnectionHandle a srv o id =
        { s₁ with pools := Function.update s₁.pools srv ((s₁.pools srv).assign id o) } ∧
      Affects (s.Closes pb (.accept srv o id a))
        (s.modifyConn o fun _ => newConnection srv id) s₁ ∧
      (∀ n, s₁.control n = s.control n) ∧ ∀ n p, p ∈ s.queue n → p ∈ s₁.queue n := by
  obtain ⟨s₀, hs₀⟩ : ∃ s₀, s₀ = s.modifyConn o fun _ => newConnection srv id := ⟨_, rfl⟩
  have hscMap : s₀.scMap = s.scMap := hs₀ ▸ rfl
  have hsends : s₀.sends = s.sends := hs₀ ▸ rfl
  have hopen : ∀ x, s₀.IsOpen x → s.IsOpen x := by
    intro x hx
    by_cases hxo : x = o
    · simp [IsOpen, hxo, hnew]
    · rwa [IsOpen, hs₀, modifyConn_conns, if_neg hxo] at hx
  -- the new connection has no close notice
  have hcuts : ∀ x y, s₀.Cuts x y → s.Cuts x y := by
    intro x y hxy
    refine ⟨hopen x hxy.1, Relation.ReflTransGen.mono ?_ x y hxy.2⟩
    rintro x y ⟨hx, hy, ref, b, hn, hb, hend⟩
    rw [hs₀, modifyConn_conns] at hn
    split at hn
    · cases hn
    · exact ⟨hopen x hx, hopen y hy, ref, b, hn, (bridge_of_scMap_eq hscMap ref) ▸ hb, hend⟩
  unfold newConnectionHandle
  dsimp only
  rw [← hs₀]
  have hquiet : Affects (s.Closes pb (.accept srv o id a)) s₀ s₀ ∧
      (∀ n, s₀.control n = s.control n) ∧ ∀ n p, p ∈ s.queue n → p ∈ s₀.queue n :=
    ⟨.refl s₀, control_of_scMap_eq hscMap, fun n p hp => by rwa [queue_of_scMap_eq hscMap]⟩
  cases srv with
  | ncxAcceptor => exact ⟨s₀, rfl, hquiet⟩
  | proxy nonce =>
    dsimp only
    cases hch : s₀.scMap nonce with
    | none => exact ⟨s₀, rfl, hquiet⟩
    | some ch =>
      obtain ⟨haffects, hcontrol, hqueue⟩ := s₀.modifyChannel_send_effect nonce
        (f := fun ch => { ch with
          waitHandleVisitors := ch.waitHandleVisitors ++ [o]
          accepted := ch.accepted ++ [o] }) (fun _ => rfl) (fun _ => rfl)
        (fun _ => List.subset_append_left _ _) a ⟨[o], []⟩ ch.ncxClientConn
        (headerInstaller createDataChannel.serializeAsString)
      have hctl : s.control nonce = some ch.ncxClientConn := by
        rw [← control_of_scMap_eq hscMap]
        exact control_eq hch
      refine ⟨_, rfl, haffects.mono fun x hx => ?_, fun n => ?_, fun n p hp => ?_⟩
      · exact ⟨hsends ▸ hx.1, nonce, _, rfl, hctl, hcuts _ x hx.2⟩
      · exact (hcontrol n).trans (control_of_scMap_eq hscMap n)
      · exact hqueue n p (by rwa [queue_of_scMap_eq hscMap])

end Events

end NcxTunnel.NServer
