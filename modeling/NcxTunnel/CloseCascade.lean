import NcxTunnel.NServer

/-!
# Closing a connection and its bridge

What `handle_close` does in the situations that occur: the connection has no
bridge (any more), it is one end of a registered bridge, or it is one end of a
bridge that is just being set up.
-/

namespace NcxTunnel.NServer

/-- The connection leaves its pool and the poller, for good. -/
def closeOne (s : NServer) (o : Obj) : NServer :=
  let c := s.conns o
  { s with
    pools := Function.update s.pools c.server ((s.pools c.server).erase c.connId)
    conns := Function.update s.conns o { c with
      state := .disconnected
      isEpolled := false
      closedAt := c.closedAt ++ [c.sent] } }

/-- The connection is established and in its pool, and set up as an end of the bridge. -/
structure End (s : NServer) (ref : BridgeRef) (o peer : Obj) : Prop where
  connected : (s.conns o).state = .connected
  pooled : s.pools (s.conns o).server (s.conns o).connId = some o
  onMessage_eq : (s.conns o).onMessage = .forward peer
  notice_eq : (s.conns o).noticeOnClose = some ref

/-- The two connections are the ends of a registered bridge. -/
structure Bridged (s : NServer) (ref : BridgeRef) (o peer : Obj) : Prop where
  ne : o ≠ peer
  registered : s.bridge ref = some ⟨o, peer⟩ ∨ s.bridge ref = some ⟨peer, o⟩
  end_left : s.End ref o peer
  end_right : s.End ref peer o
  drawn : ref.bridgeId ∈ s.drawn

theorem Bridged.symm {s : NServer} {ref : BridgeRef} {o peer : Obj} (h : s.Bridged ref o peer) :
    s.Bridged ref peer o := ⟨h.ne.symm, h.registered.symm, h.end_right, h.end_left, h.drawn⟩

section Access

variable (s : NServer)

theorem modifyConn_conns (o p : Obj) (f : Connection → Connection) :
    (s.modifyConn o f).conns p = if p = o then f (s.conns o) else s.conns p := by
  simp [modifyConn, Function.update_apply]

/-- What a change of a connection leaves alone is as it was in every connection. -/
theorem field_update {α : Type*} (conns : Obj → Connection) (g : Connection → α) {o : Obj}
    {c : Connection} (hc : g c = g (conns o)) (p : Obj) :
    g (Function.update conns o c p) = g (conns p) := by
  rw [Function.apply_update (fun _ => g), hc, Function.update_eq_self o fun q => g (conns q)]

theorem modifyConn_field {α : Type*} {o : Obj} {f : Connection → Connection} (g : Connection → α)
    (hg : ∀ c, g (f c) = g c) (p : Obj) : g ((s.modifyConn o f).conns p) = g (s.conns p) :=
  field_update s.conns g (hg _) p

theorem modifyChannel_scMap (nonce n : Bytes) (f : SControlChannel → SControlChannel) :
    (s.modifyChannel nonce f).scMap n =
      if n = nonce then (s.scMap nonce).map f else s.scMap n := by
  simp [modifyChannel, Function.update_apply]

/-- What a change of a channel leaves alone is as it was in every channel. -/
theorem map_modifyChannel_scMap {α : Type*} {f : SControlChannel → SControlChannel}
    (g : SControlChannel → α) (hg : ∀ ch, g (f ch) = g ch) (nonce n : Bytes) :
    ((s.modifyChannel nonce f).scMap n).map g = (s.scMap n).map g := by
  rw [modifyChannel_scMap]
  split
  · rename_i hn
    rw [hn, Option.map_map]
    exact congrArg (fun g => (s.scMap nonce).map g) (funext hg)
  · rfl

theorem closeOne_conns (o p : Obj) : (s.closeOne o).conns p =
    if p = o then { s.conns o with
      state := .disconnected
      isEpolled := false
      closedAt := (s.conns o).closedAt ++ [(s.conns o).sent] } else s.conns p := by
  simp [closeOne, Function.update_apply]

theorem closeOne_conns_of_ne {o p : Obj} (h : p ≠ o) : (s.closeOne o).conns p = s.conns p := by
  rw [closeOne_conns, if_neg h]

/-- What a close leaves alone is as it was on every connection. -/
theorem closeOne_keeps {α : Type*} (g : Connection → α)
    (hg : ∀ c : Connection, g { c with
      state := .disconnected
      isEpolled := false
      closedAt := c.closedAt ++ [c.sent] } = g c) (o p : Obj) :
    g ((s.closeOne o).conns p) = g (s.conns p) := by
  rw [closeOne_conns]
  split
  · rename_i hp
    rw [hp]
    exact hg (s.conns o)
  · rfl

theorem closeOne_pools (o : Obj) (srv : ServerRef) (id : ConnId) : (s.closeOne o).pools srv id =
    if srv = (s.conns o).server ∧ id = (s.conns o).connId then none else s.pools srv id := by
  by_cases hsrv : srv = (s.conns o).server
  · simp [closeOne, hsrv, Connections.erase_apply]
  · simp [closeOne, hsrv]

@[simp] theorem closeOne_scMap (o : Obj) : (s.closeOne o).scMap = s.scMap := rfl

theorem bridge_of_scMap_eq {s s' : NServer} (h : s'.scMap = s.scMap) (ref : BridgeRef) :
    s'.bridge ref = s.bridge ref := by
  rw [bridge, bridge, h]

theorem eraseBridgeCloser_bridge (ref r : BridgeRef) :
    (s.eraseBridgeCloser ref).bridge r = if r = ref then none else s.bridge r := by
  obtain ⟨n, i⟩ := ref
  obtain ⟨m, j⟩ := r
  simp only [bridge, eraseBridgeCloser, modifyChannel_scMap, BridgeRef.mk.injEq]
  by_cases hm : m = n
  · subst hm
    by_cases hj : j = i
    · simp [hj]
    · cases s.scMap m <;> simp [hj]
  · simp [hm]

@[simp] theorem eraseBridgeCloser_conns (ref : BridgeRef) :
    (s.eraseBridgeCloser ref).conns = s.conns := rfl

/-- What a close does not write on a connection is never changed by closing. -/
theorem untouched_field {α : Type} (g : Connection → α)
    (hg : ∀ (c : Connection) st ep cl,
      g { c with state := st, isEpolled := ep, closedAt := cl } = g c) (p : Obj) :
    Untouched fun s => g (s.conns p) := by
  refine ⟨fun s o => ?_, fun s o st => ?_, fun _ _ => rfl⟩
  · exact field_update s.conns g (hg _ _ _ _) p
  · exact field_update s.conns g (hg _ _ _ _) p

theorem untouched_inputBuffer (p : Obj) : Untouched fun s => (s.conns p).inputBuffer :=
  untouched_field Connection.inputBuffer (fun _ _ _ _ => rfl) p

theorem lock_of_pooled {s : NServer} {fr : Frame} {o : Obj}
    (h : s.pools (s.conns o).server (s.conns o).connId = some o) : s.lock fr o = true := by
  simp [lock, inPool, h]

/-- Two connections that are both in their pools are filed under different keys. -/
theorem pool_key_ne {s : NServer} {o p : Obj} (hne : p ≠ o)
    (ho : s.pools (s.conns o).server (s.conns o).connId = some o)
    (hp : s.pools (s.conns p).server (s.conns p).connId = some p) :
    ¬((s.conns p).server = (s.conns o).server ∧ (s.conns p).connId = (s.conns o).connId) := by
  intro ⟨hs, hi⟩
  rw [hs, hi, ho, Option.some.injEq] at hp
  exact hne hp.symm

theorem closeOne_pooled {s : NServer} {o p : Obj} (hne : p ≠ o)
    (ho : s.pools (s.conns o).server (s.conns o).connId = some o)
    (hp : s.pools (s.conns p).server (s.conns p).connId = some p) :
    (s.closeOne o).pools ((s.closeOne o).conns p).server ((s.closeOne o).conns p).connId =
      some p := by
  rw [closeOne_conns_of_ne s hne, closeOne_pools, if_neg (pool_key_ne hne ho hp), hp]

end Access

/-! ## The cascade -/

section Cascade

variable {s : NServer} {fr : Frame} {o peer : Obj} {ref : BridgeRef} {fuel : ℕ}

theorem setState_closeOne (st : ConnectionState) : (s.setState o st).closeOne o = s.closeOne o := by
  simp [closeOne, setState, modifyConn]

/-- Without a registered bridge only the connection itself is affected. -/
theorem handleCloseFuel_single (hst : (s.conns o).state ≠ .disconnected)
    (hn : ∀ ref, (s.conns o).noticeOnClose = some ref → s.bridge ref = none) :
    handleCloseFuel (fuel + 1) fr s o = s.closeOne o := by
  have hset : (s.disconnectHandle o).setState o .disconnected = s.closeOne o := by
    simp [closeOne, setState, modifyConn, disconnectHandle]
  have hnotice : ((s.disconnectHandle o).conns o).noticeOnClose = (s.conns o).noticeOnClose := by
    simp [disconnectHandle]
  rw [handleCloseFuel, if_neg hst]
  simp only [hnotice]
  cases he : (s.conns o).noticeOnClose with
  | none => exact hset
  | some ref =>
    have hb : (s.disconnectHandle o).bridge ref = none := hn ref he
    simp only [noticeWith, hb]
    exact hset

theorem forceCloseWith_single (hst : (s.conns o).state = .connected)
    (hn : ∀ ref, (s.conns o).noticeOnClose = some ref → s.bridge ref = none) :
    forceCloseWith (handleCloseFuel (fuel + 1) fr) s o = s.closeOne o := by
  have hconn : (s.setState o .disconnecting).conns o =
      { s.conns o with state := .disconnecting } := by
    simp [setState, modifyConn]
  rw [forceCloseWith, if_pos (.inl hst), handleCloseFuel_single, setState_closeOne]
  · simp [hconn]
  · rw [hconn]
    exact hn

theorem forceClose_single (hst : (s.conns o).state = .connected)
    (hn : ∀ ref, (s.conns o).noticeOnClose = some ref → s.bridge ref = none) :
    forceCloseWith (fun s o => s.handleClose fr o) s o = s.closeOne o :=
  @forceCloseWith_single s fr o s.drawn.length hst hn

theorem forceCloseWith_disconnected {close : NServer → Obj → NServer}
    (hst : (s.conns o).state = .disconnected) : forceCloseWith close s o = s := by
  simp [forceCloseWith, hst]

/-- The destructor closes the end that is still open, wherever it stands in the bridge. -/
theorem destroyBridgeWith_eq {close : Frame → NServer → Obj → NServer} {b : BridgeCloser}
    (hne : o ≠ peer) (hb : b = ⟨o, peer⟩ ∨ b = ⟨peer, o⟩) (ho : (s.conns o).state = .disconnected)
    (hlock : s.lock fr peer = true)
    (hclose : forceCloseWith (close { fr with conns := peer :: fr.conns }) s peer =
      s.closeOne peer) :
    destroyBridgeWith close fr s b = s.closeOne peer := by
  have hdone : ∀ t : NServer, (t.conns o).state = .disconnected →
      (if t.lock fr o then forceCloseWith (close { fr with conns := o :: fr.conns }) t o else t) =
        t := by
    intro t ht
    rw [forceCloseWith_disconnected ht, ite_self]
  have hopen : (if s.lock fr peer then
      forceCloseWith (close { fr with conns := peer :: fr.conns }) s peer else s) =
      s.closeOne peer := by
    rw [if_pos hlock, hclose]
  -- `force_close` on the end that is closed already does nothing
  rcases hb with rfl | rfl
  · rw [destroyBridgeWith]
    simp only [hdone s ho, hopen]
  · rw [destroyBridgeWith]
    simp only [hopen]
    exact hdone _ (by rw [closeOne_conns_of_ne s hne, ho])

/-- From an established connection, everything up to the notice. -/
theorem disconnectHandle_of_connected (hst : (s.conns o).state = .connected) :
    s.disconnectHandle o = s.closeOne o := by
  simp [disconnectHandle, closeOne, hst]

theorem closeOne_setState : (s.closeOne o).setState o .disconnected = s.closeOne o := by
  simp [closeOne, setState, modifyConn]

theorem closeOne_eraseBridgeCloser :
    (s.closeOne o).eraseBridgeCloser ref = (s.eraseBridgeCloser ref).closeOne o := rfl

/-- Once the bridge is off the map, nothing is left to notify. -/
theorem Bridged.unregistered (h : s.Bridged ref o peer) (x : Obj) (r : BridgeRef)
    (hr : (((s.eraseBridgeCloser ref).closeOne x).conns peer).noticeOnClose = some r) :
    ((s.eraseBridgeCloser ref).closeOne x).bridge r = none := by
  rw [closeOne_keeps _ Connection.noticeOnClose (fun _ => rfl), eraseBridgeCloser_conns,
    h.end_right.notice_eq, Option.some.injEq] at hr
  rw [← hr, bridge_of_scMap_eq (closeOne_scMap _ _), eraseBridgeCloser_bridge, if_pos rfl]

/-- A bridge that is being set up is only taken off the map. -/
theorem handleCloseFuel_held (h : s.Bridged ref o peer) (hheld : ref.bridgeId ∈ fr.bridges) :
    handleCloseFuel (fuel + 1) fr s o = (s.eraseBridgeCloser ref).closeOne o := by
  have hst := h.end_left.connected
  have hnotice : ((s.closeOne o).conns o).noticeOnClose = some ref := by
    simp [closeOne_conns, h.end_left.notice_eq]
  obtain ⟨b, hb⟩ : ∃ b, s.bridge ref = some b := by
    rcases h.registered with hb | hb
    · exact ⟨_, hb⟩
    · exact ⟨_, hb⟩
  have hb' : (s.closeOne o).bridge ref = some b := hb
  rw [handleCloseFuel, if_neg (by simp [hst]), disconnectHandle_of_connected hst]
  simp only [hnotice, noticeWith, hb', if_pos hheld]
  rw [closeOne_eraseBridgeCloser, closeOne_setState]

/-- Closing one end of a bridge closes the other one and takes the bridge off the map. -/
theorem handleCloseFuel_bridged (h : s.Bridged ref o peer) (hheld : ref.bridgeId ∉ fr.bridges) :
    handleCloseFuel (fuel + 2) fr s o =
      ((s.eraseBridgeCloser ref).closeOne o).closeOne peer := by
  have hst := h.end_left.connected
  have hnotice : ((s.closeOne o).conns o).noticeOnClose = some ref := by
    simp [closeOne_conns, h.end_left.notice_eq]
  obtain ⟨b, hb, hends⟩ : ∃ b, s.bridge ref = some b ∧ (b = ⟨o, peer⟩ ∨ b = ⟨peer, o⟩) := by
    rcases h.registered with hb | hb
    · exact ⟨_, hb, .inl rfl⟩
    · exact ⟨_, hb, .inr rfl⟩
  have hb' : (s.closeOne o).bridge ref = some b := hb
  rw [handleCloseFuel, if_neg (by simp [hst]), disconnectHandle_of_connected hst]
  simp only [hnotice, noticeWith, hb', if_neg hheld, closeOne_eraseBridgeCloser]
  -- the peer is closed one level down, where its notice finds no bridge
  have hpeer : ((s.eraseBridgeCloser ref).closeOne o).conns peer = s.conns peer :=
    closeOne_conns_of_ne _ h.ne.symm
  rw [destroyBridgeWith_eq h.ne hends]
  · simp [setState, modifyConn, closeOne, h.ne]
  · simp [closeOne_conns]
  · exact lock_of_pooled (closeOne_pooled h.ne.symm h.end_left.pooled h.end_right.pooled)
  · exact forceCloseWith_single (hpeer ▸ h.end_right.connected) (h.unregistered o)

end Cascade

/-- The connections agree in what bridges depend on. -/
structure SameCore (c c' : Connection) : Prop where
  connId_eq : c'.connId = c.connId
  state_eq : c'.state = c.state
  onMessage_eq : c'.onMessage = c.onMessage
  server_eq : c'.server = c.server
  notice_eq : c'.noticeOnClose = c.noticeOnClose

theorem SameCore.refl (c : Connection) : SameCore c c := ⟨rfl, rfl, rfl, rfl, rfl⟩

theorem SameCore.trans {c c' c'' : Connection} (h : SameCore c c') (h' : SameCore c' c'') :
    SameCore c c'' :=
  ⟨h'.connId_eq.trans h.connId_eq, h'.state_eq.trans h.state_eq,
    h'.onMessage_eq.trans h.onMessage_eq, h'.server_eq.trans h.server_eq,
    h'.notice_eq.trans h.notice_eq⟩

theorem modifyConn_sameCore {s : NServer} {o : Obj} {f : Connection → Connection}
    (hf : ∀ c, SameCore c (f c)) (p : Obj) : SameCore (s.conns p) ((s.modifyConn o f).conns p) := by
  rw [modifyConn_conns]
  split
  · rename_i hp
    exact hp ▸ hf _
  · exact .refl _

theorem setInput_sameCore (s : NServer) (o : Obj) (g : Bytes → Bytes) (p : Obj) :
    SameCore (s.conns p)
      ((s.modifyConn o fun c => { c with inputBuffer := g c.inputBuffer }).conns p) := by
  apply modifyConn_sameCore
  intro c
  exact ⟨rfl, rfl, rfl, rfl, rfl⟩

theorem logSend_sameCore (s : NServer) (o : Obj) (msg : Bytes) (p : Obj) :
    SameCore (s.conns p) ((s.logSend o msg).conns p) := by
  apply modifyConn_sameCore (f := fun c => { c with sent := c.sent ++ msg })
  intro c
  exact ⟨rfl, rfl, rfl, rfl, rfl⟩

theorem End.congr {s s' : NServer} {ref : BridgeRef} {o peer : Obj} (h : s.End ref o peer)
    (hcore : SameCore (s.conns o) (s'.conns o)) (hpools : s'.pools = s.pools) :
    s'.End ref o peer where
  connected := hcore.state_eq.trans h.connected
  pooled := by rw [hpools, hcore.server_eq, hcore.connId_eq, h.pooled]
  onMessage_eq := hcore.onMessage_eq.trans h.onMessage_eq
  notice_eq := hcore.notice_eq.trans h.notice_eq

theorem Bridged.congr {s s' : NServer} {ref : BridgeRef} {o peer : Obj} (h : s.Bridged ref o peer)
    (hcore : ∀ p, SameCore (s.conns p) (s'.conns p)) (hpools : s'.pools = s.pools)
    (hbridge : s'.bridge ref = s.bridge ref) (hdrawn : s.drawn ⊆ s'.drawn) :
    s'.Bridged ref o peer where
  ne := h.ne
  registered := by
    rw [hbridge]
    exact h.registered
  end_left := h.end_left.congr (hcore o) hpools
  end_right := h.end_right.congr (hcore peer) hpools
  drawn := hdrawn h.drawn

/-! ## Forwarding, and the end of a bridge -/

section Drain

variable {s : NServer} {ref : BridgeRef} {o peer : Obj} (pb : Protobuf) {a : Answers}

/-- The bytes read on `o` are in its buffer. -/
def afterReads (s : NServer) (o : Obj) (reads : List Bytes) : NServer :=
  s.modifyConn o fun c => { c with inputBuffer := c.inputBuffer ++ reads.flatten }

theorem readNonBlocking_again (s : NServer) (fr : Frame) (o : Obj) (reads : List Bytes) :
    s.readNonBlocking fr o reads .again = s.afterReads o reads := rfl

theorem readNonBlocking_closed (s : NServer) (fr : Frame) (o : Obj) (reads : List Bytes) :
    s.readNonBlocking fr o reads .closed = (s.afterReads o reads).handleClose fr o := rfl

theorem afterReads_inputBuffer (s : NServer) (o : Obj) (reads : List Bytes) :
    ((s.afterReads o reads).conns o).inputBuffer = (s.conns o).inputBuffer ++ reads.flatten := by
  simp [afterReads, modifyConn]

theorem afterReads_conns_of_ne (s : NServer) {o p : Obj} (h : p ≠ o) (reads : List Bytes) :
    (s.afterReads o reads).conns p = s.conns p := by
  rw [afterReads, modifyConn_conns, if_neg h]

theorem afterReads_sameCore (s : NServer) (o : Obj) (reads : List Bytes) (p : Obj) :
    SameCore (s.conns p) ((s.afterReads o reads).conns p) :=
  setInput_sameCore s o (· ++ reads.flatten) p

theorem Bridged.afterReads (h : s.Bridged ref o peer) (reads : List Bytes) :
    (s.afterReads o reads).Bridged ref o peer :=
  h.congr (s.afterReads_sameCore o reads) rfl rfl (List.Subset.refl _)

/-- A read event that does not end the connection passes everything on. -/
theorem Bridged.handleDataIn_again (h : s.Bridged ref o peer) (hw : ∀ n, a.writeFails n = false)
    (reads : List Bytes) :
    ∃ s', s.handleDataIn pb a o reads .again = .ok s' ∧ s'.Bridged ref o peer ∧
      (s'.conns o).inputBuffer = [] ∧
      (s'.conns peer).sent = (s.conns peer).sent ++ ((s.conns o).inputBuffer ++ reads.flatten) ∧
      (s'.conns peer).closedAt = (s.conns peer).closedAt := by
  have hread := h.afterReads reads
  have hbuf := s.afterReads_inputBuffer o reads
  have hpeer := s.afterReads_conns_of_ne h.ne.symm reads
  have hrun : s.handleDataIn pb a o reads .again =
      .ok ((s.afterReads o reads).forward a ⟨[o], []⟩ o peer) := by
    simp only [handleDataIn, readNonBlocking_again, handleMessage, hread.end_left.onMessage_eq,
      outlives_of_writes hw]
  refine ⟨_, hrun, ?_⟩
  by_cases hempty : (s.conns o).inputBuffer ++ reads.flatten = []
  · rw [forward, if_neg (by simp [hbuf, hempty])]
    exact ⟨hread, hbuf.trans hempty, by rw [hpeer, hempty, List.append_nil], by rw [hpeer]⟩
  · rw [forward, if_pos ⟨by rwa [hbuf], lock_of_pooled hread.end_right.pooled⟩]
    simp only [send, hw, Bool.false_eq_true, if_false, hbuf]
    refine ⟨hread.congr (fun p => ?_) rfl rfl (List.Subset.refl _), ?_, ?_, ?_⟩
    · exact (setInput_sameCore _ o (fun _ => []) p).trans (logSend_sameCore _ peer _ p)
    · simp [logSend, modifyConn_conns, h.ne]
    · simp [logSend, modifyConn_conns, h.ne.symm, hpeer]
    · simp [logSend, modifyConn_conns, h.ne.symm, hpeer]

/-- When the read ends the connection, both ends are closed before the handler
runs: what is in the buffer then comes too late. -/
theorem Bridged.handleDataIn_closed (h : s.Bridged ref o peer) (hw : ∀ n, a.writeFails n = false)
    (reads : List Bytes) :
    ∃ s', s.handleDataIn pb a o reads .closed = .ok s' ∧
      (s'.conns peer).closedAt = (s.conns peer).closedAt ++ [(s.conns peer).sent] := by
  have hread := h.afterReads reads
  have hpeer := s.afterReads_conns_of_ne h.ne.symm reads
  obtain ⟨k, hk⟩ : ∃ k, (s.afterReads o reads).drawn.length = k + 1 :=
    Nat.exists_eq_succ_of_ne_zero (by
      have := List.length_pos_of_mem hread.drawn
      omega)
  have hclose : (s.afterReads o reads).handleClose ⟨[o], []⟩ o =
      (((s.afterReads o reads).eraseBridgeCloser ref).closeOne o).closeOne peer := by
    rw [handleClose, hk, handleCloseFuel_bridged hread (by simp)]
  generalize hs₁ : (((s.afterReads o reads).eraseBridgeCloser ref).closeOne o).closeOne peer = s₁
    at hclose
  have hclosed : (s₁.conns peer).closedAt = (s.conns peer).closedAt ++ [(s.conns peer).sent] := by
    rw [← hs₁, closeOne_conns, if_pos rfl, closeOne_conns_of_ne _ h.ne.symm,
      eraseBridgeCloser_conns, hpeer]
  have hhandle : (s₁.conns o).onMessage = .forward peer := by
    rw [← hs₁, closeOne_conns_of_ne _ h.ne, closeOne_conns, if_pos rfl]
    exact hread.end_left.onMessage_eq
  have hrun : s.handleDataIn pb a o reads .closed = .ok (s₁.forward a ⟨[o], []⟩ o peer) := by
    simp only [handleDataIn, readNonBlocking_closed, hclose, handleMessage, hhandle,
      outlives_of_writes hw]
  refine ⟨_, hrun, ?_⟩
  rw [forward]
  split
  · simp [send, hw, logSend, modifyConn_conns, h.ne.symm, hclosed]
  · exact hclosed

/-- Read events on one end of a bridge, the last of which ends the connection. -/
def drainEvents (o : Obj) (evs : List (List Bytes × Answers)) (last : List Bytes × Answers) :
    List Event :=
  evs.map (fun ev => .readable o ev.1 .again ev.2) ++ [.readable o last.1 .closed last.2]

theorem step_readable (reads : List Bytes) (e : ReadEnd) (hst : (s.conns o).state = .connected)
    (hpool : s.pools (s.conns o).server (s.conns o).connId = some o) :
    s.step pb (.readable o reads e a) = s.handleDataIn pb a o reads e := by
  rw [step, if_pos ⟨by simp [hst], lock_of_pooled hpool⟩]

theorem Bridged.run_drain (h : s.Bridged ref o peer) (evs : List (List Bytes × Answers))
    (last : List Bytes × Answers) (hw : ∀ ev ∈ evs, ∀ n, ev.2.writeFails n = false)
    (hlast : ∀ n, last.2.writeFails n = false) :
    ∃ s', run pb s (drainEvents o evs last) = .ok s' ∧
      (s'.conns peer).closedAt = (s.conns peer).closedAt ++ [(s.conns peer).sent ++
        if evs = [] then [] else (s.conns o).inputBuffer ++ (evs.map Prod.fst).flatten.flatten] := by
  induction evs generalizing s with
  | nil =>
    obtain ⟨s', hs', hc⟩ := h.handleDataIn_closed pb hlast last.1
    refine ⟨s', ?_, by simpa using hc⟩
    simp [drainEvents, run, step_readable pb _ _ h.end_left.connected h.end_left.pooled, hs']
  | cons ev evs ih =>
    obtain ⟨s₁, hs₁, hb, hbuf, hsent, hcl⟩ :=
      h.handleDataIn_again pb (hw ev List.mem_cons_self) ev.1
    obtain ⟨s', hs', hc⟩ := ih hb (fun e he => hw e (List.mem_cons_of_mem _ he))
    refine ⟨s', ?_, ?_⟩
    · have hstep := (step_readable pb ev.1 .again h.end_left.connected h.end_left.pooled).trans hs₁
      simp only [drainEvents, List.map_cons, List.cons_append, run, List.foldlM_cons, hstep]
      exact hs'
    · rw [hc, hcl, hsent, hbuf]
      by_cases hnil : evs = []
      · simp [hnil]
      · simp [hnil]

/-- Everything read from one end of a bridge is passed to `Send` of the other one
before that is closed, if and only if nothing is left to forward when the end of
file is met: the last call reads no data, and the buffer was empty before it. -/
theorem drained_before_close_iff (s : NServer) (ref : BridgeRef) (o peer : Obj)
    (h : s.Bridged ref o peer) (evs : List (List Bytes × Answers)) (last : List Bytes × Answers)
    (hw : ∀ ev ∈ evs, ∀ n, ev.2.writeFails n = false) (hlast : ∀ n, last.2.writeFails n = false) :
    ∃ s', run pb s (drainEvents o evs last) = .ok s' ∧
      ((s'.conns peer).closedAt = (s.conns peer).closedAt ++ [(s.conns peer).sent ++
          ((s.conns o).inputBuffer ++ ((evs ++ [last]).map Prod.fst).flatten.flatten)] ↔
        last.1.flatten = [] ∧ (evs = [] → (s.conns o).inputBuffer = [])) := by
  obtain ⟨s', hs', hc⟩ := h.run_drain pb evs last hw hlast
  refine ⟨s', hs', ?_⟩
  rw [hc]
  by_cases hnil : evs = []
  · simp [hnil]
    exact and_comm
  · simp [hnil]

def exampleRef : BridgeRef := ⟨exampleNonce, List.replicate 36 49⟩

theorem exampleTunnel_bridged : exampleTunnel.Bridged exampleRef 1 2 :=
  ⟨by decide, by decide +kernel,
    ⟨by decide +kernel, by decide +kernel, by decide +kernel, by decide +kernel⟩,
    ⟨by decide +kernel, by decide +kernel, by decide +kernel, by decide +kernel⟩,
    by decide +kernel⟩

/-- The visitor sends a byte, and its end of file comes in a call of its own. -/
theorem drained_before_close_iff_separate :
    ∃ s', run .wire exampleTunnel (drainEvents 1 [([[65]], .calm [])] ([], .calm [])) = .ok s' ∧
      (s'.conns 2).closedAt = (exampleTunnel.conns 2).closedAt ++
        [(exampleTunnel.conns 2).sent ++ ((exampleTunnel.conns 1).inputBuffer ++ [65])] := by
  obtain ⟨s', hs', hiff⟩ := drained_before_close_iff .wire exampleTunnel exampleRef 1 2
    exampleTunnel_bridged [([[65]], .calm [])] ([], .calm []) (by simp [Answers.calm])
    (fun _ => rfl)
  exact ⟨s', hs', hiff.mpr (by simp)⟩

/-- Byte and end of file in one call: the data channel is closed without the byte. -/
theorem drained_before_close_lost :
    exampleTunnel.Bridged exampleRef 1 2 ∧
      ∃ s', run .wire exampleTunnel (drainEvents 1 [] ([[65]], .calm [])) = .ok s' ∧
        (s'.conns 2).closedAt ≠ (exampleTunnel.conns 2).closedAt ++
          [(exampleTunnel.conns 2).sent ++ ((exampleTunnel.conns 1).inputBuffer ++ [65])] := by
  obtain ⟨s', hs', hc⟩ := exampleTunnel_bridged.run_drain .wire [] ([[65]], .calm []) (by simp)
    (fun _ => rfl)
  refine ⟨exampleTunnel_bridged, s', hs', ?_⟩
  simp [hc]

end Drain

end NcxTunnel.NServer
