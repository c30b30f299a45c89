import NcxTunnel.CloseCascade

/-!
# The invariant of pools, queues and bridges

Registered bridges have two open ends.  Closing and sending keep the invariant,
so it also holds inside an event; there one connection may be established without
being in its pool yet.
-/

namespace NcxTunnel.NServer

/-! ## What channels hold -/

def queue (s : NServer) (nonce : Bytes) : List Obj :=
  ((s.scMap nonce).map SControlChannel.waitHandleVisitors).getD []

def control (s : NServer) (nonce : Bytes) : Option Obj :=
  (s.scMap nonce).map SControlChannel.ncxClientConn

theorem queue_of_scMap_eq {s s' : NServer} (h : s'.scMap = s.scMap) (nonce : Bytes) :
    s'.queue nonce = s.queue nonce := by
  rw [queue, queue, h]

theorem control_of_scMap_eq {s s' : NServer} (h : s'.scMap = s.scMap) (nonce : Bytes) :
    s'.control nonce = s.control nonce := by
  rw [control, control, h]

theorem queue_eq {s : NServer} {nonce : Bytes} {ch : SControlChannel}
    (h : s.scMap nonce = some ch) : s.queue nonce = ch.waitHandleVisitors := by
  simp [queue, h]

theorem control_eq {s : NServer} {nonce : Bytes} {ch : SControlChannel}
    (h : s.scMap nonce = some ch) : s.control nonce = some ch.ncxClientConn := by
  simp [control, h]

theorem bridge_eq {s : NServer} {nonce : Bytes} {ch : SControlChannel}
    (h : s.scMap nonce = some ch) (id : Bytes) : s.bridge ⟨nonce, id⟩ = ch.bridgeClosers id := by
  simp [bridge, h]

section Erase

variable (s : NServer) (ref : BridgeRef) (nonce : Bytes)

@[simp] theorem eraseBridgeCloser_queue :
    (s.eraseBridgeCloser ref).queue nonce = s.queue nonce := by
  apply congrArg (Option.getD · [])
  apply map_modifyChannel_scMap
  intro ch
  rfl

@[simp] theorem eraseBridgeCloser_control :
    (s.eraseBridgeCloser ref).control nonce = s.control nonce := by
  apply map_modifyChannel_scMap
  intro ch
  rfl

end Erase

/-! ## What closing and sending leave alone -/

/-- Handles, notices, queues and channels are untouched, no object is unmade, and
nothing happens to the connection that is not in its pool yet. -/
structure Keeps (pending : Option Obj) (s s' : NServer) : Prop where
  made : ∀ p, (s.conns p).state ≠ .connecting → (s'.conns p).state ≠ .connecting
  onMessage_eq : ∀ p, (s'.conns p).onMessage = (s.conns p).onMessage
  notice_eq : ∀ p, (s'.conns p).noticeOnClose = (s.conns p).noticeOnClose
  queue_eq : ∀ nonce, s'.queue nonce = s.queue nonce
  drawn_eq : s'.drawn = s.drawn
  pending_eq : ∀ p, pending = some p → SameCore (s.conns p) (s'.conns p)

namespace Keeps

variable {pending : Option Obj} {s s' s'' : NServer}

theorem refl (s : NServer) : Keeps pending s s :=
  ⟨fun _ h => h, fun _ => rfl, fun _ => rfl, fun _ => rfl, rfl, fun _ _ => .refl _⟩

theorem trans (h : Keeps pending s s') (h' : Keeps pending s' s'') : Keeps pending s s'' :=
  ⟨fun p hp => h'.made p (h.made p hp), fun p => (h'.onMessage_eq p).trans (h.onMessage_eq p),
    fun p => (h'.notice_eq p).trans (h.notice_eq p), fun n => (h'.queue_eq n).trans (h.queue_eq n),
    h'.drawn_eq.trans h.drawn_eq, fun p hp => (h.pending_eq p hp).trans (h'.pending_eq p hp)⟩

theorem closeOne (s : NServer) {o : Obj} (ho : pending ≠ some o) :
    Keeps pending s (s.closeOne o) := by
  refine ⟨fun p hp => ?_, fun p => ?_, fun p => ?_, fun _ => rfl, rfl, fun p hp => ?_⟩
  · rw [closeOne_conns]
    split
    · simp
    · exact hp
  · exact s.closeOne_keeps Connection.onMessage (fun _ => rfl) o p
  · exact s.closeOne_keeps Connection.noticeOnClose (fun _ => rfl) o p
  · have hpo : p ≠ o := by
      rintro rfl
      exact ho hp
    rw [closeOne_conns_of_ne s hpo]
    exact .refl _

theorem eraseBridgeCloser (s : NServer) (ref : BridgeRef) :
    Keeps pending s (s.eraseBridgeCloser ref) :=
  ⟨fun _ h => h, fun _ => rfl, fun _ => rfl, eraseBridgeCloser_queue s ref, rfl,
    fun _ _ => .refl _⟩

theorem of_sameCore (hcore : ∀ p, SameCore (s.conns p) (s'.conns p)) (hscMap : s'.scMap = s.scMap)
    (hdrawn : s'.drawn = s.drawn) : Keeps pending s s' :=
  ⟨fun p hp => by rwa [(hcore p).state_eq], fun p => (hcore p).onMessage_eq,
    fun p => (hcore p).notice_eq, queue_of_scMap_eq hscMap, hdrawn, fun p _ => hcore p⟩

end Keeps

/-- `pending` is the connection that is established but not yet in its pool. -/
structure Inv (pending : Option Obj) (s : NServer) : Prop where
  filed : ∀ {srv id o}, s.pools srv id = some o →
    (s.conns o).server = srv ∧ (s.conns o).connId = id ∧ (s.conns o).state = .connected
  pooled : ∀ {o}, (s.conns o).state = .connected → pending ≠ some o →
    s.pools (s.conns o).server (s.conns o).connId = some o
  pending_new : ∀ {o}, pending = some o → s.pools (s.conns o).server (s.conns o).connId = none
  settled : ∀ o, (s.conns o).state ≠ .disconnecting
  ends : ∀ {ref b}, s.bridge ref = some b → s.Bridged ref b.bridgeInside b.bridgeOutside
  notice_drawn : ∀ {o ref}, (s.conns o).noticeOnClose = some ref → ref.bridgeId ∈ s.drawn
  notice_end : ∀ {o ref b}, (s.conns o).noticeOnClose = some ref → s.bridge ref = some b →
    o = b.bridgeInside ∨ o = b.bridgeOutside
  notice_forward : ∀ {o ref}, (s.conns o).noticeOnClose = some ref →
    ∃ p, (s.conns o).onMessage = .forward p
  forward_made : ∀ {o p}, (s.conns o).onMessage = .forward p → (s.conns p).state ≠ .connecting
  waiting : ∀ {nonce o}, o ∈ s.queue nonce → (s.conns o).onMessage = .unset ∧
    (s.conns o).server = .proxy nonce ∧ (s.conns o).state ≠ .connecting
  waiting_nodup : ∀ nonce, (s.queue nonce).Nodup
  control_made : ∀ {nonce c}, s.control nonce = some c → (s.conns c).state ≠ .connecting
  unmade : ∀ {o}, (s.conns o).state = .connecting → s.conns o = .none

theorem new_inv (port : UInt16) : (new port).Inv none := by
  constructor <;> simp [new, Connection.none, bridge, queue, control]

namespace Inv

variable {pending : Option Obj} {s s' : NServer} {o p : Obj} {ref : BridgeRef}

/-- Changes that do not concern bridges. -/
theorem congr (h : s.Inv pending) (hcore : ∀ p, SameCore (s.conns p) (s'.conns p))
    (hmade : ∀ p, (s.conns p).state = .connecting → s'.conns p = s.conns p)
    (hpools : s'.pools = s.pools) (hbridge : ∀ r, s'.bridge r = s.bridge r)
    (hqueue : ∀ nonce, s'.queue nonce = s.queue nonce)
    (hcontrol : ∀ {nonce c}, s'.control nonce = some c → (s.conns c).state ≠ .connecting)
    (hdrawn : s.drawn ⊆ s'.drawn) : s'.Inv pending where
  filed {srv id o} ho := by
    rw [hpools] at ho
    rw [(hcore o).server_eq, (hcore o).connId_eq, (hcore o).state_eq]
    exact h.filed ho
  pooled {o} ho hne := by
    rw [(hcore o).state_eq] at ho
    rw [hpools, (hcore o).server_eq, (hcore o).connId_eq, h.pooled ho hne]
  pending_new {o} ho := by
    rw [hpools, (hcore o).server_eq, (hcore o).connId_eq, h.pending_new ho]
  settled o := by
    rw [(hcore o).state_eq]
    exact h.settled o
  ends {ref b} hb := by
    rw [hbridge] at hb
    exact (h.ends hb).congr hcore hpools (hbridge ref) hdrawn
  notice_drawn {o ref} hn := by
    rw [(hcore o).notice_eq] at hn
    exact hdrawn (h.notice_drawn hn)
  notice_end {o ref b} hn hb := by
    rw [(hcore o).notice_eq] at hn
    rw [hbridge] at hb
    exact h.notice_end hn hb
  notice_forward {o ref} hn := by
    rw [(hcore o).notice_eq] at hn
    rw [(hcore o).onMessage_eq]
    exact h.notice_forward hn
  forward_made {o p} ho := by
    rw [(hcore o).onMessage_eq] at ho
    rw [(hcore p).state_eq]
    exact h.forward_made ho
  waiting {nonce o} ho := by
    rw [hqueue] at ho
    rw [(hcore o).onMessage_eq, (hcore o).server_eq, (hcore o).state_eq]
    exact h.waiting ho
  waiting_nodup nonce := by
    rw [hqueue]
    exact h.waiting_nodup nonce
  control_made {nonce c} hc := by
    rw [(hcore c).state_eq]
    exact hcontrol hc
  unmade {o} ho := by
    rw [(hcore o).state_eq] at ho
    rw [hmade o ho, h.unmade ho]

/-- The channels themselves are not touched. -/
theorem congr_conns (h : s.Inv pending) (hcore : ∀ p, SameCore (s.conns p) (s'.conns p))
    (hmade : ∀ p, (s.conns p).state = .connecting → s'.conns p = s.conns p)
    (hpools : s'.pools = s.pools) (hscMap : s'.scMap = s.scMap) (hdrawn : s.drawn ⊆ s'.drawn) :
    s'.Inv pending :=
  h.congr hcore hmade hpools (bridge_of_scMap_eq hscMap) (queue_of_scMap_eq hscMap)
    (fun hc => h.control_made ((control_of_scMap_eq hscMap _).symm.trans hc)) hdrawn

/-- An end of a registered bridge belongs to no other bridge. -/
theorem not_end_of_ne (h : s.Inv pending) {r : BridgeRef} {b b' : BridgeCloser}
    (hb : s.bridge ref = some b) (hb' : s.bridge r = some b')
    (ho : o = b.bridgeInside ∨ o = b.bridgeOutside)
    (ho' : o = b'.bridgeInside ∨ o = b'.bridgeOutside) : r = ref := by
  have hnotice : ∀ {r : BridgeRef} {b : BridgeCloser}, s.bridge r = some b →
      o = b.bridgeInside ∨ o = b.bridgeOutside → (s.conns o).noticeOnClose = some r := by
    intro r b hb ho
    rcases ho with rfl | rfl
    · exact (h.ends hb).end_left.notice_eq
    · exact (h.ends hb).end_right.notice_eq
  have h₁ := hnotice hb ho
  rw [hnotice hb' ho', Option.some.injEq] at h₁
  exact h₁

theorem eraseBridgeCloser (h : s.Inv pending) (ref : BridgeRef) :
    (s.eraseBridgeCloser ref).Inv pending := by
  have hsub : ∀ {r b}, (s.eraseBridgeCloser ref).bridge r = some b → s.bridge r = some b := by
    intro r b hb
    rw [eraseBridgeCloser_bridge] at hb
    split at hb
    · cases hb
    · exact hb
  exact {
    filed := h.filed
    pooled := h.pooled
    pending_new := h.pending_new
    settled := h.settled
    ends := fun {r b} hb => by
      have he := h.ends (hsub hb)
      exact ⟨he.ne, .inl hb, ⟨he.end_left.connected, he.end_left.pooled, he.end_left.onMessage_eq,
        he.end_left.notice_eq⟩, ⟨he.end_right.connected, he.end_right.pooled,
        he.end_right.onMessage_eq, he.end_right.notice_eq⟩, he.drawn⟩
    notice_drawn := h.notice_drawn
    notice_end := fun hn hb => h.notice_end hn (hsub hb)
    notice_forward := h.notice_forward
    forward_made := h.forward_made
    waiting := fun {nonce o} ho => h.waiting (by rwa [eraseBridgeCloser_queue] at ho)
    waiting_nodup := fun nonce => by rw [eraseBridgeCloser_queue]; exact h.waiting_nodup nonce
    control_made := fun {nonce c} hc => h.control_made (by rwa [eraseBridgeCloser_control] at hc)
    unmade := h.unmade }

/-- Closing a connection that is not an end of a registered bridge. -/
theorem closeOne (h : s.Inv pending) (ho : (s.conns o).state = .connected)
    (hp : pending ≠ some o)
    (hend : ∀ ref b, s.bridge ref = some b → o ≠ b.bridgeInside ∧ o ≠ b.bridgeOutside) :
    (s.closeOne o).Inv pending := by
  have hpool := h.pooled ho hp
  have hst : ∀ {p}, ((s.closeOne o).conns p).state = .connected →
      p ≠ o ∧ (s.conns p).state = .connected := by
    intro p hp
    rw [closeOne_conns] at hp
    split at hp
    · cases hp
    · exact ⟨‹_›, hp⟩
  have hkeeps : Keeps pending s (s.closeOne o) := .closeOne s hp
  have hserver := s.closeOne_keeps (fun c => (c.server, c.connId)) (fun _ => rfl) o
  simp only [Prod.mk.injEq] at hserver
  have hopen : ∀ {p}, p ≠ o → (s.conns p).state = .connected → pending ≠ some p →
      (s.closeOne o).pools ((s.closeOne o).conns p).server ((s.closeOne o).conns p).connId =
        some p :=
    fun hne hp hpend => closeOne_pooled hne hpool (h.pooled hp hpend)
  exact {
    filed := fun {srv id p} hfile => by
      rw [closeOne_pools] at hfile
      split at hfile
      · cases hfile
      · rename_i hkey
        have hne : p ≠ o := by
          intro hpo
          obtain ⟨hs, hi, -⟩ := h.filed hfile
          exact hkey ⟨hpo ▸ hs.symm, hpo ▸ hi.symm⟩
        rw [closeOne_conns_of_ne s hne]
        exact h.filed hfile
    pooled := fun {p} hp hpend => hopen (hst hp).1 (hst hp).2 hpend
    pending_new := fun {p} hp => by
      rw [(hserver p).1, (hserver p).2, closeOne_pools, h.pending_new hp, ite_self]
    settled := fun p => by
      rw [closeOne_conns]
      split
      · simp
      · exact h.settled p
    ends := fun {r b} hb => by
      have he := h.ends hb
      obtain ⟨hin, hout⟩ := hend r b hb
      -- ends of other bridges are filed under other keys, so they keep their places
      have hkeep : ∀ {x y}, x ≠ o → s.End r x y → (s.closeOne o).End r x y := by
        intro x y hx hxy
        refine ⟨?_, closeOne_pooled hx hpool hxy.pooled, ?_, ?_⟩
        · rw [closeOne_conns_of_ne s hx, hxy.connected]
        · rw [hkeeps.onMessage_eq, hxy.onMessage_eq]
        · rw [hkeeps.notice_eq, hxy.notice_eq]
      exact ⟨he.ne, he.registered, hkeep hin.symm he.end_left, hkeep hout.symm he.end_right,
        he.drawn⟩
    notice_drawn := fun hn => h.notice_drawn (by rwa [hkeeps.notice_eq] at hn)
    notice_end := fun hn hb => h.notice_end (by rwa [hkeeps.notice_eq] at hn) hb
    notice_forward := fun {p r} hn => by
      rw [hkeeps.notice_eq] at hn
      rw [hkeeps.onMessage_eq]
      exact h.notice_forward hn
    forward_made := fun {p q} hp => hkeeps.made _ (h.forward_made (by rwa [hkeeps.onMessage_eq] at hp))
    waiting := fun {nonce p} hp => by
      obtain ⟨hu, hsrv, hm⟩ := h.waiting hp
      exact ⟨by rw [hkeeps.onMessage_eq, hu], by rw [(hserver p).1, hsrv], hkeeps.made _ hm⟩
    waiting_nodup := h.waiting_nodup
    control_made := fun hc => hkeeps.made _ (h.control_made hc)
    unmade := fun {p} hp => by
      by_cases hpo : p = o
      · subst hpo
        simp [closeOne_conns] at hp
      · rw [closeOne_conns_of_ne s hpo] at hp ⊢
        exact h.unmade hp }

end Inv

/-! ## Closing and sending keep it -/

section Close

variable {pending : Option Obj} {s : NServer} (fr : Frame) {o peer : Obj} {ref : BridgeRef}

/-- Closing an established connection: alone, or with the other end of its bridge. -/
theorem Inv.handleCloseFuel_cases (h : s.Inv pending) (ho : (s.conns o).state = .connected)
    {fuel : ℕ} (hfuel : s.drawn.length < fuel) :
    handleCloseFuel fuel fr s o = s.closeOne o ∧
      (∀ ref b, s.bridge ref = some b → o ≠ b.bridgeInside ∧ o ≠ b.bridgeOutside) ∨
    ∃ ref p, s.Bridged ref o p ∧
      (handleCloseFuel fuel fr s o = (s.eraseBridgeCloser ref).closeOne o ∨
        handleCloseFuel fuel fr s o = ((s.eraseBridgeCloser ref).closeOne o).closeOne p) := by
  obtain ⟨fuel, rfl⟩ : ∃ k, fuel = k + 1 := ⟨fuel - 1, by omega⟩
  by_cases hreg : ∃ ref b, (s.conns o).noticeOnClose = some ref ∧ s.bridge ref = some b
  · obtain ⟨ref, b, hn, hb⟩ := hreg
    obtain ⟨p, hbr⟩ : ∃ p, s.Bridged ref o p := by
      rcases h.notice_end hn hb with rfl | rfl
      · exact ⟨_, h.ends hb⟩
      · exact ⟨_, (h.ends hb).symm⟩
    refine .inr ⟨ref, p, hbr, ?_⟩
    by_cases hheld : ref.bridgeId ∈ fr.bridges
    · exact .inl (handleCloseFuel_held hbr hheld)
    · have hpos := List.length_pos_of_mem hbr.drawn
      obtain ⟨k, rfl⟩ : ∃ k, fuel = k + 1 := ⟨fuel - 1, by omega⟩
      exact .inr (handleCloseFuel_bridged hbr hheld)
  · refine .inl ⟨handleCloseFuel_single (by simp [ho]) fun r hr => ?_, fun r b hb => ?_⟩
    · rw [Option.eq_none_iff_forall_ne_some]
      exact fun b hb => hreg ⟨r, b, hr, hb⟩
    · constructor
      · rintro rfl
        exact hreg ⟨r, b, (h.ends hb).end_left.notice_eq, hb⟩
      · rintro rfl
        exact hreg ⟨r, b, (h.ends hb).end_right.notice_eq, hb⟩

theorem Inv.handleClose (h : s.Inv pending) (hmade : (s.conns o).state ≠ .connecting)
    (hp : pending ≠ some o) :
    (s.handleClose fr o).Inv pending ∧ Keeps pending s (s.handleClose fr o) := by
  cases hst : (s.conns o).state with
  | connecting => exact absurd hst hmade
  | disconnecting => exact absurd hst (h.settled o)
  | disconnected =>
    have he : s.handleClose fr o = s := by rw [NServer.handleClose, handleCloseFuel, if_pos hst]
    rw [he]
    exact ⟨h, .refl s⟩
  | connected =>
    have hnone : ∀ {p}, s.pools (s.conns p).server (s.conns p).connId = some p →
        pending ≠ some p := by
      intro p hpool hpend
      rw [h.pending_new hpend] at hpool
      cases hpool
    unfold NServer.handleClose
    rcases h.handleCloseFuel_cases fr hst (Nat.lt_succ_self _) with ⟨he, hend⟩ | ⟨ref, p, hbr, he⟩
    · rw [he]
      exact ⟨h.closeOne hst hp hend, .closeOne s hp⟩
    · -- once the bridge is off the map, neither end is an end of a registered one
      have herase := h.eraseBridgeCloser ref
      obtain ⟨b, hb, hob, hpb⟩ : ∃ b, s.bridge ref = some b ∧
          (o = b.bridgeInside ∨ o = b.bridgeOutside) ∧
          (p = b.bridgeInside ∨ p = b.bridgeOutside) := by
        rcases hbr.registered with hb | hb
        · exact ⟨_, hb, .inl rfl, .inr rfl⟩
        · exact ⟨_, hb, .inr rfl, .inl rfl⟩
      have hfree : ∀ {x}, (x = b.bridgeInside ∨ x = b.bridgeOutside) → ∀ r b',
          (s.eraseBridgeCloser ref).bridge r = some b' →
          x ≠ b'.bridgeInside ∧ x ≠ b'.bridgeOutside := by
        intro x hx r b' hb'
        rw [eraseBridgeCloser_bridge] at hb'
        split at hb'
        · cases hb'
        · rename_i hr
          exact ⟨fun hxi => hr (h.not_end_of_ne hb hb' hx (.inl hxi)),
            fun hxo => hr (h.not_end_of_ne hb hb' hx (.inr hxo))⟩
      have hfirst := herase.closeOne hbr.end_left.connected hp (hfree hob)
      have hkeeps : Keeps pending s ((s.eraseBridgeCloser ref).closeOne o) :=
        (Keeps.eraseBridgeCloser s ref).trans (.closeOne _ hp)
      rcases he with he | he
      · rw [he]
        exact ⟨hfirst, hkeeps⟩
      · rw [he]
        have hpp := hnone hbr.end_right.pooled
        refine ⟨hfirst.closeOne ?_ hpp (hfree hpb), hkeeps.trans (.closeOne _ hpp)⟩
        rw [closeOne_conns_of_ne _ hbr.ne.symm]
        exact hbr.end_right.connected

variable {a : Answers}

theorem Inv.send (h : s.Inv pending) (hmade : (s.conns o).state ≠ .connecting)
    (hp : pending ≠ some o) (msg : Bytes) :
    (s.send a fr o msg).Inv pending ∧ Keeps pending s (s.send a fr o msg) := by
  have hcore := logSend_sameCore s o msg
  have hlog : (s.logSend o msg).Inv pending := by
    refine h.congr_conns hcore (fun p hpc => ?_) rfl rfl (List.Subset.refl _)
    have hpo : p ≠ o := by
      rintro rfl
      exact hmade hpc
    simp [logSend, modifyConn_conns, hpo]
  have hkeeps : Keeps pending s (s.logSend o msg) := .of_sameCore hcore rfl rfl
  unfold NServer.send
  split
  · obtain ⟨hi, hk⟩ := hlog.handleClose fr (hkeeps.made o hmade) hp
    exact ⟨hi, hkeeps.trans hk⟩
  · exact ⟨hlog, hkeeps⟩

theorem Inv.setInput (h : s.Inv pending) (hmade : (s.conns o).state ≠ .connecting)
    (g : Bytes → Bytes) :
    (s.modifyConn o fun c => { c with inputBuffer := g c.inputBuffer }).Inv pending ∧
      Keeps pending s (s.modifyConn o fun c => { c with inputBuffer := g c.inputBuffer }) := by
  have hcore := setInput_sameCore s o g
  refine ⟨h.congr_conns hcore (fun p hpc => ?_) rfl rfl (List.Subset.refl _),
    .of_sameCore hcore rfl rfl⟩
  have hpo : p ≠ o := by
    rintro rfl
    exact hmade hpc
  rw [modifyConn_conns, if_neg hpo]

theorem Inv.forward (h : s.Inv none) (hmade : (s.conns o).state ≠ .connecting)
    (hpeer : (s.conns o).onMessage = .forward peer) :
    (s.forward a fr o peer).Inv none ∧ Keeps none s (s.forward a fr o peer) := by
  unfold NServer.forward
  split
  · obtain ⟨hi, hk⟩ := h.setInput hmade fun _ => []
    obtain ⟨hi', hk'⟩ := hi.send { fr with conns := peer :: fr.conns }
      (hk.made peer (h.forward_made hpeer)) (by simp) (s.conns o).inputBuffer
    exact ⟨hi', hk.trans hk'⟩
  · exact ⟨h, .refl s⟩

/-- Destroying a bridge that is off the map closes the ends that are still open. -/
theorem Inv.destroyBridge (h : s.Inv none) {b : BridgeCloser} (hb : s.bridge ref = none)
    (hends : ∀ x, x = b.bridgeInside ∨ x = b.bridgeOutside →
      (s.conns x).noticeOnClose = some ref ∧ (s.conns x).state ≠ .connecting) :
    (destroyBridgeWith (fun fr s o => s.handleClose fr o) fr s b).Inv none := by
  have hone : ∀ t : NServer, t.Inv none → t.bridge ref = none → ∀ x,
      (t.conns x).noticeOnClose = some ref → (t.conns x).state ≠ .connecting →
      ∃ t', (if t.lock fr x then forceCloseWith
          (fun s o => s.handleClose { fr with conns := x :: fr.conns } o) t x else t) = t' ∧
        t'.Inv none ∧ t'.bridge ref = none ∧ Keeps none t t' := by
    intro t ht htb x hn hm
    have hsingle : ∀ r, (t.conns x).noticeOnClose = some r → t.bridge r = none := by
      intro r hr
      rw [hn, Option.some.injEq] at hr
      exact hr ▸ htb
    split
    · cases hst : (t.conns x).state with
      | connecting => exact absurd hst hm
      | disconnecting => exact absurd hst (ht.settled x)
      | disconnected =>
        exact ⟨t, forceCloseWith_disconnected hst, ht, htb, .refl t⟩
      | connected =>
        refine ⟨t.closeOne x, ?_, ht.closeOne hst (by simp) fun r b' hb' => ?_, htb,
          .closeOne t (by simp)⟩
        · exact forceClose_single hst hsingle
        · have hne : ∀ {y}, (t.conns y).noticeOnClose = some r → x ≠ y := by
            rintro y hy rfl
            rw [hsingle r hy] at hb'
            cases hb'
          exact ⟨hne (ht.ends hb').end_left.notice_eq, hne (ht.ends hb').end_right.notice_eq⟩
    · exact ⟨t, rfl, ht, htb, .refl t⟩
  obtain ⟨hni, hmi⟩ := hends _ (.inl rfl)
  obtain ⟨hno, hmo⟩ := hends _ (.inr rfl)
  obtain ⟨t₁, he₁, h₁, hb₁, hk₁⟩ := hone s h hb b.bridgeInside hni hmi
  obtain ⟨t₂, he₂, h₂, -, -⟩ := hone t₁ h₁ hb₁ b.bridgeOutside
    ((hk₁.notice_eq _).trans hno) (hk₁.made _ hmo)
  rw [destroyBridgeWith]
  simp only [he₁, he₂]
  exact h₂

end Close

end NcxTunnel.NServer
