import NcxTunnel.ServerStreams

/-!
# Every connection is closed once

`handle_close` runs from the poller, from a failed write and from the destructor
of a bridge closer, and closing one connection can close others.  Still
`on_close_` is called once for every connection that is closed, in every run:
registered bridges point back to themselves through the close notices of their ends,
so a bridge is cut before its ends are closed and no end is closed twice.
-/

namespace NcxTunnel.NServer

/-- Closing, seen from outside: established connections close and bridges go. -/
inductive Shut : NServer → NServer → Prop
  | close {s : NServer} (o : Obj) : (s.conns o).state = .connected → Shut s (s.closeOne o)
  | erase {s : NServer} (ref : BridgeRef) : Shut s (s.eraseBridgeCloser ref)

abbrev Shuts : NServer → NServer → Prop := Relation.ReflTransGen Shut

/-- The close notices of both ends of a registered bridge are its own. -/
def Wired (s : NServer) : Prop :=
  ∀ ref b, s.bridge ref = some b → (s.conns b.bridgeInside).noticeOnClose = some ref ∧
    (s.conns b.bridgeOutside).noticeOnClose = some ref ∧ ref.bridgeId ∈ s.drawn

/-- `on_close_` has run once if the connection is closed and not before, and the
poller watches it as long as it is established. -/
structure Settled (c : Connection) : Prop where
  state_ne : c.state ≠ .disconnecting
  closedAt_length : c.closedAt.length = if c.state = .disconnected then 1 else 0
  isEpolled_eq : c.isEpolled = decide (c.state = .connected)

structure Once (s : NServer) : Prop where
  settled : ∀ o, Settled (s.conns o)
  wired : s.Wired
  notice : ∀ o ref, (s.conns o).noticeOnClose = some ref → ∃ p, (s.conns o).onMessage = .forward p
  pooled : ∀ srv id o, s.pools srv id = some o → (s.conns o).state = .connected ∧
    (s.conns o).server = srv ∧ (s.conns o).connId = id

/-- What is closed stays closed, and `on_close_` is not called again. -/
def StaysClosed (s s' : NServer) : Prop :=
  ∀ o, (s.conns o).state = .disconnected →
    (s'.conns o).state = .disconnected ∧ (s'.conns o).closedAt = (s.conns o).closedAt

/-- What an operation of the server does as far as closing goes. -/
structure Onward (s s' : NServer) : Prop where
  once : s'.Once
  staysClosed : StaysClosed s s'

section Shuts

variable {s s' s'' : NServer} {o p : Obj} {fr : Frame} {a : Answers}

theorem StaysClosed.refl (s : NServer) : StaysClosed s s := fun _ h => ⟨h, rfl⟩

theorem StaysClosed.trans (h : StaysClosed s s') (h' : StaysClosed s' s'') : StaysClosed s s'' := by
  intro o ho
  obtain ⟨hst, hclosed⟩ := h o ho
  obtain ⟨hst', hclosed'⟩ := h' o hst
  exact ⟨hst', hclosed'.trans hclosed⟩

theorem Shut.staysClosed (h : Shut s s') : StaysClosed s s' := by
  cases h with
  | close o hst =>
    intro p hp
    rw [closeOne_conns_of_ne s (by rintro rfl; simp [hst] at hp)]
    exact ⟨hp, rfl⟩
  | erase ref => exact .refl s

theorem Shut.notice_eq (h : Shut s s') (p : Obj) :
    (s'.conns p).noticeOnClose = (s.conns p).noticeOnClose := by
  cases h with
  | close o hst => exact closeOne_keeps s Connection.noticeOnClose (fun _ => rfl) o p
  | erase ref => rfl

theorem Shut.bridge_sub (h : Shut s s') {ref : BridgeRef} {b : BridgeCloser}
    (hb : s'.bridge ref = some b) : s.bridge ref = some b := by
  cases h with
  | close o hst => exact hb
  | erase ref' =>
    rw [eraseBridgeCloser_bridge] at hb
    split at hb
    · cases hb
    · exact hb

theorem Shut.wired (h : Shut s s') (hs : s.Wired) : s'.Wired := by
  intro ref b hb
  rw [h.notice_eq, h.notice_eq]
  obtain ⟨hin, hout, hdrawn⟩ := hs ref b (h.bridge_sub hb)
  refine ⟨hin, hout, ?_⟩
  cases h with
  | close o hst => exact hdrawn
  | erase ref' => exact hdrawn

theorem Settled.closeOne (h : Settled (s.conns o)) (hst : (s.conns o).state = .connected) :
    Settled ((s.closeOne o).conns o) := by
  rw [closeOne_conns, if_pos rfl]
  refine ⟨by simp, ?_, by simp⟩
  have hlen := h.closedAt_length
  rw [hst, if_neg (by simp)] at hlen
  simp [hlen]

theorem Shut.once (h : Shut s s') (hs : s.Once) : s'.Once := by
  refine ⟨fun p => ?_, h.wired hs.wired, fun p ref => ?_, fun srv id p hp => ?_⟩
  · cases h with
    | close o hst =>
      by_cases hpo : p = o
      · subst hpo
        exact (hs.settled p).closeOne hst
      · rw [closeOne_conns_of_ne s hpo]
        exact hs.settled p
    | erase ref => exact hs.settled p
  · cases h with
    | close o hst =>
      rw [closeOne_keeps s Connection.noticeOnClose (fun _ => rfl),
        closeOne_keeps s Connection.onMessage (fun _ => rfl)]
      exact hs.notice p ref
    | erase ref' => exact hs.notice p ref
  · cases h with
    | close o hst =>
      rw [closeOne_pools] at hp
      split at hp
      · cases hp
      · rename_i hkey
        obtain ⟨hconn, hserver, hid⟩ := hs.pooled srv id p hp
        have hpo : p ≠ o := by
          rintro rfl
          exact hkey ⟨hserver.symm, hid.symm⟩
        rw [closeOne_conns_of_ne s hpo]
        exact ⟨hconn, hserver, hid⟩
    | erase ref => exact hs.pooled srv id p hp

theorem Shuts.once (h : Shuts s s') (hs : s.Once) : s'.Once := by
  induction h with
  | refl => exact hs
  | tail _ hshut ih => exact hshut.once ih

theorem Shuts.staysClosed (h : Shuts s s') : StaysClosed s s' := by
  induction h with
  | refl => exact .refl s
  | tail _ hshut ih => exact ih.trans hshut.staysClosed

theorem Shuts.notice_eq (h : Shuts s s') (p : Obj) :
    (s'.conns p).noticeOnClose = (s.conns p).noticeOnClose := by
  induction h with
  | refl => rfl
  | tail _ hshut ih => rw [hshut.notice_eq, ih]

/-- A close notice that finds no bridge finds none later. -/
theorem Shuts.unregistered (h : Shuts s s')
    (hn : ∀ ref, (s.conns p).noticeOnClose = some ref → s.bridge ref = none) (ref : BridgeRef)
    (hp : (s'.conns p).noticeOnClose = some ref) : s'.bridge ref = none := by
  rw [h.notice_eq] at hp
  have hnone := hn ref hp
  clear hp
  induction h with
  | refl => exact hnone
  | tail _ hshut ih =>
    rw [Option.eq_none_iff_forall_ne_some] at ih ⊢
    exact fun b hb => ih b (hshut.bridge_sub hb)

/-! ## `handle_close` -/

/-- The destructor of a bridge that is off the map closes the ends that are open. -/
theorem destroyBridge_shuts {close : Frame → NServer → Obj → NServer}
    (hclose : ∀ (fr : Frame) (s : NServer) o, (s.conns o).state = .connected →
      (∀ ref, (s.conns o).noticeOnClose = some ref → s.bridge ref = none) →
      forceCloseWith (close fr) s o = s.closeOne o) (hs : s.Once) (fr : Frame) {b : BridgeCloser}
    (hin : ∀ ref, (s.conns b.bridgeInside).noticeOnClose = some ref → s.bridge ref = none)
    (hout : ∀ ref, (s.conns b.bridgeOutside).noticeOnClose = some ref → s.bridge ref = none) :
    Shuts s (destroyBridgeWith close fr s b) := by
  have hone : ∀ (s : NServer) o, s.Once →
      (∀ ref, (s.conns o).noticeOnClose = some ref → s.bridge ref = none) →
      Shuts s (if s.lock fr o then
        forceCloseWith (close { fr with conns := o :: fr.conns }) s o else s) := by
    intro s o hs hn
    split
    · by_cases hst : (s.conns o).state = .connected
      · rw [hclose _ s o hst hn]
        exact .single (.close o hst)
      · rw [forceCloseWith, if_neg (not_or.mpr ⟨hst, (hs.settled o).state_ne⟩)]
    · exact .refl
  have hfirst := hone s b.bridgeInside hs hin
  exact hfirst.trans (hone _ b.bridgeOutside (hfirst.once hs) (hfirst.unregistered hout))

theorem setState_self {st : ConnectionState} (h : (s.conns o).state = st) : s.setState o st = s := by
  have hconn : ({ s.conns o with state := st } : Connection) = s.conns o := by rw [← h]
  rw [setState, modifyConn, hconn, Function.update_eq_self]

/-- The bridge of the close notice goes first, then its ends close. -/
theorem notice_shuts (hs : s.Once) (fr : Frame) {ref : BridgeRef} {b : BridgeCloser}
    (hb : s.bridge ref = some b) (fuel : ℕ) :
    Shuts s (noticeWith (handleCloseFuel (fuel + 1)) fr s ref) := by
  have herase : Shuts s (s.eraseBridgeCloser ref) := .single (.erase ref)
  have hgone : (s.eraseBridgeCloser ref).bridge ref = none := by
    rw [eraseBridgeCloser_bridge, if_pos rfl]
  obtain ⟨hin, hout, -⟩ := hs.wired ref b hb
  simp only [noticeWith, hb]
  split
  · exact herase
  · refine herase.trans (destroyBridge_shuts (fun fr s o hst hn => forceCloseWith_single hst hn)
      (herase.once hs) fr (fun r hr => ?_) (fun r hr => ?_))
    · rw [eraseBridgeCloser_conns, hin, Option.some.injEq] at hr
      rw [← hr, hgone]
    · rw [eraseBridgeCloser_conns, hout, Option.some.injEq] at hr
      rw [← hr, hgone]

theorem handleClose_shuts (hs : s.Once) (fr : Frame) (ho : (s.conns o).state ≠ .connecting) :
    Shuts s (s.handleClose fr o) := by
  rw [handleClose]
  by_cases hst : (s.conns o).state = .connected
  · by_cases hn : ∀ ref, (s.conns o).noticeOnClose = some ref → s.bridge ref = none
    · rw [handleCloseFuel_single (by simp [hst]) hn]
      exact .single (.close o hst)
    · simp only [not_forall, Option.ne_none_iff_exists'] at hn
      obtain ⟨ref, hnotice, b, hb⟩ := hn
      have hclose : Shuts s (s.closeOne o) := .single (.close o hst)
      have hnotice' : ((s.closeOne o).conns o).noticeOnClose = some ref := by
        rw [hclose.notice_eq, hnotice]
      -- the bridge has drawn a UUID, so there is a level left for its ends
      obtain ⟨fuel, hfuel⟩ := Nat.exists_eq_add_one.mpr
        (List.length_pos_of_mem (hs.wired ref b hb).2.2)
      have hshuts := notice_shuts (hclose.once hs) fr (show (s.closeOne o).bridge ref = some b from hb)
        fuel
      have hdone := (hshuts.staysClosed o (by simp [closeOne_conns])).1
      rw [hfuel, handleCloseFuel, if_neg (by simp [hst]), disconnectHandle_of_connected hst]
      simp only [hnotice']
      rw [setState_self hdone]
      exact hclose.trans hshuts
  · have hdone : (s.conns o).state = .disconnected := by
      have hne := (hs.settled o).state_ne
      cases hstate : (s.conns o).state with
      | connecting => exact absurd hstate ho
      | connected => exact absurd hstate hst
      | disconnecting => exact absurd hstate hne
      | disconnected => rfl
    rw [handleCloseFuel, if_pos hdone]

/-! ## The other operations -/

/-- The two states agree in what closing depends on. -/
structure SameClose (s s' : NServer) : Prop where
  state_eq : ∀ p, (s'.conns p).state = (s.conns p).state
  closedAt_eq : ∀ p, (s'.conns p).closedAt = (s.conns p).closedAt
  isEpolled_eq : ∀ p, (s'.conns p).isEpolled = (s.conns p).isEpolled
  server_eq : ∀ p, (s'.conns p).server = (s.conns p).server
  connId_eq : ∀ p, (s'.conns p).connId = (s.conns p).connId
  pools_eq : s'.pools = s.pools

theorem SameClose.staysClosed (h : SameClose s s') : StaysClosed s s' := by
  intro p hp
  rw [h.state_eq, h.closedAt_eq]
  exact ⟨hp, rfl⟩

theorem SameClose.settled (h : SameClose s s') (hs : Settled (s.conns p)) : Settled (s'.conns p) := by
  refine ⟨?_, ?_, ?_⟩
  · rw [h.state_eq]
    exact hs.state_ne
  · rw [h.state_eq, h.closedAt_eq]
    exact hs.closedAt_length
  · rw [h.state_eq, h.isEpolled_eq]
    exact hs.isEpolled_eq

theorem SameClose.pooled (h : SameClose s s') (hs : s.Once) (srv : ServerRef) (id : ConnId) (p : Obj)
    (hp : s'.pools srv id = some p) : (s'.conns p).state = .connected ∧
      (s'.conns p).server = srv ∧ (s'.conns p).connId = id := by
  rw [h.state_eq, h.server_eq, h.connId_eq]
  exact hs.pooled srv id p (h.pools_eq ▸ hp)

/-- A change of one connection that closing does not depend on. -/
theorem Once.modifyConn (hs : s.Once) {f : Connection → Connection}
    (hf : ∀ c, f c = { c with
      inputBuffer := (f c).inputBuffer, isControl := (f c).isControl, sent := (f c).sent }) (o : Obj) :
    Onward s (s.modifyConn o f) := by
  have hfield : ∀ {α : Type} (g : Connection → α), (∀ c, g (f c) = g c) →
      ∀ p, g ((s.modifyConn o f).conns p) = g (s.conns p) := fun g hg p => s.modifyConn_field g hg p
  have hsame : SameClose s (s.modifyConn o f) := by
    refine ⟨hfield _ fun c => ?_, hfield _ fun c => ?_, hfield _ fun c => ?_, hfield _ fun c => ?_,
      hfield _ fun c => ?_, rfl⟩
    all_goals rw [hf c]
  have hnotice := hfield Connection.noticeOnClose fun c => by rw [hf c]
  have honMessage := hfield Connection.onMessage fun c => by rw [hf c]
  refine ⟨⟨fun p => hsame.settled (hs.settled p), fun ref b hb => ?_, fun p ref hp => ?_,
    hsame.pooled hs⟩, hsame.staysClosed⟩
  · rw [hnotice, hnotice]
    exact hs.wired ref b hb
  · rw [honMessage]
    exact hs.notice p ref (hnotice p ▸ hp)

theorem Onward.refl (hs : s.Once) : Onward s s := ⟨hs, .refl s⟩

theorem Onward.trans (h : Onward s s') (h' : Onward s' s'') : Onward s s'' :=
  ⟨h'.once, h.staysClosed.trans h'.staysClosed⟩

theorem Shuts.onward (h : Shuts s s') (hs : s.Once) : Onward s s' := ⟨h.once hs, h.staysClosed⟩

/-- Channels change, and no bridge is added. -/
theorem Once.of_conns_eq (hs : s.Once) (hconns : s'.conns = s.conns) (hpools : s'.pools = s.pools)
    (hdrawn : ∀ u ∈ s.drawn, u ∈ s'.drawn)
    (hbridge : ∀ ref b, s'.bridge ref = some b → s.bridge ref = some b) : Onward s s' := by
  refine ⟨⟨?_, fun ref b hb => ?_, ?_, ?_⟩, fun p hp => ?_⟩
  · rw [hconns]
    exact hs.settled
  · rw [hconns]
    obtain ⟨hin, hout, hmem⟩ := hs.wired ref b (hbridge ref b hb)
    exact ⟨hin, hout, hdrawn _ hmem⟩
  · rw [hconns]
    exact hs.notice
  · rw [hconns, hpools]
    exact hs.pooled
  · rw [hconns]
    exact ⟨hp, rfl⟩

theorem Once.handleClose (hs : s.Once) (fr : Frame) (ho : (s.conns o).state ≠ .connecting) :
    Onward s (s.handleClose fr o) := (handleClose_shuts hs fr ho).onward hs

theorem Once.send (hs : s.Once) (a : Answers) (fr : Frame) (ho : (s.conns o).state ≠ .connecting)
    (msg : Bytes) : Onward s (s.send a fr o msg) := by
  have hlog : Onward s (s.logSend o msg) := by
    have h := hs.modifyConn (f := fun c => { c with sent := c.sent ++ msg }) (fun _ => rfl) o
    exact ⟨⟨h.once.settled, h.once.wired, h.once.notice, h.once.pooled⟩, h.staysClosed⟩
  have hmade : ((s.logSend o msg).conns o).state ≠ .connecting := by
    simpa [logSend, NServer.modifyConn] using ho
  unfold NServer.send
  split
  · exact hlog.trans (hlog.once.handleClose fr hmade)
  · exact hlog

theorem Once.forward (hs : s.Once) (a : Answers) (fr : Frame) {peer : Obj}
    (hpeer : (s.conns peer).state ≠ .connecting) : Onward s (s.forward a fr o peer) := by
  unfold NServer.forward
  split
  · have hkeep := hs.modifyConn (f := fun c => { c with inputBuffer := [] }) (fun _ => rfl) o
    refine hkeep.trans (hkeep.once.send a _ ?_ _)
    rwa [s.modifyConn_field (f := fun c => { c with inputBuffer := [] }) Connection.state fun _ => rfl]
  · exact .refl hs

theorem Once.drawUuid (hs : s.Once) (uuid : Bytes) : Onward s (s.drawUuid uuid) :=
  hs.of_conns_eq rfl rfl (fun _ hu => List.mem_append_left _ hu) fun _ _ hb => hb

theorem Once.emplaceChannel (hs : s.Once) (nonce : Bytes) (o : Obj) (port : UInt16) :
    Onward s (s.emplaceChannel nonce o port) := by
  have hsub : ∀ ref b, (s.emplaceChannel nonce o port).bridge ref = some b → s.bridge ref = some b :=
    fun _ _ hb => emplaceChannel_bridge_sub hb
  unfold NServer.emplaceChannel at hsub ⊢
  split
  · exact .refl hs
  · rename_i hnone
    rw [if_neg hnone] at hsub
    have hown := hs.modifyConn (f := fun c => { c with isControl := true }) (fun _ => rfl) o
    exact hown.trans (hown.once.of_conns_eq rfl rfl (fun _ hu => hu) hsub)

/-- The ends of the new bridge have no close notice yet. -/
theorem Once.buildBridge (hs : s.Once) {ref : BridgeRef} (hdrawn : ref.bridgeId ∈ s.drawn)
    {visitor origin : Obj} (hne : visitor ≠ origin) (hv : (s.conns visitor).noticeOnClose = none)
    (ho : (s.conns origin).noticeOnClose = none) :
    Onward s (s.buildBridge ref visitor origin) := by
  have hconns := buildBridge_conns s ref hne
  have hfield : ∀ {α : Type} (g : Connection → α), (∀ c m n, g { c with
      onMessage := m, noticeOnClose := n } = g c) →
      ∀ p, g ((s.buildBridge ref visitor origin).conns p) = g (s.conns p) := by
    intro α g hg p
    rw [hconns]
    split_ifs with h₁ h₂
    · rw [h₁, hg]
    · rw [h₂, hg]
    · rfl
  have hsame : SameClose s (s.buildBridge ref visitor origin) :=
    ⟨hfield _ fun _ _ _ => rfl, hfield _ fun _ _ _ => rfl, hfield _ fun _ _ _ => rfl,
      hfield _ fun _ _ _ => rfl, hfield _ fun _ _ _ => rfl, rfl⟩
  have hold : ∀ p r, (s.conns p).noticeOnClose = some r →
      ((s.buildBridge ref visitor origin).conns p).noticeOnClose = some r := by
    intro p r hp
    rw [hconns, if_neg (by rintro rfl; simp [hv] at hp), if_neg (by rintro rfl; simp [ho] at hp), hp]
  refine ⟨⟨fun p => hsame.settled (hs.settled p), fun r b hb => ?_, fun p r hp => ?_,
    hsame.pooled hs⟩, hsame.staysClosed⟩
  · obtain hb | ⟨rfl, rfl⟩ := buildBridge_bridge_cases hb
    · obtain ⟨hin, hout, hmem⟩ := hs.wired r b hb
      exact ⟨hold _ _ hin, hold _ _ hout, hmem⟩
    · refine ⟨?_, ?_, hdrawn⟩
      · rw [hconns, if_pos rfl]
      · rw [hconns, if_neg (Ne.symm hne), if_pos rfl]
  · rw [hconns] at hp ⊢
    split_ifs at hp ⊢ with h₁ h₂
    · exact ⟨origin, rfl⟩
    · exact ⟨visitor, rfl⟩
    · exact hs.notice p r hp

theorem Once.releaseBridge (hs : s.Once) (fr : Frame) {ref : BridgeRef} {b : BridgeCloser}
    (hin : (s.conns b.bridgeInside).noticeOnClose = some ref)
    (hout : (s.conns b.bridgeOutside).noticeOnClose = some ref) :
    Onward s (s.releaseBridge fr ref b) := by
  unfold NServer.releaseBridge
  split
  · exact .refl hs
  · rename_i hgone
    refine (destroyBridge_shuts (fun fr s o hst hn => forceClose_single hst hn) hs fr
      (fun r hr => ?_) (fun r hr => ?_)).onward hs
    · rw [hin, Option.some.injEq] at hr
      rw [← hr, hgone]
    · rw [hout, Option.some.injEq] at hr
      rw [← hr, hgone]

/-! ## Events -/

variable {pb : Protobuf} {r : Obj → Bytes}

theorem Once.handleControlChannelHello (hs : s.Once) (ho : (s.conns o).state ≠ .connecting)
    {name : Bytes} {port : UInt16} (hok : s.handleControlChannelHello a fr o name port = .ok s') :
    Onward s s' := by
  unfold NServer.handleControlChannelHello at hok
  dsimp only at hok
  split at hok
  · cases hok
  split at hok
  · cases hok
  · cases hok
    have hdraw := hs.drawUuid a.uuid
    have hsend := hdraw.once.send a fr (o := o) ho
      (headerInstaller (controlHello a.uuid).serializeAsString)
    exact hdraw.trans (hsend.trans (hsend.once.emplaceChannel _ _ _))

theorem Once.notice_eq_none (hs : s.Once) (h : ∀ p, (s.conns o).onMessage ≠ .forward p) :
    (s.conns o).noticeOnClose = none := by
  rw [Option.eq_none_iff_forall_ne_some]
  intro ref hnotice
  obtain ⟨p, hp⟩ := hs.notice o ref hnotice
  exact h p hp

theorem send_notice (s : NServer) (a : Answers) (fr : Frame) (o : Obj) (msg : Bytes) (p : Obj) :
    ((s.send a fr o msg).conns p).noticeOnClose = (s.conns p).noticeOnClose := by
  have hlog : ((s.logSend o msg).conns p).noticeOnClose = (s.conns p).noticeOnClose :=
    s.modifyConn_field (f := fun c => { c with sent := c.sent ++ msg }) Connection.noticeOnClose
      (fun _ => rfl) p
  unfold NServer.send
  split
  · have huntouched := untouched_field Connection.noticeOnClose (fun _ _ _ _ => rfl) p
    exact (huntouched.handleClose _ fr o).trans hlog
  · exact hlog

theorem forward_notice (s : NServer) (a : Answers) (fr : Frame) (o peer p : Obj) :
    ((s.forward a fr o peer).conns p).noticeOnClose = (s.conns p).noticeOnClose := by
  unfold NServer.forward
  split
  · exact (send_notice _ a _ peer _ p).trans (s.modifyConn_field
      (f := fun c => { c with inputBuffer := [] }) Connection.noticeOnClose (fun _ => rfl) p)
  · rfl

theorem Sound.peer_made (h : Sound pb s r) (ho : (s.conns o).state ≠ .connecting) {peer : Obj}
    (hfwd : (s.conns o).onMessage = .forward peer) : (s.conns peer).state ≠ .connecting := by
  obtain ⟨-, lp, hlp, -⟩ := h.inv.ends_of_joined (board_lines_of_made ho)
    (congrArg MessageHandle.mode hfwd)
  exact (board_lines.mp hlp).1

theorem flush_notice (s : NServer) (a : Answers) (fr : Frame) (o p : Obj) :
    ((s.flush a fr o).conns p).noticeOnClose = (s.conns p).noticeOnClose := by
  unfold NServer.flush
  split
  · exact forward_notice s a fr o _ p
  · rfl
  · rfl

theorem Once.flush (hs : s.Once) (h : Sound pb s r) (a : Answers) (fr : Frame)
    (ho : (s.conns o).state ≠ .connecting) : Onward s (s.flush a fr o) := by
  unfold NServer.flush
  split
  · rename_i hfwd
    exact hs.forward a fr (h.peer_made ho hfwd)
  · exact .refl hs
  · exact .refl hs

/-- Up to the registration of the bridge. -/
theorem Once.startBridge (hs : s.Once) {visitor origin : Obj} (hne : visitor ≠ origin)
    (hv : (s.conns visitor).noticeOnClose = none) (ho : (s.conns origin).noticeOnClose = none)
    (nonce left uuid : Bytes) (rest : List Obj) :
    Onward s ((((s.modifyConn origin fun c => { c with inputBuffer := left }).popVisitor nonce
      visitor origin rest).drawUuid uuid).buildBridge ⟨nonce, uuid⟩ visitor origin) := by
  have hkeep := hs.modifyConn (f := fun c => { c with inputBuffer := left }) (fun _ => rfl) origin
  have hpop : Onward (s.modifyConn origin fun c => { c with inputBuffer := left })
      ((s.modifyConn origin fun c => { c with inputBuffer := left }).popVisitor nonce visitor origin
        rest) := by
    refine hkeep.once.of_conns_eq rfl rfl (fun _ hu => hu) fun ref b hb => ?_
    exact (modifyChannel_bridge (s := s) (f := fun ch => { ch with
      waitHandleVisitors := rest, bridged := ch.bridged ++ [(visitor, origin)] }) (fun _ => rfl)
      nonce ref).symm.trans hb
  have hdraw := hpop.trans (hpop.once.drawUuid uuid)
  refine hkeep.trans (hdraw.trans (hdraw.once.buildBridge (List.mem_append_right _ ?_) hne ?_ ?_))
  · exact List.mem_singleton.mpr rfl
  · change ((s.modifyConn origin fun c => { c with inputBuffer := left }).conns
      visitor).noticeOnClose = none
    rw [modifyConn_conns, if_neg hne, hv]
  · change ((s.modifyConn origin fun c => { c with inputBuffer := left }).conns
      origin).noticeOnClose = none
    rw [modifyConn_conns, if_pos rfl]
    exact ho

theorem Once.dataHello (hs : s.Once) (h : Sound pb s r) {nonce hello left : Bytes}
    (ho : (s.conns o).state ≠ .connecting) (hmode : (s.conns o).onMessage = .handleNewConnection)
    (hinput : (s.conns o).inputBuffer = hello ++ left) (hasks : (messages pb).Asks nonce hello)
    (hok : (s.modifyConn o fun c => { c with inputBuffer := left }).handleDataChannelHello a fr o
      nonce = .ok s') : Onward s s' := by
  unfold handleDataChannelHello at hok
  split at hok
  · cases hok
  · rename_i ch hch
    split at hok
    · cases hok
    · rename_i visitor rest hq
      obtain rfl := eq_of_outlives hok
      obtain ⟨lv, hlv, hw⟩ := (h.inv.desk_ok nonce _ (board_desks hch)).waiting visitor
        (by simp [SControlChannel.desk, hq])
      obtain ⟨hv, rfl⟩ := board_lines.mp hlv
      have hvmode : ∀ p, (s.conns visitor).onMessage ≠ .forward p := by
        intro p hp
        have hqueued := hw.mode_eq
        simp [Connection.line, hp, MessageHandle.mode] at hqueued
      have hne : visitor ≠ o := by
        rintro rfl
        have hqueued := hw.mode_eq
        simp [Connection.line, hmode, MessageHandle.mode] at hqueued
      have hjoin := dataHello_joins h a ⟨visitor :: fr.conns, a.uuid :: fr.bridges⟩ hch hq ho hmode
        hinput hasks
      have hstart := hs.startBridge hne (hs.notice_eq_none hvmode)
        (hs.notice_eq_none (by simp [hmode])) nonce left a.uuid rest
      have hconns := buildBridge_conns (((s.modifyConn o fun c => { c with inputBuffer := left
        }).popVisitor nonce visitor o rest).drawUuid a.uuid) ⟨nonce, a.uuid⟩ hne
      generalize hs₁ : (((s.modifyConn o fun c => { c with inputBuffer := left }).popVisitor nonce
        visitor o rest).drawUuid a.uuid).buildBridge ⟨nonce, a.uuid⟩ visitor o = s₁ at *
      have hv₁ : (s₁.conns visitor).noticeOnClose = some ⟨nonce, a.uuid⟩ := by
        rw [hconns, if_pos rfl]
      have ho₁ : (s₁.conns o).noticeOnClose = some ⟨nonce, a.uuid⟩ := by
        rw [hconns, if_neg (Ne.symm hne), if_pos rfl]
      have hmade : (s₁.conns o).state ≠ .connecting := by
        rw [hconns, if_neg (Ne.symm hne), if_pos rfl]
        simpa [NServer.drawUuid, popVisitor, modifyChannel, NServer.modifyConn] using ho
      have hsend := hstart.once.send a ⟨visitor :: fr.conns, a.uuid :: fr.bridges⟩ hmade
        (headerInstaller startForwardTcp.serializeAsString)
      have hflush := hsend.once.flush (hjoin.sound h) a
        ⟨visitor :: fr.conns, a.uuid :: fr.bridges⟩ (hjoin.made hv)
      refine hstart.trans (hsend.trans (hflush.trans (hflush.once.releaseBridge _ ?_ ?_)))
      · rw [flush_notice, send_notice, hv₁]
      · rw [flush_notice, send_notice, ho₁]

theorem Once.handleNewConnection (hs : s.Once) (h : Sound pb s r)
    (ho : (s.conns o).state ≠ .connecting) (hmode : (s.conns o).onMessage = .handleNewConnection)
    (hok : s.handleNewConnection pb a fr o = .ok s') : Onward s s' := by
  have hkeep : ∀ buf, Onward s (s.modifyConn o fun c => { c with inputBuffer := buf }) :=
    fun buf => hs.modifyConn (f := fun c => { c with inputBuffer := buf }) (fun _ => rfl) o
  unfold NServer.handleNewConnection at hok
  split at hok
  · rename_i buf hattempt
    cases hok
    exact hkeep buf
  · rename_i recvMsg buf hattempt
    dsimp only at hok
    split at hok
    · refine (hkeep buf).trans ((hkeep buf).once.handleControlChannelHello ?_ hok)
      rw [modifyConn_conns, if_pos rfl]
      exact ho
    · rename_i htype
      obtain ⟨hmsg, hinput⟩ := attemptBytes_eq_some hattempt
      exact hs.dataHello h ho hmode hinput ⟨recvMsg, hmsg, rfl, htype, rfl⟩ hok
    · cases hok
      exact hkeep buf

theorem Once.handleMessage (hs : s.Once) (h : Sound pb s r) (ho : (s.conns o).state ≠ .connecting)
    (hok : s.handleMessage pb a fr o = .ok s') : Onward s s' := by
  unfold NServer.handleMessage at hok
  split at hok
  · cases hok
    exact .refl hs
  · rename_i hmode
    exact hs.handleNewConnection h ho hmode hok
  · rename_i hfwd
    obtain rfl := eq_of_outlives hok
    exact hs.forward a fr (h.peer_made ho hfwd)

theorem Once.readNonBlocking (hs : s.Once) (fr : Frame) (ho : (s.conns o).state ≠ .connecting)
    (reads : List Bytes) (e : ReadEnd) : Onward s (s.readNonBlocking fr o reads e) := by
  have hread := hs.modifyConn (f := fun c => { c with inputBuffer := c.inputBuffer ++ reads.flatten })
    (fun _ => rfl) o
  unfold NServer.readNonBlocking
  cases e with
  | again => exact hread
  | closed =>
    refine hread.trans (hread.once.handleClose fr ?_)
    rw [modifyConn_conns, if_pos rfl]
    exact ho

theorem Once.handleDataIn (hs : s.Once) (h : Sound pb s r) (ho : (s.conns o).state ≠ .connecting)
    {reads : List Bytes} {e : ReadEnd} (hok : s.handleDataIn pb a o reads e = .ok s') :
    Onward s s' := by
  have hread := hs.readNonBlocking ⟨[o], []⟩ ho reads e
  have hsteps := readNonBlocking_steps h ⟨[o], []⟩ ho reads e
  exact hread.trans (hread.once.handleMessage (hsteps.sound h) (hsteps.made ho) hok)

/-- A connection that has just been made is no end of a bridge and in no pool. -/
theorem Once.newConnection (hs : s.Once) (h : s.EndsMade) (ho : (s.conns o).state = .connecting)
    (srv : ServerRef) (id : ConnId) :
    Onward s (s.modifyConn o fun _ => newConnection srv id) := by
  have hne : ∀ p, (s.conns p).state ≠ .connecting → p ≠ o := by
    rintro p hp rfl
    exact hp ho
  refine ⟨⟨fun p => ?_, fun ref b hb => ?_, fun p ref hp => ?_, fun srv' id' p hp => ?_⟩,
    fun p hp => ?_⟩
  · rw [modifyConn_conns]
    split
    · exact ⟨by simp [NServer.newConnection], by simp [NServer.newConnection, Connection.none],
        by simp [NServer.newConnection]⟩
    · exact hs.settled p
  · obtain ⟨hin, hout⟩ := h ref b hb
    rw [modifyConn_conns, modifyConn_conns, if_neg (hne _ hin), if_neg (hne _ hout)]
    exact hs.wired ref b hb
  · rw [modifyConn_conns] at hp ⊢
    split at hp
    · simp [NServer.newConnection, Connection.none] at hp
    · rename_i hpo
      rw [if_neg hpo]
      exact hs.notice p ref hp
  · have hpooled := hs.pooled srv' id' p hp
    rwa [modifyConn_conns, if_neg (hne p (by simp [hpooled.1]))]
  · rw [modifyConn_conns, if_neg (hne p (by simp [hp]))]
    exact ⟨hp, rfl⟩

/-- The pool gets a connection that is established. -/
theorem Once.assign (hs : s.Once) {srv : ServerRef} {id : ConnId}
    (ho : (s.conns o).state = .connected) (hserver : (s.conns o).server = srv)
    (hid : (s.conns o).connId = id) :
    Onward s { s with pools := Function.update s.pools srv ((s.pools srv).assign id o) } := by
  refine ⟨⟨hs.settled, hs.wired, hs.notice, fun srv' id' p hp => ?_⟩, .refl s⟩
  by_cases hsrv : srv' = srv
  · subst hsrv
    simp only [Function.update_self, Connections.assign_apply] at hp
    split at hp
    · rename_i hid'
      rw [Option.some.injEq] at hp
      rw [← hp, hid']
      exact ⟨ho, hserver, hid⟩
    · exact hs.pooled srv' id' p hp
  · simp only [Function.update_of_ne hsrv] at hp
    exact hs.pooled srv' id' p hp

/-- Only ends of registered bridges close along with another connection. -/
theorem Wired.closedUnder_ne (h : s.Wired) (ho : (s.conns o).noticeOnClose = none) :
    s.ClosedUnder fun p => p ≠ o := by
  rintro x y - ⟨-, -, ref, b, -, hb, hy⟩ rfl
  obtain ⟨hin, hout, -⟩ := h ref b hb
  obtain rfl | rfl := hy
  · rw [ho] at hin
    cases hin
  · rw [ho] at hout
    cases hout

theorem Once.newConnectionHandle (hs : s.Once) (h : Sound pb s r) (a : Answers)
    (ho : (s.conns o).state = .connecting) {srv : ServerRef} (id : ConnId)
    (hlisten : s.listening srv = true) : Onward s (s.newConnectionHandle a srv o id) := by
  have hnew := hs.newConnection h.endsMade ho srv id
  have hconn : ((s.modifyConn o fun _ => NServer.newConnection srv id).conns o) =
      NServer.newConnection srv id := by
    rw [modifyConn_conns, if_pos rfl]
  cases srv with
  | ncxAcceptor =>
    refine hnew.trans (hnew.once.assign ?_ ?_ ?_)
    all_goals rw [hconn]
    all_goals rfl
  | proxy nonce =>
    obtain ⟨ch, hch⟩ := Option.isSome_iff_exists.mp hlisten
    obtain ⟨lc, hlc, -⟩ := (h.inv.desk_ok nonce _ (board_desks hch)).control
    have hcontrol := (board_lines.mp hlc).1
    have hne : ch.ncxClientConn ≠ o := by
      rintro rfl
      exact hcontrol ho
    have hch' : (s.modifyConn o fun _ => NServer.newConnection (.proxy nonce) id).scMap nonce =
        some ch := hch
    simp only [NServer.newConnectionHandle, hch', handleNewOutsideConnection]
    have hpush : Onward (s.modifyConn o fun _ => NServer.newConnection (.proxy nonce) id)
        ((s.modifyConn o fun _ => NServer.newConnection (.proxy nonce) id).modifyChannel nonce fun ch =>
          { ch with waitHandleVisitors := ch.waitHandleVisitors ++ [o], accepted := ch.accepted ++ [o] }) := by
      refine hnew.once.of_conns_eq rfl rfl (fun _ hu => hu) fun ref b hb => ?_
      exact (modifyChannel_bridge (s := s) (f := fun ch => { ch with
        waitHandleVisitors := ch.waitHandleVisitors ++ [o], accepted := ch.accepted ++ [o] })
        (fun _ => rfl) nonce ref).symm.trans hb
    generalize hs₁ : (s.modifyConn o fun _ => NServer.newConnection (.proxy nonce) id).modifyChannel
      nonce (fun ch => { ch with
        waitHandleVisitors := ch.waitHandleVisitors ++ [o], accepted := ch.accepted ++ [o] }) = s₁
      at hpush ⊢
    have hconn₁ : s₁.conns o = NServer.newConnection (.proxy nonce) id := by
      rw [← hs₁]
      exact hconn
    have hmade : (s₁.conns ch.ncxClientConn).state ≠ .connecting := by
      rw [← hs₁]
      change ((s.modifyConn o fun _ => NServer.newConnection (.proxy nonce) id).conns
        ch.ncxClientConn).state ≠ .connecting
      rwa [modifyConn_conns, if_neg hne]
    have hsend := hpush.once.send a ⟨[o], []⟩ hmade
      (headerInstaller createDataChannel.serializeAsString)
    -- a failed write closes the control connection, and with it at most a bridge
    have hclosing := Closing.send a ⟨[o], []⟩ (headerInstaller createDataChannel.serializeAsString)
      fun _ => ⟨hpush.once.wired.closedUnder_ne (o := o) (by rw [hconn₁]; rfl), fun _ => hne⟩
    refine hnew.trans (hpush.trans (hsend.trans (hsend.once.assign ?_ ?_ ?_)))
    · rw [hclosing.state_eq o (by simp), hconn₁]
      rfl
    · rw [hclosing.server_eq, hconn₁]
      rfl
    · rw [hclosing.connId_eq, hconn₁]
      rfl

theorem Once.step (hs : s.Once) (h : Sound pb s r) {ev : Event} (hok : s.step pb ev = .ok s') :
    Onward s s' := by
  cases ev with
  | accept srv o id a =>
    simp only [NServer.step] at hok
    split at hok
    · rename_i hc
      obtain rfl := eq_of_outlives hok
      exact hs.newConnectionHandle h a hc.2 id hc.1
    · cases hok
      exact .refl hs
  | readable o reads e a =>
    obtain ⟨ho, hok⟩ | rfl := step_readable_cases hok
    · exact hs.handleDataIn h ho hok
    · exact .refl hs

theorem Once.run (hs : s.Once) (h : Sound pb s r) {evs : List Event}
    (hok : run pb s evs = .ok s') : Onward s s' := by
  induction evs generalizing s r with
  | nil => exact Except.ok.inj hok ▸ .refl hs
  | cons ev evs ih =>
    rw [NServer.run, List.foldlM_cons] at hok
    cases hstep : s.step pb ev with
    | error e =>
      rw [hstep] at hok
      cases hok
    | ok s₁ =>
      rw [hstep] at hok
      have hfirst := hs.step h hstep
      exact hfirst.trans (ih hfirst.once ((step_steps h hstep).sound h) hok)

theorem new_once (port : UInt16) : (new port).Once where
  settled o := ⟨by simp [new, Connection.none], by simp [new, Connection.none],
    by simp [new, Connection.none]⟩
  wired ref b hb := by cases hb
  notice o ref hnotice := by cases hnotice
  pooled srv id o hp := by cases hp

end Shuts

/-- In every state between two events of any run, every connection has either not
been closed, or `on_close_` has been called for it exactly once and it is in no pool;
none is left half closed.  What is closed stays so. -/
theorem closed_exactly_once (pb : Protobuf) (port : UInt16) (evs more : List Event)
    (s s' : NServer) (h : run pb (new port) evs = .ok s) (h' : run pb s more = .ok s') (o : Obj) :
    (s.conns o).state ≠ .disconnecting ∧
    (s.conns o).closedAt.length = (if (s.conns o).state = .disconnected then 1 else 0) ∧
    (s.conns o).isEpolled = decide ((s.conns o).state = .connected) ∧
    (∀ srv id, s.pools srv id = some o → (s.conns o).state = .connected ∧
      (s.conns o).server = srv ∧ (s.conns o).connId = id) ∧
    ((s.conns o).state = .disconnected →
      (s'.conns o).state = .disconnected ∧ (s'.conns o).closedAt = (s.conns o).closedAt) := by
  have honce := ((new_once port).run (new_sound port) h).once
  have hlater := (honce.run (run_sound port h) h').staysClosed
  have hsettled := honce.settled o
  exact ⟨hsettled.state_ne, hsettled.closedAt_length, hsettled.isEpolled_eq,
    fun srv id hp => honce.pooled srv id o hp, hlater o⟩

/-- The data channel of the example is at its end. -/
def exampleEnd : List Event := [.readable 2 [] .closed (.calm [])]

/-- The visitor of the example is closed along with its data channel. -/
theorem closed_exactly_once_example :
    ∃ s', run .wire exampleTunnel exampleEnd = .ok s' ∧ (s'.conns 1).closedAt.length = 1 := by
  have hclosed : ((run .wire exampleTunnel exampleEnd).toOption.map fun s => (s.conns 1).state) =
      some .disconnected := by
    decide +kernel
  obtain ⟨s', hs', hstate⟩ := Option.map_eq_some_iff.mp hclosed
  have hrun := Runs.ok_of_toOption hs'
  obtain ⟨-, hlength, -⟩ := closed_exactly_once .wire 8080 (exampleEvents ++ exampleEnd) [] s' s'
    ((run_append run_exampleEvents exampleEnd).trans hrun) rfl 1
  rw [hstate, if_pos rfl] at hlength
  exact ⟨s', hrun, hlength⟩

end NcxTunnel.NServer
