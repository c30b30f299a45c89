import NcxTunnel.BridgeInvariant
import NcxTunnel.Runs

/-!
# Registered bridges over whole runs

Making a channel, a bridge or a connection keeps the invariant as well, the
latter two under conditions that the code does not check.
-/

namespace NcxTunnel.NServer

/-! ## New channels, bridges and connections -/

section Build

variable {s : NServer} {visitor origin : Obj} {nonce : Bytes}

theorem Inv.drawUuid {pending : Option Obj} (h : s.Inv pending) (uuid : Bytes) :
    (s.drawUuid uuid).Inv pending :=
  h.congr_conns (fun _ => .refl _) (fun _ _ => rfl) rfl rfl (List.subset_append_left _ _)

theorem Inv.emplaceChannel (h : s.Inv none) (hmade : (s.conns origin).state ≠ .connecting)
    (port : UInt16) : (s.emplaceChannel nonce origin port).Inv none := by
  unfold NServer.emplaceChannel
  split
  · exact h
  · rename_i hnew
    have hnone : s.scMap nonce = none := by simpa using hnew
    refine h.congr ?_ ?_ rfl ?_ ?_ ?_ (List.Subset.refl _)
    · apply modifyConn_sameCore (f := fun c => { c with isControl := true })
      intro c
      exact ⟨rfl, rfl, rfl, rfl, rfl⟩
    · intro p hp
      have hpo : p ≠ origin := by
        rintro rfl
        exact hmade hp
      simp [modifyConn_conns, hpo]
    · intro ⟨m, j⟩
      by_cases hm : m = nonce
      · simp [bridge, hm, hnone]
      · simp [bridge, hm]
    · intro m
      by_cases hm : m = nonce
      · simp [queue, hm, hnone]
      · simp [queue, hm]
    · intro m c hc
      by_cases hm : m = nonce
      · simp only [control, hm, Function.update_self, Option.map_some, Option.some.injEq] at hc
        exact hc ▸ hmade
      · simp only [control, Function.update_of_ne hm] at hc
        exact h.control_made hc

theorem modifyChannel_bridge {f : SControlChannel → SControlChannel}
    (hclosers : ∀ ch, (f ch).bridgeClosers = ch.bridgeClosers) (nonce : Bytes) (r : BridgeRef) :
    (s.modifyChannel nonce f).bridge r = s.bridge r := by
  have hmap := s.map_modifyChannel_scMap SControlChannel.bridgeClosers hclosers nonce r.nonce
  have hbind := congrArg (Option.bind · (· r.bridgeId)) hmap
  simp only [Option.bind_map] at hbind
  exact hbind

/-- The change concerns the queue of the channel only. -/
theorem Inv.modifyQueue {pending : Option Obj} (h : s.Inv pending)
    {f : SControlChannel → SControlChannel}
    (hclient : ∀ ch, (f ch).ncxClientConn = ch.ncxClientConn)
    (hclosers : ∀ ch, (f ch).bridgeClosers = ch.bridgeClosers)
    (hwaiting : ∀ {m o}, o ∈ (s.modifyChannel nonce f).queue m → (s.conns o).onMessage = .unset ∧
      (s.conns o).server = .proxy m ∧ (s.conns o).state ≠ .connecting)
    (hnodup : ∀ m, ((s.modifyChannel nonce f).queue m).Nodup) :
    (s.modifyChannel nonce f).Inv pending := by
  have hbridge := modifyChannel_bridge (s := s) hclosers nonce
  exact {
    filed := h.filed
    pooled := h.pooled
    pending_new := h.pending_new
    settled := h.settled
    ends := fun {r b} hb => by
      rw [hbridge] at hb
      exact (h.ends hb).congr (fun _ => .refl _) rfl (hbridge r) (List.Subset.refl _)
    notice_drawn := h.notice_drawn
    notice_end := fun hn hb => h.notice_end hn (by rwa [hbridge] at hb)
    notice_forward := h.notice_forward
    forward_made := h.forward_made
    waiting := hwaiting
    waiting_nodup := hnodup
    control_made := fun {m c} hc => by
      rw [control, s.map_modifyChannel_scMap SControlChannel.ncxClientConn hclient] at hc
      exact h.control_made hc
    unmade := h.unmade }

theorem popVisitor_queue {ch : SControlChannel} (hch : s.scMap nonce = some ch)
    (visitor origin : Obj) (rest : List Obj) (m : Bytes) :
    (s.popVisitor nonce visitor origin rest).queue m = if m = nonce then rest else s.queue m := by
  simp only [queue, popVisitor, modifyChannel_scMap]
  split
  · simp [hch]
  · rfl

/-- The popped visitor is in no queue any more. -/
theorem Inv.popVisitor (h : s.Inv none) {ch : SControlChannel} (hch : s.scMap nonce = some ch)
    {rest : List Obj} (hq : ch.waitHandleVisitors = visitor :: rest) (origin : Obj) :
    (s.popVisitor nonce visitor origin rest).Inv none ∧
      ∀ m, visitor ∉ (s.popVisitor nonce visitor origin rest).queue m := by
  have hqueue : s.queue nonce = visitor :: rest := (queue_eq hch).trans hq
  have hnd := h.waiting_nodup nonce
  rw [hqueue, List.nodup_cons] at hnd
  have hqueues := popVisitor_queue hch visitor origin rest
  have hsub : ∀ m, ((s.popVisitor nonce visitor origin rest).queue m).Sublist (s.queue m) := by
    intro m
    rw [hqueues]
    split
    · rename_i hm
      rw [hm, hqueue]
      exact List.sublist_cons_self _ _
    · exact List.Sublist.refl _
  refine ⟨h.modifyQueue (fun _ => rfl) (fun _ => rfl) (fun hp => h.waiting ((hsub _).subset hp))
    fun m => (h.waiting_nodup m).sublist (hsub m), fun m hm => ?_⟩
  by_cases hmn : m = nonce
  · rw [hqueues, if_pos hmn] at hm
    exact hnd.1 hm
  · -- a visitor waits in the queue of its own proxy only
    have hhere := (h.waiting (by simp [hqueue] : visitor ∈ s.queue nonce)).2.1
    have hthere := (h.waiting ((hsub m).subset hm)).2.1
    rw [hhere, ServerRef.proxy.injEq] at hthere
    exact hmn hthere.symm

theorem buildBridge_conns (s : NServer) (ref : BridgeRef) {visitor origin : Obj}
    (hne : visitor ≠ origin) (p : Obj) :
    (s.buildBridge ref visitor origin).conns p =
      if p = visitor then { s.conns visitor with
        onMessage := .forward origin, noticeOnClose := some ref }
      else if p = origin then { s.conns origin with
        onMessage := .forward visitor, noticeOnClose := some ref }
      else s.conns p := by
  simp only [buildBridge, registerBridgeCloser, modifyChannel, modifyConn, Function.update_apply]
  split_ifs <;> simp_all

theorem buildBridge_scMap (s : NServer) (ref : BridgeRef) (visitor origin : Obj) (m : Bytes) :
    (s.buildBridge ref visitor origin).scMap m =
      if m = ref.nonce then (s.scMap ref.nonce).map fun ch =>
        { ch with bridgeClosers := Function.update ch.bridgeClosers ref.bridgeId
                    (some ((ch.bridgeClosers ref.bridgeId).getD ⟨visitor, origin⟩)) }
      else s.scMap m := by
  simp only [buildBridge, registerBridgeCloser, modifyChannel_scMap]
  rfl

theorem buildBridge_bridge {ref : BridgeRef} (hch : (s.scMap ref.nonce).isSome)
    (hfree : s.bridge ref = none) (visitor origin : Obj) (r : BridgeRef) :
    (s.buildBridge ref visitor origin).bridge r =
      if r = ref then some ⟨visitor, origin⟩ else s.bridge r := by
  obtain ⟨n, i⟩ := ref
  obtain ⟨m, j⟩ := r
  obtain ⟨ch, hch⟩ := Option.isSome_iff_exists.mp hch
  rw [bridge_eq hch] at hfree
  simp only [bridge, buildBridge_scMap, BridgeRef.mk.injEq]
  by_cases hm : m = n
  · by_cases hj : j = i
    · simp [hm, hj, hch, hfree]
    · simp [hm, hj, hch]
  · simp [hm]

theorem buildBridge_queue (s : NServer) (ref : BridgeRef) (visitor origin : Obj) (m : Bytes) :
    (s.buildBridge ref visitor origin).queue m = s.queue m := by
  apply congrArg (Option.getD · [])
  apply map_modifyChannel_scMap
  intro ch
  rfl

theorem buildBridge_control (s : NServer) (ref : BridgeRef) (visitor origin : Obj) (m : Bytes) :
    (s.buildBridge ref visitor origin).control m = s.control m := by
  apply map_modifyChannel_scMap
  intro ch
  rfl

/-- Nothing refers to the bridge yet. -/
structure FreshRef (s : NServer) (ref : BridgeRef) : Prop where
  channel : (s.scMap ref.nonce).isSome
  unregistered : s.bridge ref = none
  unnoticed : ∀ o, (s.conns o).noticeOnClose ≠ some ref
  drawn : ref.bridgeId ∈ s.drawn

/-- The connection can become an end of a bridge. -/
structure Unbridged (s : NServer) (o : Obj) : Prop where
  connected : (s.conns o).state = .connected
  notice_eq : (s.conns o).noticeOnClose = none
  not_waiting : ∀ m, o ∉ s.queue m

theorem buildBridge_kept (s : NServer) (ref : BridgeRef) (hne : visitor ≠ origin) (p : Obj) :
    ((s.buildBridge ref visitor origin).conns p).connId = (s.conns p).connId ∧
      ((s.buildBridge ref visitor origin).conns p).state = (s.conns p).state ∧
      ((s.buildBridge ref visitor origin).conns p).server = (s.conns p).server := by
  rw [s.buildBridge_conns ref hne]
  split_ifs with h₁ h₂
  · rw [h₁]
    exact ⟨rfl, rfl, rfl⟩
  · rw [h₂]
    exact ⟨rfl, rfl, rfl⟩
  · exact ⟨rfl, rfl, rfl⟩

/-- The notices of a new bridge are those of its ends. -/
theorem buildBridge_notice_cases (s : NServer) {ref r : BridgeRef} (hne : visitor ≠ origin) {p : Obj}
    (hp : ((s.buildBridge ref visitor origin).conns p).noticeOnClose = some r) :
    (p = visitor ∨ p = origin) ∧ r = ref ∨ (s.conns p).noticeOnClose = some r := by
  rw [s.buildBridge_conns ref hne] at hp
  split_ifs at hp with h₁ h₂
  · exact .inl ⟨.inl h₁, (Option.some.inj hp).symm⟩
  · exact .inl ⟨.inr h₂, (Option.some.inj hp).symm⟩
  · exact .inr hp

/-- The ends of the other bridges have notices, so they are not the new ends. -/
theorem End.buildBridge {r : BridgeRef} {p q : Obj} (h : s.End r p q) (ref : BridgeRef)
    (hne : visitor ≠ origin) (hv : s.Unbridged visitor) (ho : s.Unbridged origin) :
    (s.buildBridge ref visitor origin).End r p q := by
  have hunbridged : ∀ {x}, s.Unbridged x → p ≠ x := by
    rintro x hx rfl
    have hnotice := h.notice_eq
    rw [hx.notice_eq] at hnotice
    cases hnotice
  have hsame : (s.buildBridge ref visitor origin).conns p = s.conns p := by
    rw [s.buildBridge_conns ref hne, if_neg (hunbridged hv), if_neg (hunbridged ho)]
  exact End.congr h (hsame ▸ .refl _) rfl

theorem Inv.buildBridge_bridged (h : s.Inv none) {ref : BridgeRef} (href : s.FreshRef ref)
    (hne : visitor ≠ origin) (hv : s.Unbridged visitor) (ho : s.Unbridged origin) :
    (s.buildBridge ref visitor origin).Bridged ref visitor origin := by
  have hconns := s.buildBridge_conns ref hne
  have hopen : ∀ {p q}, ((s.buildBridge ref visitor origin).conns p).onMessage = .forward q →
      ((s.buildBridge ref visitor origin).conns p).noticeOnClose = some ref →
      (s.conns p).state = .connected → (s.buildBridge ref visitor origin).End ref p q := by
    intro p q hf hn hp
    obtain ⟨hid, hst, hsrv⟩ := s.buildBridge_kept ref hne p
    refine ⟨hst.trans hp, ?_, hf, hn⟩
    rw [hid, hsrv]
    exact h.pooled hp (by simp)
  refine ⟨hne, .inl ?_, hopen ?_ ?_ hv.connected, hopen ?_ ?_ ho.connected, href.drawn⟩
  · rw [buildBridge_bridge href.channel href.unregistered, if_pos rfl]
  · simp [hconns]
  · simp [hconns]
  · simp [hconns, hne.symm]
  · simp [hconns, hne.symm]

theorem Inv.buildBridge (h : s.Inv none) {ref : BridgeRef} (href : s.FreshRef ref)
    (hne : visitor ≠ origin) (hv : s.Unbridged visitor) (ho : s.Unbridged origin) :
    (s.buildBridge ref visitor origin).Inv none := by
  have hconns := s.buildBridge_conns ref hne
  have hbridge := buildBridge_bridge href.channel href.unregistered visitor origin
  have hqueue := s.buildBridge_queue ref visitor origin
  have hkept := s.buildBridge_kept ref hne
  exact {
    filed := fun {srv id p} hp => by
      obtain ⟨hid, hst, hsrv⟩ := hkept p
      rw [hid, hst, hsrv]
      exact h.filed hp
    pooled := fun {p} hp _ => by
      obtain ⟨hid, hst, hsrv⟩ := hkept p
      rw [hst] at hp
      rw [hid, hsrv]
      exact h.pooled hp (by simp)
    pending_new := fun hp => by cases hp
    settled := fun p => by
      rw [(hkept p).2.1]
      exact h.settled p
    ends := fun {r b} hb => by
      rw [hbridge] at hb
      split_ifs at hb with hr
      · have hb := (Option.some.inj hb).symm
        subst hb hr
        exact h.buildBridge_bridged href hne hv ho
      · have he := h.ends hb
        refine ⟨he.ne, ?_, he.end_left.buildBridge ref hne hv ho,
          he.end_right.buildBridge ref hne hv ho, he.drawn⟩
        rw [hbridge, if_neg hr]
        exact he.registered
    notice_drawn := fun {p r} hp => by
      rcases s.buildBridge_notice_cases hne hp with ⟨-, rfl⟩ | hp
      · exact href.drawn
      · exact h.notice_drawn hp
    notice_end := fun {p r b} hp hb => by
      rw [hbridge] at hb
      rcases s.buildBridge_notice_cases hne hp with ⟨hpe, rfl⟩ | hold
      · rw [if_pos rfl] at hb
        have hb := (Option.some.inj hb).symm
        subst hb
        exact hpe
      · split_ifs at hb with hr
        · subst hr
          exact absurd hold (href.unnoticed p)
        · exact h.notice_end hold hb
    notice_forward := fun {p r} hp => by
      rw [hconns] at hp ⊢
      split_ifs at hp ⊢
      · exact ⟨_, rfl⟩
      · exact ⟨_, rfl⟩
      · exact h.notice_forward hp
    forward_made := fun {p q} hp => by
      rw [(hkept q).2.1]
      rw [hconns] at hp
      split_ifs at hp
      · rw [MessageHandle.forward.injEq] at hp
        simp [← hp, ho.connected]
      · rw [MessageHandle.forward.injEq] at hp
        simp [← hp, hv.connected]
      · exact h.forward_made hp
    waiting := fun {m p} hp => by
      rw [hqueue] at hp
      rw [hconns, if_neg, if_neg]
      · exact h.waiting hp
      · rintro rfl
        exact ho.not_waiting m hp
      · rintro rfl
        exact hv.not_waiting m hp
    waiting_nodup := fun m => by
      rw [hqueue]
      exact h.waiting_nodup m
    control_made := fun {m c} hc => by
      rw [(hkept c).2.1]
      exact h.control_made (by rwa [buildBridge_control] at hc)
    unmade := fun {p} hp => by
      rw [(hkept p).2.1] at hp
      rw [hconns, if_neg, if_neg, h.unmade hp]
      · rintro rfl
        simp [ho.connected] at hp
      · rintro rfl
        simp [hv.connected] at hp }

theorem Inv.newConnection (h : s.Inv none) {o : Obj} (ho : (s.conns o).state = .connecting)
    {srv : ServerRef} {id : ConnId} (hid : s.pools srv id = none) :
    (s.modifyConn o fun _ => newConnection srv id).Inv (some o) := by
  have hnew : ∀ p, (s.modifyConn o fun _ => NServer.newConnection srv id).conns p =
      if p = o then NServer.newConnection srv id else s.conns p :=
    fun p => s.modifyConn_conns o p _
  have hold : ∀ {p}, (s.conns p).state ≠ .connecting →
      (s.modifyConn o fun _ => NServer.newConnection srv id).conns p = s.conns p := by
    intro p hp
    rw [hnew, if_neg]
    rintro rfl
    exact hp ho
  have hself : (s.modifyConn o fun _ => NServer.newConnection srv id).conns o =
      NServer.newConnection srv id := by rw [hnew, if_pos rfl]
  have hmade : ∀ {p}, (s.conns p).state ≠ .connecting →
      ((s.modifyConn o fun _ => NServer.newConnection srv id).conns p).state ≠ .connecting :=
    fun hp => by rwa [hold hp]
  exact {
    filed := fun {srv' id' p} hp => by
      have hf := h.filed hp
      rw [hold (by simp [hf.2.2])]
      exact hf
    pooled := fun {p} hp hne => by
      have hpo : p ≠ o := by
        rintro rfl
        exact hne rfl
      rw [hnew, if_neg hpo] at hp ⊢
      exact h.pooled hp (by simp)
    pending_new := fun {p} hp => by
      rw [Option.some.injEq] at hp
      rw [← hp, hself]
      exact hid
    settled := fun p => by
      rw [hnew]
      split_ifs
      · simp [NServer.newConnection]
      · exact h.settled p
    ends := fun {r b} hb => by
      have he := h.ends hb
      have hkeep : ∀ {x y}, s.End r x y →
          (s.modifyConn o fun _ => NServer.newConnection srv id).End r x y := by
        intro x y hxy
        refine hxy.congr ?_ (by rfl)
        rw [hold (by simp [hxy.connected])]
        exact .refl _
      exact ⟨he.ne, he.registered, hkeep he.end_left, hkeep he.end_right, he.drawn⟩
    notice_drawn := fun {p r} hp => by
      rw [hnew] at hp
      split_ifs at hp
      · cases hp
      · exact h.notice_drawn hp
    notice_end := fun {p r b} hp hb => by
      rw [hnew] at hp
      split_ifs at hp
      · cases hp
      · exact h.notice_end hp hb
    notice_forward := fun {p r} hp => by
      rw [hnew] at hp ⊢
      split_ifs at hp ⊢
      · cases hp
      · exact h.notice_forward hp
    forward_made := fun {p q} hp => by
      rw [hnew] at hp
      split_ifs at hp
      · cases srv <;> cases hp
      · exact hmade (h.forward_made hp)
    waiting := fun {m p} hp => by
      have hw := h.waiting hp
      rw [hold hw.2.2]
      exact hw
    waiting_nodup := h.waiting_nodup
    control_made := fun hc => hmade (h.control_made hc)
    unmade := fun {p} hp => by
      rw [hnew] at hp ⊢
      split_ifs at hp ⊢
      · cases hp
      · exact h.unmade hp }

/-- The visitor that is just being accepted joins the queue. -/
theorem Inv.pushVisitor {o : Obj} (h : s.Inv (some o)) (hmade : (s.conns o).state ≠ .connecting)
    (hhandle : (s.conns o).onMessage = .unset) (hserver : (s.conns o).server = .proxy nonce)
    (hnew : ∀ m, o ∉ s.queue m) :
    (s.modifyChannel nonce fun ch =>
      { ch with
        waitHandleVisitors := ch.waitHandleVisitors ++ [o]
        accepted := ch.accepted ++ [o] }).Inv (some o) := by
  have hqueue : ∀ m, (s.modifyChannel nonce fun ch =>
      { ch with
        waitHandleVisitors := ch.waitHandleVisitors ++ [o]
        accepted := ch.accepted ++ [o] }).queue m =
      if m = nonce ∧ (s.scMap nonce).isSome then s.queue m ++ [o] else s.queue m := by
    intro m
    simp only [queue, modifyChannel_scMap]
    by_cases hm : m = nonce
    · subst hm
      cases s.scMap m <;> simp
    · simp [hm]
  refine h.modifyQueue (fun _ => rfl) (fun _ => rfl) (fun {m p} hp => ?_) fun m => ?_
  · rw [hqueue] at hp
    split_ifs at hp with hm
    · rcases List.mem_append.mp hp with hp | hp
      · exact h.waiting hp
      · rw [List.mem_singleton] at hp
        rw [hp, hm.1]
        exact ⟨hhandle, hserver, hmade⟩
    · exact h.waiting hp
  · rw [hqueue]
    split_ifs with hm
    · rw [List.nodup_append]
      refine ⟨h.waiting_nodup m, by simp, fun x hx y hy => ?_⟩
      rw [List.mem_singleton] at hy
      rintro rfl
      exact hnew m (hy ▸ hx)
    · exact h.waiting_nodup m

/-- The pool takes the connection over. -/
theorem Inv.assignPool {o : Obj} (h : s.Inv (some o)) {srv : ServerRef} {id : ConnId}
    (hsrv : (s.conns o).server = srv) (hid : (s.conns o).connId = id)
    (hst : (s.conns o).state = .connected) :
    { s with pools := Function.update s.pools srv ((s.pools srv).assign id o) }.Inv none := by
  have hfresh : s.pools srv id = none := by rw [← hsrv, ← hid, h.pending_new rfl]
  have hpools : ∀ srv' id', Function.update s.pools srv ((s.pools srv).assign id o) srv' id' =
      if srv' = srv ∧ id' = id then some o else s.pools srv' id' := by
    intro srv' id'
    by_cases hs : srv' = srv
    · subst hs
      simp [Connections.assign_apply]
    · simp [hs]
  have hkeep : ∀ {srv' id' p}, s.pools srv' id' = some p →
      Function.update s.pools srv ((s.pools srv).assign id o) srv' id' = some p := by
    intro srv' id' p hp
    rw [hpools, if_neg, hp]
    rintro ⟨rfl, rfl⟩
    rw [hfresh] at hp
    cases hp
  exact {
    filed := fun {srv' id' p} hp => by
      simp only [hpools] at hp
      split_ifs at hp with hkey
      · rw [Option.some.injEq] at hp
        exact hp ▸ ⟨hsrv.trans hkey.1.symm, hid.trans hkey.2.symm, hst⟩
      · exact h.filed hp
    pooled := fun {p} hp _ => by
      by_cases hpo : p = o
      · subst hpo
        simp only [hpools, hsrv, hid, and_self, if_true]
      · exact hkeep (h.pooled hp fun he => hpo (Option.some.inj he).symm)
    pending_new := fun hp => by cases hp
    settled := h.settled
    ends := fun {r b} hb => by
      have he := h.ends hb
      have hend : ∀ {x y}, s.End r x y → End
          { s with pools := Function.update s.pools srv ((s.pools srv).assign id o) } r x y :=
        fun hxy => ⟨hxy.connected, hkeep hxy.pooled, hxy.onMessage_eq, hxy.notice_eq⟩
      exact ⟨he.ne, he.registered, hend he.end_left, hend he.end_right, he.drawn⟩
    notice_drawn := h.notice_drawn
    notice_end := h.notice_end
    notice_forward := h.notice_forward
    forward_made := h.forward_made
    waiting := h.waiting
    waiting_nodup := h.waiting_nodup
    control_made := h.control_made
    unmade := h.unmade }

theorem Inv.newConnectionHandle (h : s.Inv none) (a : Answers) {o : Obj}
    (ho : (s.conns o).state = .connecting) {srv : ServerRef} {id : ConnId}
    (hid : s.pools srv id = none) : (s.newConnectionHandle a srv o id).Inv none := by
  have h₁ := h.newConnection ho hid
  have hself : (s.modifyConn o fun _ => NServer.newConnection srv id).conns o =
      NServer.newConnection srv id := by simp [modifyConn]
  unfold NServer.newConnectionHandle
  cases srv with
  | ncxAcceptor => exact h₁.assignPool (by rw [hself]; rfl) (by rw [hself]; rfl) (by rw [hself]; rfl)
  | proxy nonce =>
    dsimp only
    cases hch : (s.modifyConn o fun _ => NServer.newConnection (.proxy nonce) id).scMap nonce with
    | none => exact h₁.assignPool (by rw [hself]; rfl) (by rw [hself]; rfl) (by rw [hself]; rfl)
    | some ch =>
      have hnew : ∀ m, o ∉ s.queue m := fun m hm => (h.waiting hm).2.2 ho
      have h₂ := h₁.pushVisitor (by rw [hself]; simp [NServer.newConnection]) (by rw [hself]; rfl)
        (by rw [hself]; rfl) hnew
      have hctl : (s.conns ch.ncxClientConn).state ≠ .connecting := h.control_made (control_eq hch)
      have hne : ch.ncxClientConn ≠ o := by
        intro he
        exact hctl (he ▸ ho)
      have hctl' : ((s.modifyConn o fun _ => NServer.newConnection (.proxy nonce) id).conns
          ch.ncxClientConn).state ≠ .connecting := by
        rwa [modifyConn_conns, if_neg hne]
      obtain ⟨h₃, hk⟩ := h₂.send ⟨[o], []⟩ hctl' (fun he => hne (Option.some.inj he).symm)
        (headerInstaller createDataChannel.serializeAsString)
      have hcore := hk.pending_eq o rfl
      refine h₃.assignPool ?_ ?_ ?_
      · exact hcore.server_eq.trans (congrArg Connection.server hself)
      · exact hcore.connId_eq.trans (congrArg Connection.connId hself)
      · exact hcore.state_eq.trans (congrArg Connection.state hself)

end Build

section Events

variable (pb : Protobuf) {a : Answers} {s s' : NServer} {o : Obj} {fr : Frame}

/-- The visitor that a read event bridges, if it makes the server handle a data hello. -/
def nextVisitor (s : NServer) (o : Obj) (reads : List Bytes) : Option Obj :=
  if (s.conns o).onMessage = .handleNewConnection then
    match attemptBytes ((s.conns o).inputBuffer ++ reads.flatten) with
    | (none, _) => none
    | (some payload, _) =>
        let hello := (pb.parseHello payload).2
        if hello.helloType = .dataChannelHello then (s.queue hello.digest).head? else none
  else none

/-- An accept draws an id that the pool does not have.  If a read event makes the
server bridge a visitor, the UUID drawn is a new one, the visitor and the client are
connected and the read does not end the connection. -/
def Orderly (s : NServer) : Event → Prop
  | .accept srv _ id _ => s.pools srv id = none
  | .readable o reads e a => ∀ v ∈ s.nextVisitor pb o reads, a.uuid ∉ s.drawn ∧
      e = .again ∧ (s.conns o).state = .connected ∧ (s.conns v).state = .connected

instance (s : NServer) (ev : Event) : Decidable (s.Orderly pb ev) :=
  match ev with
  | .accept _ _ _ _ => inferInstanceAs (Decidable (_ = _))
  | .readable o reads _ _ =>
      inferInstanceAs (Decidable (∀ v ∈ s.nextVisitor pb o reads, _ ∧ _ ∧ _ ∧ _))

theorem Inv.handleControlChannelHello (h : s.Inv none) (hmade : (s.conns o).state ≠ .connecting)
    {name : Bytes} {port : UInt16}
    (he : s.handleControlChannelHello a fr o name port = .ok s') : s'.Inv none := by
  unfold NServer.handleControlChannelHello at he
  dsimp only at he
  obtain ⟨hi, hk⟩ := (h.drawUuid a.uuid).send (a := a) fr hmade (by simp)
    (headerInstaller (controlHello a.uuid).serializeAsString)
  split at he
  · cases he
  · split at he
    · cases he
    · cases he
      exact hi.emplaceChannel (hk.made o hmade) _

/-- A connection whose handle does not forward has no close notice. -/
theorem Inv.notice_eq_none (h : s.Inv none) {p : Obj}
    (hp : ∀ q, (s.conns p).onMessage ≠ .forward q) : (s.conns p).noticeOnClose = none := by
  rw [Option.eq_none_iff_forall_ne_some]
  intro r hr
  obtain ⟨q, hq⟩ := h.notice_forward hr
  exact hp q hq

theorem Inv.releaseBridge (h : s.Inv none) {ref : BridgeRef} {b : BridgeCloser}
    (hends : ∀ x, x = b.bridgeInside ∨ x = b.bridgeOutside →
      (s.conns x).noticeOnClose = some ref ∧ (s.conns x).state ≠ .connecting) :
    (s.releaseBridge fr ref b).Inv none := by
  unfold NServer.releaseBridge
  split
  · exact h
  · exact h.destroyBridge fr ‹_› hends

theorem Inv.handleDataChannelHello (h : s.Inv none) {nonce : Bytes}
    (hhandle : (s.conns o).onMessage = .handleNewConnection)
    (hopen : ∀ v ∈ (s.queue nonce).head?,
      a.uuid ∉ s.drawn ∧ (s.conns o).state = .connected ∧ (s.conns v).state = .connected)
    (he : s.handleDataChannelHello a fr o nonce = .ok s') : s'.Inv none := by
  unfold NServer.handleDataChannelHello at he
  cases hch : s.scMap nonce with
  | none => simp [hch] at he
  | some ch =>
    cases hq : ch.waitHandleVisitors with
    | nil => simp [hch, hq] at he
    | cons visitor rest =>
      simp only [hch, hq] at he
      have he := eq_of_outlives he
      have hmem : visitor ∈ s.queue nonce := by simp [queue_eq hch, hq]
      obtain ⟨huuid, ho, hv⟩ := hopen visitor (by simp [queue_eq hch, hq])
      have hwait := h.waiting hmem
      have hne : visitor ≠ o := by
        rintro rfl
        rw [hwait.1] at hhandle
        cases hhandle
      obtain ⟨h₁, hpopped⟩ := h.popVisitor hch hq o
      have h₂ := h₁.drawUuid a.uuid
      have hvis : ((s.popVisitor nonce visitor o rest).drawUuid a.uuid).Unbridged visitor :=
        ⟨hv, h.notice_eq_none (by simp [hwait.1]), hpopped⟩
      have horg : ((s.popVisitor nonce visitor o rest).drawUuid a.uuid).Unbridged o := by
        refine ⟨ho, h.notice_eq_none (by simp [hhandle]), fun m hm => ?_⟩
        have := (h₁.waiting hm).1
        rw [show (s.popVisitor nonce visitor o rest).conns = s.conns from rfl, hhandle] at this
        cases this
      have href : ((s.popVisitor nonce visitor o rest).drawUuid a.uuid).FreshRef
          ⟨nonce, a.uuid⟩ := by
        refine ⟨?_, ?_, fun p hp => huuid (h.notice_drawn hp), by simp [NServer.drawUuid]⟩
        · simp [NServer.drawUuid, NServer.popVisitor, modifyChannel_scMap, hch]
        · rw [Option.eq_none_iff_forall_ne_some]
          intro b hb
          exact huuid (h₁.ends hb).drawn
      have h₃ := h₂.buildBridge href hne hvis horg
      have hconns := ((s.popVisitor nonce visitor o rest).drawUuid a.uuid).buildBridge_conns
        ⟨nonce, a.uuid⟩ hne
      generalize ((s.popVisitor nonce visitor o rest).drawUuid a.uuid).buildBridge
        ⟨nonce, a.uuid⟩ visitor o = s₃ at h₃ hconns he
      -- from here on the two ends keep their notices
      have hends : ∀ x, x = visitor ∨ x = o →
          (s₃.conns x).noticeOnClose = some ⟨nonce, a.uuid⟩ ∧
            (s₃.conns x).state ≠ .connecting := by
        rintro x (rfl | rfl)
        · rw [hconns, if_pos rfl]
          exact ⟨rfl, by simp [hvis.connected]⟩
        · rw [hconns, if_neg hne.symm, if_pos rfl]
          exact ⟨rfl, by simp [horg.connected]⟩
      obtain ⟨h₄, hk₄⟩ := h₃.send (a := a) ⟨visitor :: fr.conns, a.uuid :: fr.bridges⟩
        (hends o (.inr rfl)).2 (by simp) (headerInstaller startForwardTcp.serializeAsString)
      have hforward : (s₃.conns visitor).onMessage = .forward o := by rw [hconns, if_pos rfl]
      generalize s₃.send a ⟨visitor :: fr.conns, a.uuid :: fr.bridges⟩ o
        (headerInstaller startForwardTcp.serializeAsString) = s₄ at h₄ hk₄ he
      have hforward₄ := (hk₄.onMessage_eq visitor).trans hforward
      obtain ⟨h₅, hk₅⟩ := h₄.forward (a := a) ⟨visitor :: fr.conns, a.uuid :: fr.bridges⟩
        (hk₄.made _ (hends visitor (.inl rfl)).2) hforward₄
      have hk := hk₄.trans hk₅
      simp only [flush, hforward₄] at he
      rw [← he]
      refine h₅.releaseBridge fun x hx => ?_
      obtain ⟨hn, hm⟩ := hends x hx
      exact ⟨(hk.notice_eq x).trans hn, hk.made x hm⟩

theorem Inv.handleDataIn (h : s.Inv none) (hmade : (s.conns o).state ≠ .connecting)
    {reads : List Bytes} {e : ReadEnd} (hord : s.Orderly pb (.readable o reads e a))
    (he : s.handleDataIn pb a o reads e = .ok s') : s'.Inv none := by
  obtain ⟨h₁, hk₁⟩ := h.setInput hmade (· ++ reads.flatten)
  -- after the read: the same handles and queues, and for `EAGAIN` the same states
  obtain ⟨s₂, hs₂, h₂, hk₂, hbuf, hagain⟩ : ∃ s₂, s.readNonBlocking ⟨[o], []⟩ o reads e = s₂ ∧
      s₂.Inv none ∧ Keeps none s s₂ ∧
      (s₂.conns o).inputBuffer = (s.conns o).inputBuffer ++ reads.flatten ∧
      (e = .again → ∀ p, (s₂.conns p).state = (s.conns p).state) := by
    have hbuf := s.afterReads_inputBuffer o reads
    cases e with
    | again =>
      exact ⟨_, readNonBlocking_again s _ o reads, h₁, hk₁, hbuf,
        fun _ p => (s.afterReads_sameCore o reads p).state_eq⟩
    | closed =>
      obtain ⟨h₂, hk₂⟩ := h₁.handleClose ⟨[o], []⟩ (hk₁.made o hmade) (by simp)
      exact ⟨_, readNonBlocking_closed s _ o reads, h₂, hk₁.trans hk₂,
        ((untouched_inputBuffer o).handleClose _ _ o).trans hbuf, fun hc => by cases hc⟩
  unfold NServer.handleDataIn at he
  rw [hs₂, NServer.handleMessage] at he
  have hmade₂ := hk₂.made o hmade
  cases hhandle : (s₂.conns o).onMessage with
  | unset =>
    simp only [hhandle, Except.ok.injEq] at he
    exact he ▸ h₂
  | forward peer =>
    simp only [hhandle] at he
    exact eq_of_outlives he ▸ (h₂.forward _ hmade₂ hhandle).1
  | handleNewConnection =>
    simp only [hhandle, NServer.handleNewConnection, hbuf] at he
    rcases hat : attemptBytes ((s.conns o).inputBuffer ++ reads.flatten) with ⟨_ | payload, buf⟩
    · simp only [hat, Except.ok.injEq] at he
      exact he ▸ (h₂.setInput hmade₂ fun _ => buf).1
    · simp only [hat] at he
      obtain ⟨h₃, hk₃⟩ := h₂.setInput hmade₂ fun _ => buf
      have hk := hk₂.trans hk₃
      cases ht : (pb.parseHello payload).2.helloType with
      | controlChannelHello =>
        simp only [ht] at he
        exact h₃.handleControlChannelHello (hk.made o hmade) he
      | unnamed v =>
        simp only [ht, Except.ok.injEq] at he
        exact he ▸ h₃
      | dataChannelHello =>
        simp only [ht] at he
        refine h₃.handleDataChannelHello ((hk₃.onMessage_eq o).trans hhandle) (fun v hv => ?_) he
        have hmem : v ∈ s.nextVisitor pb o reads := by
          rw [nextVisitor, if_pos ((hk₂.onMessage_eq o).symm.trans hhandle)]
          simp only [hat, ht, if_true]
          rwa [hk.queue_eq] at hv
        obtain ⟨huuid, ha, ho, hv⟩ := hord v hmem
        have hst : ∀ p, ((s₂.modifyConn o fun c => { c with inputBuffer := buf }).conns p).state =
            (s.conns p).state := by
          intro p
          rw [← hagain ha p, modifyConn_conns]
          split
          · rename_i hp
            rw [hp]
          · rfl
        exact ⟨hk.drawn_eq ▸ huuid, (hst o).trans ho, (hst v).trans hv⟩

variable {pb} in
theorem step_accept_cases {srv : ServerRef} {id : ConnId}
    (hok : s.step pb (.accept srv o id a) = .ok s') :
    (s.conns o).state = .connecting ∧ s' = s.newConnectionHandle a srv o id ∨ s' = s := by
  simp only [NServer.step] at hok
  split at hok
  · rename_i hc
    exact .inl ⟨hc.2, (eq_of_outlives hok).symm⟩
  · exact .inr (Except.ok.inj hok).symm

variable {pb} in
theorem step_readable_cases {reads : List Bytes} {e : ReadEnd}
    (hok : s.step pb (.readable o reads e a) = .ok s') :
    (s.conns o).state ≠ .connecting ∧ s.handleDataIn pb a o reads e = .ok s' ∨ s' = s := by
  simp only [NServer.step] at hok
  split at hok
  · rename_i hc
    exact .inl ⟨hc.1, hok⟩
  · exact .inr (Except.ok.inj hok).symm

theorem Inv.step (h : s.Inv none) {ev : Event} (hord : s.Orderly pb ev)
    (he : s.step pb ev = .ok s') : s'.Inv none := by
  cases ev with
  | accept srv o id a =>
    rcases step_accept_cases he with ⟨hnew, rfl⟩ | rfl
    · exact h.newConnectionHandle a hnew hord
    · exact h
  | readable o reads e a =>
    rcases step_readable_cases he with ⟨hmade, hread⟩ | rfl
    · exact h.handleDataIn pb hmade hord hread
    · exact h

/-- In every state between two events of an orderly run, both ends of every
registered bridge are connected and in the pool of their server. -/
theorem registered_bridges_open (port : UInt16) (s : NServer)
    (h : Runs.ReachableBy (NServer.step pb) (Orderly pb) (new port) s) :
    ∀ nonce ch id b, s.scMap nonce = some ch → ch.bridgeClosers id = some b →
      ∀ o, o = b.bridgeInside ∨ o = b.bridgeOutside →
        (s.conns o).state = .connected ∧
          s.pools (s.conns o).server (s.conns o).connId = some o := by
  have hinv := h.invariant (NServer.Inv none) (new_inv port)
    fun s ev s' hs hord he => hs.step pb hord he
  intro nonce ch id b hch hb o ho
  have he := hinv.ends ((bridge_eq hch id).trans hb)
  rcases ho with rfl | rfl
  · exact ⟨he.end_left.connected, he.end_left.pooled⟩
  · exact ⟨he.end_right.connected, he.end_right.pooled⟩

/-- The run of the example is orderly and ends with a bridge. -/
theorem registered_bridges_open_example :
    ∃ s, Runs.checkedRun (NServer.step .wire) (Orderly .wire) exampleEvents (new 8080) = some s ∧
      s.bridge exampleRef = some ⟨1, 2⟩ ∧
      (s.conns 1).state = .connected ∧ (s.conns 2).state = .connected := by
  obtain ⟨s, hs⟩ := Option.isSome_iff_exists.mp (by decide +kernel :
    (Runs.checkedRun (NServer.step .wire) (Orderly .wire) exampleEvents (new 8080)).isSome)
  have hbridge : (Runs.checkedRun (NServer.step .wire) (Orderly .wire) exampleEvents
      (new 8080)).bind (·.bridge exampleRef) = some ⟨1, 2⟩ := by
    decide +kernel
  rw [hs, Option.bind_some] at hbridge
  obtain ⟨ch, hch, hb⟩ := Option.bind_eq_some_iff.mp hbridge
  have hopen := registered_bridges_open .wire 8080 s (.of_checkedRun .refl hs) _ ch _ _ hch hb
  exact ⟨s, hs, hbridge, (hopen 1 (.inl rfl)).1, (hopen 2 (.inr rfl)).1⟩

/-- The visitor closes while it waits, and is bridged all the same. -/
theorem half_open_bridge_registered :
    ∃ s, Reachable .wire 8080 s ∧ ∃ ch b, s.scMap exampleRef.nonce = some ch ∧
      ch.bridgeClosers exampleRef.bridgeId = some b ∧
      (s.conns b.bridgeInside).state = .disconnected ∧
      (s.conns b.bridgeOutside).state = .connected := by
  let evs := exampleEvents.take 3 ++ [.readable 1 [] .closed (.calm [])] ++ exampleEvents.drop 3
  obtain ⟨s, hs⟩ := Option.isSome_iff_exists.mp (by decide +kernel :
    (run .wire (new 8080) evs).toOption.isSome)
  have hrun : run .wire (new 8080) evs = .ok s := Runs.ok_of_toOption hs
  have hfacts : (run .wire (new 8080) evs).toOption.map (fun s => (s.bridge exampleRef,
      (s.conns 1).state, (s.conns 2).state)) =
      some (some ⟨1, 2⟩, .disconnected, .connected) := by
    decide +kernel
  rw [hs, Option.map_some, Option.some.injEq, Prod.mk.injEq, Prod.mk.injEq] at hfacts
  obtain ⟨hbridge, hdead, hlive⟩ := hfacts
  obtain ⟨ch, hch, hb⟩ := Option.bind_eq_some_iff.mp hbridge
  exact ⟨s, ⟨evs, hrun⟩, ch, _, hch, hb, hdead, hlive⟩

end Events

end NcxTunnel.NServer
