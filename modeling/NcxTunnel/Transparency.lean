import NcxTunnel.TunnelReads

/-!
# Matching and transparent forwarding

The invariant holds in every state of the composed system.  Every greeting of a
data channel finds its visitor, and a bridge passes bytes on unaltered.
-/

namespace NcxTunnel

open Streams

variable {pb : Protobuf}

/-- Nothing is on its way between a visitor and a service. -/
structure Quiet (conn : Connection) (lv ld : Link) (ve : VisitorEnd) (de : DataEnd) : Prop where
  visitor_read : lv.upRead = ve.sent.length
  data_read : ld.downRead = conn.sent.length
  service_read : de.serviceRead = de.service.length
  server_read : ld.upRead = de.channel.toServer.length

/-- What has gone to the service is what the client has read behind START. -/
theorem Forwards.start_append {cd : Connection} {ld : Link} {de : DataEnd} (h : Forwards cd ld de) :
    startFrame ++ de.channel.toService = cd.sent.take ld.downRead := by
  have hparts := h.input.trans (List.take_append_drop ld.downRead cd.sent).symm
  exact List.append_cancel_right hparts

namespace JoinedEnds

variable {v l : Obj} {cv cd : Connection} {lv ld : Link} {ve : VisitorEnd} {de : DataEnd}

theorem behind_start (h : JoinedEnds v l cv cd lv ld ve de) : de.channel.toService = [] ∨
    startFrame ++ de.channel.toService = cd.sent.take ld.downRead :=
  h.client.imp (·.toService_eq) (·.start_append)

theorem toService_prefix (h : JoinedEnds v l cv cd lv ld ve de) :
    de.channel.toService <+: ve.sent := by
  rcases h.behind_start with hnil | hstart
  · rw [hnil]
    exact List.nil_prefix
  · have hpre : startFrame ++ de.channel.toService <+: startFrame ++ ve.sent.take lv.upRead := by
      rw [hstart, ← h.data_sent]
      exact List.take_prefix _ _
    exact ((List.prefix_append_right_inj _).mp hpre).trans (List.take_prefix _ _)

theorem sent_prefix (h : JoinedEnds v l cv cd lv ld ve de) : cv.sent <+: de.service := by
  have hpre : dataHelloFrame ve.nonce ++ cv.sent <+:
      dataHelloFrame ve.nonce ++ de.service.take de.serviceRead := by
    rw [← h.visitor_sent, ← h.toServer_eq]
    exact List.take_prefix _ _
  exact ((List.prefix_append_right_inj _).mp hpre).trans (List.take_prefix _ _)

/-- Once nothing is on its way, everything has arrived. -/
theorem eq_of_quiet (h : JoinedEnds v l cv cd lv ld ve de) (hf : de.channel.onMessage = .forward)
    (hq : Quiet cd lv ld ve de) : de.channel.toService = ve.sent ∧ cv.sent = de.service := by
  constructor
  · rcases h.client with hw | hfwd
    · cases hw.waiting.symm.trans hf
    · have hall := hfwd.start_append
      rw [hq.data_read, List.take_length, h.data_sent, hq.visitor_read, List.take_length] at hall
      exact List.append_cancel_left hall
  · have hall := h.visitor_sent
    rw [hq.server_read, List.take_length, h.toServer_eq, hq.service_read, List.take_length] at hall
    exact (List.append_cancel_left hall).symm

end JoinedEnds

/-! ## Every step keeps the invariant -/

theorem NServer.mem_queue_of_nextVisitor {s : NServer} {o v : Obj} {reads : List Bytes}
    (h : v ∈ s.nextVisitor pb o reads) : ∃ nonce, v ∈ s.queue nonce := by
  unfold nextVisitor at h
  split at h
  · rcases ha : attemptBytes ((s.conns o).inputBuffer ++ reads.flatten) with ⟨_ | payload, buf⟩
    · simp [ha] at h
    · simp only [ha] at h
      split at h
      · exact ⟨_, List.mem_of_mem_head? h⟩
      · cases h
  · cases h

namespace Tunnel

variable {t t' : Tunnel} {l : Obj} {link : Link}

namespace Good

theorem orderly_readEvent (h : t.Good) (hst : (t.server.conns l).state ≠ .connecting) (k : ℕ)
    {a : Answers} (huuid : a.uuid ∉ t.server.drawn) :
    t.server.Orderly pb (readEvent l link k a) := by
  refine fun v hv => ⟨huuid, rfl, h.connected hst, ?_⟩
  obtain ⟨nonce, hmem⟩ := NServer.mem_queue_of_nextVisitor hv
  exact h.connected (h.inv.waiting hmem).2.2

theorem serverRead_ok {k : ℕ} {a : Answers} (ht' : t.serverRead pb l link k a = .ok t') :
    ∃ s', t.server.step pb (readEvent l link k a) = .ok s' ∧
      t' = { t with server := s' }.setLink l { link with
        upRead := link.upRead + (arriving link.peer.sent link.upRead k).length } := by
  unfold Tunnel.serverRead at ht'
  cases hs : t.server.step pb (readEvent l link k a) with
  | error e => simp [hs, bind, Except.bind] at ht'
  | ok s' =>
    simp only [hs, bind, Except.bind, pure, Except.pure, Except.ok.injEq] at ht'
    exact ⟨s', rfl, ht'.symm⟩

theorem serverRead (h : t.Good) (hl : t.links l = some link)
    (hst : (t.server.conns l).state ≠ .connecting) {k : ℕ} {a : Answers}
    (hw : ∀ n, a.writeFails n = false) (huuid : IsUuid a.uuid) (hfresh : a.uuid ∉ t.server.drawn)
    (ht' : t.serverRead pb l link k a = .ok t') : t'.Good := by
  obtain ⟨s', hs, rfl⟩ := serverRead_ok ht'
  have hinv := h.inv.step pb (h.orderly_readEvent hst k hfresh) hs
  cases hp : link.peer with
  | control c => exact hp ▸ h.read_control hl hst hinv hs hw huuid hfresh hp
  | data d => exact hp ▸ h.read_data hl hst hinv hs hw hp
  | visitor w => exact hp ▸ h.read_visitor hl hst hinv hs hw hp

theorem step (h : t.Good) {act : Action} (hact : t.Granted act) (ht' : t.step pb act = .ok t') :
    t'.Good := by
  cases step_does ht' with
  | nothing => exact h
  | openControl hl id args => exact h.openControl hl id hact
  | @openVisitor l nonce hl hlistens => exact h.openVisitor hl nonce
  | accept hl hok => exact h.accept hl (hact _ hl) hok
  | visitorSend hl data => exact h.visitorSend hl data
  | serviceSend hl data => exact h.serviceSend hl data
  | serverRead hl hst hok => exact h.serverRead hl hst (fun _ => rfl) hact.1 hact.2 hok
  | clientRead hl k l' => exact h.clientRead hl k l'
  | serviceRead hl k => exact h.serviceRead hl k

end Good

theorem Reachable.good {port : UInt16} (h : Reachable pb port t) : t.Good :=
  h.invariant Good (new_good port) fun _ _ _ hs hact ht' => hs.step hact ht'

/-! ## Greetings of data channels -/

/-- The greeting that is complete once at most `k` more bytes of the link are read. -/
def greeting (pb : Protobuf) (t : Tunnel) (l : Obj) (link : Link) (k : ℕ) : Option Hello :=
  if (t.server.conns l).onMessage = .handleNewConnection then
    (attemptBytes ((t.server.conns l).inputBuffer ++
      arriving link.peer.sent link.upRead k)).1.map fun payload => (pb.parseHello payload).2
  else none

def IsVisitor (t : Tunnel) (nonce : Bytes) (v : Obj) : Prop :=
  ∃ link w, t.links v = some link ∧ link.peer = .visitor w ∧ w.nonce = nonce

def helloHandled (t : Tunnel) (l : Obj) : Bool :=
  match (t.server.conns l).onMessage with
  | .forward _ => true
  | .unset => false
  | .handleNewConnection => false

theorem helloHandled_iff (t : Tunnel) (l : Obj) : t.helloHandled l = true ↔
    ∃ p, (t.server.conns l).onMessage = .forward p := by
  unfold helloHandled
  cases (t.server.conns l).onMessage <;> simp

namespace Good

/-- Its digest names a channel with a waiting visitor. -/
theorem greeting_data (h : t.Good) (hl : t.links l = some link) {k : ℕ} {hello : Hello}
    (hg : t.greeting pb l link k = some hello) (htype : hello.helloType = .dataChannelHello) :
    ∃ ch, t.server.scMap hello.digest = some ch ∧ ch.waitHandleVisitors ≠ [] := by
  unfold greeting at hg
  split at hg
  · rename_i hhandle
    have hst : (t.server.conns l).state ≠ .connecting := by
      intro hnew
      rw [h.inv.unmade hnew] at hhandle
      cases hhandle
    cases hp : link.peer with
    | visitor w =>
      rcases h.visitor_cases hl hp with ⟨hnew, -⟩ | ⟨ch, -, -, hq | ⟨p, ld, d, -, hj⟩⟩
      · exact absurd hnew hst
      · cases hq.handle.symm.trans hhandle
      · cases hj.ends.visitor_handle.symm.trans hhandle
    | control c =>
      rcases h.control_cases hl hp with hu | ⟨nonce, ch, -, -, hgr⟩
      · obtain ⟨args, hvalid, ha | ⟨rest, ha, -⟩⟩ := h.attempt_ungreeted k hl hp hu
        · simp [ha] at hg
        · rw [ha, Option.map_some, pb.parseHello_serialize _ hvalid, Option.some.injEq] at hg
          subst hg
          cases htype
      · rw [attempt_greeted k hp hgr, attemptBytes_nil] at hg
        cases hg
    | data d =>
      obtain ⟨ch, hch, hmem, hpend | ⟨v, lv, w, -, hj⟩⟩ := h.data_cases hl hp
      · rcases h.attempt_pending k hp hpend hch with ha | ⟨rest, ha, -⟩
        · simp [ha] at hg
        · have hvalid := Hello.valid_of_isUuid .dataChannelHello (h.channel hch).isUuid
          rw [ha, Option.map_some, DataChannel.dataHello, pb.parseHello_serialize _ hvalid,
            Option.some.injEq] at hg
          subst hg
          exact ⟨ch, hch, h.queue_ne_nil hpend hch hmem⟩
      · cases hj.ends.data_handle.symm.trans hhandle
  · cases hg

/-- The server does not fail on what its own clients send, except for a port it cannot bind. -/
theorem step_error (h : t.Good) {act : Action} {f : Fault} (hf : t.step pb act = .error f) :
    f = .exit := by
  cases act with
  | openControl l id args => cases hf
  | openVisitor l nonce => cases hf
  | accept l id =>
    simp only [Tunnel.step] at hf
    split at hf
    · cases hf
    · rename_i link hl
      obtain ⟨s', hs⟩ := NServer.step_accept_isOk pb (a := .calm []) (fun _ => rfl) t.server
        link.peer.server l id
      simp [Tunnel.accept, hs, bind, Except.bind, pure, Except.pure] at hf
  | visitorSend l data =>
    simp only [Tunnel.step] at hf
    split at hf <;> cases hf
  | serviceSend l data =>
    simp only [Tunnel.step] at hf
    split at hf <;> cases hf
  | clientRead l k l' =>
    simp only [Tunnel.step] at hf
    split at hf <;> cases hf
  | serviceRead l k =>
    simp only [Tunnel.step] at hf
    split at hf <;> cases hf
  | serverRead l k uuid bindRefused ephemeralPort =>
    simp only [Tunnel.step] at hf
    split at hf
    · cases hf
    · rename_i link hl
      split at hf
      · cases hf
      · rename_i hst
        have hmade := h.connected hst
        have hpool := h.inv.pooled hmade (by simp)
        unfold Tunnel.serverRead at hf
        cases hs : t.server.step pb
            (readEvent l link k ⟨uuid, fun _ => false, fun _ => false, bindRefused, ephemeralPort⟩) with
        | ok s' => simp [hs, bind, Except.bind, pure, Except.pure] at hf
        | error e =>
          simp only [hs, bind, Except.bind, Except.error.injEq] at hf
          subst hf
          rcases NServer.step_read_error hmade hpool (fun _ => rfl) hs with
            he | ⟨hhandle, payload, rest, ha, htype, hno⟩
          · exact he
          · have hg : t.greeting pb l link k = some (pb.parseHello payload).2 := by
              rw [greeting, if_pos hhandle, ha, Option.map_some]
            exact absurd (h.greeting_data hl hg htype) hno

/-- A data channel of a channel is bridged if its handler forwards. -/
theorem forwards_iff_bridged (h : t.Good) {nonce : Bytes} {ch : SControlChannel}
    (hch : t.server.scMap nonce = some ch) (hmem : l ∈ t.dataLinks ch.ncxClientConn) :
    (∃ p, (t.server.conns l).onMessage = .forward p) ↔ l ∈ ch.bridged.map Prod.snd := by
  obtain ⟨link, d, hl, hp, hnonce⟩ := (h.channel hch).isData l hmem
  obtain ⟨ch', hch', -, hphase⟩ := h.data_cases hl hp
  rw [hnonce, hch, Option.some.injEq] at hch'
  subst hch'
  constructor
  · rintro ⟨p, hf⟩
    rcases hphase with hpend | ⟨v, lv, w, hb, -⟩
    · exact absurd hf (h.pending_not_forward hpend p)
    · exact List.mem_map.mpr ⟨_, hb, rfl⟩
  · intro hb
    rcases hphase with hpend | ⟨v, lv, w, -, hj⟩
    · exact absurd hb (h.pending_not_bridged hpend hch)
    · exact ⟨v, hj.ends.data_handle⟩

/-- The queue: commands that the client has not handled, and data channels whose
greeting the server has not handled. -/
theorem queue_length (h : t.Good) {nonce : Bytes} {ch : SControlChannel}
    (hch : t.server.scMap nonce = some ch) :
    (t.dataLinks ch.ncxClientConn).length ≤ ch.accepted.length ∧
    ch.waitHandleVisitors.length =
      (ch.accepted.length - (t.dataLinks ch.ncxClientConn).length) +
        (t.dataLinks ch.ncxClientConn).countP fun l => !t.helloHandled l := by
  have hok := h.channel hch
  obtain ⟨lc, c, hlc, hpc, hg⟩ := hok.control
  have hlinks : t.dataLinks ch.ncxClientConn = c.dataLinks := by simp [dataLinks, hlc, hpc]
  have hle : c.dataLinks.length ≤ ch.accepted.length := by
    rcases hg.client with hw | hw
    · rw [hw.dataLinks_eq]
      exact Nat.zero_le _
    · exact hw.length_le
  -- the data channels whose greeting was handled are those that are bridged
  have hperm : (c.dataLinks.filter fun l => t.helloHandled l).Perm (ch.bridged.map Prod.snd) := by
    refine (List.perm_ext_iff_of_nodup (hg.nodup.filter _) hok.bridged_nodup).mpr fun l => ?_
    rw [List.mem_filter]
    constructor
    · rintro ⟨hmem, hh⟩
      exact (h.forwards_iff_bridged hch (hlinks ▸ hmem)).mp ((helloHandled_iff t l).mp hh)
    · intro hb
      have hmem := hg.bridged_sub hb
      exact ⟨hmem, (helloHandled_iff t l).mpr ((h.forwards_iff_bridged hch (hlinks ▸ hmem)).mpr hb)⟩
  have hhandled := hperm.length_eq
  rw [← List.countP_eq_length_filter, List.length_map] at hhandled
  have hcount := List.length_eq_countP_add_countP (fun l => t.helloHandled l) (l := c.dataLinks)
  have hqueue := congrArg List.length hok.accepted_eq
  rw [List.length_append, List.length_map] at hqueue
  rw [hlinks]
  refine ⟨hle, ?_⟩
  simp only [Bool.not_eq_true, Bool.decide_eq_false] at hcount
  omega

end Good

/-- For every interleaving and every chunking: what has gone to a service is a
prefix of what its visitor has sent, namely what the client has read behind START;
what has gone to the visitor is a prefix of what the service has sent; and once the
client forwards and nothing is on its way, both have arrived completely.  Without a
bridge nothing has gone to either. -/
theorem forwarding_transparent (pb : Protobuf) (port : UInt16) (t : Tunnel)
    (h : Reachable pb port t) :
    (∀ l link d, t.links l = some link → link.peer = .data d →
      (t.helloHandled l = false ∧ d.channel.toService = [] ∧ d.service = []) ∨
      ∃ v lv w, t.links v = some lv ∧ lv.peer = .visitor w ∧
        (t.server.conns v).onMessage = .forward l ∧ (t.server.conns l).onMessage = .forward v ∧
        d.channel.toService <+: w.sent ∧ (t.server.conns v).sent <+: d.service ∧
        (d.channel.toService = [] ∨
          startFrame ++ d.channel.toService = (t.server.conns l).sent.take link.downRead) ∧
        (d.channel.onMessage = .forward → Quiet (t.server.conns l) lv link w d →
          d.channel.toService = w.sent ∧ (t.server.conns v).sent = d.service)) ∧
    ∀ v lv w, t.links v = some lv → lv.peer = .visitor w →
      (t.server.conns v).sent = [] ∨
      ∃ l link d, t.links l = some link ∧ link.peer = .data d ∧
        (t.server.conns v).onMessage = .forward l ∧ (t.server.conns l).onMessage = .forward v := by
  have hgood := h.good
  constructor
  · intro l link d hl hp
    obtain ⟨ch, -, -, hpend | ⟨v, lv, w, -, hj⟩⟩ := hgood.data_cases hl hp
    · refine .inl ⟨?_, hpend.toService_eq, hpend.service_eq⟩
      rw [Bool.eq_false_iff, ne_eq, helloHandled_iff]
      rintro ⟨p, hf⟩
      exact hgood.pending_not_forward hpend p hf
    · have he := hj.ends
      exact .inr ⟨v, lv, w, hj.visitor_link, hj.visitor_peer, he.visitor_handle, he.data_handle,
        he.toService_prefix, he.sent_prefix, he.behind_start, he.eq_of_quiet⟩
  · intro v lv w hl hp
    rcases hgood.visitor_cases hl hp with ⟨hnew, -⟩ | ⟨ch, -, -, hq | ⟨l, link, d, -, hj⟩⟩
    · rw [hgood.inv.unmade hnew]
      exact .inl rfl
    · exact .inl hq.sent_eq
    · exact .inr ⟨l, link, d, hj.data_link, hj.data_peer, hj.ends.visitor_handle,
        hj.ends.data_handle⟩

/-- The service has received the two bytes, the one sent before the bridge existed included. -/
theorem forwarding_transparent_hi :
    ∃ link d v lv w, (exampleState 17).links 2 = some link ∧ link.peer = .data d ∧
      d.channel.toService = [72, 105] ∧ (exampleState 17).links v = some lv ∧
      lv.peer = .visitor w ∧ d.channel.toService <+: w.sent ∧
      ((exampleState 17).server.conns v).sent <+: d.service := by
  have hbytes : ((exampleState 17).links 2).bind (fun link => link.peer.delivered?) =
      some [72, 105] := by
    decide +kernel
  obtain ⟨link, hl, hservice⟩ := Option.bind_eq_some_iff.mp hbytes
  cases hp : link.peer with
  | control c => simp [hp, Peer.delivered?] at hservice
  | visitor w => simp [hp, Peer.delivered?] at hservice
  | data d =>
    simp only [hp, Peer.delivered?, Option.some.injEq] at hservice
    have hall := forwarding_transparent .wire 8080 (exampleState 17) (exampleState_reachable 17)
    rcases hall.1 2 link d hl hp with
      ⟨-, hnil, -⟩ | ⟨v, lv, w, hlv, hpv, -, -, hto, hfrom, -⟩
    · rw [hnil] at hservice
      cases hservice
    · exact ⟨link, d, v, lv, w, hl, hp, hservice, hlv, hpv, hto, hfrom⟩

end Tunnel

end NcxTunnel
