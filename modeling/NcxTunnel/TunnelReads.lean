import NcxTunnel.TunnelActions

/-!
# The reads of the server

What the server reads is a greeting, bytes of a waiting visitor, or bytes to be
passed on.
-/

namespace NcxTunnel

open Streams

variable {pb : Protobuf} {t : Tunnel} {T : Obj → Prop} {l v : Obj} {link link' : Link}

section Joined

variable {cv cd : Connection} {lv ld : Link} {ve : VisitorEnd} {de : DataEnd} (k : ℕ)

theorem AwaitsStart.append {conn : Connection} (hw : AwaitsStart conn link de)
    (hle : link.downRead ≤ conn.sent.length) (msg : Bytes) :
    AwaitsStart { conn with sent := conn.sent ++ msg } link de :=
  ⟨hw.waiting, hw.unconnected, hw.toService_eq, hw.service_eq, by
    rw [unhandled_append _ _ hle, hw.input]⟩

theorem Forwards.append {conn : Connection} (hf : Forwards conn link de)
    (hle : link.downRead ≤ conn.sent.length) (msg : Bytes) :
    Forwards { conn with sent := conn.sent ++ msg } link de :=
  ⟨hf.forwards, hf.input_eq, by rw [unhandled_append _ _ hle, hf.input]⟩

/-- What the server reads from the visitor goes to the data channel. -/
theorem JoinedEnds.visitorRead (h : JoinedEnds v l cv cd lv ld ve de) :
    JoinedEnds v l { cv with inputBuffer := [] }
      { cd with sent := cd.sent ++ (cv.inputBuffer ++ arriving ve.sent lv.upRead k) }
      { lv with upRead := lv.upRead + (arriving ve.sent lv.upRead k).length } ld ve de where
  visitor_handle := h.visitor_handle
  data_handle := h.data_handle
  visitor_input := rfl
  data_input := h.data_input
  visitor_upRead_le := read_add_length_arriving_le _ _ h.visitor_upRead_le
  data_sent := by
    rw [h.data_sent, h.visitor_input, List.nil_append, take_read_arriving, List.append_assoc]
  data_upRead_le := h.data_upRead_le
  visitor_sent := h.visitor_sent
  serviceRead_le := h.serviceRead_le
  toServer_eq := h.toServer_eq
  downRead_le := by
    rw [List.length_append]
    exact Nat.le_add_right_of_le h.downRead_le
  client := h.client.imp (·.append h.downRead_le _) (·.append h.downRead_le _)

/-- What the server reads from the data channel goes to the visitor. -/
theorem JoinedEnds.dataRead (h : JoinedEnds v l cv cd lv ld ve de) :
    JoinedEnds v l
      { cv with sent := cv.sent ++ (cd.inputBuffer ++ arriving de.channel.toServer ld.upRead k) }
      { cd with inputBuffer := [] } lv
      { ld with upRead := ld.upRead + (arriving de.channel.toServer ld.upRead k).length } ve de where
  visitor_handle := h.visitor_handle
  data_handle := h.data_handle
  visitor_input := h.visitor_input
  data_input := rfl
  visitor_upRead_le := h.visitor_upRead_le
  data_sent := h.data_sent
  data_upRead_le := read_add_length_arriving_le _ _ h.data_upRead_le
  visitor_sent := by
    rw [h.data_input, List.nil_append, take_read_arriving, h.visitor_sent, List.append_assoc]
  serviceRead_le := h.serviceRead_le
  toServer_eq := h.toServer_eq
  downRead_le := h.downRead_le
  client := h.client.imp (fun hw => ⟨hw.waiting, hw.unconnected, hw.toService_eq, hw.service_eq,
    hw.input⟩) fun hf => ⟨hf.forwards, hf.input_eq, hf.input⟩

/-- A data channel that has greeted and a visitor that has waited. -/
theorem Pending.joinedEnds (h : Pending cd ld de) {read : ℕ}
    (hread : read ≤ de.channel.toServer.length) (hdone : de.channel.toServer.drop read = [])
    (hnonce : ve.nonce = de.channel.nonce) (hle : lv.upRead ≤ ve.sent.length)
    (hinput : cv.inputBuffer = ve.sent.take lv.upRead) (hsent : cv.sent = [])
    (ref : Option BridgeRef) :
    JoinedEnds v l { cv with inputBuffer := [], onMessage := .forward l, noticeOnClose := ref }
      { cd with
        inputBuffer := []
        onMessage := .forward v
        noticeOnClose := ref
        sent := cd.sent ++ startFrame ++ cv.inputBuffer }
      lv { ld with upRead := read } ve de where
  visitor_handle := rfl
  data_handle := rfl
  visitor_input := rfl
  data_input := rfl
  visitor_upRead_le := hle
  data_sent := by rw [h.sent_eq, List.nil_append, hinput]
  data_upRead_le := hread
  visitor_sent := by
    have hall := List.take_append_drop read de.channel.toServer
    rw [hdone, List.append_nil] at hall
    rw [hall, hsent, List.append_nil, hnonce, h.toServer_eq]
  serviceRead_le := by
    rw [h.serviceRead_eq]
    exact Nat.zero_le _
  toServer_eq := by rw [h.service_eq, List.take_nil, List.append_nil, hnonce, h.toServer_eq]
  downRead_le := by
    rw [h.downRead_eq]
    exact Nat.zero_le _
  client := .inl ⟨h.waiting, h.unconnected, h.toService_eq, h.service_eq, by
    rw [h.client_input, h.downRead_eq]
    rfl⟩

end Joined

/-- A control channel whose greeting has been answered. -/
theorem Ungreeted.greeted {conn : Connection} {link : Link} {c : ControlEnd}
    (hu : Ungreeted conn link c) (hhandle : conn.onMessage = .handleNewConnection) {rest : Bytes}
    {read : ℕ} (hrest : unhandled rest c.sent read = []) (nonce : Bytes) (port : UInt16) :
    Greeted nonce ⟨l, port, [], fun _ => none, [], []⟩
      { conn with
        inputBuffer := rest
        sent := headerInstaller (NServer.controlHello nonce).serializeAsString
        isControl := true }
      { link with upRead := read } c where
  handle := hhandle
  input := hrest
  sent_eq := by simp [controlSent]
  downRead_le := by
    rw [hu.downRead_eq]
    exact Nat.zero_le _
  client := .inl ⟨hu.waiting, hu.dataLinks_eq, by rw [hu.client_input, hu.downRead_eq]; rfl⟩
  nodup := by
    rw [hu.dataLinks_eq]
    exact List.nodup_nil
  bridged_sub := by simp

namespace Tunnel

namespace Good

/-- The effect of a read that the channels do not notice. -/
theorem change_read (h : t.Good) (hT : T l) (hl : t.links l = some link) (n : ℕ) {s' : NServer}
    {conns : Obj → Connection}
    (hb : s'.Becomes conns t.server.scMap t.server.drawn)
    (hoff : ∀ {p}, ¬T p → conns p = t.server.conns p)
    (hstate : ∀ {p}, T p → (conns p).state = (t.server.conns p).state) (hinv : s'.Inv none) :
    Change T t ({ t with server := s' }.setLink l { link with upRead := n }) where
  link_eq {p} hp := by
    have hne : p ≠ l := fun he => hp (he ▸ hT)
    simp [setLink, hne]
  conn_eq hp := by
    show s'.conns _ = _
    rw [hb.conns_eq, hoff hp]
  scMap_eq := hb.scMap_eq
  drawn_eq := hb.drawn_eq
  continues {p lk} _ hlk := by
    by_cases hp : p = l
    · subst hp
      rw [hl, Option.some.injEq] at hlk
      exact ⟨_, setLink_self _ p _, hlk ▸ Link.Continues.refl link⟩
    · exact ⟨lk, (setLink_of_ne _ hp _).trans hlk, .refl lk⟩
  made {p} hp := by
    have hst : (s'.conns p).state = (t.server.conns p).state := by rw [hb.conns_eq, hstate hp]
    refine (h.made p).imp hst.trans fun hm => ⟨hst.trans hm.1, ?_⟩
    by_cases hpl : p = l
    · subst hpl
      rw [setLink_self]
      rfl
    · rw [setLink_of_ne _ hpl]
      exact hm.2
  inv := hinv

/-- Bytes are left in the buffer or taken out of it. -/
theorem change_input (h : t.Good) (hl : t.links l = some link) (n : ℕ) {s' : NServer}
    {input : Bytes}
    (hb : s'.Becomes (t.server.withInput l input) t.server.scMap t.server.drawn)
    (hinv : s'.Inv none) :
    Change (· = l) t ({ t with server := s' }.setLink l { link with upRead := n }) := by
  refine h.change_read (T := (· = l)) rfl hl n hb (fun {p} hp => ?_) (fun {p} hp => ?_) hinv
  · rw [NServer.withInput, Function.update_of_ne hp]
  · rw [hp, NServer.withInput, Function.update_self]

/-- Bytes are passed on. -/
theorem change_forward (h : t.Good) (hl : t.links l = some link) (n : ℕ) {s' : NServer} {p : Obj}
    (hne : p ≠ l) {msg : Bytes}
    (hb : s'.Becomes (Function.update (t.server.withInput l []) p
      { t.server.conns p with sent := msg }) t.server.scMap t.server.drawn)
    (hinv : s'.Inv none) {T : Obj → Prop} (hT : ∀ q, T q ↔ q = l ∨ q = p) :
    Change T t ({ t with server := s' }.setLink l { link with upRead := n }) := by
  refine h.change_read ((hT l).mpr (.inl rfl)) hl n hb (fun {q} hq => ?_) (fun {q} hq => ?_) hinv
  · rw [hT, not_or] at hq
    rw [Function.update_of_ne hq.2, NServer.withInput, Function.update_of_ne hq.1]
  · rcases (hT q).mp hq with rfl | rfl
    · rw [Function.update_of_ne hne.symm, NServer.withInput, Function.update_self]
    · rw [Function.update_self]

section Greeting

variable (k : ℕ)

/-- A read handles nothing by itself. -/
theorem unhandled_read (link : Link) (buf : Bytes) : unhandled (buf ++ arriving link.peer.sent link.upRead k)
    link.peer.sent (link.upRead + (arriving link.peer.sent link.upRead k).length) =
    unhandled buf link.peer.sent link.upRead := unhandled_arriving _ _ k

/-- What the server sees of the greeting of a control channel. -/
theorem attempt_ungreeted (h : t.Good) (hl : t.links l = some link) {c : ControlEnd}
    (hp : link.peer = .control c) (hu : Ungreeted (t.server.conns l) link c) :
    ∃ args, (CControlChannel.controlHello args).Valid ∧
      (attemptBytes ((t.server.conns l).inputBuffer ++ arriving link.peer.sent link.upRead k) =
        (none, (t.server.conns l).inputBuffer ++ arriving link.peer.sent link.upRead k) ∨
      ∃ rest, attemptBytes ((t.server.conns l).inputBuffer ++
          arriving link.peer.sent link.upRead k) =
          (some (CControlChannel.controlHello args).serializeAsString, rest) ∧
        unhandled rest link.peer.sent
          (link.upRead + (arriving link.peer.sent link.upRead k).length) = []) := by
  have hlink := h.link hl
  simp only [LinkOk, hp] at hlink
  obtain ⟨⟨args, hvalid, hhello⟩, -⟩ := hlink
  have hsent : link.peer.sent = c.sent := by rw [hp]; rfl
  have hinput : unhandled (t.server.conns l).inputBuffer link.peer.sent link.upRead =
      headerInstaller (CControlChannel.controlHello args).serializeAsString ++ [] := by
    rw [hsent, hu.input, hhello, List.append_nil]
  have hsplit := (hvalid.frameable rfl).attemptBytes_split ((unhandled_read k link _).trans hinput)
  exact ⟨args, hvalid, hsplit.imp_left And.left⟩

/-- What the server sees of the greeting of a data channel. -/
theorem attempt_pending (h : t.Good) {d : DataEnd} (hp : link.peer = .data d)
    (hpend : Pending (t.server.conns l) link d) {ch : SControlChannel}
    (hch : t.server.scMap d.channel.nonce = some ch) :
    attemptBytes ((t.server.conns l).inputBuffer ++ arriving link.peer.sent link.upRead k) =
      (none, (t.server.conns l).inputBuffer ++ arriving link.peer.sent link.upRead k) ∨
    ∃ rest, attemptBytes ((t.server.conns l).inputBuffer ++
        arriving link.peer.sent link.upRead k) =
        (some (DataChannel.dataHello d.channel.nonce).serializeAsString, rest) ∧
      unhandled rest link.peer.sent
        (link.upRead + (arriving link.peer.sent link.upRead k).length) = [] := by
  have hsent : link.peer.sent = d.channel.toServer := by rw [hp]; rfl
  have hinput : unhandled (t.server.conns l).inputBuffer link.peer.sent link.upRead =
      headerInstaller (DataChannel.dataHello d.channel.nonce).serializeAsString ++ [] := by
    rw [hsent, hpend.input, hpend.toServer_eq, List.append_nil]
    rfl
  have hsplit := (frameable_dataHello (h.channel hch).isUuid).attemptBytes_split
    ((unhandled_read k link _).trans hinput)
  exact hsplit.imp_left And.left

/-- A control channel that was greeted has nothing more to say. -/
theorem attempt_greeted {c : ControlEnd} (hp : link.peer = .control c) {nonce : Bytes}
    {ch : SControlChannel} (hg : Greeted nonce ch (t.server.conns l) link c) :
    (t.server.conns l).inputBuffer ++ arriving link.peer.sent link.upRead k = [] := by
  have hsent : link.peer.sent = c.sent := by rw [hp]; rfl
  have hnil := (unhandled_read k link _).trans ((congrArg (unhandled _ · _) hsent).trans hg.input)
  exact (List.append_eq_nil_iff.mp hnil).1

end Greeting

/-- A data channel that is not bridged: its handler does not forward. -/
theorem pending_not_forward (h : t.Good) {d : DataEnd}
    (hpend : Pending (t.server.conns l) link d) (p : Obj) :
    (t.server.conns l).onMessage ≠ .forward p := by
  intro hf
  rw [hpend.handle (h.forwards_made hf)] at hf
  cases hf

theorem pending_not_bridged (h : t.Good) {d : DataEnd}
    (hpend : Pending (t.server.conns l) link d) {nonce : Bytes} {ch : SControlChannel}
    (hch : t.server.scMap nonce = some ch) : l ∉ ch.bridged.map Prod.snd := by
  intro hmem
  obtain ⟨⟨v, l⟩, hb, rfl⟩ := List.mem_map.mp hmem
  obtain ⟨lv, ld, w, de, hj⟩ := (h.channel hch).joined _ hb
  exact h.pending_not_forward hpend _ hj.ends.data_handle

/-- For a data channel whose greeting is to come a visitor waits: each of them was
created for one command, each command sent for one visitor. -/
theorem queue_ne_nil (h : t.Good) {d : DataEnd} (hpend : Pending (t.server.conns l) link d)
    {nonce : Bytes} {ch : SControlChannel} (hch : t.server.scMap nonce = some ch)
    (hmem : l ∈ t.dataLinks ch.ncxClientConn) : ch.waitHandleVisitors ≠ [] := by
  have hok := h.channel hch
  obtain ⟨lc, c, hlc, hpc, hmem⟩ := mem_dataLinks.mp hmem
  obtain ⟨c', hpc', hg⟩ := hok.greeted hlc
  rw [hpc, Peer.control.injEq] at hpc'
  subst hpc'
  have hle : c.dataLinks.length ≤ ch.accepted.length := by
    rcases hg.client with hw | hw
    · rw [hw.dataLinks_eq] at hmem
      exact absurd hmem List.not_mem_nil
    · exact hw.length_le
  have hnodup : (l :: ch.bridged.map Prod.snd).Nodup :=
    List.nodup_cons.mpr ⟨h.pending_not_bridged hpend hch, hok.bridged_nodup⟩
  have hlt := (List.subperm_of_subset hnodup
    (List.cons_subset.mpr ⟨hmem, hg.bridged_sub⟩)).length_le
  intro hnil
  rw [hok.accepted_eq, hnil, List.append_nil, List.length_map] at hle
  rw [List.length_cons, List.length_map] at hlt
  omega

/-- A data channel that waits for its bridge and a visitor in a queue are in no bridge. -/
theorem joined_apart (h : t.Good) (hl : t.links l = some link) {d : DataEnd}
    (hp : link.peer = .data d) (hpend : Pending (t.server.conns l) link d) {nonce : Bytes}
    {lv : Link} {w : VisitorEnd} (hq : t.Queued nonce v lv w) {m : Bytes} {u p : Obj} {lu ld : Link}
    {ve : VisitorEnd} {de : DataEnd} (hj : t.Joined m u p lu ld ve de) :
    ¬(u = l ∨ u = v) ∧ ¬(p = l ∨ p = v) := by
  obtain ⟨hu, hpv⟩ := hq.ne_joined hj
  constructor
  · rintro (rfl | rfl)
    · cases hp.symm.trans (hj.visitor_peer_of hl)
    · exact hu rfl
  · rintro (rfl | rfl)
    · exact h.pending_not_forward hpend _ hj.ends.data_handle
    · exact hpv rfl

/-- No control connection is an end of the bridge to be. -/
theorem control_apart (h : t.Good) (hl : t.links l = some link) {d : DataEnd}
    (hp : link.peer = .data d) {nonce : Bytes} {lv : Link} {w : VisitorEnd}
    (hq : t.Queued nonce v lv w) {m : Bytes} {ch : SControlChannel}
    (hch : t.server.scMap m = some ch) : ¬(ch.ncxClientConn = l ∨ ch.ncxClientConn = v) :=
  not_or.mpr ⟨h.control_ne hch hl (by simp [hp]), h.control_ne hch hq.link_eq (by simp [hq.peer_eq])⟩

/-- A visitor waits in the queue of its own channel only. -/
theorem queued_apart (hl : t.links l = some link) {d : DataEnd} (hp : link.peer = .data d)
    {nonce : Bytes} {lv : Link} {w : VisitorEnd} (hq : t.Queued nonce v lv w) {m : Bytes} {u : Obj}
    {lu : Link} {ve : VisitorEnd} (hqu : t.Queued m u lu ve) (hT : u = l ∨ u = v) :
    u = v ∧ m = nonce := by
  rcases hT with rfl | rfl
  · cases hp.symm.trans (hqu.peer_of hl)
  · have hve := hq.peer_eq.symm.trans (hqu.peer_of hq.link_eq)
    rw [Peer.visitor.injEq] at hve
    exact ⟨rfl, by rw [← hqu.nonce_eq, ← hve, hq.nonce_eq]⟩

/-- Joining touches the two ends; their channel grows. -/
theorem touches_join {s' : NServer} {cv cd : Connection} {nonce : Bytes} {ch ch' : SControlChannel}
    {drawn : List Bytes} (hl : t.links l = some link) (hvl : v ≠ l)
    (hch : t.server.scMap nonce = some ch)
    (hb : s'.Becomes (Function.update (Function.update t.server.conns v cv) l cd)
      (Function.update t.server.scMap nonce (some ch')) drawn)
    (hgrows : ch'.ncxClientConn = ch.ncxClientConn ∧ ch.accepted ⊆ ch'.accepted ∧
      ch.bridged ⊆ ch'.bridged) (hdrawn : t.server.drawn ⊆ drawn) (n : ℕ) :
    Touches (fun p => p = l ∨ p = v) t
      ({ t with server := s' }.setLink l { link with upRead := n }) := by
  refine touches_of_update hb.scMap_eq (fun {ch₁} hch₁ => ?_) (fun {p} hT => ?_) (fun {p} hT => ?_) ?_
    (fun {p lk} hT hlk => ?_)
  · rw [hch, Option.some.injEq] at hch₁
    exact hch₁ ▸ hgrows
  · exact setLink_of_ne _ (not_or.mp hT).1 _
  · rw [not_or] at hT
    show s'.conns p = _
    rw [hb.conns_eq, Function.update_of_ne hT.1, Function.update_of_ne hT.2]
  · show _ ⊆ s'.drawn
    rw [hb.drawn_eq]
    exact hdrawn
  · rcases hT with rfl | rfl
    · rw [hl, Option.some.injEq] at hlk
      exact ⟨_, setLink_self _ p _, hlk ▸ Link.Continues.refl link⟩
    · exact ⟨lk, (setLink_of_ne _ hvl _).trans hlk, .refl lk⟩

/-- The first visitor that waits is bridged with a data channel of the client. -/
theorem channelOk_bridged {T : Obj → Prop} {t' : Tunnel} (ht : Touches T t t') {nonce : Bytes}
    {ch : SControlChannel} (hok : t.ChannelOk nonce ch) {others : List Obj}
    (hwait : ch.waitHandleVisitors = v :: others) (hmem : l ∈ t.dataLinks ch.ncxClientConn)
    (hnew : l ∉ ch.bridged.map Prod.snd) (closers : Bytes → Option BridgeCloser)
    (hctl : ¬T ch.ncxClientConn) (hqueued : ∀ {u lu ve}, t.Queued nonce u lu ve → T u → u = v)
    (hjoined : ∀ {u p lu ld ve de}, t.Joined nonce u p lu ld ve de → ¬T u ∧ ¬T p)
    (hj : ∃ lv ld ve de, t'.Joined nonce v l lv ld ve de) :
    t'.ChannelOk nonce { ch with
      waitHandleVisitors := others
      bridgeClosers := closers
      bridged := ch.bridged ++ [(v, l)] } := by
  obtain ⟨lc, c, hlc, hpc, hg⟩ := hok.control
  have hlinks : t.dataLinks ch.ncxClientConn = c.dataLinks := by simp [dataLinks, hlc, hpc]
  have haccepted := hok.accepted_nodup
  rw [hok.accepted_eq, hwait] at haccepted
  exact {
    drawn := ht.drawn_sub hok.drawn
    isUuid := hok.isUuid
    accepted_eq := by simp [hok.accepted_eq, hwait]
    accepted_nodup := hok.accepted_nodup
    bridged_nodup := by
      rw [List.map_append, List.nodup_append]
      refine ⟨hok.bridged_nodup, by simp, fun p hpm q hqm => ?_⟩
      rintro rfl
      have hpl : p = l := by simpa using hqm
      exact hnew (hpl ▸ hpm)
    control := by
      refine ⟨lc, c, (ht.link_eq hctl).trans hlc, hpc, ?_⟩
      rw [ht.conn_eq hctl]
      refine ⟨hg.handle, hg.input, hg.sent_eq, hg.downRead_le, hg.client, hg.nodup, ?_⟩
      rw [List.map_append]
      refine List.append_subset.mpr ⟨hg.bridged_sub, ?_⟩
      simpa using hlinks ▸ hmem
    isData := fun p hpm => by
      rw [dataLinks, ht.link_eq hctl] at hpm
      exact ht.isData (hok.isData p hpm)
    queued := fun u hu => by
      obtain ⟨lu, ve, hqu⟩ := hok.queued u (by simp [hwait, hu])
      refine ⟨lu, ve, ht.queued (fun hT => ?_) hqu⟩
      -- nobody waits twice
      rw [hqueued hqu hT] at hu
      simp [List.nodup_append, hu] at haccepted
    joined := fun p hpm => by
      rcases List.mem_append.mp hpm with hpm | hpm
      · obtain ⟨lu, ld, ve, de, hj⟩ := hok.joined p hpm
        exact ⟨lu, ld, ve, de, ht.joined (hjoined hj).1 (hjoined hj).2 hj⟩
      · rw [List.mem_singleton] at hpm
        exact hpm ▸ hj }

/-- A new channel: nobody waits at its port. -/
theorem channelOk_new {nonce : Bytes} (hdrawn : nonce ∈ t.server.drawn)
    (huuid : IsUuid nonce) (hl : t.links l = some link) {c : ControlEnd}
    (hp : link.peer = .control c) (hlinks : c.dataLinks = []) {port : UInt16}
    (hg : Greeted nonce ⟨l, port, [], fun _ => none, [], []⟩ (t.server.conns l) link c) :
    t.ChannelOk nonce ⟨l, port, [], fun _ => none, [], []⟩ where
  drawn := hdrawn
  isUuid := huuid
  accepted_eq := rfl
  accepted_nodup := List.nodup_nil
  bridged_nodup := List.nodup_nil
  control := ⟨link, c, hl, hp, hg⟩
  isData p hmem := by
    obtain ⟨lk, ck, hlk, hck, hmem⟩ := mem_dataLinks.mp hmem
    rw [hl, Option.some.injEq] at hlk
    rw [← hlk, hp, Peer.control.injEq] at hck
    rw [← hck, hlinks] at hmem
    exact absurd hmem List.not_mem_nil
  queued := by simp
  joined := by simp

section Read

variable {a : Answers} {k : ℕ} {s' : NServer} (hl : t.links l = some link)
  (hst : (t.server.conns l).state ≠ .connecting) (hinv : s'.Inv none)
  (hs : t.server.step pb (readEvent l link k a) = .ok s')

include hl hst hinv hs

theorem read_visitor (h : t.Good) (hw : ∀ n, a.writeFails n = false) {w : VisitorEnd}
    (hp : link.peer = .visitor w) : ({ t with server := s' }.setLink l { link with
      upRead := link.upRead + (arriving link.peer.sent link.upRead k).length }).Good := by
  have hmade := h.connected hst
  have hpool := h.inv.pooled hmade (by simp)
  have hsent : link.peer.sent = w.sent := by rw [hp]; rfl
  rw [readEvent, hsent] at hs
  rw [hsent]
  rcases h.visitor_cases hl hp with ⟨hnew, -⟩ | ⟨ch, hch, hmem, hq | ⟨p, ld, d, hb, hj⟩⟩
  · exact absurd hnew hst
  · have hb := NServer.step_read_unset hmade hpool hq.handle hs
    have hconn : s'.conns l = { t.server.conns l with
        inputBuffer := (t.server.conns l).inputBuffer ++ arriving w.sent link.upRead k } := by
      rw [hb.conns_eq, NServer.withInput, Function.update_self]
    refine h.change_queued hl hp (setLink_self _ l _) hp (h.change_input hl _ hb hinv) hq hch hmem
      ⟨setLink_self _ l _, hp, rfl, ?_, ?_, read_add_length_arriving_le _ _ hq.upRead_le, ?_, ?_⟩
    · show (s'.conns l).state ≠ _
      rw [hconn]
      exact hst
    · show (s'.conns l).onMessage = _
      rw [hconn]
      exact hq.handle
    · show (s'.conns l).inputBuffer = _
      rw [hconn, take_read_arriving, ← hq.input]
    · show (s'.conns l).sent = _
      rw [hconn]
      exact hq.sent_eq
  · have hpl : p ≠ l := by
      rintro rfl
      cases hp.symm.trans (hj.data_peer_of hl)
    have hpool' := h.inv.pooled (h.connected (h.forwards_made hj.ends.data_handle)) (by simp)
    have hbec := NServer.step_read_forward hmade hpool hw hpl hj.ends.visitor_handle hpool' hs
    refine h.change_joined (h.change_forward hl _ hpl hbec hinv fun _ => Iff.rfl) hj hch hb
      ⟨setLink_self _ l _, hp, rfl,
      (setLink_of_ne _ hpl _).trans hj.data_link, hj.data_peer, hj.data_nonce, ?_⟩
    have hends := hj.ends.visitorRead k
    show JoinedEnds l p (s'.conns l) (s'.conns p) _ ld w d
    rw [hbec.conns_eq, Function.update_of_ne hpl.symm, Function.update_self, NServer.withInput,
      Function.update_self]
    exact hends

/-- An end of a bridge on the side of the client. -/
theorem read_joined (h : t.Good) (hw : ∀ n, a.writeFails n = false) {d : DataEnd}
    (hp : link.peer = .data d) {ch : SControlChannel} {nonce : Bytes}
    (hch : t.server.scMap nonce = some ch) {lv : Link} {w : VisitorEnd} (hb : (v, l) ∈ ch.bridged)
    (hj : t.Joined nonce v l lv link w d) : ({ t with server := s' }.setLink l { link with
      upRead := link.upRead + (arriving link.peer.sent link.upRead k).length }).Good := by
  have hmade := h.connected hst
  have hpool := h.inv.pooled hmade (by simp)
  have hsent : link.peer.sent = d.channel.toServer := by rw [hp]; rfl
  rw [readEvent, hsent] at hs
  rw [hsent]
  have hvl : v ≠ l := by
    rintro rfl
    cases hp.symm.trans (hj.visitor_peer_of hl)
  have hpool' := h.inv.pooled (h.connected (h.forwards_made hj.ends.visitor_handle)) (by simp)
  have hbec := NServer.step_read_forward hmade hpool hw hvl hj.ends.data_handle hpool' hs
  refine h.change_joined (h.change_forward hl _ hvl hbec hinv fun _ => or_comm) hj hch hb
    ⟨(setLink_of_ne _ hvl _).trans hj.visitor_link, hj.visitor_peer, hj.visitor_nonce,
      setLink_self _ l _, hp, hj.data_nonce, ?_⟩
  have hends := hj.ends.dataRead k
  show JoinedEnds v l (s'.conns v) (s'.conns l) lv _ w d
  rw [hbec.conns_eq, Function.update_of_ne hvl.symm, Function.update_self, NServer.withInput,
    Function.update_self]
  exact hends

/-- A greeting that is not complete yet, or nothing after one. -/
theorem read_incomplete (h : t.Good) (hhandle : (t.server.conns l).onMessage = .handleNewConnection)
    (ha : attemptBytes ((t.server.conns l).inputBuffer ++
      arriving link.peer.sent link.upRead k) = (none, (t.server.conns l).inputBuffer ++
        arriving link.peer.sent link.upRead k)) :
    Change (· = l) t ({ t with server := s' }.setLink l { link with
      upRead := link.upRead + (arriving link.peer.sent link.upRead k).length }) ∧
    s'.conns l = { t.server.conns l with
      inputBuffer := (t.server.conns l).inputBuffer ++ arriving link.peer.sent link.upRead k } := by
  have hmade := h.connected hst
  have hpool := h.inv.pooled hmade (by simp)
  have hb := NServer.step_read_incomplete hmade hpool hhandle ha hs
  refine ⟨h.change_input hl _ hb hinv, ?_⟩
  rw [hb.conns_eq, NServer.withInput, Function.update_self]

/-- The greeting of a control channel is complete. -/
theorem read_controlHello (h : t.Good) (hw : ∀ n, a.writeFails n = false) (huuid : IsUuid a.uuid)
    (hfresh : a.uuid ∉ t.server.drawn) {c : ControlEnd} (hp : link.peer = .control c)
    (hu : Ungreeted (t.server.conns l) link c) {args : CControlChannelArgs}
    (hvalid : (CControlChannel.controlHello args).Valid) {rest : Bytes}
    (ha : attemptBytes ((t.server.conns l).inputBuffer ++ arriving link.peer.sent link.upRead k) =
      (some (CControlChannel.controlHello args).serializeAsString, rest))
    (hrest : unhandled rest c.sent
      (link.upRead + (arriving link.peer.sent link.upRead k).length) = []) :
    ({ t with server := s' }.setLink l { link with
      upRead := link.upRead + (arriving link.peer.sent link.upRead k).length }).Good := by
  have hmade := h.connected hst
  have hpool := h.inv.pooled hmade (by simp)
  -- the nonce of a channel is among the UUIDs drawn, so the new one is free
  have hfree : t.server.scMap a.uuid = none := by
    rw [Option.eq_none_iff_forall_ne_some]
    intro ch hch
    exact hfresh (h.channel hch).drawn
  obtain ⟨port, hb⟩ := NServer.step_read_controlHello hmade hpool (hu.handle hst) hw hfree ha
    (pb.parseHello_serialize _ hvalid) rfl hs
  generalize link.upRead + (arriving link.peer.sent link.upRead k).length = read at hrest ⊢
  have hconn : s'.conns l = { t.server.conns l with
      inputBuffer := rest
      sent := headerInstaller (NServer.controlHello a.uuid).serializeAsString
      isControl := true } := by
    rw [hb.conns_eq, Function.update_self, hu.sent_eq, List.nil_append]
  have hself := congrFun hb.scMap_eq a.uuid
  rw [Function.update_self] at hself
  have ht : Touches (· = l) t ({ t with server := s' }.setLink l { link with upRead := read }) := by
    refine touches_of_update hb.scMap_eq (fun {ch} hch => ?_) (fun hT => setLink_of_ne _ hT _)
      (fun {p} hT => ?_) ?_ (fun {p lk} hT hlk => ?_)
    · cases hfree.symm.trans hch
    · show s'.conns p = _
      rw [hb.conns_eq, Function.update_of_ne hT]
    · show _ ⊆ s'.drawn
      rw [hb.drawn_eq]
      exact List.subset_append_left _ _
    · subst hT
      rw [hl, Option.some.injEq] at hlk
      exact ⟨_, setLink_self _ p _, hlk ▸ Link.Continues.refl link⟩
  refine h.of_one_channel ht hinv ?_ ?_ hb.scMap_eq ?_ ?_ ?_ ?_
  · rintro p rfl
    refine .inr ⟨?_, by rw [setLink_self]; rfl⟩
    show (s'.conns p).state = _
    rw [hconn]
    exact hmade
  · rintro p lk rfl hlk
    rw [setLink_self, Option.some.injEq] at hlk
    have hlink := h.link hl
    simp only [LinkOk, hp] at hlink
    simp only [LinkOk, ← hlk, hp]
    exact ⟨hlink.1, .inr ⟨a.uuid, _, hself, rfl⟩⟩
  · have hgreeted : Greeted a.uuid ⟨l, port, [], fun _ => none, [], []⟩ (s'.conns l)
        { link with upRead := read } c := by
      rw [hconn]
      exact hu.greeted (hu.handle hst) hrest a.uuid port
    have hlink := setLink_self { t with server := s' } l { link with upRead := read }
    refine channelOk_new ?_ huuid hlink hp hu.dataLinks_eq hgreeted
    show _ ∈ s'.drawn
    rw [hb.drawn_eq]
    simp
  · -- the other channels have control connections that were greeted
    rintro m ch hm hch rfl
    obtain ⟨c', -, hg⟩ := (h.channel hch).greeted hl
    exact controlSent_ne_nil (h.channel hch).isUuid _ (hg.sent_eq.symm.trans hu.sent_eq)
  · rintro m v lk ve - hq rfl
    cases hp.symm.trans (hq.peer_of hl)
  · intro m v q lv ld ve de hj
    constructor
    · rintro rfl
      cases hp.symm.trans (hj.visitor_peer_of hl)
    · rintro rfl
      cases hp.symm.trans (hj.data_peer_of hl)

theorem read_control (h : t.Good) (hw : ∀ n, a.writeFails n = false) (huuid : IsUuid a.uuid)
    (hfresh : a.uuid ∉ t.server.drawn) {c : ControlEnd} (hp : link.peer = .control c) :
    ({ t with server := s' }.setLink l { link with
      upRead := link.upRead + (arriving link.peer.sent link.upRead k).length }).Good := by
  have hsent : link.peer.sent = c.sent := by rw [hp]; rfl
  have hun := unhandled_read k link (t.server.conns l).inputBuffer
  rcases h.control_cases hl hp with hu | ⟨nonce, ch, hch, hctl, hg⟩
  · obtain ⟨args, hvalid, ha | ⟨rest, ha, hrest⟩⟩ := h.attempt_ungreeted k hl hp hu
    · obtain ⟨hc, hconn⟩ := h.read_incomplete hl hst hinv hs (hu.handle hst) ha
      refine h.change_ungreeted hl hp (setLink_self _ l _) hp hc hu rfl ?_
      show Ungreeted (s'.conns l) _ c
      rw [hconn]
      exact { hu with input := hsent ▸ hun.trans (hsent ▸ hu.input) }
    · exact h.read_controlHello hl hst hinv hs hw huuid hfresh hp hu hvalid ha (hsent ▸ hrest)
  · obtain ⟨hc, hconn⟩ := h.read_incomplete hl hst hinv hs hg.handle (by
      rw [attempt_greeted k hp hg, attemptBytes_nil])
    refine h.change_greeted hl hp (setLink_self _ l _) hp hc hch hctl rfl rfl ?_
    show Greeted nonce ch (s'.conns l) _ c
    rw [hconn]
    exact { hg with
      input := hsent ▸ hun.trans (hsent ▸ hg.input)
      client := hg.client.imp (fun hw => ⟨hw.waiting, hw.dataLinks_eq, hw.input⟩) fun hw =>
        ⟨hw.waiting, hw.id_eq, hw.length_le, hw.input⟩ }

/-- The greeting of a data channel is complete: it is bridged with the next visitor. -/
theorem read_dataHello (h : t.Good) (hw : ∀ n, a.writeFails n = false) {d : DataEnd}
    (hp : link.peer = .data d) {ch : SControlChannel}
    (hch : t.server.scMap d.channel.nonce = some ch) (hmem : l ∈ t.dataLinks ch.ncxClientConn)
    (hpend : Pending (t.server.conns l) link d) {rest : Bytes}
    (ha : attemptBytes ((t.server.conns l).inputBuffer ++ arriving link.peer.sent link.upRead k) =
      (some (DataChannel.dataHello d.channel.nonce).serializeAsString, rest))
    (hrest : unhandled rest d.channel.toServer
      (link.upRead + (arriving link.peer.sent link.upRead k).length) = []) :
    ({ t with server := s' }.setLink l { link with
      upRead := link.upRead + (arriving link.peer.sent link.upRead k).length }).Good := by
  have hmade := h.connected hst
  have hpool := h.inv.pooled hmade (by simp)
  have hok := h.channel hch
  -- the client has asked for no more data channels than there are visitors
  obtain ⟨v, others, hwait⟩ := List.exists_cons_of_ne_nil (h.queue_ne_nil hpend hch hmem)
  obtain ⟨lv, w, hq⟩ := hok.queued v (by simp [hwait])
  have hvl : v ≠ l := by
    rintro rfl
    cases hp.symm.trans (hq.peer_of hl)
  have hdigest : (DataChannel.dataHello d.channel.nonce).digest = d.channel.nonce := rfl
  obtain ⟨closers, hb⟩ := NServer.step_read_dataHello hmade hpool (hpend.handle hst) hw ha
    (pb.parseHello_serialize _ (Hello.valid_of_isUuid .dataChannelHello hok.isUuid)) rfl hdigest
    hch hwait hvl hs
  have hle : link.upRead + (arriving link.peer.sent link.upRead k).length ≤
      d.channel.toServer.length := by
    have hsent : link.peer.sent = d.channel.toServer := by rw [hp]; rfl
    rw [hsent]
    exact read_add_length_arriving_le _ _ hpend.upRead_le
  generalize link.upRead + (arriving link.peer.sent link.upRead k).length = read at hrest hle ⊢
  obtain ⟨rfl, hdone⟩ := List.append_eq_nil_iff.mp hrest
  have hself := congrFun hb.scMap_eq d.channel.nonce
  rw [Function.update_self] at hself
  have hconn := congrFun hb.conns_eq l
  have hconnv := congrFun hb.conns_eq v
  rw [Function.update_self] at hconn
  rw [Function.update_of_ne hvl, Function.update_self] at hconnv
  have hlinkv := (setLink_of_ne { t with server := s' } hvl { link with upRead := read }).trans
    hq.link_eq
  have ht := touches_join hl hvl hch hb ⟨rfl, List.Subset.refl _, List.subset_append_left _ _⟩
    (List.subset_append_left _ _) read
  refine h.of_one_channel ht hinv ?_ ?_ hb.scMap_eq ?_ (fun _ hch₁ => h.control_apart hl hp hq hch₁)
    ?_ (h.joined_apart hl hp hpend hq)
  -- the two connections stay as open as they were
  · rintro p (rfl | rfl)
    · refine .inr ⟨?_, by rw [setLink_self]; rfl⟩
      show (s'.conns p).state = _
      rw [hconn]
      exact hmade
    · refine .inr ⟨?_, by rw [hlinkv]; rfl⟩
      show (s'.conns p).state = _
      rw [hconnv]
      exact h.connected hq.made
  -- their links are those of a bridge
  · rintro p lk (rfl | rfl) hlk
    · rw [setLink_self, Option.some.injEq] at hlk
      have hpk : lk.peer = .data d := by
        rw [← hlk]
        exact hp
      simp only [LinkOk, hpk]
      exact ⟨_, hself, ht.dataLinks_sub _ hmem, .inr ⟨v, by simp⟩⟩
    · rw [hlinkv, Option.some.injEq] at hlk
      simp only [LinkOk, ← hlk, hq.peer_eq, hq.nonce_eq]
      exact .inr ⟨_, hself, by simp [hok.accepted_eq, hwait]⟩
  · refine channelOk_bridged ht hok hwait hmem (h.pending_not_bridged hpend hch) closers
      (h.control_apart hl hp hq hch) (fun hqu hT => (queued_apart hl hp hq hqu hT).1)
      (h.joined_apart hl hp hpend hq)
      ⟨lv, _, w, d, hlinkv, hq.peer_eq, hq.nonce_eq, setLink_self _ l _, hp, rfl, ?_⟩
    show JoinedEnds v l (s'.conns v) (s'.conns l) lv _ w d
    rw [hconn, hconnv]
    exact hpend.joinedEnds hle hdone hq.nonce_eq hq.upRead_le hq.input hq.sent_eq _
  · exact fun hm hqu hT => hm (queued_apart hl hp hq hqu hT).2

theorem read_data (h : t.Good) (hw : ∀ n, a.writeFails n = false) {d : DataEnd}
    (hp : link.peer = .data d) : ({ t with server := s' }.setLink l { link with
      upRead := link.upRead + (arriving link.peer.sent link.upRead k).length }).Good := by
  obtain ⟨ch, hch, hmem, hpend | ⟨v, lv, w, hb, hj⟩⟩ := h.data_cases hl hp
  · have hsent : link.peer.sent = d.channel.toServer := by rw [hp]; rfl
    have hun := unhandled_read k link (t.server.conns l).inputBuffer
    rcases h.attempt_pending k hp hpend hch with ha | ⟨rest, ha, hrest⟩
    · obtain ⟨hc, hconn⟩ := h.read_incomplete hl hst hinv hs (hpend.handle hst) ha
      refine h.change_pending hl hp (setLink_self _ l _) hp hc hpend rfl ?_
      show Pending (s'.conns l) _ d
      rw [hconn]
      exact { hpend with
        input := hsent ▸ hun.trans (hsent ▸ hpend.input)
        upRead_le := hsent ▸ read_add_length_arriving_le _ _ (hsent ▸ hpend.upRead_le) }
    · exact h.read_dataHello hl hst hinv hs hw hp hch hmem hpend ha (hsent ▸ hrest)
  · exact h.read_joined hl hst hinv hs hw hp hch hb hj

end Read

end Good

end Tunnel

end NcxTunnel
