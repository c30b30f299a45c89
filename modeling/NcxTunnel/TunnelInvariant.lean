import NcxTunnel.Tunnel
import NcxTunnel.ServerSteps

/-!
# The invariant of the composed system

How far the two ends of every link are: what one of them has sent and the other
has not handled yet is known exactly, in every phase of the protocol.
-/

namespace NcxTunnel

open Streams

/-- What the server has sent on a control connection after `k` visitors. -/
def controlSent (nonce : Bytes) (k : ℕ) : Bytes :=
  frames ((NServer.controlHello nonce).serializeAsString ::
    List.replicate k NServer.createDataChannel.serializeAsString)

/-- The frame of a data channel's greeting. -/
def dataHelloFrame (nonce : Bytes) : Bytes :=
  headerInstaller (DataChannel.dataHello nonce).serializeAsString

/-- The frame that tells a data channel to forward. -/
def startFrame : Bytes := headerInstaller NServer.startForwardTcp.serializeAsString

theorem controlSent_succ (nonce : Bytes) (k : ℕ) : controlSent nonce (k + 1) =
    controlSent nonce k ++ headerInstaller NServer.createDataChannel.serializeAsString := by
  simp [controlSent, List.replicate_succ', frames]

theorem frameable_controlHello {nonce : Bytes} (h : IsUuid nonce) :
    Frameable (NServer.controlHello nonce).serializeAsString :=
  (Hello.valid_of_isUuid .controlChannelHello h).frameable rfl

theorem frameable_dataHello {nonce : Bytes} (h : IsUuid nonce) :
    Frameable (DataChannel.dataHello nonce).serializeAsString :=
  (Hello.valid_of_isUuid .dataChannelHello h).frameable rfl

theorem frameable_create : Frameable NServer.createDataChannel.serializeAsString :=
  frameable_enumField CCmd.createDataChannel

theorem frameable_start : Frameable NServer.startForwardTcp.serializeAsString :=
  frameable_enumField DCmd.startForwardTcp

theorem controlSent_ne_nil {nonce : Bytes} (h : IsUuid nonce) (k : ℕ) :
    controlSent nonce k ≠ [] := by
  intro hnil
  have hlen := (frameable_controlHello h).headerInstaller_length
  rw [controlSent, frames_cons, List.append_eq_nil_iff] at hnil
  rw [hnil.1, msgHeaderLength, List.length_nil] at hlen
  omega

/-- The nonce can be told from what was sent. -/
theorem nonce_of_controlSent {n m : Bytes} (hn : IsUuid n) (hm : IsUuid m) {j k : ℕ}
    (h : controlSent n j = controlSent m k) : n = m := by
  have hattempt := congrArg attemptBytes h
  simp only [controlSent, frames_cons, (frameable_controlHello hn).attemptBytes_frame,
    (frameable_controlHello hm).attemptBytes_frame, Prod.mk.injEq, Option.some.injEq] at hattempt
  have hparse := congrArg Protobuf.wire.parseHello hattempt.1
  have hvalid := Protobuf.wire.parseHello_serialize _
    (Hello.valid_of_isUuid .controlChannelHello hn)
  have hvalid' := Protobuf.wire.parseHello_serialize _
    (Hello.valid_of_isUuid .controlChannelHello hm)
  have hhello := hvalid.symm.trans (hparse.trans hvalid')
  simpa using hhello

/-! ## Phases of a link -/

/-- The greeting of a control channel is on its way or in the buffer of the server. -/
structure Ungreeted (conn : Connection) (link : Link) (c : ControlEnd) : Prop where
  handle : conn.state ≠ .connecting → conn.onMessage = .handleNewConnection
  input : unhandled conn.inputBuffer c.sent link.upRead = c.sent
  sent_eq : conn.sent = []
  waiting : c.channel.onMessage = .waitControlChannelHello
  client_input : c.channel.inputBuffer = []
  downRead_eq : link.downRead = 0
  dataLinks_eq : c.dataLinks = []

/-- The client is to handle the greeting of the server next. -/
structure AwaitsHello (conn : Connection) (link : Link) (c : ControlEnd) : Prop where
  waiting : c.channel.onMessage = .waitControlChannelHello
  dataLinks_eq : c.dataLinks = []
  input : unhandled c.channel.inputBuffer conn.sent link.downRead = conn.sent

/-- Of the `k` commands sent, one is handled for each data channel. -/
structure AwaitsCmd (nonce : Bytes) (k : ℕ) (conn : Connection) (link : Link) (c : ControlEnd) :
    Prop where
  waiting : c.channel.onMessage = .waitServerCmd
  id_eq : c.channel.id = nonce
  length_le : c.dataLinks.length ≤ k
  input : unhandled c.channel.inputBuffer conn.sent link.downRead =
    frames (List.replicate (k - c.dataLinks.length) NServer.createDataChannel.serializeAsString)

/-- The server has answered with the nonce and sent a command for every visitor. -/
structure Greeted (nonce : Bytes) (ch : SControlChannel) (conn : Connection) (link : Link)
    (c : ControlEnd) : Prop where
  handle : conn.onMessage = .handleNewConnection
  input : unhandled conn.inputBuffer c.sent link.upRead = []
  sent_eq : conn.sent = controlSent nonce ch.accepted.length
  downRead_le : link.downRead ≤ conn.sent.length
  client : AwaitsHello conn link c ∨ AwaitsCmd nonce ch.accepted.length conn link c
  nodup : c.dataLinks.Nodup
  bridged_sub : ch.bridged.map Prod.snd ⊆ c.dataLinks

/-- The greeting of a data channel is on its way or in the buffer of the server. -/
structure Pending (conn : Connection) (link : Link) (d : DataEnd) : Prop where
  handle : conn.state ≠ .connecting → conn.onMessage = .handleNewConnection
  toServer_eq : d.channel.toServer = dataHelloFrame d.channel.nonce
  input : unhandled conn.inputBuffer d.channel.toServer link.upRead = d.channel.toServer
  upRead_le : link.upRead ≤ d.channel.toServer.length
  sent_eq : conn.sent = []
  waiting : d.channel.onMessage = .waitDataChannelStartCmd
  client_input : d.channel.inputBuffer = []
  downRead_eq : link.downRead = 0
  unconnected : d.channel.serviceConnected = false
  toService_eq : d.channel.toService = []
  service_eq : d.service = []
  serviceRead_eq : d.serviceRead = 0

/-- START is on its way or in the buffer of the client. -/
structure AwaitsStart (conn : Connection) (link : Link) (d : DataEnd) : Prop where
  waiting : d.channel.onMessage = .waitDataChannelStartCmd
  unconnected : d.channel.serviceConnected = false
  toService_eq : d.channel.toService = []
  service_eq : d.service = []
  input : unhandled d.channel.inputBuffer conn.sent link.downRead = conn.sent

/-- Behind START everything goes to the service. -/
structure Forwards (conn : Connection) (link : Link) (d : DataEnd) : Prop where
  forwards : d.channel.onMessage = .forward
  input_eq : d.channel.inputBuffer = []
  input : unhandled (startFrame ++ d.channel.toService) conn.sent link.downRead = conn.sent

/-- A visitor and a data channel, bridged. -/
structure JoinedEnds (v l : Obj) (cv cd : Connection) (lv ld : Link) (ve : VisitorEnd)
    (de : DataEnd) : Prop where
  visitor_handle : cv.onMessage = .forward l
  data_handle : cd.onMessage = .forward v
  visitor_input : cv.inputBuffer = []
  data_input : cd.inputBuffer = []
  visitor_upRead_le : lv.upRead ≤ ve.sent.length
  /-- what the server has read from the visitor is sent to the data channel behind START -/
  data_sent : cd.sent = startFrame ++ ve.sent.take lv.upRead
  data_upRead_le : ld.upRead ≤ de.channel.toServer.length
  /-- what it has read from the data channel behind the greeting is sent to the visitor -/
  visitor_sent : de.channel.toServer.take ld.upRead = dataHelloFrame ve.nonce ++ cv.sent
  serviceRead_le : de.serviceRead ≤ de.service.length
  toServer_eq : de.channel.toServer = dataHelloFrame ve.nonce ++ de.service.take de.serviceRead
  downRead_le : ld.downRead ≤ cd.sent.length
  client : AwaitsStart cd ld de ∨ Forwards cd ld de

/-- The other end is still the same, only further. -/
def Link.Continues (link link' : Link) : Prop :=
  match link.peer, link'.peer with
  | .control c, .control c' => c.dataLinks ⊆ c'.dataLinks
  | .data d, .data d' => d'.channel.nonce = d.channel.nonce
  | .visitor v, .visitor v' => v'.nonce = v.nonce
  | _, _ => False

theorem Link.Continues.refl (link : Link) : link.Continues link := by
  unfold Link.Continues
  cases link.peer <;> simp

namespace Tunnel

variable (t : Tunnel)

/-- A visitor in the queue: its bytes wait in the buffer. -/
structure Queued (nonce : Bytes) (v : Obj) (link : Link) (ve : VisitorEnd) : Prop where
  link_eq : t.links v = some link
  peer_eq : link.peer = .visitor ve
  nonce_eq : ve.nonce = nonce
  made : (t.server.conns v).state ≠ .connecting
  handle : (t.server.conns v).onMessage = .unset
  upRead_le : link.upRead ≤ ve.sent.length
  input : (t.server.conns v).inputBuffer = ve.sent.take link.upRead
  sent_eq : (t.server.conns v).sent = []

structure Joined (nonce : Bytes) (v l : Obj) (lv ld : Link) (ve : VisitorEnd) (de : DataEnd) :
    Prop where
  visitor_link : t.links v = some lv
  visitor_peer : lv.peer = .visitor ve
  visitor_nonce : ve.nonce = nonce
  data_link : t.links l = some ld
  data_peer : ld.peer = .data de
  data_nonce : de.channel.nonce = nonce
  ends : JoinedEnds v l (t.server.conns v) (t.server.conns l) lv ld ve de

/-- The link is a data channel made for the nonce. -/
def IsData (nonce : Bytes) (l : Obj) : Prop :=
  ∃ link de, t.links l = some link ∧ link.peer = .data de ∧ de.channel.nonce = nonce

/-- A channel of the server and everything that belongs to it. -/
structure ChannelOk (nonce : Bytes) (ch : SControlChannel) : Prop where
  drawn : nonce ∈ t.server.drawn
  isUuid : IsUuid nonce
  accepted_eq : ch.accepted = ch.bridged.map Prod.fst ++ ch.waitHandleVisitors
  accepted_nodup : ch.accepted.Nodup
  bridged_nodup : (ch.bridged.map Prod.snd).Nodup
  control : ∃ link c, t.links ch.ncxClientConn = some link ∧ link.peer = .control c ∧
    Greeted nonce ch (t.server.conns ch.ncxClientConn) link c
  isData : ∀ l ∈ t.dataLinks ch.ncxClientConn, t.IsData nonce l
  queued : ∀ v ∈ ch.waitHandleVisitors, ∃ link ve, t.Queued nonce v link ve
  joined : ∀ p ∈ ch.bridged, ∃ lv ld ve de, t.Joined nonce p.1 p.2 lv ld ve de

/-- The phase of the link, by what is at its other end. -/
def LinkOk (l : Obj) (link : Link) : Prop :=
  match link.peer with
  | .control c =>
      (∃ args, (CControlChannel.controlHello args).Valid ∧
        c.sent = headerInstaller (CControlChannel.controlHello args).serializeAsString) ∧
      (Ungreeted (t.server.conns l) link c ∨
        ∃ nonce ch, t.server.scMap nonce = some ch ∧ ch.ncxClientConn = l)
  | .data de =>
      ∃ ch, t.server.scMap de.channel.nonce = some ch ∧ l ∈ t.dataLinks ch.ncxClientConn ∧
        (Pending (t.server.conns l) link de ∨ ∃ v, (v, l) ∈ ch.bridged)
  | .visitor ve =>
      (t.server.conns l).state = .connecting ∧ link.upRead = 0 ∨
        ∃ ch, t.server.scMap ve.nonce = some ch ∧ l ∈ ch.accepted

/-- A connection is open, and there is a link for it, once it has been made. -/
def Made (l : Obj) : Prop :=
  (t.server.conns l).state = .connecting ∨
    (t.server.conns l).state = .connected ∧ (t.links l).isSome

structure Good : Prop where
  inv : t.server.Inv none
  made : ∀ l, t.Made l
  channel : ∀ {nonce ch}, t.server.scMap nonce = some ch → t.ChannelOk nonce ch
  link : ∀ {l link}, t.links l = some link → t.LinkOk l link

theorem new_good (port : UInt16) : (new port).Good where
  inv := NServer.new_inv port
  made _ := .inl rfl
  channel h := nomatch h
  link h := nomatch h

/-! ## Changes of some links -/

/-- From `t` to `t'` only the links and connections in `T` change; channels, data
channels and the UUIDs drawn only become more. -/
structure Touches (T : Obj → Prop) (t t' : Tunnel) : Prop where
  link_eq : ∀ {p}, ¬T p → t'.links p = t.links p
  conn_eq : ∀ {p}, ¬T p → t'.server.conns p = t.server.conns p
  drawn_sub : t.server.drawn ⊆ t'.server.drawn
  grows : ∀ {nonce ch}, t.server.scMap nonce = some ch → ∃ ch', t'.server.scMap nonce = some ch' ∧
    ch'.ncxClientConn = ch.ncxClientConn ∧ ch.accepted ⊆ ch'.accepted ∧ ch.bridged ⊆ ch'.bridged
  dataLinks_sub : ∀ l, t.dataLinks l ⊆ t'.dataLinks l
  isData : ∀ {nonce l}, t.IsData nonce l → t'.IsData nonce l

namespace Touches

variable {t t' : Tunnel} {T : Obj → Prop} {nonce : Bytes} {l v : Obj} {link lv ld : Link}
  {ve : VisitorEnd} {de : DataEnd}

theorem made (h : Touches T t t') (hl : ¬T l) (hm : t.Made l) : t'.Made l := by
  rw [Made, h.conn_eq hl, h.link_eq hl]
  exact hm

theorem queued (h : Touches T t t') (hv : ¬T v) (hq : t.Queued nonce v link ve) :
    t'.Queued nonce v link ve := by
  have hc := h.conn_eq hv
  exact ⟨(h.link_eq hv).trans hq.link_eq, hq.peer_eq, hq.nonce_eq, by rw [hc]; exact hq.made,
    by rw [hc, hq.handle], hq.upRead_le, by rw [hc, hq.input], by rw [hc, hq.sent_eq]⟩

theorem joined (h : Touches T t t') (hv : ¬T v) (hl : ¬T l)
    (hj : t.Joined nonce v l lv ld ve de) : t'.Joined nonce v l lv ld ve de := by
  refine ⟨(h.link_eq hv).trans hj.visitor_link, hj.visitor_peer, hj.visitor_nonce,
    (h.link_eq hl).trans hj.data_link, hj.data_peer, hj.data_nonce, ?_⟩
  rw [h.conn_eq hv, h.conn_eq hl]
  exact hj.ends

theorem linkOk (h : Touches T t t') (hl : ¬T l) (hok : t.LinkOk l link) : t'.LinkOk l link := by
  unfold LinkOk at hok ⊢
  rw [h.conn_eq hl]
  cases hp : link.peer with
  | control c =>
    simp only [hp] at hok
    refine ⟨hok.1, hok.2.imp_right ?_⟩
    rintro ⟨n, ch, hch, hc⟩
    obtain ⟨ch', hch', hc', -⟩ := h.grows hch
    exact ⟨n, ch', hch', hc'.trans hc⟩
  | data de =>
    simp only [hp] at hok
    obtain ⟨ch, hch, hmem, hphase⟩ := hok
    obtain ⟨ch', hch', hc', -, hb⟩ := h.grows hch
    refine ⟨ch', hch', hc' ▸ h.dataLinks_sub _ hmem, hphase.imp_right ?_⟩
    rintro ⟨v, hv⟩
    exact ⟨v, hb hv⟩
  | visitor ve =>
    simp only [hp] at hok
    refine hok.imp_right ?_
    rintro ⟨ch, hch, hmem⟩
    obtain ⟨ch', hch', -, ha, -⟩ := h.grows hch
    exact ⟨ch', hch', ha hmem⟩

/-- A channel stays as it is; what of it is touched has to be looked at. -/
theorem channelOk (h : Touches T t t') {ch : SControlChannel} (hok : t.ChannelOk nonce ch)
    (hcontrol : T ch.ncxClientConn → (∃ link c, t'.links ch.ncxClientConn = some link ∧
      link.peer = .control c ∧ Greeted nonce ch (t'.server.conns ch.ncxClientConn) link c) ∧
      ∀ l ∈ t'.dataLinks ch.ncxClientConn, t'.IsData nonce l)
    (hqueued : ∀ v ∈ ch.waitHandleVisitors, T v → ∃ link ve, t'.Queued nonce v link ve)
    (hjoined : ∀ p ∈ ch.bridged, T p.1 ∨ T p.2 →
      ∃ lv ld ve de, t'.Joined nonce p.1 p.2 lv ld ve de) : t'.ChannelOk nonce ch where
  drawn := h.drawn_sub hok.drawn
  isUuid := hok.isUuid
  accepted_eq := hok.accepted_eq
  accepted_nodup := hok.accepted_nodup
  bridged_nodup := hok.bridged_nodup
  control := by
    by_cases hc : T ch.ncxClientConn
    · exact (hcontrol hc).1
    · rw [h.link_eq hc, h.conn_eq hc]
      exact hok.control
  isData := by
    by_cases hc : T ch.ncxClientConn
    · exact (hcontrol hc).2
    · intro l hl
      rw [dataLinks, h.link_eq hc] at hl
      exact h.isData (hok.isData l hl)
  queued v hv := by
    by_cases hT : T v
    · exact hqueued v hv hT
    · obtain ⟨link, ve, hq⟩ := hok.queued v hv
      exact ⟨link, ve, h.queued hT hq⟩
  joined p hp := by
    by_cases hT : T p.1 ∨ T p.2
    · exact hjoined p hp hT
    · obtain ⟨lv, ld, ve, de, hj⟩ := hok.joined p hp
      rw [not_or] at hT
      exact ⟨lv, ld, ve, de, h.joined hT.1 hT.2 hj⟩

end Touches

namespace Good

variable {t t' : Tunnel} {T : Obj → Prop}

theorem of_touches (h : t.Good) (ht : Touches T t t') (hinv : t'.server.Inv none)
    (hmade : ∀ l, T l → t'.Made l)
    (hlink : ∀ l link, T l → t'.links l = some link → t'.LinkOk l link)
    (hchannel : ∀ nonce ch, t'.server.scMap nonce = some ch → t'.ChannelOk nonce ch) :
    t'.Good where
  inv := hinv
  made l := by
    by_cases hl : T l
    · exact hmade l hl
    · exact ht.made hl (h.made l)
  channel hch := hchannel _ _ hch
  link {l link} hlk := by
    by_cases hl : T l
    · exact hlink l link hl hlk
    · exact ht.linkOk hl (h.link ((ht.link_eq hl).symm.trans hlk))

end Good

/-! ## One phase after the other -/

/-- A change of links and connections that the channels do not notice. -/
structure Change (T : Obj → Prop) (t t' : Tunnel) : Prop where
  link_eq : ∀ {p}, ¬T p → t'.links p = t.links p
  conn_eq : ∀ {p}, ¬T p → t'.server.conns p = t.server.conns p
  scMap_eq : t'.server.scMap = t.server.scMap
  drawn_eq : t'.server.drawn = t.server.drawn
  continues : ∀ {p link}, T p → t.links p = some link →
    ∃ link', t'.links p = some link' ∧ link.Continues link'
  made : ∀ {p}, T p → t'.Made p
  inv : t'.server.Inv none

variable {t t' : Tunnel} {T : Obj → Prop} {l v : Obj} {link link' : Link}

theorem mem_dataLinks {p : Obj} : p ∈ t.dataLinks l ↔
    ∃ link c, t.links l = some link ∧ link.peer = .control c ∧ p ∈ c.dataLinks := by
  unfold dataLinks
  cases hl : t.links l with
  | none => simp
  | some link => cases hp : link.peer <;> simp [hp]

theorem touches_of_continues (hlink : ∀ {p}, ¬T p → t'.links p = t.links p)
    (hconn : ∀ {p}, ¬T p → t'.server.conns p = t.server.conns p)
    (hdrawn : t.server.drawn ⊆ t'.server.drawn)
    (hgrows : ∀ {nonce ch}, t.server.scMap nonce = some ch →
      ∃ ch', t'.server.scMap nonce = some ch' ∧ ch'.ncxClientConn = ch.ncxClientConn ∧
        ch.accepted ⊆ ch'.accepted ∧ ch.bridged ⊆ ch'.bridged)
    (hcont : ∀ {p link}, T p → t.links p = some link →
      ∃ link', t'.links p = some link' ∧ link.Continues link') : Touches T t t' := by
  refine ⟨hlink, hconn, hdrawn, hgrows, fun l p hp => ?_, fun {nonce l} hd => ?_⟩
  · obtain ⟨link, c, hl, hc, hmem⟩ := mem_dataLinks.mp hp
    by_cases hT : T l
    · obtain ⟨link', hl', hk⟩ := hcont hT hl
      cases hc' : link'.peer with
      | control c' =>
        simp only [Link.Continues, hc, hc'] at hk
        exact mem_dataLinks.mpr ⟨link', c', hl', hc', hk hmem⟩
      | data d' => simp [Link.Continues, hc, hc'] at hk
      | visitor v' => simp [Link.Continues, hc, hc'] at hk
    · exact mem_dataLinks.mpr ⟨link, c, (hlink hT).trans hl, hc, hmem⟩
  · obtain ⟨link, de, hl, hd, hn⟩ := hd
    by_cases hT : T l
    · obtain ⟨link', hl', hk⟩ := hcont hT hl
      cases hd' : link'.peer with
      | control c' => simp [Link.Continues, hd, hd'] at hk
      | data d' =>
        simp only [Link.Continues, hd, hd'] at hk
        exact ⟨link', d', hl', hd', hk.trans hn⟩
      | visitor v' => simp [Link.Continues, hd, hd'] at hk
    · exact ⟨link, de, (hlink hT).trans hl, hd, hn⟩

theorem Change.touches (h : Change T t t') : Touches T t t' :=
  touches_of_continues h.link_eq h.conn_eq (by rw [h.drawn_eq]; exact List.Subset.refl _)
    (fun {n ch} hch => ⟨ch, by rw [h.scMap_eq, hch], rfl, List.Subset.refl _, List.Subset.refl _⟩)
    h.continues

/-- The server adds a channel, or one of its channels grows. -/
theorem touches_of_update {nonce : Bytes} {ch' : SControlChannel}
    (hscMap : t'.server.scMap = Function.update t.server.scMap nonce (some ch'))
    (hgrows : ∀ {ch}, t.server.scMap nonce = some ch → ch'.ncxClientConn = ch.ncxClientConn ∧
      ch.accepted ⊆ ch'.accepted ∧ ch.bridged ⊆ ch'.bridged)
    (hlink : ∀ {p}, ¬T p → t'.links p = t.links p)
    (hconn : ∀ {p}, ¬T p → t'.server.conns p = t.server.conns p)
    (hdrawn : t.server.drawn ⊆ t'.server.drawn)
    (hcont : ∀ {p link}, T p → t.links p = some link →
      ∃ link', t'.links p = some link' ∧ link.Continues link') : Touches T t t' := by
  refine touches_of_continues hlink hconn hdrawn (fun {m ch} hch => ?_) hcont
  by_cases hm : m = nonce
  · subst hm
    exact ⟨ch', by rw [hscMap, Function.update_self], hgrows hch⟩
  · refine ⟨ch, ?_, rfl, List.Subset.refl _, List.Subset.refl _⟩
    rw [hscMap, Function.update_of_ne hm, hch]

namespace Good

theorem change (h : t.Good) (hc : Change T t t')
    (hlink : ∀ {l link}, T l → t'.links l = some link → t'.LinkOk l link)
    (hcontrol : ∀ {nonce ch}, t.server.scMap nonce = some ch → T ch.ncxClientConn →
      (∃ link c, t'.links ch.ncxClientConn = some link ∧ link.peer = .control c ∧
        Greeted nonce ch (t'.server.conns ch.ncxClientConn) link c) ∧
      ∀ l ∈ t'.dataLinks ch.ncxClientConn, t'.IsData nonce l)
    (hqueued : ∀ {nonce v link ve}, t.Queued nonce v link ve → T v →
      ∃ link ve, t'.Queued nonce v link ve)
    (hjoined : ∀ {nonce v l lv ld ve de}, t.Joined nonce v l lv ld ve de → T v ∨ T l →
      ∃ lv ld ve de, t'.Joined nonce v l lv ld ve de) : t'.Good := by
  refine h.of_touches hc.touches hc.inv (fun l hl => hc.made hl) (fun l link hl => hlink hl) ?_
  intro nonce ch hch
  rw [hc.scMap_eq] at hch
  have hok := h.channel hch
  refine hc.touches.channelOk hok (hcontrol hch) (fun v hv hT => ?_) (fun p hp hT => ?_)
  · obtain ⟨link, ve, hq⟩ := hok.queued v hv
    exact hqueued hq hT
  · obtain ⟨lv, ld, ve, de, hj⟩ := hok.joined p hp
    exact hjoined hj hT

/-- One channel changes or is added. -/
theorem of_one_channel (h : t.Good) {nonce : Bytes} {ch' : SControlChannel}
    (ht : Touches T t t') (hinv : t'.server.Inv none) (hmade : ∀ l, T l → t'.Made l)
    (hlink : ∀ l link, T l → t'.links l = some link → t'.LinkOk l link)
    (hscMap : t'.server.scMap = Function.update t.server.scMap nonce (some ch'))
    (hok : t'.ChannelOk nonce ch')
    (hcontrol : ∀ {m ch}, m ≠ nonce → t.server.scMap m = some ch → ¬T ch.ncxClientConn)
    (hqueued : ∀ {m v link ve}, m ≠ nonce → t.Queued m v link ve → ¬T v)
    (hjoined : ∀ {m v l lv ld ve de}, t.Joined m v l lv ld ve de → ¬T v ∧ ¬T l) : t'.Good := by
  refine h.of_touches ht hinv hmade hlink fun m ch hch => ?_
  rw [hscMap] at hch
  by_cases hm : m = nonce
  · subst hm
    rw [Function.update_self, Option.some.injEq] at hch
    exact hch ▸ hok
  · rw [Function.update_of_ne hm] at hch
    have hok' := h.channel hch
    refine ht.channelOk hok' (fun hT => absurd hT (hcontrol hm hch)) (fun v hv hT => ?_)
      (fun p hp hT => ?_)
    · obtain ⟨lk, ve, hq⟩ := hok'.queued v hv
      exact absurd hT (hqueued hm hq)
    · obtain ⟨lv, ld, ve, de, hj⟩ := hok'.joined p hp
      exact absurd hT (not_or.mpr (hjoined hj))

end Good

section Peers

variable {nonce : Bytes} {lv ld : Link} {ve : VisitorEnd} {de : DataEnd} {c : ControlEnd}
  {ch : SControlChannel}

theorem Queued.peer_of (hq : t.Queued nonce v lv ve) (hl : t.links v = some link) :
    link.peer = .visitor ve := by
  have hsame := hl.symm.trans hq.link_eq
  rw [Option.some.injEq] at hsame
  rw [hsame, hq.peer_eq]

theorem Joined.visitor_peer_of (hj : t.Joined nonce v l lv ld ve de)
    (hl : t.links v = some link) : link.peer = .visitor ve := by
  have hsame := hl.symm.trans hj.visitor_link
  rw [Option.some.injEq] at hsame
  rw [hsame, hj.visitor_peer]

theorem Joined.data_peer_of (hj : t.Joined nonce v l lv ld ve de) (hl : t.links l = some link) :
    link.peer = .data de := by
  have hsame := hl.symm.trans hj.data_link
  rw [Option.some.injEq] at hsame
  rw [hsame, hj.data_peer]

theorem ChannelOk.greeted (hok : t.ChannelOk nonce ch)
    (hl : t.links ch.ncxClientConn = some link) :
    ∃ c, link.peer = .control c ∧ Greeted nonce ch (t.server.conns ch.ncxClientConn) link c := by
  obtain ⟨link₁, c, hl₁, hp, hg⟩ := hok.control
  have hsame := hl.symm.trans hl₁
  rw [Option.some.injEq] at hsame
  exact ⟨c, hsame ▸ hp, hsame ▸ hg⟩

theorem Good.control_ne (h : t.Good) (hch : t.server.scMap nonce = some ch)
    (hl : t.links l = some link) (hp : ∀ c, link.peer ≠ .control c) : ch.ncxClientConn ≠ l := by
  rintro rfl
  obtain ⟨c, hpc, -⟩ := (h.channel hch).greeted hl
  exact hp c hpc

/-- A visitor that waits is not an end of a bridge. -/
theorem Queued.ne_joined {u : Obj} {lu : Link} {we : VisitorEnd} {m : Bytes}
    (hq : t.Queued m u lu we) (hj : t.Joined nonce v l lv ld ve de) : v ≠ u ∧ l ≠ u := by
  constructor
  · rintro rfl
    cases hq.handle.symm.trans hj.ends.visitor_handle
  · rintro rfl
    cases hq.peer_eq.symm.trans (hj.data_peer_of hq.link_eq)

theorem Good.forwards_made (h : t.Good) {p : Obj}
    (hf : (t.server.conns l).onMessage = .forward p) : (t.server.conns l).state ≠ .connecting := by
  intro hst
  rw [h.inv.unmade hst] at hf
  cases hf

/-- The ends of different bridges are different. -/
theorem Joined.eq_of_common (hj : t.Joined nonce v l lv ld ve de) {nonce' : Bytes} {v' l' : Obj}
    {lv' ld' : Link} {ve' : VisitorEnd} {de' : DataEnd}
    (hj' : t.Joined nonce' v' l' lv' ld' ve' de')
    (hcommon : (v' = v ∨ v' = l) ∨ (l' = v ∨ l' = l)) : v' = v ∧ l' = l := by
  rcases hcommon with (rfl | rfl) | (rfl | rfl)
  · have := hj.ends.visitor_handle.symm.trans hj'.ends.visitor_handle
    rw [MessageHandle.forward.injEq] at this
    exact ⟨rfl, this.symm⟩
  · have := hj'.visitor_peer.symm.trans (hj.data_peer_of hj'.visitor_link)
    cases this
  · have := hj'.data_peer.symm.trans (hj.visitor_peer_of hj'.data_link)
    cases this
  · have := hj.ends.data_handle.symm.trans hj'.ends.data_handle
    rw [MessageHandle.forward.injEq] at this
    exact ⟨this.symm, rfl⟩

end Peers

namespace Good

/-- A connection is the control connection of one channel at most. -/
theorem channel_unique (h : t.Good) {n m : Bytes} {ch ch' : SControlChannel}
    (hch : t.server.scMap n = some ch) (hch' : t.server.scMap m = some ch')
    (hctl : ch'.ncxClientConn = ch.ncxClientConn) : m = n ∧ ch' = ch := by
  have hok := h.channel hch
  have hok' := h.channel hch'
  obtain ⟨lk, c, hl, -, hg⟩ := hok.control
  obtain ⟨c', -, hg'⟩ := hok'.greeted (hctl ▸ hl)
  rw [hctl] at hg'
  have hnonce := nonce_of_controlSent hok'.isUuid hok.isUuid (hg'.sent_eq.symm.trans hg.sent_eq)
  subst hnonce
  have hsame := hch'.symm.trans hch
  rw [Option.some.injEq] at hsame
  exact ⟨rfl, hsame⟩

section Control

variable {c c' : ControlEnd} (hl : t.links l = some link) (hp : link.peer = .control c)
  (hl' : t'.links l = some link') (hp' : link'.peer = .control c')

include hl hp

/-- A control link is not in a queue and not bridged. -/
theorem change_control (h : t.Good) (hc : Change (· = l) t t')
    (hlink : ∀ {link}, t'.links l = some link → t'.LinkOk l link)
    (hcontrol : ∀ {nonce ch}, t.server.scMap nonce = some ch → ch.ncxClientConn = l →
      (∃ link c, t'.links l = some link ∧ link.peer = .control c ∧
        Greeted nonce ch (t'.server.conns l) link c) ∧
      ∀ p ∈ t'.dataLinks l, t'.IsData nonce p) : t'.Good := by
  refine h.change hc (fun hT => ?_) (fun hch hT => ?_) (fun hq hT => ?_) (fun hj hT => ?_)
  · subst hT
    exact hlink
  · rw [hT]
    exact hcontrol hch hT
  · subst hT
    cases hp.symm.trans (hq.peer_of hl)
  · rcases hT with rfl | rfl
    · cases hp.symm.trans (hj.visitor_peer_of hl)
    · cases hp.symm.trans (hj.data_peer_of hl)

include hl' hp'

theorem change_ungreeted (h : t.Good) (hc : Change (· = l) t t')
    (hu : Ungreeted (t.server.conns l) link c) (hsent : c'.sent = c.sent)
    (hu' : Ungreeted (t'.server.conns l) link' c') : t'.Good := by
  refine h.change_control hl hp hc (fun {lk} hlk => ?_) (fun {nonce ch} hch hctl => ?_)
  · have hsame := hlk.symm.trans hl'
    rw [Option.some.injEq] at hsame
    have hok := h.link hl
    simp only [LinkOk, hp] at hok
    simp only [LinkOk, hsame, hp', hsent]
    exact ⟨hok.1, .inl hu'⟩
  · -- a channel would have sent its greeting
    subst hctl
    obtain ⟨c₁, hp₁, hg⟩ := (h.channel hch).greeted hl
    have hnil := hg.sent_eq.symm.trans hu.sent_eq
    exact absurd hnil (controlSent_ne_nil (h.channel hch).isUuid _)

theorem change_greeted (h : t.Good) (hc : Change (· = l) t t') {nonce : Bytes}
    {ch : SControlChannel} (hch : t.server.scMap nonce = some ch) (hctl : ch.ncxClientConn = l)
    (hsent : c'.sent = c.sent) (hlinks : c'.dataLinks = c.dataLinks)
    (hg' : Greeted nonce ch (t'.server.conns l) link' c') : t'.Good := by
  subst hctl
  refine h.change_control hl hp hc (fun {lk} hlk => ?_) (fun {nonce₁ ch₁} hch₁ hctl => ?_)
  · have hsame := hlk.symm.trans hl'
    rw [Option.some.injEq] at hsame
    have hok := h.link hl
    simp only [LinkOk, hp] at hok
    simp only [LinkOk, hsame, hp', hsent]
    exact ⟨hok.1, .inr ⟨nonce, ch, hc.scMap_eq ▸ hch, rfl⟩⟩
  · have hok := h.channel hch
    obtain ⟨rfl, rfl⟩ := h.channel_unique hch hch₁ hctl
    refine ⟨⟨link', c', hl', hp', hg'⟩, fun p hmem => ?_⟩
    obtain ⟨lk, ck, hlk, hck, hmem⟩ := mem_dataLinks.mp hmem
    have hlk' := hlk.symm.trans hl'
    rw [Option.some.injEq] at hlk'
    have hck' := hck.symm.trans (hlk' ▸ hp')
    rw [Peer.control.injEq] at hck'
    exact hc.touches.isData (hok.isData p (mem_dataLinks.mpr ⟨link, c, hl, hp, by
      rw [← hlinks, ← hck']
      exact hmem⟩))

end Control

section Data

variable {d d' : DataEnd} (hl : t.links l = some link) (hp : link.peer = .data d)
  (hl' : t'.links l = some link') (hp' : link'.peer = .data d')

include hl hp hl' hp'

theorem change_pending (h : t.Good) (hc : Change (· = l) t t')
    (hpend : Pending (t.server.conns l) link d) (hnonce : d'.channel.nonce = d.channel.nonce)
    (hpend' : Pending (t'.server.conns l) link' d') : t'.Good := by
  refine h.change hc (fun {p lk} hT hlk => ?_) (fun {nonce ch} hch hT => ?_) (fun hq hT => ?_)
    (fun hj hT => ?_)
  · subst hT
    have hsame := hlk.symm.trans hl'
    rw [Option.some.injEq] at hsame
    have hok := h.link hl
    simp only [LinkOk, hp] at hok
    obtain ⟨ch, hch, hmem, -⟩ := hok
    simp only [LinkOk, hsame, hp', hnonce]
    exact ⟨ch, hc.scMap_eq ▸ hch, hc.touches.dataLinks_sub _ hmem, .inl hpend'⟩
  · exact absurd hT (h.control_ne hch hl (by simp [hp]))
  · subst hT
    cases hp.symm.trans (hq.peer_of hl)
  · rcases hT with rfl | rfl
    · cases hp.symm.trans (hj.visitor_peer_of hl)
    · -- the handler of a bridged connection forwards
      have hf := hj.ends.data_handle
      rw [hpend.handle (h.forwards_made hf)] at hf
      cases hf

end Data

section Visitor

variable {w w' : VisitorEnd} (hl : t.links l = some link) (hp : link.peer = .visitor w)
  (hl' : t'.links l = some link') (hp' : link'.peer = .visitor w')

include hl hp

/-- A visitor link is not a control link and not a data channel. -/
theorem change_visitor (h : t.Good) (hc : Change (· = l) t t')
    (hlink : ∀ {link}, t'.links l = some link → t'.LinkOk l link)
    (hhandle : ∀ p, (t.server.conns l).onMessage ≠ .forward p)
    (hqueued : ∀ {nonce}, t.Queued nonce l link w → ∃ link ve, t'.Queued nonce l link ve) :
    t'.Good := by
  refine h.change hc (fun hT => ?_) (fun {nonce ch} hch hT => ?_) (fun {n v lk ve} hq hT => ?_)
    (fun hj hT => ?_)
  · subst hT
    exact hlink
  · exact absurd hT (h.control_ne hch hl (by simp [hp]))
  · subst hT
    have hsame := hl.symm.trans hq.link_eq
    rw [Option.some.injEq] at hsame
    have hw := hp.symm.trans (hq.peer_of hl)
    rw [Peer.visitor.injEq] at hw
    rw [← hsame, ← hw] at hq
    exact hqueued hq
  · rcases hT with rfl | rfl
    · exact absurd hj.ends.visitor_handle (hhandle _)
    · cases hp.symm.trans (hj.data_peer_of hl)

include hl' hp'

theorem change_unaccepted (h : t.Good) (hc : Change (· = l) t t')
    (hnew : (t.server.conns l).state = .connecting)
    (hnew' : (t'.server.conns l).state = .connecting) (hread : link'.upRead = 0) : t'.Good := by
  refine h.change_visitor hl hp hc (fun {lk} hlk => ?_) (fun p hf => ?_) (fun hq => ?_)
  · have hsame := hlk.symm.trans hl'
    rw [Option.some.injEq] at hsame
    simp only [LinkOk, hsame, hp']
    exact .inl ⟨hnew', hread⟩
  · exact h.forwards_made hf hnew
  · exact absurd hnew hq.made

theorem change_queued (h : t.Good) (hc : Change (· = l) t t') {nonce : Bytes}
    (hq : t.Queued nonce l link w) {ch : SControlChannel} (hch : t.server.scMap nonce = some ch)
    (hmem : l ∈ ch.accepted) (hq' : t'.Queued nonce l link' w') : t'.Good := by
  refine h.change_visitor hl hp hc (fun {lk} hlk => ?_) (fun p hf => ?_) (fun hq₁ => ?_)
  · have hsame := hlk.symm.trans hl'
    rw [Option.some.injEq] at hsame
    simp only [LinkOk, hsame, hp', hq'.nonce_eq]
    exact .inr ⟨ch, hc.scMap_eq ▸ hch, hmem⟩
  · cases hq.handle.symm.trans hf
  · exact ⟨link', w', hq₁.nonce_eq.symm.trans hq.nonce_eq ▸ hq'⟩

end Visitor

theorem change_joined (h : t.Good) {nonce : Bytes} {lv ld lv' ld' : Link} {w w' : VisitorEnd}
    {d d' : DataEnd} (hc : Change (fun p => p = v ∨ p = l) t t')
    (hj : t.Joined nonce v l lv ld w d) {ch : SControlChannel}
    (hch : t.server.scMap nonce = some ch) (hmem : (v, l) ∈ ch.bridged)
    (hj' : t'.Joined nonce v l lv' ld' w' d') : t'.Good := by
  have hok := h.channel hch
  have hdata := h.link hj.data_link
  simp only [LinkOk, hj.data_peer] at hdata
  obtain ⟨ch₁, hch₁, hlinks, -⟩ := hdata
  refine h.change hc (fun {p lk} hT hlk => ?_) (fun {nonce₁ ch₁} hch₁ hT => ?_)
    (fun {n v₁ lk ve} hq hT => ?_) (fun {n v₁ l₁ _ _ _ _} hj₁ hT => ?_)
  · rcases hT with rfl | rfl
    · simp only [LinkOk, hj'.visitor_peer_of hlk, hj'.visitor_nonce]
      refine .inr ⟨ch, hc.scMap_eq ▸ hch, ?_⟩
      rw [hok.accepted_eq]
      exact List.mem_append_left _ (List.mem_map.mpr ⟨_, hmem, rfl⟩)
    · rw [hj.data_nonce, hch, Option.some.injEq] at hch₁
      simp only [LinkOk, hj'.data_peer_of hlk, hj'.data_nonce]
      exact ⟨ch, hc.scMap_eq ▸ hch, hc.touches.dataLinks_sub _ (hch₁ ▸ hlinks), .inr ⟨v, hmem⟩⟩
  · rcases hT with hT | hT
    · exact absurd hT (h.control_ne hch₁ hj.visitor_link (by simp [hj.visitor_peer]))
    · exact absurd hT (h.control_ne hch₁ hj.data_link (by simp [hj.data_peer]))
  · exact absurd hT (not_or.mpr ⟨(hq.ne_joined hj).1.symm, (hq.ne_joined hj).2.symm⟩)
  · obtain ⟨rfl, rfl⟩ := hj.eq_of_common hj₁ hT
    have hnonce : n = nonce := by
      have hw := hj₁.visitor_peer.symm.trans (hj.visitor_peer_of hj₁.visitor_link)
      rw [Peer.visitor.injEq] at hw
      rw [← hj₁.visitor_nonce, hw, hj.visitor_nonce]
    exact ⟨lv', ld', w', d', hnonce ▸ hj'⟩

end Good

end Tunnel

end NcxTunnel
