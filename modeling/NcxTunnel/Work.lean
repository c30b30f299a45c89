import NcxTunnel.Quiescence
import NcxTunnel.Ranking

/-!
# What is left to do

The work that a link holds, counted in deliveries: accepts, and reads of at least one
byte.  A delivery may put bytes on other links and make a new one, but it takes
more work away than it makes.
-/

namespace NcxTunnel

open Streams WireFormat

variable {pb : Protobuf}

/-- The frame of a greeting that carries a UUID. -/
def greetingLength : ℕ := 45

def commandLength : ℕ := 7

theorem greeting_length {t : HelloType} (ht : (Field.encode ⟨1, enumValue t⟩).length = 2)
    {nonce : Bytes} (h : IsUuid nonce) :
    (headerInstaller (Hello.serializeAsString ⟨some t, some nonce, none⟩)).length =
      greetingLength := by
  have htag : (encodeVarint varintFuel (8 * 2 + 2)).length = 1 := rfl
  have hlen : (encodeVarint varintFuel 36).length = 1 := rfl
  have hdigest : (Field.encode ⟨2, .bytes nonce⟩).length = 38 := by
    simp only [Field.encode, Value.encode, Value.wireType, List.length_append, h.length_eq, htag,
      hlen]
  rw [((Hello.valid_of_isUuid t h).frameable rfl).headerInstaller_length]
  simp only [Hello.serializeAsString, Hello.fields, optionalField, List.append_nil,
    List.cons_append, List.nil_append, encodeFields_cons, encodeFields_nil, List.length_append, ht,
    hdigest, msgHeaderLength, greetingLength]

theorem controlHello_length {nonce : Bytes} (h : IsUuid nonce) :
    (headerInstaller (NServer.controlHello nonce).serializeAsString).length = greetingLength :=
  greeting_length (by decide) h

theorem dataHelloFrame_length {nonce : Bytes} (h : IsUuid nonce) :
    (dataHelloFrame nonce).length = greetingLength :=
  greeting_length (by decide) h

theorem create_length :
    (headerInstaller NServer.createDataChannel.serializeAsString).length = commandLength := by
  decide

theorem startFrame_length : startFrame.length = commandLength := by decide

/-! ## Work -/

def MessageHandle.isForward : MessageHandle → Bool
  | .unset => false
  | .handleNewConnection => false
  | .forward _ => true

namespace Link

def upUnread (link : Link) : ℕ := link.peer.sent.length - link.upRead

def downUnread (link : Link) (conn : Connection) : ℕ := conn.sent.length - link.downRead

/-- Deliveries that the link may still take and cause. -/
def work (conn : Connection) (link : Link) : ℕ :=
  match link.peer with
  | .control c =>
      (if conn.state = .connecting then 1 else 0) +
      -- the answer to the greeting
      (if conn.sent = [] then 15 * greetingLength else 0) +
      link.upUnread + link.downUnread conn +
      -- a command that is handled makes a data channel, which has all its work before it
      14 * (unhandled c.channel.inputBuffer conn.sent link.downRead).length
  | .data _ =>
      (if conn.state = .connecting then 1 else 0) +
      -- START
      (if conn.onMessage.isForward then 0 else commandLength) +
      2 * link.upUnread + link.downUnread conn + 3 * link.peer.serviceUnread
  | .visitor _ =>
      -- the command for a data channel
      (if conn.state = .connecting then 15 * commandLength + 1 else 0) +
      3 * link.upUnread + 2 * conn.inputBuffer.length + link.downUnread conn

variable (conn : Connection) (link : Link)

/-- Bytes that the server reads and keeps. -/
theorem work_keep {n : ℕ} (hle : link.upRead + n ≤ link.peer.sent.length) {input : Bytes}
    (hinput : input.length ≤ conn.inputBuffer.length + n) :
    work { conn with inputBuffer := input } { link with upRead := link.upRead + n } + n ≤
      link.work conn := by
  unfold work upUnread downUnread
  cases hpeer : link.peer <;> rw [hpeer] at hle <;> dsimp only <;> omega

/-- Bytes that the server reads and passes on. -/
theorem work_take {n : ℕ} (hle : link.upRead + n ≤ link.peer.sent.length)
    (hp : ∀ c, link.peer ≠ .control c) :
    work { conn with inputBuffer := [] } { link with upRead := link.upRead + n } + 2 * n ≤
      link.work conn := by
  unfold work upUnread downUnread
  cases hpeer : link.peer with
  | control c => exact absurd hpeer (hp c)
  | data d => dsimp only; rw [hpeer] at hle; omega
  | visitor w => dsimp only [List.length_nil]; rw [hpeer] at hle; omega

/-- Bytes that the other end is sent. -/
theorem work_send (msg : Bytes) (hp : ∀ c, link.peer ≠ .control c) :
    work { conn with sent := conn.sent ++ msg } link ≤ link.work conn + msg.length := by
  unfold work downUnread
  cases hpeer : link.peer with
  | control c => exact absurd hpeer (hp c)
  | data d => dsimp only; rw [List.length_append]; omega
  | visitor w => dsimp only; rw [List.length_append]; omega

theorem work_command {c : ControlEnd} (hp : link.peer = .control c)
    (hle : link.downRead ≤ conn.sent.length) :
    work { conn with
        sent := conn.sent ++ headerInstaller NServer.createDataChannel.serializeAsString } link ≤
      link.work conn + 15 * commandLength := by
  have hne : headerInstaller NServer.createDataChannel.serializeAsString ≠ [] := by
    rw [← List.length_pos_iff, create_length]
    decide
  have hnil : conn.sent ++ headerInstaller NServer.createDataChannel.serializeAsString ≠ [] :=
    List.append_ne_nil_of_right_ne_nil _ hne
  simp only [work, hp, downUnread, unhandled_append _ _ hle, List.length_append, create_length,
    if_neg hnil]
  omega

/-- A data channel is bridged: START is paid for in advance. -/
theorem work_join {n : ℕ} (hle : link.upRead + n ≤ link.peer.sent.length) {d : DataEnd}
    (hp : link.peer = .data d) (hf : conn.onMessage = .handleNewConnection) (rest buf : Bytes)
    (v : Obj) (ref : BridgeRef) :
    work { conn with
        inputBuffer := rest
        onMessage := .forward v
        noticeOnClose := some ref
        sent := conn.sent ++ startFrame ++ buf } { link with upRead := link.upRead + n } + n ≤
      link.work conn + buf.length := by
  rw [hp] at hle
  simp only [work, hp, hf, upUnread, downUnread, MessageHandle.isForward, List.length_append,
    startFrame_length, if_true, Bool.false_eq_true, if_false]
  omega

/-- What a visitor has sent before it is bridged. -/
theorem work_flush {w : VisitorEnd} (hp : link.peer = .visitor w) (l : Obj) (ref : BridgeRef) :
    work { conn with inputBuffer := [], onMessage := .forward l, noticeOnClose := some ref } link +
      2 * conn.inputBuffer.length = link.work conn := by
  simp only [work, hp, downUnread, List.length_nil]
  omega

end Link

namespace Tunnel

variable {t t' : Tunnel} {l v : Obj} {link link' lv : Link} {n : ℕ}

def workAt (t : Tunnel) (l : Obj) : ℕ :=
  match t.links l with
  | none => 0
  | some link => link.work (t.server.conns l)

noncomputable def work (t : Tunnel) : ℕ := ∑ᶠ l, t.workAt l

theorem workAt_of_some (hl : t.links l = some link) :
    t.workAt l = link.work (t.server.conns l) := by
  rw [workAt, hl]

theorem workAt_of_none (hl : t.links l = none) : t.workAt l = 0 := by
  rw [workAt, hl]

/-- Only the links in `T` change, and they lose at least `n` in work. -/
structure Lowers (n : ℕ) (T : Finset Obj) (t t' : Tunnel) : Prop where
  off : ∀ p ∉ T, t'.links p = t.links p ∧ t'.server.conns p = t.server.conns p
  work_le : (∑ p ∈ T, t'.workAt p) + n ≤ ∑ p ∈ T, t.workAt p

theorem Lowers.work_lt {T : Finset Obj} (h : Lowers n T t t') (hn : 0 < n)
    (hfin : {l | t.links l ≠ none}.Finite) : t'.work < t.work := by
  have hsupport : t.workAt.support.Finite := by
    refine hfin.subset fun p hp hnone => hp ?_
    exact workAt_of_none hnone
  refine Ranking.finsum_lt (T := T) hsupport (fun p hp => ?_) ?_
  · obtain ⟨hlink, hconn⟩ := h.off p hp
    rw [workAt, workAt, hlink, hconn]
  · have hle := h.work_le
    omega

/-- What the server does with a delivery: it sends, it keeps its channels, and the
work goes down by `n`. -/
structure Drains (n : ℕ) (t t' : Tunnel) : Prop where
  lowers : ∃ T, Lowers n T t t'
  sent_le : ∀ p, (t.server.conns p).sent.length ≤ (t'.server.conns p).sent.length
  channel : ∀ {m}, (t.server.scMap m).isSome → (t'.server.scMap m).isSome

namespace Drains

variable {s' : NServer} {cl cv : Connection}

/-- One link and its connection change. -/
theorem of_one (hl : t.links l = some link) (hconns : s'.conns = Function.update t.server.conns l cl)
    (hchannel : ∀ {m}, (t.server.scMap m).isSome → (s'.scMap m).isSome)
    (hsent : (t.server.conns l).sent.length ≤ cl.sent.length)
    (hwork : link'.work cl + n ≤ link.work (t.server.conns l)) :
    Drains n t ({ t with server := s' }.setLink l link') where
  lowers := by
    refine ⟨{l}, fun p hp => ?_, ?_⟩
    · rw [Finset.mem_singleton] at hp
      refine ⟨setLink_of_ne _ hp link', ?_⟩
      show s'.conns p = _
      rw [hconns, Function.update_of_ne hp]
    · rw [Finset.sum_singleton, Finset.sum_singleton, workAt_of_some hl,
        workAt_of_some (setLink_self _ l link')]
      show link'.work (s'.conns l) + n ≤ _
      rw [hconns, Function.update_self]
      exact hwork
  sent_le p := by
    show _ ≤ (s'.conns p).sent.length
    rw [hconns]
    by_cases hp : p = l
    · rw [hp, Function.update_self]
      exact hsent
    · rw [Function.update_of_ne hp]
  channel := hchannel

/-- The connection of another link changes with it. -/
theorem of_two (hl : t.links l = some link) (hv : t.links v = some lv) (hne : v ≠ l)
    (hconns : s'.conns = Function.update (Function.update t.server.conns l cl) v cv)
    (hchannel : ∀ {m}, (t.server.scMap m).isSome → (s'.scMap m).isSome)
    (hsent : (t.server.conns l).sent.length ≤ cl.sent.length)
    (hsentv : (t.server.conns v).sent.length ≤ cv.sent.length)
    (hwork : link'.work cl + lv.work cv + n ≤
      link.work (t.server.conns l) + lv.work (t.server.conns v)) :
    Drains n t ({ t with server := s' }.setLink l link') where
  lowers := by
    refine ⟨{l, v}, fun p hp => ?_, ?_⟩
    · simp only [Finset.mem_insert, Finset.mem_singleton, not_or] at hp
      refine ⟨setLink_of_ne _ hp.1 link', ?_⟩
      show s'.conns p = _
      rw [hconns, Function.update_of_ne hp.2, Function.update_of_ne hp.1]
    · have hv' : ({ t with server := s' }.setLink l link').links v = some lv :=
        (setLink_of_ne _ hne link').trans hv
      rw [Finset.sum_pair hne.symm, Finset.sum_pair hne.symm, workAt_of_some hl, workAt_of_some hv,
        workAt_of_some (setLink_self _ l link'), workAt_of_some hv']
      show link'.work (s'.conns l) + lv.work (s'.conns v) + n ≤ _
      rw [hconns, Function.update_self, Function.update_of_ne hne.symm, Function.update_self]
      exact hwork
  sent_le p := by
    show _ ≤ (s'.conns p).sent.length
    rw [hconns]
    by_cases hpv : p = v
    · rw [hpv, Function.update_self]
      exact hsentv
    · rw [Function.update_of_ne hpv]
      by_cases hp : p = l
      · rw [hp, Function.update_self]
        exact hsent
      · rw [Function.update_of_ne hp]
  channel := hchannel

/-- The server is not concerned. -/
theorem of_link (hl : t.links l = some link)
    (hwork : link'.work (t.server.conns l) + n ≤ link.work (t.server.conns l)) :
    Drains n t (t.setLink l link') :=
  of_one hl (Function.update_eq_self l _).symm id (Nat.le_refl _) hwork

end Drains

/-- The number of bytes read is within what was sent, no link is forgotten, and a
visitor's listener exists. -/
structure Tidy (t : Tunnel) : Prop where
  finite : {l | t.links l ≠ none}.Finite
  upRead_le : ∀ {l link}, t.links l = some link → link.upRead ≤ link.peer.sent.length
  downRead_le : ∀ {l link}, t.links l = some link →
    link.downRead ≤ (t.server.conns l).sent.length
  serviceRead_le : ∀ {l link d}, t.links l = some link → link.peer = .data d →
    d.serviceRead ≤ d.service.length
  listener : ∀ {l link w}, t.links l = some link → link.peer = .visitor w →
    (t.server.scMap w.nonce).isSome

/-! ## The server reads -/

/-- The server has read what arrives at the link. -/
def afterRead (t : Tunnel) (s' : NServer) (l : Obj) (link : Link) (k : ℕ) : Tunnel :=
  { t with server := s' }.setLink l
    { link with upRead := link.upRead + (arriving link.peer.sent link.upRead k).length }

section ServerRead

variable {k : ℕ} {a : Answers} {s' : NServer} (htidy : t.Tidy) (hl : t.links l = some link)

include htidy hl

/-- A greeting that is not complete, or a visitor that waits. -/
theorem drains_keep (hb : s'.Becomes (t.server.withInput l ((t.server.conns l).inputBuffer ++
      arriving link.peer.sent link.upRead k)) t.server.scMap t.server.drawn) :
    Drains (arriving link.peer.sent link.upRead k).length t (t.afterRead s' l link k) := by
  refine .of_one hl hb.conns_eq (fun hm => by rw [hb.scMap_eq]; exact hm) (Nat.le_refl _) ?_
  refine link.work_keep _ (read_add_length_arriving_le _ _ (htidy.upRead_le hl)) ?_
  rw [List.length_append]

variable (hgood : t.Good) (hst : (t.server.conns l).state ≠ .connecting)
  (hs : t.server.step pb (readEvent l link k a) = .ok s') (hw : ∀ n, a.writeFails n = false)

include hgood hst hs

theorem drains_incomplete (hhandle : (t.server.conns l).onMessage = .handleNewConnection)
    (ha : attemptBytes ((t.server.conns l).inputBuffer ++ arriving link.peer.sent link.upRead k) =
      (none, (t.server.conns l).inputBuffer ++ arriving link.peer.sent link.upRead k)) :
    Drains (arriving link.peer.sent link.upRead k).length t (t.afterRead s' l link k) := by
  have hmade := hgood.connected hst
  have hpool := hgood.inv.pooled hmade (by simp)
  exact drains_keep htidy hl (NServer.step_read_incomplete hmade hpool hhandle ha hs)

include hw

/-- One end of a bridge; `v` is the other. -/
theorem drains_forward (hv : t.links v = some lv) (hne : v ≠ l)
    (hf : (t.server.conns l).onMessage = .forward v)
    (hvst : (t.server.conns v).state ≠ .connecting) (hempty : (t.server.conns l).inputBuffer = [])
    (hp : ∀ c, link.peer ≠ .control c) (hpv : ∀ c, lv.peer ≠ .control c) :
    Drains (arriving link.peer.sent link.upRead k).length t (t.afterRead s' l link k) := by
  have hmade := hgood.connected hst
  have hpool := hgood.inv.pooled hmade (by simp)
  have hpool' := hgood.inv.pooled (hgood.connected hvst) (by simp)
  have hb := NServer.step_read_forward hmade hpool hw hne hf hpool' hs
  refine .of_two hl hv hne hb.conns_eq (fun hm => by rw [hb.scMap_eq]; exact hm) (Nat.le_refl _)
    (by simp) ?_
  have htake := link.work_take (t.server.conns l)
    (read_add_length_arriving_le link.peer.sent k (htidy.upRead_le hl)) hp
  have hsend := lv.work_send (t.server.conns v) (arriving link.peer.sent link.upRead k) hpv
  rw [hempty, List.nil_append]
  dsimp only
  omega

theorem drains_visitor {w : VisitorEnd} (hp : link.peer = .visitor w) :
    Drains (arriving link.peer.sent link.upRead k).length t (t.afterRead s' l link k) := by
  have hmade := hgood.connected hst
  have hpool := hgood.inv.pooled hmade (by simp)
  rcases hgood.visitor_cases hl hp with ⟨hnew, -⟩ | ⟨ch, -, -, hq | ⟨p, ld, d, -, hj⟩⟩
  · exact absurd hnew hst
  · exact drains_keep htidy hl (NServer.step_read_unset hmade hpool hq.handle hs)
  · have hpl : p ≠ l := by
      rintro rfl
      cases hp.symm.trans (hj.data_peer_of hl)
    exact drains_forward htidy hl hgood hst hs hw hj.data_link hpl hj.ends.visitor_handle
      (hgood.forwards_made hj.ends.data_handle) hj.ends.visitor_input (by simp [hp])
      (by simp [hj.data_peer])

/-- The answer to the greeting is paid for in advance. -/
theorem drains_control (hfresh : a.uuid ∉ t.server.drawn) (huuid : IsUuid a.uuid) {c : ControlEnd}
    (hp : link.peer = .control c) :
    Drains (arriving link.peer.sent link.upRead k).length t (t.afterRead s' l link k) := by
  have hmade := hgood.connected hst
  have hpool := hgood.inv.pooled hmade (by simp)
  rcases hgood.control_cases hl hp with hu | ⟨nonce, ch, hch, hctl, hg⟩
  · obtain ⟨args, hvalid, ha | ⟨rest, ha, hrest⟩⟩ := hgood.attempt_ungreeted k hl hp hu
    · exact drains_incomplete htidy hl hgood hst hs (hu.handle hst) ha
    · have hfree : t.server.scMap a.uuid = none := by
        rw [Option.eq_none_iff_forall_ne_some]
        intro ch hch
        exact hfresh (hgood.channel hch).drawn
      obtain ⟨port, hb⟩ := NServer.step_read_controlHello hmade hpool (hu.handle hst) hw hfree ha
        (pb.parseHello_serialize _ hvalid) rfl hs
      have hread := read_add_length_arriving_le link.peer.sent k (htidy.upRead_le hl)
      have hlen := controlHello_length huuid
      have hne : headerInstaller (NServer.controlHello a.uuid).serializeAsString ≠ [] := by
        rw [← List.length_pos_iff, hlen]
        decide
      refine .of_one hl hb.conns_eq (fun {m} hm => ?_) (by simp) ?_
      · rw [hb.scMap_eq]
        by_cases hmu : m = a.uuid
        · rw [hmu, Function.update_self]
          rfl
        · rwa [Function.update_of_ne hmu]
      · rw [hp] at hread
        simp only [Link.work, hp, Link.upUnread, Link.downUnread, hu.sent_eq, hu.client_input,
          hu.downRead_eq, unhandled, List.nil_append, List.drop_zero, hlen, List.length_nil, if_true,
          if_neg hne]
        omega
  · refine drains_incomplete htidy hl hgood hst hs hg.handle ?_
    rw [Good.attempt_greeted k hp hg, attemptBytes_nil]

theorem drains_data {d : DataEnd} (hp : link.peer = .data d) :
    Drains (arriving link.peer.sent link.upRead k).length t (t.afterRead s' l link k) := by
  have hmade := hgood.connected hst
  have hpool := hgood.inv.pooled hmade (by simp)
  have hread := read_add_length_arriving_le link.peer.sent k (htidy.upRead_le hl)
  obtain ⟨ch, hch, hmem, hpend | ⟨v, lv, w, -, hj⟩⟩ := hgood.data_cases hl hp
  · rcases hgood.attempt_pending k hp hpend hch with ha | ⟨rest, ha, -⟩
    · exact drains_incomplete htidy hl hgood hst hs (hpend.handle hst) ha
    · have hok := hgood.channel hch
      obtain ⟨v, others, hwait⟩ := List.exists_cons_of_ne_nil (hgood.queue_ne_nil hpend hch hmem)
      obtain ⟨lv, w, hq⟩ := hok.queued v (by simp [hwait])
      have hvl : v ≠ l := by
        rintro rfl
        cases hp.symm.trans (hq.peer_of hl)
      have hdigest : (DataChannel.dataHello d.channel.nonce).digest = d.channel.nonce := rfl
      obtain ⟨closers, hb⟩ := NServer.step_read_dataHello hmade hpool (hpend.handle hst) hw ha
        (pb.parseHello_serialize _ (Hello.valid_of_isUuid .dataChannelHello hok.isUuid)) rfl hdigest
        hch hwait hvl hs
      have hconns := hb.conns_eq
      rw [Function.update_comm hvl] at hconns
      refine .of_two hl hq.link_eq hvl hconns (fun {m} hm => ?_)
        (by rw [List.append_assoc, List.length_append]; exact Nat.le_add_right _ _)
        (Nat.le_refl _) ?_
      · rw [hb.scMap_eq]
        by_cases hmn : m = d.channel.nonce
        · rw [hmn, Function.update_self]
          rfl
        · rwa [Function.update_of_ne hmn]
      · have hjoin := link.work_join (t.server.conns l) hread hp (hpend.handle hst) rest
          (t.server.conns v).inputBuffer v ⟨d.channel.nonce, a.uuid⟩
        have hflush := lv.work_flush (t.server.conns v) hq.peer_eq l ⟨d.channel.nonce, a.uuid⟩
        unfold startFrame at hjoin
        dsimp only
        omega
  · have hvl : v ≠ l := by
      rintro rfl
      cases hp.symm.trans (hj.visitor_peer_of hl)
    exact drains_forward htidy hl hgood hst hs hw hj.visitor_link hvl hj.ends.data_handle
      (hgood.forwards_made hj.ends.visitor_handle) hj.ends.data_input (by simp [hp])
      (by simp [hj.visitor_peer])

end ServerRead

/-! ## The server accepts -/

theorem setLink_same (hl : t.links l = some link) (s' : NServer) :
    ({ t with server := s' } : Tunnel).setLink l link = { t with server := s' } := by
  have hlinks : Function.update t.links l (some link) = t.links := by
    rw [← hl, Function.update_eq_self]
  rw [setLink, hlinks]

/-- An accepted visitor pays for the command. -/
theorem drains_accept (hgood : t.Good) (htidy : t.Tidy) (hl : t.links l = some link)
    (hnew : (t.server.conns l).state = .connecting) {id : ConnId} {s' : NServer}
    (hs : t.server.step pb (.accept link.peer.server l id (.calm [])) = .ok s') :
    Drains 1 t { t with server := s' } := by
  have hnone := hgood.inv.unmade hnew
  rw [← setLink_same hl s']
  cases hp : link.peer with
  | control c =>
    rw [hp] at hs
    have hb := NServer.step_accept_ncx hnew hs
    refine .of_one hl hb.conns_eq (fun hm => by rw [hb.scMap_eq]; exact hm) (by rw [hnone]; rfl) ?_
    rw [hnone]
    simp [Link.work, hp, Link.downUnread, NServer.newConnection, Connection.none]
  | data d =>
    rw [hp] at hs
    have hb := NServer.step_accept_ncx hnew hs
    refine .of_one hl hb.conns_eq (fun hm => by rw [hb.scMap_eq]; exact hm) (by rw [hnone]; rfl) ?_
    rw [hnone]
    simp [Link.work, hp, Link.downUnread, NServer.newConnection, Connection.none,
      MessageHandle.isForward]
  | visitor w =>
    rw [hp] at hs
    obtain ⟨ch, hch⟩ := Option.isSome_iff_exists.mp (htidy.listener hl hp)
    have hne := hgood.control_ne hch hl (by simp [hp])
    obtain ⟨lc, c, hlc, hpc, hg⟩ := (hgood.channel hch).control
    have hb := NServer.step_accept_proxy (fun _ => rfl) hnew hch hne hs
    refine .of_two hl hlc hne hb.conns_eq (fun {m} hm => ?_) (by rw [hnone]; rfl) (by simp) ?_
    · rw [hb.scMap_eq]
      by_cases hmn : m = w.nonce
      · rw [hmn, Function.update_self]
        rfl
      · rwa [Function.update_of_ne hmn]
    · have hcommand := lc.work_command (t.server.conns ch.ncxClientConn) hpc hg.downRead_le
      have hvisitor : link.work (NServer.newConnection (.proxy w.nonce) id) + 15 * commandLength + 1 =
          link.work .none := by
        simp only [Link.work, hp, Link.downUnread, NServer.newConnection, Connection.none,
          if_true, reduceCtorEq, if_false]
        omega
      rw [hnone]
      dsimp only [Peer.server]
      omega

/-! ## The clients read -/

theorem handleDataIn_toServer (d : DataChannel) (chunk : Bytes) :
    (d.handleDataIn pb chunk).toServer = d.toServer := by
  simp only [DataChannel.handleDataIn, DataChannel.handleMessage]
  cases d.onMessage with
  | forward => simp [DataChannel.forward_eq]
  | waitDataChannelStartCmd =>
    simp only [DataChannel.waitDataChannelStartCmd]
    rcases attemptBytes (d.inputBuffer ++ chunk) with ⟨_ | msg, buf⟩
    · rfl
    · dsimp only
      split
      · simp [DataChannel.doDataChannelTransforward, DataChannel.forward_eq]
      · rfl
      · rfl

theorem handleDataIn_input_le (pb : Protobuf) (c : CControlChannel) (chunk : Bytes) :
    (c.handleDataIn pb chunk).2.inputBuffer.length ≤ (c.inputBuffer ++ chunk).length := by
  have hsuffix : (attemptBytes (c.inputBuffer ++ chunk)).2.length ≤
      (c.inputBuffer ++ chunk).length := by
    obtain ⟨used, hused⟩ := attemptBytes_suffix (c.inputBuffer ++ chunk)
    exact List.IsSuffix.length_le ⟨used, hused.symm⟩
  simp only [CControlChannel.handleDataIn, CControlChannel.handleMessage]
  cases c.onMessage with
  | unset => exact Nat.le_refl _
  | waitControlChannelHello =>
    simp only [CControlChannel.waitControlChannelHello]
    rcases ha : attemptBytes (c.inputBuffer ++ chunk) with ⟨_ | msg, buf⟩
    · rwa [ha] at hsuffix
    · rw [ha] at hsuffix
      dsimp only
      split <;> exact hsuffix
  | waitServerCmd =>
    simp only [CControlChannel.waitServerCmd]
    rcases ha : attemptBytes (c.inputBuffer ++ chunk) with ⟨_ | msg, buf⟩
    · rwa [ha] at hsuffix
    · rw [ha] at hsuffix
      dsimp only
      split <;> exact hsuffix

section ClientRead

variable (htidy : t.Tidy) (hl : t.links l = some link) (k : ℕ)

include htidy hl

theorem drains_dataRead {d : DataEnd} (hp : link.peer = .data d) (l' : Obj) :
    Drains (arriving (t.server.conns l).sent link.downRead k).length t
      (t.clientRead pb l link k l') := by
  have hread := read_add_length_arriving_le _ k (htidy.downRead_le hl)
  simp only [Tunnel.clientRead, hp]
  refine .of_link hl ?_
  simp only [Link.work, hp, Link.upUnread, Link.downUnread, Peer.sent, handleDataIn_toServer,
    Peer.serviceUnread]
  omega

theorem drains_visitorRead {w : VisitorEnd} (hp : link.peer = .visitor w) (l' : Obj) :
    Drains (arriving (t.server.conns l).sent link.downRead k).length t
      (t.clientRead pb l link k l') := by
  have hread := read_add_length_arriving_le _ k (htidy.downRead_le hl)
  simp only [Tunnel.clientRead, hp]
  refine .of_link hl ?_
  simp only [Link.work, hp, Link.upUnread, Link.downUnread, Peer.sent]
  omega

theorem drains_serviceRead {d : DataEnd} (hp : link.peer = .data d) :
    Drains (arriving d.service d.serviceRead k).length t (t.serviceRead l link k) := by
  have hread := read_add_length_arriving_le _ k (htidy.serviceRead_le hl hp)
  simp only [Tunnel.serviceRead, hp]
  refine .of_link hl ?_
  simp only [Link.work, hp, Link.upUnread, Link.downUnread, Peer.sent, Peer.serviceUnread,
    DataChannel.handleServiceIn, List.length_append]
  omega

/-- No command is handled, and no byte comes back. -/
theorem work_controlRead {c : ControlEnd} (hp : link.peer = .control c) {channel : CControlChannel}
    (hchannel : (c.channel.handleDataIn pb (arriving (t.server.conns l).sent link.downRead k)).2 =
      channel) :
    Link.work (t.server.conns l) ⟨.control { c with channel := channel }, link.upRead,
        link.downRead + (arriving (t.server.conns l).sent link.downRead k).length⟩ +
      (arriving (t.server.conns l).sent link.downRead k).length ≤
      link.work (t.server.conns l) := by
  have hread := read_add_length_arriving_le _ k (htidy.downRead_le hl)
  generalize hchunk : arriving (t.server.conns l).sent link.downRead k = chunk at hchannel hread ⊢
  have hinput := handleDataIn_input_le pb c.channel chunk
  have hunhandled : unhandled (c.channel.inputBuffer ++ chunk) (t.server.conns l).sent
      (link.downRead + chunk.length) = _ := hchunk ▸ unhandled_arriving c.channel.inputBuffer _ k
  replace hunhandled := congrArg List.length hunhandled
  rw [hchannel] at hinput
  simp only [Link.work, hp, Link.upUnread, Link.downUnread, Peer.sent]
  simp only [unhandled, List.length_append] at hinput hunhandled ⊢
  omega

end ClientRead

theorem frames_create_length (n : ℕ) :
    (frames (List.replicate n NServer.createDataChannel.serializeAsString)).length =
      commandLength * n := by
  induction n with
  | zero => rfl
  | succ n ih =>
    rw [List.replicate_succ, frames_cons, List.length_append, create_length, ih, Nat.mul_succ,
      Nat.add_comm]

/-- A command that is handled pays for the data channel. -/
theorem work_creates {nonce : Bytes} {ch : SControlChannel} {conn : Connection} {c c' : ControlEnd}
    (huuid : IsUuid nonce) (hp : link.peer = .control c) (hp' : link'.peer = .control c')
    (hg : Greeted nonce ch conn link c) (hg' : Greeted nonce ch conn link' c')
    (hlinks : c'.dataLinks.length = c.dataLinks.length + 1) (hsent : c'.sent = c.sent)
    (hup : link'.upRead = link.upRead) (hdown : link'.downRead = link.downRead + n) :
    link'.work conn + 14 * commandLength + n ≤ link.work conn := by
  have hle := hg'.downRead_le
  have hlength : conn.sent.length = greetingLength + commandLength * ch.accepted.length := by
    rw [hg.sent_eq, controlSent, frames_cons, List.length_append, controlHello_length huuid,
      frames_create_length]
  rcases hg'.client with hw' | hw'
  · rw [hw'.dataLinks_eq] at hlinks
    cases hlinks
  · have hcount := hw'.length_le
    have hleft := congrArg List.length hw'.input
    rw [frames_create_length] at hleft
    simp only [Link.work, hp, hp', Link.upUnread, Link.downUnread, Peer.sent, hsent, hup, hleft]
    rcases hg.client with hw | hw
    · rw [hw.input]
      simp only [commandLength] at *
      omega
    · have hbefore := congrArg List.length hw.input
      rw [frames_create_length] at hbefore
      rw [hbefore]
      simp only [commandLength] at *
      omega

/-- A data channel that has greeted, and is not accepted yet. -/
theorem work_new {nonce : Bytes} (huuid : IsUuid nonce) :
    Link.work .none ⟨.data ⟨.new nonce, [], 0⟩, 0, 0⟩ < 14 * commandLength + 1 := by
  have hsent : (Peer.data ⟨.new nonce, [], 0⟩).sent = dataHelloFrame nonce := rfl
  simp only [Link.work, Link.upUnread, Link.downUnread, hsent, dataHelloFrame_length huuid,
    Peer.serviceUnread, Connection.none, MessageHandle.isForward]
  decide

/-- The control channel takes a command and makes a data channel of it. -/
theorem drains_creates (hgood : t.Good) (hl : t.links l = some link) {c : ControlEnd}
    (hp : link.peer = .control c) {l' : Obj} (hl' : t.links l' = none) {nonce : Bytes}
    {channel : CControlChannel} {lc : Link}
    (hpc : lc.peer = .control { c with channel := channel, dataLinks := c.dataLinks ++ [l'] })
    (hup : lc.upRead = link.upRead) (hdown : lc.downRead = link.downRead + n)
    (hgood' : ((t.setLink l lc).setLink l' ⟨.data ⟨.new nonce, [], 0⟩, 0, 0⟩).Good) :
    Drains n t ((t.setLink l lc).setLink l' ⟨.data ⟨.new nonce, [], 0⟩, 0, 0⟩) := by
  have hne : l ≠ l' := by
    rintro rfl
    cases hl.symm.trans hl'
  generalize ht' : (t.setLink l lc).setLink l' ⟨.data ⟨.new nonce, [], 0⟩, 0, 0⟩ = t' at hgood' ⊢
  have hserver : t'.server = t.server := by rw [← ht']; rfl
  have hself : t'.links l = some lc := by rw [← ht', setLink_of_ne _ hne, setLink_self]
  have hself' : t'.links l' = some ⟨.data ⟨.new nonce, [], 0⟩, 0, 0⟩ := by rw [← ht', setLink_self]
  obtain ⟨ch, hch, -⟩ := hgood'.data_cases hself' rfl
  have huuid : IsUuid nonce := (hgood'.channel hch).isUuid
  have hnew := work_new huuid
  have hnone : t.server.conns l' = .none := by
    refine hgood.inv.unmade ((hgood.made l').resolve_right fun hm => ?_)
    rw [hl'] at hm
    cases hm.2
  have hwork : lc.work (t.server.conns l) + 14 * commandLength + n ≤
      link.work (t.server.conns l) := by
    rcases hgood'.control_cases hself hpc with hu | ⟨m, ch', hch', hctl, hg'⟩
    · exact absurd hu.dataLinks_eq (by simp)
    · rw [hserver] at hch' hg'
      obtain ⟨c', hp', hg⟩ := (hgood.channel hch').greeted (hctl ▸ hl)
      rw [hp, Peer.control.injEq] at hp'
      rw [hctl, ← hp'] at hg
      exact work_creates (hgood.channel hch').isUuid hp hpc hg hg' (by simp) rfl hup hdown
  refine ⟨⟨{l, l'}, fun p hpT => ?_, ?_⟩, fun p => by rw [hserver], fun hm => by rwa [hserver]⟩
  · simp only [Finset.mem_insert, Finset.mem_singleton, not_or] at hpT
    refine ⟨?_, by rw [hserver]⟩
    rw [← ht', setLink_of_ne _ hpT.2, setLink_of_ne _ hpT.1]
  · rw [Finset.sum_pair hne, Finset.sum_pair hne, workAt_of_some hl, workAt_of_none hl',
      workAt_of_some hself, workAt_of_some hself', hserver, hnone]
    omega

theorem drains_controlRead (hgood : t.Good) (htidy : t.Tidy) (hl : t.links l = some link) (k : ℕ)
    {c : ControlEnd} (hp : link.peer = .control c) {l' : Obj} (hl' : t.links l' = none) :
    Drains (arriving (t.server.conns l).sent link.downRead k).length t
      (t.clientRead pb l link k l') := by
  have hgood' : (t.clientRead pb l link k l').Good := hgood.clientRead hl k l'
  simp only [Tunnel.clientRead, hp, hl', Option.isSome_none, Bool.false_eq_true, if_false,
    Tunnel.controlRead] at hgood' ⊢
  rcases hout : c.channel.handleDataIn pb (arriving (t.server.conns l).sent link.downRead k) with
    ⟨_ | nonce, channel⟩
  · exact .of_link hl (work_controlRead htidy hl k hp (by rw [hout]))
  · simp only [hout] at hgood'
    exact drains_creates hgood hl hp hl' rfl rfl rfl hgood'

end Tunnel

end NcxTunnel
