import NcxTunnel.Transparency

/-!
# Visitors and data channels

A handler that waits for its first message has tried with every byte that is in its
buffer.  So a greeting that has been read to its end has been handled, and its data
channel is bridged.
-/

namespace NcxTunnel

open Streams

variable {pb : Protobuf}

/-- No message is complete. -/
def Tried (q : Bytes) : Prop := (attemptBytes q).1 = none

theorem tried_nil : Tried [] := by simp [Tried]

theorem tried_of_eq {q rest : Bytes} (h : attemptBytes q = (none, rest)) : Tried q := by
  rw [Tried, h]

theorem Frameable.not_tried {p : Bytes} (h : Frameable p) (rest : Bytes) :
    ¬Tried (headerInstaller p ++ rest) := by
  rw [Tried, h.attemptBytes_frame]
  exact Option.some_ne_none p

/-- The client has tried while it waits for the first message of the server. -/
def Peer.Tried : Peer → Prop
  | control c =>
      c.channel.onMessage = .waitControlChannelHello → NcxTunnel.Tried c.channel.inputBuffer
  | data d =>
      d.channel.onMessage = .waitDataChannelStartCmd → NcxTunnel.Tried d.channel.inputBuffer
  | visitor _ => True

/-- The server has tried on every connection that has not been bridged. -/
def ConnsTried (conns : Obj → Connection) : Prop :=
  ∀ l, (conns l).onMessage = .handleNewConnection → Tried (conns l).inputBuffer

theorem ConnsTried.update {conns : Obj → Connection} (h : ConnsTried conns) {l : Obj}
    {c : Connection} (hc : c.onMessage = .handleNewConnection → Tried c.inputBuffer) :
    ConnsTried (Function.update conns l c) := by
  intro p hp
  by_cases hpl : p = l
  · subst hpl
    rw [Function.update_self] at hp ⊢
    exact hc hp
  · rw [Function.update_of_ne hpl] at hp ⊢
    exact h p hp

namespace Tunnel

variable {t t' : Tunnel} {l : Obj} {link : Link}

structure AllTried (t : Tunnel) : Prop where
  server : ConnsTried t.server.conns
  client : ∀ {l link}, t.links l = some link → link.peer.Tried

theorem new_allTried (port : UInt16) : (new port).AllTried where
  server _ h := nomatch h
  client h := nomatch h

theorem AllTried.setLink (h : t.AllTried) {link' : Link} (hp : link'.peer.Tried) :
    (t.setLink l link').AllTried where
  server := h.server
  client {p lk} hlk := by
    by_cases hpl : p = l
    · subst hpl
      rw [setLink_self, Option.some.injEq] at hlk
      exact hlk ▸ hp
    · rw [setLink_of_ne t hpl] at hlk
      exact h.client hlk

theorem AllTried.withServer (h : t.AllTried) {s' : NServer} (hs : ConnsTried s'.conns) :
    { t with server := s' }.AllTried where
  server := hs
  client hl := h.client hl

/-! ## Every action keeps it -/

theorem AllTried.accept (h : t.AllTried) (hgood : t.Good) (hl : t.links l = some link)
    {id : ConnId} (ht' : t.accept pb l link id = .ok t') : t'.AllTried := by
  obtain ⟨s', hs, rfl⟩ := Good.accept_ok ht'
  refine h.withServer ?_
  have hnew : ∀ srv, Tried (NServer.newConnection srv id).inputBuffer := fun _ => tried_nil
  by_cases hst : (t.server.conns l).state = .connecting
  · cases hp : link.peer with
    | control c =>
      rw [hp] at hs
      rw [(NServer.step_accept_ncx hst hs).conns_eq]
      exact h.server.update fun _ => hnew _
    | data d =>
      rw [hp] at hs
      rw [(NServer.step_accept_ncx hst hs).conns_eq]
      exact h.server.update fun _ => hnew _
    | visitor w =>
      rw [hp] at hs
      cases hch : t.server.scMap w.nonce with
      | none =>
        rw [Peer.server, NServer.step_accept_deaf hch, Except.ok.injEq] at hs
        exact hs ▸ h.server
      | some ch =>
        have hne := hgood.control_ne hch hl (by simp [hp])
        rw [(NServer.step_accept_proxy (fun _ => rfl) hst hch hne hs).conns_eq]
        exact (h.server.update fun _ => hnew _).update (h.server ch.ncxClientConn)
  · rw [NServer.step_accept_again hst, Except.ok.injEq] at hs
    exact hs ▸ h.server

section ServerRead

variable {k : ℕ} {a : Answers} {s' : NServer} (hgood : t.Good) (hl : t.links l = some link)
  (hst : (t.server.conns l).state ≠ .connecting)
  (hs : t.server.step pb (readEvent l link k a) = .ok s') (hw : ∀ n, a.writeFails n = false)

include hgood hst hs

/-- Nothing but the buffer changes, and the handler has tried with what is in it now. -/
theorem AllTried.read_incomplete (h : t.AllTried)
    (hhandle : (t.server.conns l).onMessage = .handleNewConnection)
    (ha : attemptBytes ((t.server.conns l).inputBuffer ++ arriving link.peer.sent link.upRead k) =
      (none, (t.server.conns l).inputBuffer ++ arriving link.peer.sent link.upRead k)) :
    ConnsTried s'.conns := by
  have hmade := hgood.connected hst
  have hpool := hgood.inv.pooled hmade (by simp)
  rw [(NServer.step_read_incomplete hmade hpool hhandle ha hs).conns_eq]
  exact h.server.update fun _ => tried_of_eq ha

include hw

/-- An end of a bridge is not waiting for a message. -/
theorem AllTried.read_forward (h : t.AllTried) {p : Obj} (hpl : p ≠ l)
    (hf : (t.server.conns l).onMessage = .forward p)
    (hp : (t.server.conns p).state ≠ .connecting) : ConnsTried s'.conns := by
  have hmade := hgood.connected hst
  have hpool := hgood.inv.pooled hmade (by simp)
  have hpool' := hgood.inv.pooled (hgood.connected hp) (by simp)
  rw [(NServer.step_read_forward hmade hpool hw hpl hf hpool' hs).conns_eq]
  refine ConnsTried.update (h.server.update fun hc => ?_) (h.server p)
  cases hf.symm.trans hc

include hl

theorem AllTried.read_visitor (h : t.AllTried) {w : VisitorEnd} (hp : link.peer = .visitor w) :
    ConnsTried s'.conns := by
  have hmade := hgood.connected hst
  have hpool := hgood.inv.pooled hmade (by simp)
  rcases hgood.visitor_cases hl hp with ⟨hnew, -⟩ | ⟨ch, -, -, hq | ⟨p, ld, d, -, hj⟩⟩
  · exact absurd hnew hst
  · rw [(NServer.step_read_unset hmade hpool hq.handle hs).conns_eq]
    refine h.server.update fun hc => ?_
    cases hq.handle.symm.trans hc
  · have hpl : p ≠ l := by
      rintro rfl
      cases hp.symm.trans (hj.data_peer_of hl)
    exact h.read_forward hgood hst hs hw hpl hj.ends.visitor_handle
      (hgood.forwards_made hj.ends.data_handle)

theorem AllTried.read_control (h : t.AllTried) (hfresh : a.uuid ∉ t.server.drawn) {c : ControlEnd}
    (hp : link.peer = .control c) : ConnsTried s'.conns := by
  have hmade := hgood.connected hst
  have hpool := hgood.inv.pooled hmade (by simp)
  rcases hgood.control_cases hl hp with hu | ⟨nonce, ch, hch, hctl, hg⟩
  · obtain ⟨args, hvalid, ha | ⟨rest, ha, hrest⟩⟩ := hgood.attempt_ungreeted k hl hp hu
    · exact h.read_incomplete hgood hst hs (hu.handle hst) ha
    · have hfree : t.server.scMap a.uuid = none := by
        rw [Option.eq_none_iff_forall_ne_some]
        intro ch hch
        exact hfresh (hgood.channel hch).drawn
      obtain ⟨port, hb⟩ := NServer.step_read_controlHello hmade hpool (hu.handle hst) hw hfree ha
        (pb.parseHello_serialize _ hvalid) rfl hs
      -- the greeting is all the client sends, so nothing is left behind it
      rw [hb.conns_eq, (List.append_eq_nil_iff.mp hrest).1]
      exact h.server.update fun _ => tried_nil
  · refine h.read_incomplete hgood hst hs hg.handle ?_
    rw [Good.attempt_greeted k hp hg, attemptBytes_nil]

theorem AllTried.read_data (h : t.AllTried) {d : DataEnd} (hp : link.peer = .data d) :
    ConnsTried s'.conns := by
  have hmade := hgood.connected hst
  have hpool := hgood.inv.pooled hmade (by simp)
  obtain ⟨ch, hch, hmem, hpend | ⟨v, lv, w, hb, hj⟩⟩ := hgood.data_cases hl hp
  · rcases hgood.attempt_pending k hp hpend hch with ha | ⟨rest, ha, hrest⟩
    · exact h.read_incomplete hgood hst hs (hpend.handle hst) ha
    · have hok := hgood.channel hch
      obtain ⟨v, others, hwait⟩ := List.exists_cons_of_ne_nil (hgood.queue_ne_nil hpend hch hmem)
      obtain ⟨lv, w, hq⟩ := hok.queued v (by simp [hwait])
      have hvl : v ≠ l := by
        rintro rfl
        cases hp.symm.trans (hq.peer_of hl)
      have hdigest : (DataChannel.dataHello d.channel.nonce).digest = d.channel.nonce := rfl
      obtain ⟨closers, hb⟩ := NServer.step_read_dataHello hmade hpool (hpend.handle hst) hw ha
        (pb.parseHello_serialize _ (Hello.valid_of_isUuid .dataChannelHello hok.isUuid)) rfl hdigest
        hch hwait hvl hs
      -- both ends forward from now on
      rw [hb.conns_eq]
      refine ConnsTried.update (h.server.update ?_) ?_
      · rintro ⟨⟩
      · rintro ⟨⟩
  · have hvl : v ≠ l := by
      rintro rfl
      cases hp.symm.trans (hj.visitor_peer_of hl)
    exact h.read_forward hgood hst hs hw hvl hj.ends.data_handle
      (hgood.forwards_made hj.ends.visitor_handle)

end ServerRead

theorem AllTried.serverRead (h : t.AllTried) (hgood : t.Good) (hl : t.links l = some link)
    (hst : (t.server.conns l).state ≠ .connecting) {k : ℕ} {a : Answers}
    (hw : ∀ n, a.writeFails n = false) (hfresh : a.uuid ∉ t.server.drawn)
    (ht' : t.serverRead pb l link k a = .ok t') : t'.AllTried := by
  obtain ⟨s', hs, rfl⟩ := Good.serverRead_ok ht'
  have hclient := h.client hl
  refine AllTried.setLink (h.withServer ?_) hclient
  cases hp : link.peer with
  | control c => exact h.read_control hgood hl hst hs hw hfresh hp
  | data d => exact h.read_data hgood hl hst hs hw hp
  | visitor w => exact h.read_visitor hgood hl hst hs hw hp

/-- A data channel that still waits for START has tried. -/
theorem AllTried.dataRead (h : t.AllTried) (hgood : t.Good) (hl : t.links l = some link)
    {d : DataEnd} (hp : link.peer = .data d) (k : ℕ) (l' : Obj) :
    (t.clientRead pb l link k l').AllTried := by
  unfold Tunnel.clientRead
  simp only [hp]
  generalize hchunk : arriving (t.server.conns l).sent link.downRead k = chunk
  refine h.setLink ?_
  intro hwaiting
  change (d.channel.handleDataIn pb chunk).onMessage = _ at hwaiting
  change NcxTunnel.Tried (d.channel.handleDataIn pb chunk).inputBuffer
  obtain ⟨ch, hch, -, hpend | ⟨v, lv, w, hb, hj⟩⟩ := hgood.data_cases hl hp
  · have hin : d.channel.inputBuffer ++ chunk = [] := by
      rw [hpend.client_input, ← hchunk, hpend.sent_eq, arriving_nil, List.append_nil]
    rw [DataChannel.handleDataIn_incomplete hpend.waiting (by rw [hin, attemptBytes_nil])]
    change NcxTunnel.Tried (d.channel.inputBuffer ++ chunk)
    rw [hin]
    exact tried_nil
  · have he := hj.ends
    rcases he.client with hwait | hfwd
    · have hstream : unhandled (d.channel.inputBuffer ++ chunk) (t.server.conns l).sent
          (link.downRead + chunk.length) = _ :=
        (hchunk ▸ unhandled_arriving _ _ k).trans (hwait.input.trans he.data_sent)
      rcases frameable_start.attemptBytes_split hstream with ⟨ha, -⟩ | ⟨rest, ha, -⟩
      · rw [DataChannel.handleDataIn_incomplete hwait.waiting ha]
        exact tried_of_eq ha
      · rw [DataChannel.handleDataIn_start hwait.waiting ha] at hwaiting
        cases hwaiting
    · rw [DataChannel.handleDataIn_forward hfwd.forwards] at hwaiting
      cases hfwd.forwards.symm.trans hwaiting

/-- A control channel that takes commands goes on doing so. -/
theorem handleDataIn_waitServerCmd {c : CControlChannel} (h : c.onMessage = .waitServerCmd)
    (chunk : Bytes) : (c.handleDataIn pb chunk).2.onMessage = .waitServerCmd := by
  simp only [CControlChannel.handleDataIn, CControlChannel.handleMessage, h,
    CControlChannel.waitServerCmd]
  rcases attemptBytes (c.inputBuffer ++ chunk) with ⟨_ | msg, buf⟩
  · rfl
  · dsimp only
    split <;> rfl

/-- A control channel that still waits for the greeting of the server has tried. -/
theorem AllTried.controlRead (h : t.AllTried) (hgood : t.Good) (hl : t.links l = some link)
    {c : ControlEnd} (hp : link.peer = .control c) (k : ℕ) (l' : Obj) :
    (t.controlRead pb l link c (arriving (t.server.conns l).sent link.downRead k) l').AllTried := by
  generalize hchunk : arriving (t.server.conns l).sent link.downRead k = chunk
  have htried : (c.channel.handleDataIn pb chunk).2.onMessage = .waitControlChannelHello →
      NcxTunnel.Tried (c.channel.handleDataIn pb chunk).2.inputBuffer := by
    intro hwaiting
    rcases hgood.control_cases hl hp with hu | ⟨nonce, ch, hch, hctl, hg⟩
    · have hin : c.channel.inputBuffer ++ chunk = [] := by
        rw [hu.client_input, ← hchunk, hu.sent_eq, arriving_nil, List.append_nil]
      rw [CControlChannel.handleDataIn_incomplete (.inl hu.waiting) (by rw [hin, attemptBytes_nil])]
      change NcxTunnel.Tried (c.channel.inputBuffer ++ chunk)
      rw [hin]
      exact tried_nil
    · have hun : ∀ buf, unhandled (buf ++ chunk) (t.server.conns l).sent
          (link.downRead + chunk.length) = unhandled buf (t.server.conns l).sent link.downRead :=
        fun buf => hchunk ▸ unhandled_arriving buf _ k
      have huuid := (hgood.channel hch).isUuid
      rcases hg.client with hwait | hwait
      · have hstream := (hun _).trans (hwait.input.trans hg.sent_eq)
        rw [controlSent, frames_cons] at hstream
        rcases (frameable_controlHello huuid).attemptBytes_split hstream with
          ⟨ha, -⟩ | ⟨rest, ha, -⟩
        · rw [CControlChannel.handleDataIn_incomplete (.inl hwait.waiting) ha]
          exact tried_of_eq ha
        · rw [CControlChannel.handleDataIn_hello hwait.waiting huuid ha] at hwaiting
          cases hwaiting
      · cases (handleDataIn_waitServerCmd hwait.waiting chunk).symm.trans hwaiting
  unfold Tunnel.controlRead
  rcases hout : c.channel.handleDataIn pb chunk with ⟨_ | nonce, channel⟩
  · rw [hout] at htried
    exact h.setLink htried
  · rw [hout] at htried
    have hcontrol : (Peer.control { c with
        channel := channel, dataLinks := c.dataLinks ++ [l'] }).Tried := htried
    exact AllTried.setLink (h.setLink hcontrol) fun _ => tried_nil

theorem AllTried.clientRead (h : t.AllTried) (hgood : t.Good) (hl : t.links l = some link) (k : ℕ)
    (l' : Obj) : (t.clientRead pb l link k l').AllTried := by
  cases hp : link.peer with
  | data d => exact h.dataRead hgood hl hp k l'
  | visitor w =>
    simp only [Tunnel.clientRead, hp]
    exact h.setLink trivial
  | control c =>
    simp only [Tunnel.clientRead, hp]
    split
    · exact h
    · exact h.controlRead hgood hl hp k l'

theorem AllTried.visitorSend (h : t.AllTried) (l : Obj) (link : Link) (data : Bytes) :
    (t.visitorSend l link data).AllTried := by
  unfold Tunnel.visitorSend
  cases hp : link.peer with
  | control c => exact h
  | data d => exact h
  | visitor w => exact h.setLink trivial

theorem AllTried.serviceSend (h : t.AllTried) (hl : t.links l = some link) (data : Bytes) :
    (t.serviceSend l link data).AllTried := by
  unfold Tunnel.serviceSend
  have hclient := h.client hl
  cases hp : link.peer with
  | control c => exact h
  | visitor w => exact h
  | data d =>
    rw [hp] at hclient
    dsimp only
    split
    · exact AllTried.setLink h hclient
    · exact h

theorem AllTried.serviceRead (h : t.AllTried) (hl : t.links l = some link) (k : ℕ) :
    (t.serviceRead l link k).AllTried := by
  unfold Tunnel.serviceRead
  have hclient := h.client hl
  cases hp : link.peer with
  | control c => exact h
  | visitor w => exact h
  | data d =>
    rw [hp] at hclient
    exact AllTried.setLink h hclient

theorem AllTried.step (h : t.AllTried) (hgood : t.Good) {act : Action} (hact : t.Granted act)
    (ht' : t.step pb act = .ok t') : t'.AllTried := by
  cases step_does ht' with
  | nothing => exact h
  | openControl hl id args => exact h.setLink fun _ => tried_nil
  | openVisitor hl hlistens => exact h.setLink trivial
  | accept hl hok => exact h.accept hgood hl hok
  | visitorSend hl data => exact h.visitorSend _ _ data
  | serviceSend hl data => exact h.serviceSend hl data
  | serverRead hl hst hok => exact h.serverRead hgood hl hst (fun _ => rfl) hact.2 hok
  | clientRead hl k l' => exact h.clientRead hgood hl k l'
  | serviceRead hl k => exact h.serviceRead hl k

theorem Reachable.allTried {port : UInt16} (h : Reachable pb port t) : t.AllTried := by
  have hboth : t.Good ∧ t.AllTried :=
    h.invariant (fun t => t.Good ∧ t.AllTried) ⟨new_good port, new_allTried port⟩
      fun _ _ _ hs hact ht' => ⟨hs.1.step hact ht', hs.2.step hs.1 hact ht'⟩
  exact hboth.2

/-- Some of a greeting that is not handled is still on its way. -/
theorem AllTried.upRead_lt (h : t.AllTried) (hgood : t.Good) {d : DataEnd} {ch : SControlChannel}
    (hch : t.server.scMap d.channel.nonce = some ch) (hpend : Pending (t.server.conns l) link d) :
    link.upRead < d.channel.toServer.length := by
  by_contra hread
  have hbuf := hpend.input
  rw [unhandled, List.drop_of_length_le (by omega), List.append_nil, hpend.toServer_eq] at hbuf
  have htried : Tried (t.server.conns l).inputBuffer := by
    by_cases hst : (t.server.conns l).state = .connecting
    · rw [hgood.inv.unmade hst]
      exact tried_nil
    · exact h.server l (hpend.handle hst)
  refine (frameable_dataHello (hgood.channel hch).isUuid).not_tried [] ?_
  rwa [List.append_nil, ← dataHelloFrame, ← hbuf]

theorem AllTried.bridged (h : t.AllTried) (hgood : t.Good) (hl : t.links l = some link)
    {d : DataEnd} (hp : link.peer = .data d)
    (hread : (dataHelloFrame d.channel.nonce).length ≤ link.upRead) :
    ∃ ch v, t.server.scMap d.channel.nonce = some ch ∧ (v, l) ∈ ch.bridged := by
  obtain ⟨ch, hch, -, hpend | ⟨v, lv, w, hb, -⟩⟩ := hgood.data_cases hl hp
  · have hlt := h.upRead_lt hgood hch hpend
    rw [hpend.toServer_eq] at hlt
    omega
  · exact ⟨ch, v, hch, hb⟩

/-- For every number of control channels and every order of steps: the greeting of
a data channel names a channel with a waiting visitor; the visitors of a channel
are bridged in the order in which they were accepted, each once and with a data
channel of its own client, and every data channel whose greeting has been read is
bridged; and the queue is as long as the commands that the client has not handled and
the greetings that the server has not handled. -/
theorem visitors_matched (pb : Protobuf) (port : UInt16) (t : Tunnel) (h : Reachable pb port t) :
    (∀ l link k hello, t.links l = some link → t.greeting pb l link k = some hello →
      hello.helloType = .dataChannelHello →
      ∃ ch, t.server.scMap hello.digest = some ch ∧ ch.waitHandleVisitors ≠ []) ∧
    (∀ act f, t.step pb act = .error f → f = .exit) ∧
    ∀ nonce ch, t.server.scMap nonce = some ch →
      ch.bridged.map Prod.fst <+: ch.accepted ∧ ch.accepted.Nodup ∧
      (∀ v l, (v, l) ∈ ch.bridged → t.IsVisitor nonce v ∧ t.IsData nonce l ∧
        l ∈ t.dataLinks ch.ncxClientConn ∧ (t.server.conns v).onMessage = .forward l ∧
        (t.server.conns l).onMessage = .forward v) ∧
      (∀ l link d, t.links l = some link → link.peer = .data d → d.channel.nonce = nonce →
        (dataHelloFrame nonce).length ≤ link.upRead → ∃ v, (v, l) ∈ ch.bridged) ∧
      ∃ created, (t.server.conns ch.ncxClientConn).sent = controlSent nonce created ∧
        (t.dataLinks ch.ncxClientConn).length ≤ created ∧
        ch.waitHandleVisitors.length = (created - (t.dataLinks ch.ncxClientConn).length) +
          (t.dataLinks ch.ncxClientConn).countP fun l => !t.helloHandled l := by
  have hgood := h.good
  refine ⟨fun l link k hello hl hg ht => hgood.greeting_data hl hg ht,
    fun act f hf => hgood.step_error hf, fun nonce ch hch => ?_⟩
  have hok := hgood.channel hch
  obtain ⟨lc, c, hlc, hpc, hg⟩ := hok.control
  refine ⟨⟨_, hok.accepted_eq.symm⟩, hok.accepted_nodup, fun v l hmem => ?_,
    fun l link d hl hp hnonce hread => ?_, ch.accepted.length, hg.sent_eq, hgood.queue_length hch⟩
  · obtain ⟨lv, ld, w, d, hj⟩ := hok.joined _ hmem
    have hlinks : l ∈ t.dataLinks ch.ncxClientConn :=
      mem_dataLinks.mpr ⟨lc, c, hlc, hpc, hg.bridged_sub (List.mem_map.mpr ⟨_, hmem, rfl⟩)⟩
    exact ⟨⟨lv, w, hj.visitor_link, hj.visitor_peer, hj.visitor_nonce⟩, hok.isData l hlinks, hlinks,
      hj.ends.visitor_handle, hj.ends.data_handle⟩
  · obtain ⟨ch', v, hch', hmem⟩ := h.allTried.bridged hgood hl hp (hnonce ▸ hread)
    rw [hnonce, hch, Option.some.injEq] at hch'
    exact ⟨v, hch' ▸ hmem⟩

/-- The data channel has been accepted and its greeting is on the way. -/
theorem visitors_matched_greeting :
    ∃ link ch, (exampleState 10).links 2 = some link ∧
      (exampleState 10).greeting .wire 2 link 99 =
        some ⟨some .dataChannelHello, some exampleNonce, none⟩ ∧
      (exampleState 10).server.scMap exampleNonce = some ch ∧ ch.waitHandleVisitors ≠ [] := by
  have hgreet : ((exampleState 10).links 2).bind
      (fun link => (exampleState 10).greeting .wire 2 link 99) =
        some ⟨some .dataChannelHello, some exampleNonce, none⟩ := by
    decide +kernel
  obtain ⟨link, hl, hg⟩ := Option.bind_eq_some_iff.mp hgreet
  have hall := visitors_matched .wire 8080 (exampleState 10) (exampleState_reachable 10)
  obtain ⟨ch, hch, hq⟩ := hall.1 2 link 99 _ hl hg rfl
  simp only [Hello.digest, Option.getD_some] at hch
  exact ⟨link, ch, hl, hg, hch, hq⟩

end Tunnel

end NcxTunnel
