import NcxTunnel.Matching

/-!
# When everything has been read

Once all bytes sent have been read no greeting and no START is left over; what can
be left is a command of the server, because a control channel takes one command at
most each time it reads.
-/

namespace NcxTunnel

open Streams

variable {pb : Protobuf}

/-- What the data channel has not read from its service. -/
def Peer.serviceUnread : Peer → ℕ
  | .control _ => 0
  | .data d => d.service.length - d.serviceRead
  | .visitor _ => 0

namespace Tunnel

variable {t t' : Tunnel} {l : Obj} {link : Link}

/-- Every link is accepted, and everything that was sent has been read. -/
def Quiescent (t : Tunnel) : Prop :=
  ∀ l, ∀ link ∈ t.links l, (t.server.conns l).state ≠ .connecting ∧
    link.upRead = link.peer.sent.length ∧ link.downRead = (t.server.conns l).sent.length ∧
    link.peer.serviceUnread = 0

/-- The visitor and the service behind the data channel have received each other's bytes. -/
def Delivered (t : Tunnel) (v l : Obj) : Prop :=
  ∃ lv w ld d, t.links v = some lv ∧ lv.peer = .visitor w ∧ t.links l = some ld ∧
    ld.peer = .data d ∧ d.channel.onMessage = .forward ∧ d.channel.toService = w.sent ∧
    (t.server.conns v).sent = d.service

namespace Quiescent

variable (hq : t.Quiescent) (hgood : t.Good) (htried : t.AllTried) (hl : t.links l = some link)

include hq htried hl

/-- No START is left over, and behind it everything has been delivered. -/
theorem delivered {d : DataEnd} (hp : link.peer = .data d) {nonce : Bytes} {v : Obj} {lv : Link}
    {w : VisitorEnd} (hj : t.Joined nonce v l lv link w d) : t.Delivered v l := by
  obtain ⟨-, hup, hdown, hservice⟩ := hq l link hl
  obtain ⟨-, hupv, -⟩ := hq v lv hj.visitor_link
  have he := hj.ends
  rw [hp] at hup hservice
  have hread : d.serviceRead = d.service.length :=
    Nat.le_antisymm he.serviceRead_le (Nat.le_of_sub_eq_zero hservice)
  rw [hj.visitor_peer] at hupv
  have hquiet : Quiet (t.server.conns l) lv link w d := ⟨hupv, hdown, hread, hup⟩
  have hforward : d.channel.onMessage = .forward := by
    rcases he.client with hw | hf
    · have hbuf := hw.input
      rw [hdown, unhandled_length, he.data_sent] at hbuf
      have hclient := htried.client hl
      rw [hp] at hclient
      have hinput := hclient hw.waiting
      rw [hbuf] at hinput
      exact absurd hinput (frameable_start.not_tried _)
    · exact hf.forwards
  obtain ⟨hto, hfrom⟩ := he.eq_of_quiet hforward hquiet
  exact ⟨lv, w, link, d, hj.visitor_link, hj.visitor_peer, hl, hp, hforward, hto, hfrom⟩

include hgood

/-- No greeting of a control channel is left over. -/
theorem greeted {c : ControlEnd} (hp : link.peer = .control c) :
    ∃ nonce ch, t.server.scMap nonce = some ch ∧ ch.ncxClientConn = l ∧
      Greeted nonce ch (t.server.conns l) link c := by
  refine (hgood.control_cases hl hp).resolve_left fun hu => ?_
  obtain ⟨hst, hup, -⟩ := hq l link hl
  have hlink := hgood.link hl
  simp only [LinkOk, hp] at hlink
  obtain ⟨⟨args, hvalid, hhello⟩, -⟩ := hlink
  have hsent : link.peer.sent = c.sent := by rw [hp]; rfl
  have hbuf := hu.input
  rw [hup, hsent, unhandled_length, hhello] at hbuf
  refine (hvalid.frameable rfl).not_tried [] ?_
  rw [List.append_nil, ← hbuf]
  exact htried.server l (hu.handle hst)

/-- No greeting of a data channel is left over. -/
theorem joined {d : DataEnd} (hp : link.peer = .data d) :
    ∃ ch v lv w, t.server.scMap d.channel.nonce = some ch ∧ (v, l) ∈ ch.bridged ∧
      t.Joined d.channel.nonce v l lv link w d := by
  obtain ⟨ch, hch, -, hpend | ⟨v, lv, w, hb, hj⟩⟩ := hgood.data_cases hl hp
  · obtain ⟨-, hup, -⟩ := hq l link hl
    have hsent : link.peer.sent = d.channel.toServer := by rw [hp]; rfl
    rw [hsent] at hup
    exact absurd hup (htried.upRead_lt hgood hch hpend).ne
  · exact ⟨ch, v, lv, w, hch, hb, hj⟩

/-- The commands that are left over wait in the buffer of the control channel. -/
theorem commands {c : ControlEnd} (hp : link.peer = .control c) {nonce : Bytes}
    {ch : SControlChannel} (hch : t.server.scMap nonce = some ch)
    (hg : Greeted nonce ch (t.server.conns l) link c) :
    c.channel.onMessage = .waitServerCmd ∧ c.channel.id = nonce ∧
      c.channel.inputBuffer = frames (List.replicate (ch.accepted.length - c.dataLinks.length)
        NServer.createDataChannel.serializeAsString) := by
  obtain ⟨-, -, hdown, -⟩ := hq l link hl
  rcases hg.client with hw | hw
  · have hbuf := hw.input
    rw [hdown, unhandled_length, hg.sent_eq, controlSent, frames_cons] at hbuf
    have hclient := htried.client hl
    rw [hp] at hclient
    have hinput := hclient hw.waiting
    rw [hbuf] at hinput
    exact absurd hinput ((frameable_controlHello (hgood.channel hch).isUuid).not_tried _)
  · have hbuf := hw.input
    rw [hdown, unhandled_length] at hbuf
    exact ⟨hw.waiting, hw.id_eq, hbuf⟩

end Quiescent

/-- What a link is to the server, once it has handled the greeting. -/
def Served (t : Tunnel) (l : Obj) : Peer → Prop
  | .control _ => ∃ nonce ch, t.server.scMap nonce = some ch ∧ ch.ncxClientConn = l
  | .data d => ∃ ch v, t.server.scMap d.channel.nonce = some ch ∧ (v, l) ∈ ch.bridged
  | .visitor w => ∃ ch, t.server.scMap w.nonce = some ch ∧
      (l ∈ ch.waitHandleVisitors ∨ ∃ p, (l, p) ∈ ch.bridged)

/-- However a state was reached in which everything has been read: every control
channel is registered and every data channel bridged; every bridged pair has
received all of each other's bytes; and the visitors that still wait are as many as
the commands that lie, in the buffer of the client, behind those it has taken. -/
theorem quiescent_delivered (pb : Protobuf) (port : UInt16) (t : Tunnel)
    (h : Reachable pb port t) (hq : t.Quiescent) :
    (∀ l link, t.links l = some link → t.Served l link.peer) ∧
    ∀ nonce ch, t.server.scMap nonce = some ch →
      (∀ v l, (v, l) ∈ ch.bridged → t.Delivered v l) ∧
      (∀ l ∈ t.dataLinks ch.ncxClientConn, l ∈ ch.bridged.map Prod.snd) ∧
      ∃ link c, t.links ch.ncxClientConn = some link ∧ link.peer = .control c ∧
        c.channel.onMessage = .waitServerCmd ∧ c.channel.id = nonce ∧
        c.channel.inputBuffer = frames (List.replicate ch.waitHandleVisitors.length
          NServer.createDataChannel.serializeAsString) := by
  have hgood := h.good
  have htried := h.allTried
  constructor
  · intro l link hl
    cases hp : link.peer with
    | control c =>
      obtain ⟨nonce, ch, hch, hctl, -⟩ := hq.greeted hgood htried hl hp
      exact ⟨nonce, ch, hch, hctl⟩
    | data d =>
      obtain ⟨ch, v, lv, w, hch, hb, -⟩ := hq.joined hgood htried hl hp
      exact ⟨ch, v, hch, hb⟩
    | visitor w =>
      rcases hgood.visitor_cases hl hp with ⟨hnew, -⟩ | ⟨ch, hch, hmem, -⟩
      · exact absurd hnew (hq l link hl).1
      · refine ⟨ch, hch, ?_⟩
        rw [(hgood.channel hch).accepted_eq, List.mem_append, or_comm] at hmem
        refine hmem.imp_right fun hb => ?_
        obtain ⟨⟨v, p⟩, hpair, rfl⟩ := List.mem_map.mp hb
        exact ⟨p, hpair⟩
  · intro nonce ch hch
    have hok := hgood.channel hch
    obtain ⟨lc, c, hlc, hpc, hg⟩ := hok.control
    have hbridged : ∀ l ∈ t.dataLinks ch.ncxClientConn, l ∈ ch.bridged.map Prod.snd := by
      intro l hmem
      obtain ⟨link, d, hl, hp, hnonce⟩ := hok.isData l hmem
      obtain ⟨ch', v, lv, w, hch', hb, -⟩ := hq.joined hgood htried hl hp
      rw [hnonce, hch, Option.some.injEq] at hch'
      exact List.mem_map.mpr ⟨_, hch' ▸ hb, rfl⟩
    refine ⟨fun v l hb => ?_, hbridged, lc, c, hlc, hpc, ?_⟩
    · obtain ⟨lv, ld, w, d, hj⟩ := hok.joined _ hb
      exact hq.delivered htried hj.data_link hj.data_peer hj
    · obtain ⟨hwait, hid, hbuf⟩ := hq.commands hgood htried hlc hpc hch hg
      -- every data channel's greeting was handled, so the queue is what was not taken
      have hcount : (t.dataLinks ch.ncxClientConn).countP (fun l => !t.helloHandled l) = 0 := by
        rw [List.countP_eq_zero]
        intro l hmem
        have hforward := (hgood.forwards_iff_bridged hch hmem).mpr (hbridged l hmem)
        rw [(helloHandled_iff t l).mpr hforward]
        exact Bool.not_eq_true _ ▸ rfl
      obtain ⟨-, hqueue⟩ := hgood.queue_length hch
      have hlinks : t.dataLinks ch.ncxClientConn = c.dataLinks := by simp [dataLinks, hlc, hpc]
      rw [hcount, hlinks, Nat.add_zero] at hqueue
      rw [hqueue]
      exact ⟨hwait, hid, hbuf⟩

/-- The link that an action may open. -/
def opens : Action → Option Obj
  | .openControl l _ _ => some l
  | .openVisitor l _ => some l
  | .clientRead _ _ l' => some l'
  | _ => none

theorem setLink_links_none {p : Obj} {link' : Link} (hl : t.links l = some link)
    (hp : t.links p = none) : (t.setLink l link').links p = none := by
  have hpl : p ≠ l := by
    rintro rfl
    cases hl.symm.trans hp
  rw [setLink_of_ne t hpl, hp]

theorem controlRead_links_none {p l' : Obj} (hl : t.links l = some link) (hp : t.links p = none)
    (hpl : p ≠ l') (c : ControlEnd) (chunk : Bytes) :
    (t.controlRead pb l link c chunk l').links p = none := by
  rw [Tunnel.controlRead]
  rcases c.channel.handleDataIn pb chunk with ⟨_ | nonce, channel⟩
  · exact setLink_links_none hl hp
  · exact (setLink_of_ne _ hpl _).trans (setLink_links_none hl hp)

theorem step_links_none {act : Action} {p : Obj} (ht' : t.step pb act = .ok t')
    (hp : t.links p = none) (hopens : opens act ≠ some p) : t'.links p = none := by
  cases step_does ht' with
  | nothing => exact hp
  | openControl hl id args =>
    have hpl : p ≠ _ := fun he => hopens (he ▸ rfl)
    exact (setLink_of_ne t hpl _).trans hp
  | openVisitor hl hlistens =>
    have hpl : p ≠ _ := fun he => hopens (he ▸ rfl)
    exact (setLink_of_ne t hpl _).trans hp
  | accept hl hok =>
    obtain ⟨s', -, rfl⟩ := Good.accept_ok hok
    exact hp
  | @visitorSend l link hl data =>
    rw [Tunnel.visitorSend]
    cases link.peer with
    | control c => exact hp
    | data d => exact hp
    | visitor w => exact setLink_links_none hl hp
  | @serviceSend l link hl data =>
    rw [Tunnel.serviceSend]
    cases link.peer with
    | control c => exact hp
    | visitor w => exact hp
    | data d =>
      dsimp only
      split
      · exact setLink_links_none hl hp
      · exact hp
  | serverRead hl hst hok =>
    obtain ⟨s', -, rfl⟩ := Good.serverRead_ok hok
    exact setLink_links_none (t := { t with server := s' }) hl hp
  | @clientRead l link hl k l' =>
    have hpl : p ≠ l' := fun he => hopens (he ▸ rfl)
    rw [Tunnel.clientRead]
    cases link.peer with
    | data d => exact setLink_links_none hl hp
    | visitor w => exact setLink_links_none hl hp
    | control c =>
      dsimp only
      split
      · exact hp
      · exact controlRead_links_none hl hp hpl c _
  | @serviceRead l link hl k =>
    rw [Tunnel.serviceRead]
    cases link.peer with
    | control c => exact hp
    | visitor w => exact hp
    | data d => exact setLink_links_none hl hp

theorem checkedRun_links_none {acts : List Action} {p : Obj}
    (hrun : Runs.checkedRun (step pb) Granted acts t = some t') (hp : t.links p = none)
    (hopens : ∀ act ∈ acts, opens act ≠ some p) : t'.links p = none := by
  induction acts generalizing t with
  | nil =>
    rw [Runs.checkedRun, Option.some.injEq] at hrun
    exact hrun ▸ hp
  | cons act acts ih =>
    rw [List.forall_mem_cons] at hopens
    rw [Runs.checkedRun] at hrun
    split at hrun
    · cases hs : t.step pb act with
      | error f => simp [hs] at hrun
      | ok t₁ =>
        simp only [hs] at hrun
        exact ih hrun (step_links_none hs hp hopens.1) hopens.2
    · cases hrun

/-- Behind the example the visitor reads what it was sent. -/
def quietState : Tunnel :=
  (Runs.checkedRun (step .wire) Granted (exampleActions ++ [.clientRead 1 99 3]) (new 8080)).getD
    (new 8080)

theorem quietState_reachable : Reachable .wire 8080 quietState := by
  unfold quietState
  cases hrun : Runs.checkedRun (step .wire) Granted (exampleActions ++ [.clientRead 1 99 3])
      (new 8080) with
  | none => exact .refl
  | some t => exact .of_checkedRun .refl hrun

theorem quietState_links {l : ℕ} (h : 3 < l) : quietState.links l = none := by
  unfold quietState
  cases hrun : Runs.checkedRun (step .wire) Granted (exampleActions ++ [.clientRead 1 99 3])
      (new 8080) with
  | none => rfl
  | some t =>
    refine checkedRun_links_none hrun rfl ?_
    have hall : ∀ act ∈ exampleActions ++ [.clientRead 1 99 3], ∀ p ∈ opens act, p ≤ 3 := by
      decide
    intro act hact hp
    exact absurd (hall act hact l hp) (Nat.not_le_of_lt h)

theorem quietState_quiescent : quietState.Quiescent := by
  intro l
  by_cases hl : (3 : ℕ) < l
  · rw [quietState_links hl]
    intro link hlink
    cases hlink
  · have hall : ∀ l ∈ List.range 4, ∀ link ∈ quietState.links l,
        (quietState.server.conns l).state ≠ .connecting ∧
        link.upRead = link.peer.sent.length ∧
        link.downRead = (quietState.server.conns l).sent.length ∧ link.peer.serviceUnread = 0 := by
      decide +kernel
    exact hall l (List.mem_range.mpr (Nat.lt_succ_of_le (Nat.le_of_not_lt hl)))

/-- Visitor and service have received "Hi" and "OK". -/
theorem quiescent_delivered_example :
    ∃ ch, quietState.server.scMap exampleNonce = some ch ∧ ch.bridged = [(1, 2)] ∧
      quietState.Delivered 1 2 := by
  have hbridged : (quietState.server.scMap exampleNonce).map SControlChannel.bridged =
      some [(1, 2)] := by
    decide +kernel
  obtain ⟨ch, hch, hb⟩ := Option.map_eq_some_iff.mp hbridged
  have hall := quiescent_delivered .wire 8080 quietState quietState_reachable quietState_quiescent
  obtain ⟨hdelivered, -⟩ := hall.2 exampleNonce ch hch
  exact ⟨ch, hch, hb, hdelivered 1 2 (by rw [hb]; exact List.mem_singleton.mpr rfl)⟩

end Tunnel

end NcxTunnel
