import NcxTunnel.TunnelInvariant

/-!
# Opening, sending, accepting and the reads of the clients

One lemma for each action of the composed system: the invariant is kept.
-/

namespace NcxTunnel.Tunnel

open Streams

variable {pb : Protobuf} {t : Tunnel} {T : Obj → Prop} {l v : Obj} {link link' : Link}

theorem setLink_self (t : Tunnel) (l : Obj) (link : Link) :
    (t.setLink l link).links l = some link := by
  simp [setLink]

theorem setLink_of_ne (t : Tunnel) {p : Obj} (h : p ≠ l) (link : Link) :
    (t.setLink l link).links p = t.links p := by
  simp [setLink, h]

namespace Good

theorem control_cases (h : t.Good) (hl : t.links l = some link) {c : ControlEnd}
    (hp : link.peer = .control c) : Ungreeted (t.server.conns l) link c ∨
      ∃ nonce ch, t.server.scMap nonce = some ch ∧ ch.ncxClientConn = l ∧
        Greeted nonce ch (t.server.conns l) link c := by
  have hok := h.link hl
  simp only [LinkOk, hp] at hok
  refine hok.2.imp_right ?_
  rintro ⟨nonce, ch, hch, rfl⟩
  obtain ⟨c', hp', hg⟩ := (h.channel hch).greeted hl
  have hsame := hp.symm.trans hp'
  rw [Peer.control.injEq] at hsame
  exact ⟨nonce, ch, hch, rfl, hsame ▸ hg⟩

theorem data_cases (h : t.Good) (hl : t.links l = some link) {d : DataEnd}
    (hp : link.peer = .data d) : ∃ ch, t.server.scMap d.channel.nonce = some ch ∧
      l ∈ t.dataLinks ch.ncxClientConn ∧ (Pending (t.server.conns l) link d ∨
        ∃ v lv w, (v, l) ∈ ch.bridged ∧ t.Joined d.channel.nonce v l lv link w d) := by
  have hok := h.link hl
  simp only [LinkOk, hp] at hok
  obtain ⟨ch, hch, hmem, hphase⟩ := hok
  refine ⟨ch, hch, hmem, hphase.imp_right ?_⟩
  rintro ⟨v, hv⟩
  obtain ⟨lv, ld, w, d', hj⟩ := (h.channel hch).joined _ hv
  have hlink := hl.symm.trans hj.data_link
  rw [Option.some.injEq] at hlink
  have hd := hp.symm.trans (hj.data_peer_of hl)
  rw [Peer.data.injEq] at hd
  exact ⟨v, lv, w, hv, hlink ▸ hd ▸ hj⟩

theorem visitor_cases (h : t.Good) (hl : t.links l = some link) {w : VisitorEnd}
    (hp : link.peer = .visitor w) :
    (t.server.conns l).state = .connecting ∧ link.upRead = 0 ∨
    ∃ ch, t.server.scMap w.nonce = some ch ∧ l ∈ ch.accepted ∧ (t.Queued w.nonce l link w ∨
      ∃ p ld d, (l, p) ∈ ch.bridged ∧ t.Joined w.nonce l p link ld w d) := by
  have hok := h.link hl
  simp only [LinkOk, hp] at hok
  refine hok.imp_right ?_
  rintro ⟨ch, hch, hmem⟩
  refine ⟨ch, hch, hmem, ?_⟩
  rw [(h.channel hch).accepted_eq, List.mem_append] at hmem
  rcases hmem with hmem | hmem
  · obtain ⟨⟨l, p⟩, hb, rfl⟩ := List.mem_map.mp hmem
    obtain ⟨lv, ld, w', d, hj⟩ := (h.channel hch).joined _ hb
    have hlink := hl.symm.trans hj.visitor_link
    rw [Option.some.injEq] at hlink
    have hw := hp.symm.trans (hj.visitor_peer_of hl)
    rw [Peer.visitor.injEq] at hw
    exact .inr ⟨p, ld, d, hb, hlink ▸ hw ▸ hj⟩
  · obtain ⟨lv, w', hq⟩ := (h.channel hch).queued _ hmem
    have hlink := hl.symm.trans hq.link_eq
    rw [Option.some.injEq] at hlink
    have hw := hp.symm.trans (hq.peer_of hl)
    rw [Peer.visitor.injEq] at hw
    exact .inl (hlink ▸ hw ▸ hq)

theorem connected (h : t.Good) (hst : (t.server.conns l).state ≠ .connecting) :
    (t.server.conns l).state = .connected :=
  (h.made l).elim (fun hc => absurd hc hst) fun hc => hc.1

/-! ## The same server -/

/-- The other end of a link gets further. -/
theorem change_setLink (h : t.Good) (hT : T l) (hl : t.links l = some link)
    (hk : link.Continues link') : Change T t (t.setLink l link') where
  link_eq {p} hp := by
    have hne : p ≠ l := fun he => hp (he ▸ hT)
    simp [setLink, hne]
  conn_eq _ := rfl
  scMap_eq := rfl
  drawn_eq := rfl
  continues {p lk} _ hlk := by
    by_cases hp : p = l
    · subst hp
      rw [hl, Option.some.injEq] at hlk
      exact ⟨link', by simp [setLink], hlk ▸ hk⟩
    · exact ⟨lk, by simp [setLink, hp, hlk], .refl lk⟩
  made {p} _ := by
    refine (h.made p).imp_right fun hm => ⟨hm.1, ?_⟩
    by_cases hp : p = l
    · simp [setLink, hp]
    · simpa [setLink, hp] using hm.2
  inv := h.inv

theorem unmade_of_no_link (h : t.Good) (hl : t.links l = none) :
    (t.server.conns l).state = .connecting := by
  refine (h.made l).elim id fun hm => ?_
  rw [hl] at hm
  cases hm.2

theorem setLink_new (h : t.Good) (hl : t.links l = none)
    (hok : (t.server.conns l).state = .connecting → (t.setLink l link).LinkOk l link) :
    (t.setLink l link).Good := by
  have hnew := h.unmade_of_no_link hl
  have hc : Change (· = l) t (t.setLink l link) := by
    refine ⟨fun hp => by simp [setLink, hp], fun _ => rfl, rfl, rfl, fun {p lk} hp hlk => ?_,
      fun {p} hp => .inl (hp ▸ hnew), h.inv⟩
    rw [hp, hl] at hlk
    cases hlk
  refine h.change hc (fun {p lk} hp hlk => ?_) (fun {nonce ch} hch hp => ?_) (fun hq hp => ?_)
    (fun hj hp => ?_)
  · subst hp
    have hlk' : lk = link := by simpa [setLink] using hlk.symm
    exact hlk' ▸ hok hnew
  · obtain ⟨lk, c, hlk, -⟩ := (h.channel hch).control
    rw [hp, hl] at hlk
    cases hlk
  · rw [← hp, hq.link_eq] at hl
    cases hl
  · rcases hp with hp | hp
    · rw [← hp, hj.visitor_link] at hl
      cases hl
    · rw [← hp, hj.data_link] at hl
      cases hl

theorem openControl (h : t.Good) (hl : t.links l = none) (id : Bytes) {args : CControlChannelArgs}
    (hvalid : (CControlChannel.controlHello args).Valid) : (t.openControl l id args).Good := by
  refine h.setLink_new hl fun hnew => ?_
  refine ⟨⟨args, hvalid, rfl⟩, .inl ?_⟩
  have hnone := h.inv.unmade hnew
  show Ungreeted (t.server.conns l) _ _
  rw [hnone]
  exact ⟨fun hst => absurd rfl hst, by simp [unhandled, Connection.none], rfl, rfl, rfl, rfl, rfl⟩

theorem openVisitor (h : t.Good) (hl : t.links l = none) (nonce : Bytes) :
    (t.setLink l ⟨.visitor ⟨nonce, []⟩, 0, 0⟩).Good :=
  h.setLink_new hl fun hnew => .inl ⟨hnew, rfl⟩

theorem visitor_further (h : t.Good) (hl : t.links l = some link) {w w' : VisitorEnd}
    (hp : link.peer = .visitor w) (hp' : link'.peer = .visitor w') (hnonce : w'.nonce = w.nonce)
    (hread : link'.upRead = link.upRead) (hsent : w.sent <+: w'.sent) :
    (t.setLink l link').Good := by
  have hk : link.Continues link' := by simp [Link.Continues, hp, hp', hnonce]
  have hl' := t.setLink_self l link'
  obtain ⟨data, hsent⟩ := hsent
  rcases h.visitor_cases hl hp with ⟨hnew, hzero⟩ | ⟨ch, hch, hmem, hq | ⟨p, ld, d, hb, hj⟩⟩
  · exact h.change_unaccepted hl hp hl' hp' (h.change_setLink rfl hl hk) hnew hnew
      (hread.trans hzero)
  · refine h.change_queued hl hp hl' hp' (h.change_setLink rfl hl hk) hq hch hmem
      ⟨hl', hp', hnonce, hq.made, hq.handle, ?_, ?_, hq.sent_eq⟩
    · rw [hread, ← hsent, List.length_append]
      exact Nat.le_add_right_of_le hq.upRead_le
    · rw [hread, ← hsent, List.take_append_of_le_length hq.upRead_le]
      exact hq.input
  · have he := hj.ends
    have hpl : p ≠ l := by
      rintro rfl
      cases hp.symm.trans (hj.data_peer_of hl)
    refine h.change_joined (h.change_setLink (.inl rfl) hl hk) hj hch hb ⟨hl', hp', hnonce,
      (t.setLink_of_ne hpl _).trans hj.data_link, hj.data_peer, hj.data_nonce, { he with
        visitor_upRead_le := ?_
        data_sent := ?_
        visitor_sent := hnonce ▸ he.visitor_sent
        toServer_eq := hnonce ▸ he.toServer_eq }⟩
    · rw [hread, ← hsent, List.length_append]
      exact Nat.le_add_right_of_le he.visitor_upRead_le
    · rw [hread, ← hsent, List.take_append_of_le_length he.visitor_upRead_le]
      exact he.data_sent

theorem visitorSend (h : t.Good) (hl : t.links l = some link) (data : Bytes) :
    (t.visitorSend l link data).Good := by
  unfold Tunnel.visitorSend
  cases hp : link.peer with
  | control c => exact h
  | data d => exact h
  | visitor w => exact h.visitor_further hl hp rfl rfl rfl (List.prefix_append _ _)

theorem serviceSend (h : t.Good) (hl : t.links l = some link) (data : Bytes) :
    (t.serviceSend l link data).Good := by
  unfold Tunnel.serviceSend
  cases hp : link.peer with
  | control c => exact h
  | visitor w => exact h
  | data d =>
    have hk : link.Continues { link with
        peer := .data { d with service := d.service ++ data } } := by
      simp [Link.Continues, hp]
    obtain ⟨ch, hch, -, hpend | ⟨v, lv, w, hb, hj⟩⟩ := h.data_cases hl hp
    · simpa [hpend.unconnected] using h
    · have he := hj.ends
      have hlv : v ≠ l := by
        rintro rfl
        cases hp.symm.trans (hj.visitor_peer_of hl)
      rcases he.client with hwait | hfwd
      · simpa [hwait.unconnected] using h
      · dsimp only
        split
        · refine h.change_joined (h.change_setLink (.inr rfl) hl hk) hj hch hb
            ⟨(t.setLink_of_ne hlv _).trans hj.visitor_link, hj.visitor_peer, hj.visitor_nonce,
              t.setLink_self l _, rfl, hj.data_nonce, ?_⟩
          refine { he with
            serviceRead_le := Nat.le_trans he.serviceRead_le (by simp)
            toServer_eq := ?_
            client := .inr ⟨hfwd.forwards, hfwd.input_eq, hfwd.input⟩ }
          show d.channel.toServer = _ ++ (d.service ++ data).take d.serviceRead
          rw [he.toServer_eq, List.take_append_of_le_length he.serviceRead_le]
        · exact h

theorem serviceRead (h : t.Good) (hl : t.links l = some link) (k : ℕ) :
    (t.serviceRead l link k).Good := by
  unfold Tunnel.serviceRead
  cases hp : link.peer with
  | control c => exact h
  | visitor w => exact h
  | data d =>
    dsimp only
    generalize hchunk : arriving d.service d.serviceRead k = chunk
    have hk : link.Continues { link with peer := .data ⟨d.channel.handleServiceIn chunk, d.service,
        d.serviceRead + chunk.length⟩ } := by
      simp [Link.Continues, hp, DataChannel.handleServiceIn]
    obtain ⟨ch, hch, -, hpend | ⟨v, lv, w, hb, hj⟩⟩ := h.data_cases hl hp
    · have hnil : chunk = [] := by rw [← hchunk, hpend.service_eq, arriving_nil]
      subst hnil
      refine h.change_pending hl hp (t.setLink_self l _) rfl (h.change_setLink rfl hl hk) hpend rfl ?_
      have hto : (d.channel.handleServiceIn []).toServer = d.channel.toServer := List.append_nil _
      exact { hpend with
        toServer_eq := hto.trans hpend.toServer_eq
        input := hto ▸ hpend.input
        upRead_le := hto ▸ hpend.upRead_le }
    · have he := hj.ends
      have hlv : v ≠ l := by
        rintro rfl
        cases hp.symm.trans (hj.visitor_peer_of hl)
      refine h.change_joined (h.change_setLink (.inr rfl) hl hk) hj hch hb
        ⟨(t.setLink_of_ne hlv _).trans hj.visitor_link, hj.visitor_peer, hj.visitor_nonce,
          t.setLink_self l _, rfl, hj.data_nonce, ?_⟩
      have hto : (d.channel.handleServiceIn chunk).toServer = d.channel.toServer ++ chunk := rfl
      refine { he with
        data_upRead_le := by
          rw [hto, List.length_append]
          exact Nat.le_add_right_of_le he.data_upRead_le
        visitor_sent := by
          rw [hto, List.take_append_of_le_length he.data_upRead_le]
          exact he.visitor_sent
        serviceRead_le := hchunk ▸ read_add_length_arriving_le _ _ he.serviceRead_le
        toServer_eq := by
          rw [hto, he.toServer_eq, ← hchunk, take_read_arriving, List.append_assoc]
        client := ?_ }
      exact he.client.imp (fun hw => ⟨hw.waiting, hw.unconnected, hw.toService_eq, hw.service_eq,
        hw.input⟩) fun hf => ⟨hf.forwards, hf.input_eq, hf.input⟩

/-! ## The other ends read -/

theorem dataRead (h : t.Good) (hl : t.links l = some link) {d : DataEnd}
    (hp : link.peer = .data d) (k : ℕ) (l' : Obj) : (t.clientRead pb l link k l').Good := by
  unfold Tunnel.clientRead
  simp only [hp]
  generalize hchunk : arriving (t.server.conns l).sent link.downRead k = chunk
  obtain ⟨ch, hch, -, hpend | ⟨v, lv, w, hb, hj⟩⟩ := h.data_cases hl hp
  · have hnil : chunk = [] := by rw [← hchunk, hpend.sent_eq, arriving_nil]
    subst hnil
    have hread : d.channel.handleDataIn pb [] = d.channel := by
      have hin : d.channel.inputBuffer ++ [] = [] := by rw [hpend.client_input, List.append_nil]
      rw [DataChannel.handleDataIn_incomplete hpend.waiting (by rw [hin, attemptBytes_nil]), hin,
        ← hpend.client_input]
    rw [hread]
    exact h.change_pending hl hp (t.setLink_self l _) rfl
      (h.change_setLink rfl hl (by simp [Link.Continues, hp])) hpend rfl { hpend with }
  · have he := hj.ends
    have hlv : v ≠ l := by
      rintro rfl
      cases hp.symm.trans (hj.visitor_peer_of hl)
    have hle : link.downRead + chunk.length ≤ (t.server.conns l).sent.length :=
      hchunk ▸ read_add_length_arriving_le _ _ he.downRead_le
    have hun : ∀ buf, unhandled (buf ++ chunk) (t.server.conns l).sent
        (link.downRead + chunk.length) = unhandled buf (t.server.conns l).sent link.downRead :=
      fun buf => hchunk ▸ unhandled_arriving buf _ k
    -- the channel afterwards differs in its phase only
    obtain ⟨d', hd', hto, hnonce, hclient⟩ : ∃ d', d.channel.handleDataIn pb chunk = d' ∧
        d'.toServer = d.channel.toServer ∧ d'.nonce = d.channel.nonce ∧
        (AwaitsStart (t.server.conns l)
            ⟨.data { d with channel := d' }, link.upRead, link.downRead + chunk.length⟩
            { d with channel := d' } ∨
          Forwards (t.server.conns l)
            ⟨.data { d with channel := d' }, link.upRead, link.downRead + chunk.length⟩
            { d with channel := d' }) := by
      rcases he.client with hwait | hfwd
      · have hstream := (hun _).trans (hwait.input.trans he.data_sent)
        rcases frameable_start.attemptBytes_split hstream with ⟨ha, -⟩ | ⟨rest, ha, hrest⟩
        · refine ⟨_, DataChannel.handleDataIn_incomplete hwait.waiting ha, rfl, rfl, .inl ?_⟩
          exact ⟨hwait.waiting, hwait.unconnected, hwait.toService_eq, hwait.service_eq,
            (hun _).trans hwait.input⟩
        · refine ⟨_, DataChannel.handleDataIn_start hwait.waiting ha, rfl, rfl, .inr ?_⟩
          refine ⟨rfl, rfl, ?_⟩
          show startFrame ++ (d.channel.toService ++ rest) ++ _ = _
          rw [hwait.toService_eq, List.nil_append, List.append_assoc, hrest, he.data_sent]
      · refine ⟨_, DataChannel.handleDataIn_forward hfwd.forwards, rfl, rfl, .inr ?_⟩
        refine ⟨hfwd.forwards, rfl, ?_⟩
        show unhandled (startFrame ++ (d.channel.toService ++ (d.channel.inputBuffer ++ chunk)))
          _ _ = _
        rw [hfwd.input_eq, List.nil_append, ← List.append_assoc, hun]
        exact hfwd.input
    rw [hd']
    exact h.change_joined (h.change_setLink (.inr rfl) hl (by simp [Link.Continues, hp, hnonce])) hj
      hch hb ⟨(t.setLink_of_ne hlv _).trans hj.visitor_link, hj.visitor_peer, hj.visitor_nonce,
        t.setLink_self l _, rfl, hnonce, { he with
          data_upRead_le := hto ▸ he.data_upRead_le
          visitor_sent := hto ▸ he.visitor_sent
          toServer_eq := hto ▸ he.toServer_eq
          downRead_le := hle
          client := hclient }⟩

/-- A control channel handles no command. -/
theorem control_further (h : t.Good) (hl : t.links l = some link) {c : ControlEnd}
    (hp : link.peer = .control c) {nonce : Bytes} {ch : SControlChannel}
    (hch : t.server.scMap nonce = some ch) (hctl : ch.ncxClientConn = l)
    (hg : Greeted nonce ch (t.server.conns l) link c) {c' : CControlChannel} {read : ℕ}
    (hread : read ≤ (t.server.conns l).sent.length)
    (hclient : AwaitsHello (t.server.conns l)
        ⟨.control { c with channel := c' }, link.upRead, read⟩ { c with channel := c' } ∨
      AwaitsCmd nonce ch.accepted.length (t.server.conns l)
        ⟨.control { c with channel := c' }, link.upRead, read⟩ { c with channel := c' }) :
    (t.setLink l ⟨.control { c with channel := c' }, link.upRead, read⟩).Good :=
  h.change_greeted hl hp (t.setLink_self l _) rfl
    (h.change_setLink rfl hl (by simp [Link.Continues, hp])) hch hctl rfl rfl
    { hg with downRead_le := hread, client := hclient }

/-- One command less is to come, one data channel more exists. -/
theorem greeted_creates {nonce : Bytes} {ch : SControlChannel} {conn : Connection}
    {c : ControlEnd} (hg : Greeted nonce ch conn link c) {l' : Obj} (hnew : l' ∉ c.dataLinks)
    {lc : Link} (hup : lc.upRead = link.upRead) (hread : lc.downRead ≤ conn.sent.length)
    {c' : CControlChannel}
    (hclient : AwaitsCmd nonce ch.accepted.length conn lc
      { c with channel := c', dataLinks := c.dataLinks ++ [l'] }) :
    Greeted nonce ch conn lc { c with channel := c', dataLinks := c.dataLinks ++ [l'] } where
  handle := hg.handle
  input := by
    rw [hup]
    exact hg.input
  sent_eq := hg.sent_eq
  downRead_le := hread
  client := .inr hclient
  nodup := by
    refine List.nodup_append.mpr ⟨hg.nodup, by simp, fun p hmem q hq => ?_⟩
    rw [List.mem_singleton] at hq
    rintro rfl
    exact hnew (hq ▸ hmem)
  bridged_sub p hmem := List.mem_append_left _ (hg.bridged_sub hmem)

/-- The server has not accepted the connection of a new data channel yet. -/
theorem pending_new (nonce : Bytes) :
    Pending .none ⟨.data ⟨.new nonce, [], 0⟩, 0, 0⟩ ⟨.new nonce, [], 0⟩ where
  handle hst := absurd rfl hst
  toServer_eq := rfl
  input := rfl
  upRead_le := Nat.zero_le _
  sent_eq := rfl
  waiting := rfl
  client_input := rfl
  downRead_eq := rfl
  unconnected := rfl
  toService_eq := rfl
  service_eq := rfl
  serviceRead_eq := rfl

section Create

variable {l' : Obj} (hl : t.links l = some link) (hl' : t.links l' = none)

include hl hl'

theorem ne_of_no_link : l ≠ l' := by
  rintro rfl
  cases hl.symm.trans hl'

/-- One link gets further and there is a new one, of which the server has not heard. -/
theorem change_setLink_new (h : t.Good) {lc : Link} (hk : link.Continues lc) (ld : Link) :
    Change (fun p => p = l ∨ p = l') t ((t.setLink l lc).setLink l' ld) where
  link_eq {p} hp := by
    rw [not_or] at hp
    rw [setLink_of_ne _ hp.2, setLink_of_ne _ hp.1]
  conn_eq _ := rfl
  scMap_eq := rfl
  drawn_eq := rfl
  continues {p lk} hT hlk := by
    rcases hT with rfl | rfl
    · rw [hl, Option.some.injEq] at hlk
      exact ⟨lc, by rw [setLink_of_ne _ (ne_of_no_link hl hl'), setLink_self], hlk ▸ hk⟩
    · cases hl'.symm.trans hlk
  made {p} hT := by
    rcases hT with rfl | rfl
    · refine (h.made p).imp id fun hm => ⟨hm.1, ?_⟩
      rw [setLink_of_ne _ (ne_of_no_link hl hl'), setLink_self]
      rfl
    · exact .inl (h.unmade_of_no_link hl')
  inv := h.inv

/-- Neither of them is a visitor that waits. -/
theorem queued_off_control {c : ControlEnd} (hp : link.peer = .control c) {m : Bytes}
    {lv : Link} {ve : VisitorEnd} (hq : t.Queued m v lv ve) : ¬(v = l ∨ v = l') := by
  rintro (rfl | rfl)
  · cases hp.symm.trans (hq.peer_of hl)
  · cases hl'.symm.trans hq.link_eq

/-- Neither of them is an end of a bridge. -/
theorem joined_off_control {c : ControlEnd} (hp : link.peer = .control c) {m : Bytes} {p : Obj}
    {lv ld : Link} {ve : VisitorEnd} {de : DataEnd} (hj : t.Joined m v p lv ld ve de) :
    ¬((v = l ∨ v = l') ∨ (p = l ∨ p = l')) := by
  rintro ((rfl | rfl) | (rfl | rfl))
  · cases hp.symm.trans (hj.visitor_peer_of hl)
  · cases hl'.symm.trans hj.visitor_link
  · cases hp.symm.trans (hj.data_peer_of hl)
  · cases hl'.symm.trans hj.data_link

end Create

/-- A control channel handles a command: the new data channel has greeted. -/
theorem control_creates (h : t.Good) (hl : t.links l = some link) {c : ControlEnd}
    (hp : link.peer = .control c) {nonce : Bytes} {ch : SControlChannel}
    (hch : t.server.scMap nonce = some ch) (hctl : ch.ncxClientConn = l)
    (hg : Greeted nonce ch (t.server.conns l) link c) {l' : Obj} (hl' : t.links l' = none)
    {c' : CControlChannel} {read : ℕ} (hread : read ≤ (t.server.conns l).sent.length)
    (hclient : AwaitsCmd nonce ch.accepted.length (t.server.conns l)
      ⟨.control { c with channel := c', dataLinks := c.dataLinks ++ [l'] }, link.upRead, read⟩
      { c with channel := c', dataLinks := c.dataLinks ++ [l'] }) :
    ((t.setLink l ⟨.control { c with channel := c', dataLinks := c.dataLinks ++ [l'] },
      link.upRead, read⟩).setLink l' ⟨.data ⟨.new nonce, [], 0⟩, 0, 0⟩).Good := by
  subst hctl
  have hok := h.channel hch
  have hisData : ∀ p ∈ c.dataLinks, t.IsData nonce p := fun p hmem =>
    hok.isData p (mem_dataLinks.mpr ⟨link, c, hl, hp, hmem⟩)
  have hfresh : l' ∉ c.dataLinks := by
    intro hmem
    obtain ⟨lk, de, hlk, -⟩ := hisData l' hmem
    cases hl'.symm.trans hlk
  generalize hct : (⟨.control { c with channel := c', dataLinks := c.dataLinks ++ [l'] },
    link.upRead, read⟩ : Link) = lc at hclient ⊢
  have hpeer : lc.peer = .control { c with channel := c', dataLinks := c.dataLinks ++ [l'] } := by
    rw [← hct]
  have hk : link.Continues lc := by simp [Link.Continues, hp, hpeer]
  have hc := h.change_setLink_new hl hl' hk ⟨.data ⟨.new nonce, [], 0⟩, 0, 0⟩
  have hself : ((t.setLink ch.ncxClientConn lc).setLink l'
      ⟨.data ⟨.new nonce, [], 0⟩, 0, 0⟩).links ch.ncxClientConn = some lc := by
    rw [setLink_of_ne _ (ne_of_no_link hl hl'), setLink_self]
  have hself' := (t.setLink ch.ncxClientConn lc).setLink_self l'
    ⟨.data ⟨.new nonce, [], 0⟩, 0, 0⟩
  refine h.change hc (fun {p lk} hT hlk => ?_) (fun {nonce₁ ch₁} hch₁ hT => ?_)
    (fun hq hT => absurd hT (queued_off_control hl hl' hp hq))
    (fun hj hT => absurd hT (joined_off_control hl hl' hp hj))
  · rcases hT with rfl | rfl
    · rw [hself, Option.some.injEq] at hlk
      have hlink := h.link hl
      simp only [LinkOk, hp] at hlink
      simp only [LinkOk, ← hlk, hpeer]
      exact ⟨hlink.1, .inr ⟨nonce, ch, hch, rfl⟩⟩
    · rw [hself', Option.some.injEq] at hlk
      simp only [LinkOk, ← hlk]
      refine ⟨ch, hch, mem_dataLinks.mpr ⟨lc, _, hself, hpeer, by simp⟩, .inl ?_⟩
      show Pending (t.server.conns p) _ _
      rw [h.inv.unmade (h.unmade_of_no_link hl')]
      exact pending_new nonce
  · rcases hT with hT | hT
    · obtain ⟨rfl, rfl⟩ := h.channel_unique hch hch₁ hT
      refine ⟨⟨lc, _, hself, hpeer, ?_⟩, fun p hmem => ?_⟩
      · exact greeted_creates hg hfresh (by rw [← hct]) (by rw [← hct]; exact hread) hclient
      · -- the links of the channel: those there were and the new one
        obtain ⟨lk, ck, hlk, hck, hmem⟩ := mem_dataLinks.mp hmem
        rw [hself, Option.some.injEq] at hlk
        rw [← hlk, hpeer, Peer.control.injEq] at hck
        rw [← hck, List.mem_append, List.mem_singleton] at hmem
        rcases hmem with hmem | rfl
        · exact hc.touches.isData (hisData p hmem)
        · exact ⟨_, _, hself', rfl, rfl⟩
    · obtain ⟨lk, ck, hlk, -⟩ := (h.channel hch₁).control
      rw [hT, hl'] at hlk
      cases hlk

theorem controlRead (h : t.Good) (hl : t.links l = some link) {c : ControlEnd}
    (hp : link.peer = .control c) (k : ℕ) {l' : Obj} (hl' : t.links l' = none) :
    (t.controlRead pb l link c (arriving (t.server.conns l).sent link.downRead k) l').Good := by
  unfold Tunnel.controlRead
  generalize hchunk : arriving (t.server.conns l).sent link.downRead k = chunk
  rcases h.control_cases hl hp with hu | ⟨nonce, ch, hch, hctl, hg⟩
  · have hnil : chunk = [] := by rw [← hchunk, hu.sent_eq, arriving_nil]
    subst hnil
    have hin : c.channel.inputBuffer ++ [] = [] := by rw [hu.client_input, List.append_nil]
    rw [CControlChannel.handleDataIn_incomplete (.inl hu.waiting) (by rw [hin, attemptBytes_nil])]
    exact h.change_ungreeted hl hp (t.setLink_self l _) rfl
      (h.change_setLink rfl hl (by simp [Link.Continues, hp])) hu rfl { hu with client_input := hin }
  · have hle : link.downRead + chunk.length ≤ (t.server.conns l).sent.length :=
      hchunk ▸ read_add_length_arriving_le _ _ hg.downRead_le
    have hun : ∀ buf, unhandled (buf ++ chunk) (t.server.conns l).sent
        (link.downRead + chunk.length) = unhandled buf (t.server.conns l).sent link.downRead :=
      fun buf => hchunk ▸ unhandled_arriving buf _ k
    have huuid := (h.channel hch).isUuid
    rcases hg.client with hwait | hwait
    · have hstream := (hun _).trans (hwait.input.trans hg.sent_eq)
      rw [controlSent, frames_cons] at hstream
      rcases (frameable_controlHello huuid).attemptBytes_split hstream with
        ⟨ha, -⟩ | ⟨rest, ha, hrest⟩
      · rw [CControlChannel.handleDataIn_incomplete (.inl hwait.waiting) ha]
        exact h.control_further hl hp hch hctl hg hle
          (.inl ⟨hwait.waiting, hwait.dataLinks_eq, (hun _).trans hwait.input⟩)
      · rw [CControlChannel.handleDataIn_hello hwait.waiting huuid ha]
        refine h.control_further hl hp hch hctl hg hle (.inr ⟨rfl, rfl, ?_, ?_⟩)
        · simp [hwait.dataLinks_eq]
        · simpa [unhandled, hwait.dataLinks_eq] using hrest
    · have hstream := (hun _).trans hwait.input
      have hframes : ∀ p ∈ List.replicate (ch.accepted.length - c.dataLinks.length)
          NServer.createDataChannel.serializeAsString, Frameable p := by
        intro p hmem
        rw [List.eq_of_mem_replicate hmem]
        exact frameable_create
      rcases attemptBytes_of_prefix hframes hstream with ⟨ha, -⟩ | ⟨p, ps, rest, hps, ha, hrest⟩
      · rw [CControlChannel.handleDataIn_incomplete (.inr hwait.waiting) ha]
        exact h.control_further hl hp hch hctl hg hle
          (.inr ⟨hwait.waiting, hwait.id_eq, hwait.length_le, hstream⟩)
      · -- one command less, one data channel more
        have hlen := congrArg List.length hps
        rw [List.length_replicate, List.length_cons] at hlen
        rw [hlen, List.replicate_succ, List.cons.injEq] at hps
        obtain ⟨rfl, hps⟩ := hps
        rw [CControlChannel.handleDataIn_create hwait.waiting ha, hwait.id_eq]
        have hlength : (c.dataLinks ++ [l']).length = c.dataLinks.length + 1 := by simp
        refine h.control_creates hl hp hch hctl hg hl' hle ⟨hwait.waiting, rfl, ?_, ?_⟩
        · rw [hlength]
          omega
        · rw [hlength, show ch.accepted.length - (c.dataLinks.length + 1) = ps.length by omega, hps]
          exact hrest

theorem clientRead (h : t.Good) (hl : t.links l = some link) (k : ℕ) (l' : Obj) :
    (t.clientRead pb l link k l').Good := by
  cases hp : link.peer with
  | data d => exact h.dataRead hl hp k l'
  | visitor w =>
    simp only [Tunnel.clientRead, hp]
    exact h.visitor_further hl hp rfl rfl rfl (List.prefix_refl _)
  | control c =>
    simp only [Tunnel.clientRead, hp]
    split
    · exact h
    · rename_i hfree
      exact h.controlRead hl hp k (by simpa using hfree)

/-! ## The server accepts -/

/-- The client of a channel is told about one more visitor. -/
theorem greeted_create {nonce : Bytes} {ch ch' : SControlChannel} {conn : Connection}
    {c : ControlEnd} (hg : Greeted nonce ch conn link c)
    (hlen : ch'.accepted.length = ch.accepted.length + 1) (hbridged : ch'.bridged = ch.bridged) :
    Greeted nonce ch' { conn with
      sent := conn.sent ++ headerInstaller NServer.createDataChannel.serializeAsString } link c := by
  have happ : ∀ buf, unhandled buf (conn.sent ++
      headerInstaller NServer.createDataChannel.serializeAsString) link.downRead =
      unhandled buf conn.sent link.downRead ++
        headerInstaller NServer.createDataChannel.serializeAsString :=
    fun buf => unhandled_append buf _ hg.downRead_le _
  have hclient : AwaitsHello { conn with
        sent := conn.sent ++ headerInstaller NServer.createDataChannel.serializeAsString } link c ∨
      AwaitsCmd nonce ch'.accepted.length { conn with
        sent := conn.sent ++ headerInstaller NServer.createDataChannel.serializeAsString }
        link c := by
    refine hg.client.imp (fun hw => ⟨hw.waiting, hw.dataLinks_eq, ?_⟩) fun hw =>
      ⟨hw.waiting, hw.id_eq, hlen ▸ Nat.le_succ_of_le hw.length_le, ?_⟩
    · rw [happ, hw.input]
    · rw [happ, hw.input, hlen, Nat.succ_sub hw.length_le, List.replicate_succ']
      simp [frames]
  refine ⟨hg.handle, hg.input, ?_, ?_, hclient, hg.nodup, hbridged ▸ hg.bridged_sub⟩
  · rw [hlen, controlSent_succ, ← hg.sent_eq]
  · rw [List.length_append]
    exact Nat.le_add_right_of_le hg.downRead_le

/-- Connections that the two actions of the server below do not touch. -/
theorem made_of_accepted (h : t.Good) {nonce : Bytes} {ch : SControlChannel}
    (hch : t.server.scMap nonce = some ch) (hv : v ∈ ch.accepted) :
    (t.server.conns v).state ≠ .connecting := by
  have hok := h.channel hch
  rw [hok.accepted_eq, List.mem_append] at hv
  rcases hv with hv | hv
  · obtain ⟨⟨v, p⟩, hb, rfl⟩ := List.mem_map.mp hv
    obtain ⟨lv, ld, w, d, hj⟩ := hok.joined _ hb
    exact h.forwards_made hj.ends.visitor_handle
  · obtain ⟨lv, w, hq⟩ := hok.queued v hv
    exact hq.made

/-- One more visitor waits, and the client has been told. -/
theorem channelOk_accepted {T : Obj → Prop} {t' : Tunnel} (ht : Touches T t t') {nonce : Bytes}
    {ch : SControlChannel} (hok : t.ChannelOk nonce ch) (hlinks : t'.links = t.links)
    (hnew : l ∉ ch.accepted)
    (hcontrol : ∃ link c, t.links ch.ncxClientConn = some link ∧ link.peer = .control c ∧
      Greeted nonce { ch with
        waitHandleVisitors := ch.waitHandleVisitors ++ [l]
        accepted := ch.accepted ++ [l] } (t'.server.conns ch.ncxClientConn) link c)
    (hqueued : ∀ {v lk ve}, t.Queued nonce v lk ve → ¬T v)
    (hjoined : ∀ {v p lv ld ve de}, t.Joined nonce v p lv ld ve de → ¬T v ∧ ¬T p)
    (hq : ∃ link ve, t'.Queued nonce l link ve) :
    t'.ChannelOk nonce { ch with
      waitHandleVisitors := ch.waitHandleVisitors ++ [l]
      accepted := ch.accepted ++ [l] } where
  drawn := ht.drawn_sub hok.drawn
  isUuid := hok.isUuid
  accepted_eq := by rw [hok.accepted_eq, List.append_assoc]
  accepted_nodup := by
    refine List.nodup_append.mpr ⟨hok.accepted_nodup, by simp, fun p hmem q hp => ?_⟩
    rw [List.mem_singleton] at hp
    rintro rfl
    exact hnew (hp ▸ hmem)
  bridged_nodup := hok.bridged_nodup
  control := by
    rw [hlinks]
    exact hcontrol
  isData p hmem := by
    rw [dataLinks, hlinks] at hmem
    exact ht.isData (hok.isData p hmem)
  queued v hv := by
    rcases List.mem_append.mp hv with hv | hv
    · obtain ⟨lk, ve, hq⟩ := hok.queued v hv
      exact ⟨lk, ve, ht.queued (hqueued hq) hq⟩
    · rw [List.mem_singleton] at hv
      exact hv ▸ hq
  joined p hp := by
    obtain ⟨lv, ld, ve, de, hj⟩ := hok.joined p hp
    exact ⟨lv, ld, ve, de, ht.joined (hjoined hj).1 (hjoined hj).2 hj⟩

section Unaccepted

variable (hnew : (t.server.conns l).state = .connecting) {p : Obj} {lc : Link} {c : ControlEnd}
  (hlc : t.links p = some lc) (hpc : lc.peer = .control c) {m : Bytes}

include hnew hlc hpc

/-- Neither a connection to be accepted nor one of a control channel waits in a queue. -/
theorem queued_off_accepted {v : Obj} {lk : Link} {ve : VisitorEnd} (hq : t.Queued m v lk ve) :
    ¬(v = l ∨ v = p) := by
  rintro (rfl | rfl)
  · exact hq.made hnew
  · cases hpc.symm.trans (hq.peer_of hlc)

theorem joined_off_accepted (h : t.Good) {v q : Obj} {lv ld : Link} {ve : VisitorEnd}
    {de : DataEnd} (hj : t.Joined m v q lv ld ve de) : ¬(v = l ∨ v = p) ∧ ¬(q = l ∨ q = p) := by
  constructor
  · rintro (rfl | rfl)
    · exact h.forwards_made hj.ends.visitor_handle hnew
    · cases hpc.symm.trans (hj.visitor_peer_of hlc)
  · rintro (rfl | rfl)
    · exact h.forwards_made hj.ends.data_handle hnew
    · cases hpc.symm.trans (hj.data_peer_of hlc)

end Unaccepted

theorem accept_visitor (h : t.Good) (hl : t.links l = some link) {w : VisitorEnd}
    (hp : link.peer = .visitor w) (hnew : (t.server.conns l).state = .connecting)
    {ch : SControlChannel} (hch : t.server.scMap w.nonce = some ch) {id : ConnId} {s' : NServer}
    (hinv : s'.Inv none)
    (hs : t.server.step pb (.accept (.proxy w.nonce) l id (.calm [])) = .ok s') :
    { t with server := s' }.Good := by
  have hok := h.channel hch
  obtain ⟨lc, c, hlc, hpc, hg⟩ := hok.control
  have hne := h.control_ne hch hl (by simp [hp])
  have hb := NServer.step_accept_proxy (fun _ => rfl) hnew hch hne hs
  have hread : link.upRead = 0 := by
    rcases h.visitor_cases hl hp with hzero | ⟨ch₁, hch₁, hmem, -⟩
    · exact hzero.2
    · exact absurd hnew (h.made_of_accepted hch₁ hmem)
  have hconn : s'.conns l = NServer.newConnection (.proxy w.nonce) id := by
    rw [hb.conns_eq, Function.update_of_ne hne.symm, Function.update_self]
  have hctl : s'.conns ch.ncxClientConn = { t.server.conns ch.ncxClientConn with
      sent := (t.server.conns ch.ncxClientConn).sent ++
        headerInstaller NServer.createDataChannel.serializeAsString } := by
    rw [hb.conns_eq, Function.update_self]
  have hself := congrFun hb.scMap_eq w.nonce
  rw [Function.update_self] at hself
  -- the visitor and the control connection change
  have ht : Touches (fun p => p = l ∨ p = ch.ncxClientConn) t { t with server := s' } := by
    refine touches_of_update hb.scMap_eq (fun {ch₁} hch₁ => ?_) (fun _ => rfl) (fun {p} hT => ?_) ?_
      fun {p lk} _ hlk => ⟨lk, hlk, .refl lk⟩
    · rw [hch, Option.some.injEq] at hch₁
      subst hch₁
      exact ⟨rfl, List.subset_append_left _ _, List.Subset.refl _⟩
    · rw [not_or] at hT
      show s'.conns p = _
      rw [hb.conns_eq, Function.update_of_ne hT.2, Function.update_of_ne hT.1]
    · rw [hb.drawn_eq]
      exact List.Subset.refl _
  refine h.of_one_channel ht hinv ?_ ?_ hb.scMap_eq ?_ ?_
    (fun _ hq => queued_off_accepted hnew hlc hpc hq) (joined_off_accepted hnew hlc hpc h)
  · rintro p (rfl | rfl)
    · exact .inr ⟨by show (s'.conns p).state = _; rw [hconn]; rfl, by simp [hl]⟩
    · refine (h.made ch.ncxClientConn).imp (fun hst => ?_) fun hm => ⟨?_, hm.2⟩
      · show (s'.conns _).state = _
        rw [hctl, ← hst]
      · show (s'.conns _).state = _
        rw [hctl, ← hm.1]
  · rintro p lk (rfl | rfl) hlk
    · have hlk' : lk = link := Option.some.inj (hlk.symm.trans hl)
      simp only [LinkOk, hlk', hp]
      exact .inr ⟨_, hself, by simp⟩
    · have hlk' : lk = lc := Option.some.inj (hlk.symm.trans hlc)
      have hlink := h.link hlc
      simp only [LinkOk, hpc] at hlink
      simp only [LinkOk, hlk', hpc]
      exact ⟨hlink.1, .inr ⟨w.nonce, _, hself, rfl⟩⟩
  · refine channelOk_accepted ht hok rfl (fun hmem => h.made_of_accepted hch hmem hnew)
      ⟨lc, c, hlc, hpc, ?_⟩ (queued_off_accepted hnew hlc hpc)
      (joined_off_accepted hnew hlc hpc h) ⟨link, w, hl, hp, rfl, ?_, ?_, by simp [hread], ?_, ?_⟩
    · show Greeted _ _ (s'.conns ch.ncxClientConn) lc c
      rw [hctl]
      exact greeted_create hg (by simp) rfl
    all_goals simp [hconn, hread, NServer.newConnection, Connection.none]
  · rintro m ch₁ hm hch₁ (hT | hT)
    · exact h.control_ne hch₁ hl (by simp [hp]) hT
    · exact hm (h.channel_unique hch hch₁ hT).1

theorem change_accept (hl : t.links l = some link) {id : ConnId} {s' : NServer}
    (hb : s'.Becomes (Function.update t.server.conns l (NServer.newConnection .ncxAcceptor id))
      t.server.scMap t.server.drawn) (hinv : s'.Inv none) :
    Change (· = l) t { t with server := s' } where
  link_eq _ := rfl
  conn_eq hp := by
    show s'.conns _ = _
    rw [hb.conns_eq, Function.update_of_ne hp]
  scMap_eq := hb.scMap_eq
  drawn_eq := hb.drawn_eq
  continues {p lk} _ hlk := ⟨lk, hlk, .refl lk⟩
  made {p} hp := by
    subst hp
    refine .inr ⟨?_, by simp [hl]⟩
    show (s'.conns p).state = _
    rw [hb.conns_eq, Function.update_self]
    rfl
  inv := hinv

theorem accept_ok {id : ConnId} {t' : Tunnel} (ht' : t.accept pb l link id = .ok t') :
    ∃ s', t.server.step pb (.accept link.peer.server l id (.calm [])) = .ok s' ∧
      t' = { t with server := s' } := by
  unfold Tunnel.accept at ht'
  cases hs : t.server.step pb (.accept link.peer.server l id (.calm [])) with
  | error e => simp [hs, bind, Except.bind] at ht'
  | ok s' =>
    simp only [hs, bind, Except.bind, pure, Except.pure, Except.ok.injEq] at ht'
    exact ⟨s', rfl, ht'.symm⟩

theorem accept (h : t.Good) (hl : t.links l = some link) {id : ConnId}
    (hid : t.server.pools link.peer.server id = none) {t' : Tunnel}
    (ht' : t.accept pb l link id = .ok t') : t'.Good := by
  obtain ⟨s', hs, rfl⟩ := accept_ok ht'
  have hord : t.server.Orderly pb (.accept link.peer.server l id (.calm [])) := hid
  have hinv := h.inv.step pb hord hs
  by_cases hnew : (t.server.conns l).state = .connecting
  · have hnone := h.inv.unmade hnew
    cases hp : link.peer with
    | visitor w =>
      rw [hp] at hs
      cases hch : t.server.scMap w.nonce with
      | none =>
        rw [Peer.server, NServer.step_accept_deaf hch, Except.ok.injEq] at hs
        exact hs ▸ h
      | some ch => exact h.accept_visitor hl hp hnew hch hinv hs
    | control c =>
      rw [hp] at hs
      have hb := NServer.step_accept_ncx hnew hs
      have hconn : s'.conns l = NServer.newConnection .ncxAcceptor id := by
        rw [hb.conns_eq, Function.update_self]
      rcases h.control_cases hl hp with hu | ⟨nonce, ch, hch, hctl, hg⟩
      · refine h.change_ungreeted hl hp hl hp (change_accept hl hb hinv) hu rfl ?_
        show Ungreeted (s'.conns l) link c
        rw [hconn]
        rw [hnone] at hu
        exact ⟨fun _ => rfl, hu.input, rfl, hu.waiting, hu.client_input, hu.downRead_eq,
          hu.dataLinks_eq⟩
      · cases hg.handle.symm.trans (congrArg Connection.onMessage hnone)
    | data d =>
      rw [hp] at hs
      have hb := NServer.step_accept_ncx hnew hs
      have hconn : s'.conns l = NServer.newConnection .ncxAcceptor id := by
        rw [hb.conns_eq, Function.update_self]
      obtain ⟨ch, hch, -, hpend | ⟨v, lv, w, -, hj⟩⟩ := h.data_cases hl hp
      · refine h.change_pending hl hp hl hp (change_accept hl hb hinv) hpend rfl ?_
        show Pending (s'.conns l) link d
        rw [hconn]
        rw [hnone] at hpend
        exact { hpend with
          handle := fun _ => rfl
          input := hpend.input
          sent_eq := rfl }
      · exact absurd hnew (h.forwards_made hj.ends.data_handle)
  · rw [NServer.step_accept_again hnew, Except.ok.injEq] at hs
    exact hs ▸ h

end Good

end NcxTunnel.Tunnel
