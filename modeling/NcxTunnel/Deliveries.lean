import NcxTunnel.Work

/-!
# Deliveries come to an end

However the deliveries of a state are ordered and chunked, there are no more of them
than there is work, and where none is left everything has been read.
-/

namespace NcxTunnel.Tunnel

open Streams

variable {pb : Protobuf} {t t' : Tunnel} {l : Obj} {link link' : Link}

/-! ## Every action keeps the state tidy -/

namespace Tidy

theorem withServer (h : t.Tidy) {s' : NServer}
    (hsent : ∀ p, (t.server.conns p).sent.length ≤ (s'.conns p).sent.length)
    (hchannel : ∀ {m}, (t.server.scMap m).isSome → (s'.scMap m).isSome) :
    Tidy { t with server := s' } where
  finite := h.finite
  upRead_le := h.upRead_le
  downRead_le hl := Nat.le_trans (h.downRead_le hl) (hsent _)
  serviceRead_le := h.serviceRead_le
  listener hl hp := hchannel (h.listener hl hp)

theorem setLink (h : t.Tidy) (hup : link'.upRead ≤ link'.peer.sent.length)
    (hdown : link'.downRead ≤ (t.server.conns l).sent.length)
    (hservice : ∀ d, link'.peer = .data d → d.serviceRead ≤ d.service.length)
    (hlistener : ∀ w, link'.peer = .visitor w → (t.server.scMap w.nonce).isSome) :
    (t.setLink l link').Tidy := by
  have hcases : ∀ {p lk}, (t.setLink l link').links p = some lk →
      p = l ∧ lk = link' ∨ t.links p = some lk := by
    intro p lk hlk
    by_cases hp : p = l
    · subst hp
      rw [setLink_self, Option.some.injEq] at hlk
      exact .inl ⟨rfl, hlk.symm⟩
    · rw [setLink_of_ne t hp] at hlk
      exact .inr hlk
  constructor
  · refine (h.finite.insert l).subset fun p hp => ?_
    by_cases hpl : p = l
    · exact .inl hpl
    · exact .inr fun hnone => hp ((setLink_of_ne t hpl link').trans hnone)
  · intro p lk hlk
    rcases hcases hlk with ⟨-, rfl⟩ | hlk
    · exact hup
    · exact h.upRead_le hlk
  · intro p lk hlk
    rcases hcases hlk with ⟨rfl, rfl⟩ | hlk
    · exact hdown
    · exact h.downRead_le hlk
  · intro p lk d hlk hd
    rcases hcases hlk with ⟨-, rfl⟩ | hlk
    · exact hservice d hd
    · exact h.serviceRead_le hlk hd
  · intro p lk w hlk hw
    rcases hcases hlk with ⟨-, rfl⟩ | hlk
    · exact hlistener w hw
    · exact h.listener hlk hw

theorem accept (h : t.Tidy) (hgood : t.Good) (hl : t.links l = some link) {id : ConnId}
    (ht' : t.accept pb l link id = .ok t') : t'.Tidy := by
  obtain ⟨s', hs, rfl⟩ := Good.accept_ok ht'
  by_cases hst : (t.server.conns l).state = .connecting
  · have hd := drains_accept hgood h hl hst hs
    exact h.withServer hd.sent_le hd.channel
  · rw [NServer.step_accept_again hst, Except.ok.injEq] at hs
    exact hs ▸ h

end Tidy

theorem drains_serverRead (hgood : t.Good) (htidy : t.Tidy) (hl : t.links l = some link)
    (hst : (t.server.conns l).state ≠ .connecting) {k : ℕ} {a : Answers}
    (hw : ∀ n, a.writeFails n = false) (huuid : IsUuid a.uuid) (hfresh : a.uuid ∉ t.server.drawn)
    (ht' : t.serverRead pb l link k a = .ok t') : ∃ s', t' = t.afterRead s' l link k ∧
      Drains (arriving link.peer.sent link.upRead k).length t t' := by
  obtain ⟨s', hs, rfl⟩ := Good.serverRead_ok ht'
  refine ⟨s', rfl, ?_⟩
  cases hp : link.peer with
  | control c => exact hp ▸ drains_control htidy hl hgood hst hs hw hfresh huuid hp
  | data d => exact hp ▸ drains_data htidy hl hgood hst hs hw hp
  | visitor w => exact hp ▸ drains_visitor htidy hl hgood hst hs hw hp

namespace Tidy

/-- Only the other end of the link changes. -/
theorem further (h : t.Tidy) (hl : t.links l = some link)
    (hup : link'.upRead ≤ link'.peer.sent.length)
    (hdown : link'.downRead ≤ (t.server.conns l).sent.length)
    (hservice : ∀ d, link'.peer = .data d → d.serviceRead ≤ d.service.length)
    (hnonce : ∀ w', link'.peer = .visitor w' → ∃ w, link.peer = .visitor w ∧ w'.nonce = w.nonce) :
    (t.setLink l link').Tidy := by
  refine h.setLink hup hdown hservice fun w' hw' => ?_
  obtain ⟨w, hw, he⟩ := hnonce w' hw'
  rw [he]
  exact h.listener hl hw

theorem serverRead (h : t.Tidy) (hgood : t.Good) (hl : t.links l = some link)
    (hst : (t.server.conns l).state ≠ .connecting) {k : ℕ} {a : Answers}
    (hw : ∀ n, a.writeFails n = false) (huuid : IsUuid a.uuid) (hfresh : a.uuid ∉ t.server.drawn)
    (ht' : t.serverRead pb l link k a = .ok t') : t'.Tidy := by
  obtain ⟨s', rfl, hd⟩ := drains_serverRead hgood h hl hst hw huuid hfresh ht'
  have hserver : Tidy { t with server := s' } := h.withServer hd.sent_le hd.channel
  have hdown : link.downRead ≤ (s'.conns l).sent.length := hserver.downRead_le hl
  exact hserver.further hl (read_add_length_arriving_le _ _ (h.upRead_le hl)) hdown
    (fun d hd => h.serviceRead_le hl hd) fun w hw => ⟨w, hw, rfl⟩

theorem clientRead (h : t.Tidy) (hl : t.links l = some link) (k : ℕ) (l' : Obj) :
    (t.clientRead pb l link k l').Tidy := by
  have hup := h.upRead_le hl
  have hdown := read_add_length_arriving_le _ k (h.downRead_le hl)
  unfold Tunnel.clientRead
  cases hp : link.peer with
  | data d =>
    rw [hp] at hup
    refine h.further hl ?_ hdown ?_ ?_
    · simpa [Peer.sent, handleDataIn_toServer] using hup
    · rintro d' ⟨⟩
      have hle := h.serviceRead_le hl hp
      exact hle
    · rintro w ⟨⟩
  | visitor w =>
    rw [hp] at hup
    refine h.further hl hup hdown ?_ ?_
    · rintro d ⟨⟩
    · rintro w' ⟨⟩
      exact ⟨w, hp, rfl⟩
  | control c =>
    rw [hp] at hup
    dsimp only
    split
    · exact h
    · unfold Tunnel.controlRead
      rcases c.channel.handleDataIn pb (arriving (t.server.conns l).sent link.downRead k) with
        ⟨_ | nonce, channel⟩
      · refine h.further hl hup hdown ?_ ?_
        · rintro d ⟨⟩
        · rintro w ⟨⟩
      · refine Tidy.setLink (h.further hl hup hdown ?_ ?_) (Nat.zero_le _) (Nat.zero_le _) ?_ ?_
        · rintro d ⟨⟩
        · rintro w ⟨⟩
        · rintro d ⟨⟩
          exact Nat.le_refl _
        · rintro w ⟨⟩

theorem visitorSend (h : t.Tidy) (hl : t.links l = some link) (data : Bytes) :
    (t.visitorSend l link data).Tidy := by
  have hup := h.upRead_le hl
  have hdown := h.downRead_le hl
  unfold Tunnel.visitorSend
  cases hp : link.peer with
  | control c => exact h
  | data d => exact h
  | visitor w =>
    rw [hp] at hup
    refine h.further hl ?_ hdown ?_ ?_
    · rw [Peer.sent, List.length_append]
      exact Nat.le_add_right_of_le hup
    · rintro d ⟨⟩
    · rintro w' ⟨⟩
      exact ⟨w, hp, rfl⟩

theorem serviceSend (h : t.Tidy) (hl : t.links l = some link) (data : Bytes) :
    (t.serviceSend l link data).Tidy := by
  have hup := h.upRead_le hl
  have hdown := h.downRead_le hl
  unfold Tunnel.serviceSend
  cases hp : link.peer with
  | control c => exact h
  | visitor w => exact h
  | data d =>
    rw [hp] at hup
    dsimp only
    split
    · refine h.further hl hup hdown ?_ ?_
      · rintro d' ⟨⟩
        rw [List.length_append]
        exact Nat.le_add_right_of_le (h.serviceRead_le hl hp)
      · rintro w ⟨⟩
    · exact h

theorem serviceRead (h : t.Tidy) (hl : t.links l = some link) (k : ℕ) :
    (t.serviceRead l link k).Tidy := by
  have hup := h.upRead_le hl
  have hdown := h.downRead_le hl
  unfold Tunnel.serviceRead
  cases hp : link.peer with
  | control c => exact h
  | visitor w => exact h
  | data d =>
    rw [hp] at hup
    refine h.further hl ?_ hdown ?_ ?_
    · rw [Peer.sent, DataChannel.handleServiceIn, List.length_append]
      exact Nat.le_add_right_of_le hup
    · rintro d' ⟨⟩
      exact read_add_length_arriving_le _ k (h.serviceRead_le hl hp)
    · rintro w ⟨⟩

theorem step (h : t.Tidy) (hgood : t.Good) {act : Action} (hact : t.Granted act)
    (ht' : t.step pb act = .ok t') : t'.Tidy := by
  cases step_does ht' with
  | nothing => exact h
  | openControl hl id args =>
    refine h.setLink (Nat.zero_le _) (Nat.zero_le _) ?_ ?_
    · rintro d ⟨⟩
    · rintro w ⟨⟩
  | openVisitor hl hlistens =>
    refine h.setLink (Nat.zero_le _) (Nat.zero_le _) ?_ ?_
    · rintro d ⟨⟩
    · rintro w ⟨⟩
      exact hlistens
  | accept hl hok => exact h.accept hgood hl hok
  | visitorSend hl data => exact h.visitorSend hl data
  | serviceSend hl data => exact h.serviceSend hl data
  | serverRead hl hst hok => exact h.serverRead hgood hl hst (fun _ => rfl) hact.1 hact.2 hok
  | clientRead hl k l' => exact h.clientRead hl k l'
  | serviceRead hl k => exact h.serviceRead hl k

end Tidy

theorem new_tidy (port : UInt16) : (new port).Tidy where
  finite := by simp [new]
  upRead_le h := nomatch h
  downRead_le h := nomatch h
  serviceRead_le h := nomatch h
  listener h := nomatch h

theorem Reachable.tidy {port : UInt16} (h : Reachable pb port t) : t.Tidy := by
  have hboth : t.Good ∧ t.Tidy :=
    h.invariant (fun t => t.Good ∧ t.Tidy) ⟨new_good port, new_tidy port⟩
      fun _ _ _ hs hact ht' => ⟨hs.1.step hact ht', hs.2.step hs.1 hact ht'⟩
  exact hboth.2

/-- An accept of a link that is not accepted yet, or a read that takes a byte at least; the
link of a new data channel is new. -/
def Delivery (t : Tunnel) : Action → Prop
  | .openControl _ _ _ => False
  | .openVisitor _ _ => False
  | .visitorSend _ _ => False
  | .serviceSend _ _ => False
  | .accept l _ => (t.links l).isSome ∧ (t.server.conns l).state = .connecting
  | .serverRead l k _ _ _ => 0 < k ∧ (t.server.conns l).state ≠ .connecting ∧
      ∃ link ∈ t.links l, link.upRead < link.peer.sent.length
  | .clientRead l k l' => 0 < k ∧ (t.links l').isNone ∧
      ∃ link ∈ t.links l, link.downRead < (t.server.conns l).sent.length
  | .serviceRead l k => 0 < k ∧ ∃ link ∈ t.links l, 0 < link.peer.serviceUnread

instance (t : Tunnel) (act : Action) : Decidable (t.Delivery act) :=
  match act with
  | .openControl _ _ _ => isFalse id
  | .openVisitor _ _ => isFalse id
  | .visitorSend _ _ => isFalse id
  | .serviceSend _ _ => isFalse id
  | .accept _ _ => inferInstanceAs (Decidable (_ ∧ _))
  | .serverRead _ _ _ _ _ => inferInstanceAs (Decidable (_ ∧ _ ∧ ∃ link ∈ t.links _, _))
  | .clientRead _ _ _ => inferInstanceAs (Decidable (_ ∧ _ ∧ ∃ link ∈ t.links _, _))
  | .serviceRead _ _ => inferInstanceAs (Decidable (_ ∧ ∃ link ∈ t.links _, _))

/-- Deliveries only, one after the other. -/
abbrev Delivers (pb : Protobuf) : List Action → Tunnel → Tunnel → Prop :=
  Ranking.Path (step pb) fun t act => t.Granted act ∧ t.Delivery act

theorem arriving_pos {α : Type*} {sent : List α} {read k : ℕ} (hk : 0 < k)
    (h : read < sent.length) : 0 < (arriving sent read k).length := by
  simp only [arriving, List.length_take, List.length_drop]
  omega

theorem Delivery.drains {act : Action} (hdel : t.Delivery act) (hgood : t.Good) (htidy : t.Tidy)
    (hact : t.Granted act) (ht' : t.step pb act = .ok t') : ∃ n, 0 < n ∧ Drains n t t' := by
  cases act with
  | openControl l id args => exact hdel.elim
  | openVisitor l nonce => exact hdel.elim
  | visitorSend l data => exact hdel.elim
  | serviceSend l data => exact hdel.elim
  | accept l id =>
    obtain ⟨hsome, hnew⟩ := hdel
    obtain ⟨link, hl⟩ := Option.isSome_iff_exists.mp hsome
    simp only [Tunnel.step, hl] at ht'
    obtain ⟨s', hs, rfl⟩ := Good.accept_ok ht'
    exact ⟨1, Nat.one_pos, drains_accept hgood htidy hl hnew hs⟩
  | serverRead l k uuid bindRefused ephemeralPort =>
    obtain ⟨hk, hst, link, hl, hlt⟩ := hdel
    simp only [Tunnel.step, Option.mem_def.mp hl, if_neg hst] at ht'
    obtain ⟨s', -, hd⟩ := drains_serverRead hgood htidy hl hst (fun _ => rfl) hact.1 hact.2 ht'
    exact ⟨_, arriving_pos hk hlt, hd⟩
  | clientRead l k l' =>
    obtain ⟨hk, hl', link, hl, hlt⟩ := hdel
    simp only [Tunnel.step, Option.mem_def.mp hl, Except.ok.injEq] at ht'
    subst ht'
    refine ⟨_, arriving_pos hk hlt, ?_⟩
    cases hp : link.peer with
    | control c => exact drains_controlRead hgood htidy hl k hp (Option.isNone_iff_eq_none.mp hl')
    | data d => exact drains_dataRead htidy hl k hp l'
    | visitor w => exact drains_visitorRead htidy hl k hp l'
  | serviceRead l k =>
    obtain ⟨hk, link, hl, hlt⟩ := hdel
    simp only [Tunnel.step, Option.mem_def.mp hl, Except.ok.injEq] at ht'
    subst ht'
    cases hp : link.peer with
    | control c => simp [hp, Peer.serviceUnread] at hlt
    | visitor w => simp [hp, Peer.serviceUnread] at hlt
    | data d =>
      rw [hp, Peer.serviceUnread] at hlt
      exact ⟨_, arriving_pos hk (Nat.lt_of_sub_pos hlt), drains_serviceRead htidy hl k hp⟩

/-- There is always a name for one more link. -/
theorem Tidy.exists_none (h : t.Tidy) : ∃ l, t.links l = none := by
  obtain ⟨l, hl⟩ := h.finite.exists_notMem
  exact ⟨l, not_not.mp hl⟩

/-- Where no delivery is left, everything has been read. -/
theorem Tidy.quiescent_iff (h : t.Tidy) : t.Quiescent ↔ ∀ act, ¬t.Delivery act := by
  constructor
  · intro hq act hdel
    cases act with
    | openControl l id args => exact hdel
    | openVisitor l nonce => exact hdel
    | visitorSend l data => exact hdel
    | serviceSend l data => exact hdel
    | accept l id =>
      obtain ⟨link, hl⟩ := Option.isSome_iff_exists.mp hdel.1
      exact (hq l link hl).1 hdel.2
    | serverRead l k uuid bindRefused ephemeralPort =>
      obtain ⟨-, -, link, hl, hlt⟩ := hdel
      exact hlt.ne (hq l link hl).2.1
    | clientRead l k l' =>
      obtain ⟨-, -, link, hl, hlt⟩ := hdel
      exact hlt.ne (hq l link hl).2.2.1
    | serviceRead l k =>
      obtain ⟨-, link, hl, hlt⟩ := hdel
      exact hlt.ne' (hq l link hl).2.2.2
  · intro hnone l link hl
    obtain ⟨l', hl'⟩ := h.exists_none
    have hst : (t.server.conns l).state ≠ .connecting := fun hnew =>
      hnone (.accept l 0) ⟨Option.isSome_of_eq_some hl, hnew⟩
    refine ⟨hst, ?_, ?_, ?_⟩
    · exact (h.upRead_le hl).eq_of_not_lt fun hlt =>
        hnone (.serverRead l 1 [] false 0) ⟨Nat.one_pos, hst, link, hl, hlt⟩
    · exact (h.downRead_le hl).eq_of_not_lt fun hlt =>
        hnone (.clientRead l 1 l') ⟨Nat.one_pos, Option.isNone_iff_eq_none.mpr hl', link, hl, hlt⟩
    · exact Nat.eq_zero_of_not_pos fun hlt =>
        hnone (.serviceRead l 1) ⟨Nat.one_pos, link, hl, hlt⟩

/-- The answer of the service in the example, on its way to the visitor. -/
def exampleDeliveries : List Action :=
  [.serviceRead 2 99, .serverRead 2 99 (List.replicate 36 4) false 0, .clientRead 1 99 3]

end NcxTunnel.Tunnel
