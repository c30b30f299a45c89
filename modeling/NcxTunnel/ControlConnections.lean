import NcxTunnel.CloseEffects

/-!
# The connections of control channels

Nothing ever takes a channel out of `sc_map_`, so a control channel outlives its
connection unless nothing closes that connection.
-/

namespace NcxTunnel.NServer

variable (pb : Protobuf) {s s' : NServer}

def ControlsConnected (s : NServer) : Prop :=
  ∀ nonce c, s.control nonce = some c → (s.conns c).state = .connected

/-- The event closes no control connection, and a control hello comes on a connection
that is connected and that the event does not close either. -/
def SparesControls (s : NServer) (ev : Event) : Prop :=
  s.UuidFresh pb ev ∧ (∀ nonce c, s.control nonce = some c → ¬s.Closes pb ev c) ∧
    match ev with
    | .accept _ _ _ _ => True
    | .readable o reads _ _ => ∀ hello, s.greeting pb o reads = some hello →
        hello.helloType = .controlChannelHello →
          (s.conns o).state = .connected ∧ ¬s.Closes pb ev o

theorem ControlsConnected.accept (h : s.ControlsConnected) {srv : ServerRef} {o : Obj}
    {id : ConnId} {a : Answers} (hnew : (s.conns o).state = .connecting)
    (hspares : ∀ nonce c, s.control nonce = some c → ¬s.Closes pb (.accept srv o id a) c) :
    (s.newConnectionHandle a srv o id).ControlsConnected := by
  obtain ⟨s₁, hs₁, haffects, hcontrol, -⟩ := newConnectionHandle_effect pb s a srv hnew id
  intro nonce c hc
  rw [hs₁] at hc ⊢
  have hc₀ : s.control nonce = some c := (hcontrol nonce).symm.trans hc
  have hconnected := h nonce c hc₀
  have hne : c ≠ o := by
    rintro rfl
    rw [hnew] at hconnected
    cases hconnected
  change (s₁.conns c).state = .connected
  rw [haffects.state_eq c (hspares nonce c hc₀), modifyConn_conns, if_neg hne]
  exact hconnected

theorem ControlsConnected.step (h : s.ControlsConnected) {ev : Event}
    (hspares : s.SparesControls pb ev) (hok : s.step pb ev = .ok s') : s'.ControlsConnected := by
  obtain ⟨huuid, hcontrols, hgreeting⟩ := hspares
  cases ev with
  | accept srv o id a =>
    rcases step_accept_cases hok with ⟨hnew, rfl⟩ | rfl
    · exact h.accept pb hnew hcontrols
    · exact h
  | readable o reads e a =>
    rcases step_readable_cases hok with ⟨-, hread⟩ | rfl
    · have heffect : s.ReadEffect pb o reads e a s' := handleDataIn_effect huuid hread
      intro nonce c hc
      rcases heffect.control_new nonce c hc with hc | ⟨rfl, hello, hhello, ht⟩
      · rw [heffect.affects.state_eq c (hcontrols nonce c hc)]
        exact h nonce c hc
      -- a new channel belongs to the connection that has greeted
      · obtain ⟨hconnected, hopen⟩ := hgreeting hello hhello ht
        rw [heffect.affects.state_eq c hopen]
        exact hconnected
    · exact h

/-- As long as no event closes a control connection, the connection of every control
channel is connected, and so is the one behind every proxy port that accepts visitors. -/
theorem control_channels_connected (port : UInt16) (s : NServer)
    (h : Runs.ReachableBy (NServer.step pb) (SparesControls pb) (new port) s) :
    (∀ nonce ch, s.scMap nonce = some ch → (s.conns ch.ncxClientConn).state = .connected) ∧
    ∀ nonce, s.listening (.proxy nonce) = true →
      ∃ ch, s.scMap nonce = some ch ∧ (s.conns ch.ncxClientConn).state = .connected := by
  have hinv : s.ControlsConnected := by
    refine h.invariant ControlsConnected (fun nonce c hc => ?_) fun s ev s' hs hpre hok =>
      hs.step pb hpre hok
    simp [control, new] at hc
  have hchannel : ∀ nonce ch, s.scMap nonce = some ch →
      (s.conns ch.ncxClientConn).state = .connected := fun nonce ch hch =>
    hinv nonce ch.ncxClientConn (control_eq hch)
  refine ⟨hchannel, fun nonce hlistening => ?_⟩
  obtain ⟨ch, hch⟩ := Option.isSome_iff_exists.mp hlistening
  exact ⟨ch, hch, hchannel nonce ch hch⟩

/-- A client has connected and greets. -/
theorem control_channels_connected_example :
    ∃ s ch, Runs.ReachableBy (NServer.step .wire) (SparesControls .wire) (new 8080) s ∧
      s.scMap exampleNonce = some ch ∧ (s.conns ch.ncxClientConn).state = .connected := by
  obtain ⟨s₁, hs₁⟩ : ∃ s₁, s₁ = (new 8080).newConnectionHandle (.calm []) .ncxAcceptor 0 1 := ⟨_, rfl⟩
  obtain ⟨hello, hhello⟩ : ∃ hello, hello =
    headerInstaller (Hello.serializeAsString ⟨some .controlChannelHello, some exampleNonce, none⟩) :=
      ⟨_, rfl⟩
  have haccept : (new 8080).step .wire (.accept .ncxAcceptor 0 1 (.calm [])) = .ok s₁ := hs₁ ▸ rfl
  have hchannel : ((s₁.step .wire (.readable 0 [hello] .again
      (.calm exampleNonce))).toOption.bind (·.scMap exampleNonce)).isSome := by
    rw [hs₁, hhello]
    decide +kernel
  obtain ⟨ch, hch⟩ := Option.isSome_iff_exists.mp hchannel
  obtain ⟨s₂, hs₂, hch⟩ := Option.bind_eq_some_iff.mp hch
  have hcalm : ∀ ev x, (ev = .accept .ncxAcceptor 0 1 (.calm []) ∨
      ev = .readable 0 [hello] .again (.calm exampleNonce)) → ∀ s : NServer, ¬s.Closes .wire ev x := by
    rintro ev x (rfl | rfl) s
    · simp [Closes, Answers.calm]
    · simp [Closes, Answers.calm]
  have hpre₁ : (new 8080).SparesControls .wire (.accept .ncxAcceptor 0 1 (.calm [])) :=
    ⟨trivial, fun _ _ _ => hcalm _ _ (.inl rfl) _, trivial⟩
  have hpre₂ : s₁.SparesControls .wire (.readable 0 [hello] .again (.calm exampleNonce)) := by
    refine ⟨fun _ _ => hs₁ ▸ rfl, fun _ _ _ => hcalm _ _ (.inr rfl) _, fun _ _ _ => ?_⟩
    exact ⟨hs₁ ▸ rfl, hcalm _ _ (.inr rfl) _⟩
  have hreach : Runs.ReachableBy (NServer.step .wire) (SparesControls .wire) (new 8080) s₂ :=
    .tail (.tail .refl hpre₁ haccept) hpre₂ (Runs.ok_of_toOption hs₂)
  exact ⟨s₂, ch, hreach, hch, (control_channels_connected .wire 8080 s₂ hreach).1 _ ch hch⟩

/-- The client closes: its channel stays, and the next visitor is queued there. -/
theorem visitor_queued_on_dead_channel :
    ∃ s ch, Reachable .wire 8080 s ∧ s.scMap exampleNonce = some ch ∧
      (s.conns ch.ncxClientConn).state = .disconnected ∧ ch.waitHandleVisitors = [1] := by
  let evs := exampleEvents.take 2 ++ [.readable 0 [] .closed (.calm []),
    .accept (.proxy exampleNonce) 1 1 (.calm [])]
  have hview : ((run .wire (new 8080) evs).toOption.bind fun s => (s.scMap exampleNonce).map fun ch =>
      ((s.conns ch.ncxClientConn).state, ch.waitHandleVisitors)) = some (.disconnected, [1]) := by
    decide +kernel
  obtain ⟨s, hs, hch⟩ := Option.bind_eq_some_iff.mp hview
  obtain ⟨ch, hch, hfacts⟩ := Option.map_eq_some_iff.mp hch
  rw [Prod.mk.injEq] at hfacts
  exact ⟨s, ch, ⟨evs, Runs.ok_of_toOption hs⟩, hch, hfacts⟩

end NcxTunnel.NServer
