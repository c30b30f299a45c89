import NcxTunnel.ServerStreams
import NcxTunnel.TunnelInvariant

/-!
# A data channel among strangers

A client that follows the protocol opens a data channel on a server that serves
anybody: others send what they like, connections close and writes fail.  Whatever
the visitor and the service say reaches the other one still, in order and with
nothing else in between, up to a point.
-/

namespace NcxTunnel

open Switchboard

variable {pb : Protobuf} {nonce : Bytes}

namespace DataChannel

/-- A client's end that has read `down` from the server and `up` from the service,
which it hears once it has connected. -/
inductive Run (pb : Protobuf) (nonce : Bytes) : Bytes → Bytes → DataChannel → Prop
  | new : Run pb nonce [] [] (new nonce)
  | server {down up : Bytes} {d : DataChannel} (chunk : Bytes) : Run pb nonce down up d →
      Run pb nonce (down ++ chunk) up (d.handleDataIn pb chunk)
  | service {down up : Bytes} {d : DataChannel} (chunk : Bytes) : Run pb nonce down up d →
      d.serviceConnected = true → Run pb nonce down (up ++ chunk) (d.handleServiceIn chunk)

/-- The start command has not been read as a whole. -/
structure Waits (d : DataChannel) (down up : Bytes) : Prop where
  handle : d.onMessage = .waitDataChannelStartCmd
  unconnected : d.serviceConnected = false
  toService_eq : d.toService = []
  input_eq : d.inputBuffer = down
  up_eq : up = []
  short : down.length < startFrame.length

/-- What has been read behind the start command has gone to the service. -/
structure Passes (d : DataChannel) (down : Bytes) : Prop where
  handle : d.onMessage = .forward
  connected : d.serviceConnected = true
  input_eq : d.inputBuffer = []
  down_eq : down = startFrame ++ d.toService

variable {d : DataChannel} {down up : Bytes}

/-- Nothing that comes from the server is answered. -/
theorem handleDataIn_toServer (d : DataChannel) (chunk : Bytes) :
    (d.handleDataIn pb chunk).toServer = d.toServer := by
  unfold handleDataIn handleMessage
  split
  · unfold waitDataChannelStartCmd
    split
    · rfl
    · dsimp only
      split
      · rw [doDataChannelTransforward, forward_eq]
      · rfl
      · rfl
  · rw [forward_eq]

theorem Run.toServer_eq (h : Run pb nonce down up d) : d.toServer = dataHelloFrame nonce ++ up := by
  induction h with
  | new => exact (List.append_nil _).symm
  | server chunk _ ih => rw [handleDataIn_toServer, ih]
  | service chunk _ _ ih => rw [handleServiceIn, ih, List.append_assoc]

/-- On a stream that begins with the start command the end waits for it and then
passes everything on, wherever the chunks are cut. -/
theorem Run.phase (h : Run pb nonce down up d) {rest stream : Bytes}
    (hstream : down ++ rest = startFrame ++ stream) : d.Waits down up ∨ d.Passes down := by
  induction h generalizing rest with
  | new => exact .inl ⟨rfl, rfl, rfl, rfl, rfl, by decide +kernel⟩
  | server chunk _ ih =>
    rename_i down up d _
    rw [List.append_assoc] at hstream
    obtain hw | hp := ih hstream
    · rw [← hw.input_eq, ← List.append_assoc] at hstream
      obtain ⟨ha, hshort⟩ | ⟨tail, ha, htail⟩ := frameable_start.attemptBytes_split hstream
      · rw [handleDataIn_incomplete hw.handle ha]
        exact .inl { hw with input_eq := by rw [hw.input_eq], short := hw.input_eq ▸ hshort }
      · rw [handleDataIn_start hw.handle ha]
        refine .inr ⟨rfl, rfl, rfl, ?_⟩
        rw [← htail, ← List.append_assoc] at hstream
        rw [← hw.input_eq, hw.toService_eq, List.nil_append]
        exact List.append_cancel_right hstream
    · rw [handleDataIn_forward hp.handle]
      refine .inr ⟨hp.handle, hp.connected, rfl, ?_⟩
      rw [hp.input_eq, hp.down_eq, List.nil_append, List.append_assoc]
  | service chunk _ hconnected ih =>
    obtain hw | hp := ih hstream
    · rw [hw.unconnected] at hconnected
      cases hconnected
    · exact .inr ⟨hp.handle, hp.connected, hp.input_eq, hp.down_eq⟩

theorem Run.waits_of_nil (h : Run pb nonce [] up d) : d.Waits [] up := by
  have hstream : [] ++ startFrame = startFrame ++ [] := (List.append_nil _).symm
  obtain hw | hp := h.phase hstream
  · exact hw
  · have hlen := congrArg List.length hp.down_eq
    have hpos : startFrame.length = 7 := by decide +kernel
    rw [List.length_append, List.length_nil, hpos] at hlen
    omega

end DataChannel

namespace NServer

theorem MessageHandle.eq_of_mode {m : MessageHandle} (h : m.mode = .greeting) :
    m = .handleNewConnection := by
  cases m with
  | unset => cases h
  | handleNewConnection => rfl
  | forward peer => cases h

/-- The front of a stream that begins with the greeting. -/
theorem next_dataHelloFrame (h : IsUuid nonce) (rest : Bytes) :
    Piece.next (dataHelloFrame nonce ++ rest) =
      some (.frame (DataChannel.dataHello nonce).serializeAsString, rest) :=
  Piece.next_of_frame (frameable_dataHello h) rest

theorem parse_dataHello (h : IsUuid nonce) :
    (pb.parseHello (DataChannel.dataHello nonce).serializeAsString).2 =
      DataChannel.dataHello nonce :=
  congrArg Prod.snd (pb.parseHello_serialize _ (Hello.valid_of_isUuid .dataChannelHello h))

/-- The greeting is not skipped. -/
theorem skipped_eq_nil (h : IsUuid nonce) {skipped : List Bytes} {rest stream : Bytes}
    (hskips : ∀ x ∈ skipped, (messages pb).Skips x)
    (heq : skipped.flatten ++ rest = dataHelloFrame nonce ++ stream) : skipped = [] := by
  cases skipped with
  | nil => rfl
  | cons msg skipped =>
    obtain ⟨x, hx, rfl, hframe⟩ := hskips msg List.mem_cons_self
    have hnext := next_dataHelloFrame h stream
    rw [← heq, List.flatten_cons, List.append_assoc,
      (Piece.next_eq_some_iff _ x _).mpr ⟨hx, rfl⟩, Option.some.injEq, Prod.mk.injEq] at hnext
    refine absurd ?_ (hframe _ hnext.1)
    rw [parse_dataHello h]
    rfl

/-- The request is the greeting. -/
theorem asks_dataHello (h : IsUuid nonce) {n hello rest stream : Bytes}
    (hasks : (messages pb).Asks n hello) (heq : hello ++ rest = dataHelloFrame nonce ++ stream) :
    n = nonce ∧ rest = stream := by
  obtain ⟨payload, hmsg, rfl, -, rfl⟩ := hasks
  have hnext := next_dataHelloFrame h stream
  rw [← heq, Piece.next_of_frame hmsg, Option.some.injEq, Prod.mk.injEq] at hnext
  obtain ⟨hpayload, hrest⟩ := hnext
  rw [Piece.frame.inj hpayload, parse_dataHello h]
  exact ⟨rfl, hrest⟩

variable {up rising : Bytes}

/-- A party that begins with the greeting and has not been joined has not been spoken to. -/
theorem sent_eq_nil (h : IsUuid nonce) {l : Line Obj Bytes UInt8} (hg : l.Greets (messages pb))
    (hstream : l.received ++ rising = dataHelloFrame nonce ++ up) : l.sent = [] := by
  obtain ⟨skipped, hskips, hreceived⟩ := hg.received_eq
  have heq : skipped.flatten ++ (l.input ++ rising) = dataHelloFrame nonce ++ up := by
    rw [← hstream, hreceived, List.append_assoc]
  rw [skipped_eq_nil h hskips heq] at hreceived
  exact (hg.untouched hreceived).2

/-- A party that begins with the greeting is joined at the desk it names, and both
ends carry what the other one says from the first byte on. -/
theorem ends_of_greeting (h : IsUuid nonce) {n : Bytes} {v o : Obj} {lv ld : Line Obj Bytes UInt8}
    (hends : Ends (messages pb) n v o lv ld)
    (hstream : ld.received ++ rising = dataHelloFrame nonce ++ up) :
    n = nonce ∧ up = lv.sent ++ ld.input ++ rising ∧
      ∃ passed, ld.sent = startFrame ++ passed ∧ lv.received = passed ++ lv.input := by
  obtain ⟨skipped, hello, passed, hs⟩ := hends.streams
  have hreceived := hs.outward
  have heq : skipped.flatten ++ (hello ++ (lv.sent ++ ld.input ++ rising)) =
      dataHelloFrame nonce ++ up := by
    rw [← hstream, hreceived]
    simp only [List.append_assoc]
  have hnil : skipped.flatten = [] := by rw [skipped_eq_nil h hs.skips heq, List.flatten_nil]
  rw [hnil, List.nil_append] at heq
  obtain ⟨hn, hup⟩ := asks_dataHello h hs.asks heq
  exact ⟨hn, hup.symm, passed, (hs.direct hnil).2, hs.inward⟩

/-- In every run of the server a client that follows the protocol is in one of two
phases, as long as what was read on either side is the front part of what the other
side has sent.  Either its data channel has not been bridged, has not been spoken to
and has not connected to the service.  Or it is bridged with a visitor of the channel it
names; the service has said what the visitor has been sent, what lies in the buffer
and what is on its way, and the visitor has said what the service has been sent,
what is on its way and what lies in the buffer. -/
theorem honest_channel_transparent (port : UInt16) (evs : List Event) (s : NServer) (o : Obj)
    (nonce : Bytes) (d : DataChannel) (down up rising falling : Bytes)
    (h : run pb (new port) evs = .ok s) (hnonce : IsUuid nonce)
    (ho : (s.conns o).server = .ncxAcceptor ∧ (s.conns o).state ≠ .connecting)
    (hd : DataChannel.Run pb nonce down up d)
    (hup : d.toServer = received pb (new port) evs o ++ rising)
    (hdown : (s.conns o).sent = down ++ falling) :
    ((s.conns o).onMessage = .handleNewConnection ∧ (s.conns o).sent = [] ∧
      d.serviceConnected = false ∧ d.toService = [] ∧ up = []) ∨
    ∃ ch v later, s.scMap nonce = some ch ∧ (v, o) ∈ ch.bridged ∧
      up = (s.conns v).sent ++ (s.conns o).inputBuffer ++ rising ∧
      received pb (new port) evs v = d.toService ++ later ∧
      (d.serviceConnected = true → later = falling ++ (s.conns v).inputBuffer) ∧
      (falling = [] → d.serviceConnected = true) := by
  have hsound := run_sound port h
  have hl := board_lines_of_made (r := received pb (new port) evs) ho.2
  have hdesk : ((s.conns o).line (received pb (new port) evs o)).desk = none := by
    rw [Connection.line, ho.1, ServerRef.desk]
  have hstream := hup.symm.trans hd.toServer_eq
  cases hsound.inv.line_ok o _ hl with
  | waits k dk hdk hmem =>
    -- a caller has a desk
    obtain ⟨l, hl', hw⟩ := (hsound.inv.desk_ok k dk hdk).waiting o hmem
    rw [hl, Option.some.injEq] at hl'
    rw [hl', hw.desk_eq] at hdesk
    cases hdesk
  | calls k dk p hdk hmem =>
    obtain ⟨lv, ld, hlv, -, hends⟩ := (hsound.inv.desk_ok k dk hdk).joined o p hmem
    rw [hl, Option.some.injEq] at hlv
    rw [hlv, hends.desk_left] at hdesk
    cases hdesk
  | greets hg =>
    left
    have hsent : (s.conns o).sent = [] := sent_eq_nil hnonce hg hstream
    obtain ⟨rfl, -⟩ := List.append_eq_nil_iff.mp (hdown.symm.trans hsent)
    have hw := hd.waits_of_nil
    exact ⟨MessageHandle.eq_of_mode hg.mode_eq, hsent, hw.unconnected, hw.toService_eq, hw.up_eq⟩
  | answers k dk v hdk hmem =>
    right
    obtain ⟨ch, hch, rfl⟩ := Option.map_eq_some_iff.mp hdk
    obtain ⟨lv, ld, hlv, hld, hends⟩ := (hsound.inv.desk_ok k _ hdk).joined v o hmem
    rw [hl, Option.some.injEq] at hld
    subst hld
    obtain ⟨-, rfl⟩ := board_lines.mp hlv
    obtain ⟨rfl, hups, passed, hsent, hinward⟩ := ends_of_greeting hnonce hends hstream
    have hfront : down ++ falling = startFrame ++ passed := hdown.symm.trans hsent
    obtain hw | hp := hd.phase hfront
    · refine ⟨ch, v, passed ++ (s.conns v).inputBuffer, hch, hmem, hups, ?_, ?_, ?_⟩
      · rw [hw.toService_eq]
        exact hinward
      · intro hconnected
        rw [hw.unconnected] at hconnected
        cases hconnected
      · rintro rfl
        have hshort := hw.short
        rw [List.append_nil] at hfront
        rw [hfront, List.length_append] at hshort
        omega
    · refine ⟨ch, v, falling ++ (s.conns v).inputBuffer, hch, hmem, hups, ?_, fun _ => rfl,
        fun _ => hp.connected⟩
      rw [hp.down_eq, List.append_assoc, List.append_cancel_left_eq] at hfront
      rw [← List.append_assoc, hfront]
      exact hinward

/-- The visitor of the example says two bytes and the client has read one of them. -/
theorem honest_channel_transparent_example :
    ∃ s ch v,
      run .wire (new 8080) (exampleEvents ++ [.readable 1 [[72, 105]] .again (.calm [])]) = .ok s ∧
      s.scMap exampleNonce = some ch ∧ (v, 2) ∈ ch.bridged ∧
      received .wire (new 8080) (exampleEvents ++ [.readable 1 [[72, 105]] .again (.calm [])]) v =
        72 :: 105 :: (s.conns v).inputBuffer := by
  let evs := exampleEvents ++ [.readable 1 [[72, 105]] .again (.calm [])]
  let s := (run .wire (new 8080) evs).toOption.getD (new 8080)
  let d := (DataChannel.new exampleNonce).handleDataIn .wire (startFrame ++ [72])
  have hsome : (run .wire (new 8080) evs).toOption.isSome := by decide +kernel
  obtain ⟨s', hs'⟩ := Option.isSome_iff_exists.mp hsome
  have hs : s' = s := by simp only [s, hs', Option.getD_some]
  have hconnected : d.serviceConnected = true := by decide +kernel
  obtain hwait | ⟨ch, v, later, hch, hmem, -, hin, hlater, -⟩ :=
    honest_channel_transparent 8080 evs s 2 exampleNonce d ([] ++ (startFrame ++ [72])) [] [] [105]
      (hs ▸ Runs.ok_of_toOption hs') exampleNonce_isUuid (by decide +kernel) (.server _ .new)
      (by decide +kernel) (by decide +kernel)
  · rw [hwait.2.2.1] at hconnected
    cases hconnected
  · refine ⟨s, ch, v, hs ▸ Runs.ok_of_toOption hs', hch, hmem, hin.trans ?_⟩
    have hservice : d.toService = [72] := by decide +kernel
    rw [hlater hconnected, hservice]
    rfl

end NServer

end NcxTunnel
