import NcxTunnel.CloseEffects
import NcxTunnel.HostileFrames
import NcxTunnel.Switchboard

/-!
# The server as a switchboard

Whatever clients and visitors send, whichever connections close, whichever writes
fail and whether or not connection ids repeat: a run of the server moves bytes as a
switchboard does.  Closing changes states, pools and bridge closers and leaves
every byte where it is.
-/

namespace NcxTunnel

open Switchboard

def ServerRef.desk : ServerRef → Option Bytes
  | ncxAcceptor => none
  | proxy nonce => some nonce

def MessageHandle.mode : MessageHandle → Mode Obj
  | unset => .queued
  | handleNewConnection => .greeting
  | forward peer => .joined peer

def Connection.line (c : Connection) (received : Bytes) : Line Obj Bytes UInt8 :=
  ⟨c.server.desk, c.onMessage.mode, c.isControl, received, c.inputBuffer, c.sent⟩

def SControlChannel.desk (ch : SControlChannel) : Desk Obj :=
  ⟨ch.ncxClientConn, ch.waitHandleVisitors, ch.accepted, ch.bridged⟩

namespace NServer

variable (pb : Protobuf)

/-- The messages of this server.  A request is what its parser makes of a frame. -/
def messages : Messages Bytes UInt8 where
  Asks nonce msg := ∃ payload, Frameable payload ∧ msg = headerInstaller payload ∧
    (pb.parseHello payload).2.helloType = .dataChannelHello ∧
    (pb.parseHello payload).2.digest = nonce
  Skips msg := ∃ x : Piece, x.Valid ∧ x.bytes = msg ∧
    ∀ payload, x = .frame payload → (pb.parseHello payload).2.helloType ≠ .dataChannelHello
  Answers msg := ∃ nonce, msg = headerInstaller (controlHello nonce).serializeAsString
  create := headerInstaller createDataChannel.serializeAsString
  start := headerInstaller startForwardTcp.serializeAsString

/-- A connection that has not been made has no line. -/
def board (s : NServer) (received : Obj → Bytes) : Board Obj Bytes UInt8 where
  lines o := if (s.conns o).state = .connecting then none else some ((s.conns o).line (received o))
  desks nonce := (s.scMap nonce).map SControlChannel.desk

/-- The bytes that are read from the connection while the event is handled. -/
def taken (s : NServer) : Event → Obj → Bytes
  | .accept _ _ _ _, _ => []
  | .readable o reads _ _, p =>
      if p = o ∧ (s.conns o).state ≠ .connecting ∧ s.lock ⟨[], []⟩ o then reads.flatten else []

/-- The bytes that are read from the connection in a run. -/
def received : NServer → List Event → Obj → Bytes
  | _, [], _ => []
  | s, ev :: evs, o => s.taken ev o ++
      match s.step pb ev with
      | .error _ => []
      | .ok s' => received s' evs o

section Board

variable {s s' s'' : NServer} {r : Obj → Bytes} {o p : Obj} {a : Answers}
  {f g : Board Obj Bytes UInt8 → Board Obj Bytes UInt8}

theorem board_lines {l : Line Obj Bytes UInt8} : (s.board r).lines o = some l ↔
    (s.conns o).state ≠ .connecting ∧ (s.conns o).line (r o) = l := by
  by_cases h : (s.conns o).state = .connecting
  · simp [board, h]
  · simp [board, h]

theorem board_lines_of_made (h : (s.conns o).state ≠ .connecting) :
    (s.board r).lines o = some ((s.conns o).line (r o)) := board_lines.mpr ⟨h, rfl⟩

theorem board_desks {nonce : Bytes} {ch : SControlChannel} (h : s.scMap nonce = some ch) :
    (s.board r).desks nonce = some ch.desk := by
  simp [board, h]

/-- Both ends of every registered bridge have been made. -/
def EndsMade (s : NServer) : Prop :=
  ∀ ref b, s.bridge ref = some b → (s.conns b.bridgeInside).state ≠ .connecting ∧
    (s.conns b.bridgeOutside).state ≠ .connecting

/-- The switchboard changes by `f`.  No bridge is added and no connection unmade. -/
structure Acts (f : Board Obj Bytes UInt8 → Board Obj Bytes UInt8) (s s' : NServer) : Prop where
  board_eq : ∀ r, s'.board r = f (s.board r)
  bridge_sub : ∀ ref b, s'.bridge ref = some b → s.bridge ref = some b
  made : ∀ p, (s.conns p).state ≠ .connecting → (s'.conns p).state ≠ .connecting

theorem Acts.refl (s : NServer) : Acts id s s := ⟨fun _ => rfl, fun _ _ h => h, fun _ h => h⟩

theorem Acts.trans (h : Acts f s s') (h' : Acts g s' s'') : Acts (g ∘ f) s s'' where
  board_eq r := by rw [h'.board_eq, h.board_eq, Function.comp_apply]
  bridge_sub ref b hb := h.bridge_sub ref b (h'.bridge_sub ref b hb)
  made p hp := h'.made p (h.made p hp)

theorem Acts.endsMade (h : Acts f s s') (hs : s.EndsMade) : s'.EndsMade := by
  intro ref b hb
  obtain ⟨hin, hout⟩ := hs ref b (h.bridge_sub ref b hb)
  exact ⟨h.made _ hin, h.made _ hout⟩

theorem acts_modifyConn {c : Connection → Connection}
    {l : Line Obj Bytes UInt8 → Line Obj Bytes UInt8} (hstate : ∀ x, (c x).state = x.state)
    (hline : ∀ x y, (c x).line y = l (x.line y)) (s : NServer) (o : Obj) :
    Acts (fun b => b.modifyLine o l) s (s.modifyConn o c) := by
  have hst := s.modifyConn_field (o := o) Connection.state hstate
  refine ⟨fun r => Board.ext (funext fun p => ?_) rfl, fun _ _ h => h, fun p hp => (hst p) ▸ hp⟩
  rw [Board.modifyLine_lines]
  simp only [board, hst]
  split
  · rfl
  · rw [modifyConn_conns, Option.map_some, Option.some.injEq]
    split
    · rename_i hp
      rw [hp, hline]
    · rfl

/-! ## Closing -/

theorem closedUnder_made (h : s.EndsMade) :
    s.ClosedUnder fun p => (s.conns p).state ≠ .connecting := by
  rintro x y - ⟨-, -, ref, b, -, hb, rfl | rfl⟩
  · exact (h ref b hb).1
  · exact (h ref b hb).2

theorem untouched_desk (nonce : Bytes) :
    Untouched fun s => (s.scMap nonce).map SControlChannel.desk := by
  refine ⟨fun _ _ => rfl, fun _ _ _ => rfl, fun s ref => ?_⟩
  apply map_modifyChannel_scMap
  intro ch
  rfl

theorem untouched_line (p : Obj) (x : Bytes) : Untouched fun s => (s.conns p).line x :=
  untouched_field (fun c => c.line x) (fun _ _ _ _ => rfl) p

/-- The switchboard does not see what closes. -/
theorem Closing.acts {C : Obj → Prop} (h : Closing C s s')
    (hC : ∀ p, C p → (s.conns p).state ≠ .connecting)
    (hline : ∀ p x, (s'.conns p).line x = (s.conns p).line x)
    (hdesk : ∀ n, (s'.scMap n).map SControlChannel.desk = (s.scMap n).map SControlChannel.desk) :
    Acts id s s' := by
  refine ⟨fun r => Board.ext (funext fun p => ?_) (funext hdesk), h.bridge_sub, h.made⟩
  simp only [board, hline, id]
  by_cases hp : (s.conns p).state = .connecting
  · rw [h.state_eq p fun hc => hC p hc hp]
  · rw [if_neg hp, if_neg (h.made p hp)]

theorem acts_handleClose (h : s.EndsMade) (fr : Frame) (ho : (s.conns o).state ≠ .connecting) :
    Acts id s (s.handleClose fr o) :=
  (Closing.handleClose fr (closedUnder_made h) fun _ => ho).acts (fun _ hp => hp)
    (fun p x => (untouched_line p x).handleClose s fr o)
    (fun n => (untouched_desk n).handleClose s fr o)

theorem acts_destroyBridge (h : s.EndsMade) (fr : Frame) {b : BridgeCloser}
    (hin : (s.conns b.bridgeInside).state ≠ .connecting)
    (hout : (s.conns b.bridgeOutside).state ≠ .connecting) :
    Acts id s (destroyBridgeWith (fun fr s o => s.handleClose fr o) fr s b) :=
  (Closing.destroyBridgeWith (fun fr _ _ hC ho => Closing.handleClose fr hC ho) fr
    (closedUnder_made h) (fun _ => hin) (fun _ => hout)).acts (fun _ hp => hp)
    (fun p x => (untouched_line p x).destroyBridgeWith s fr
      (fun fr s o => (untouched_line p x).handleClose s fr o) b)
    (fun n => (untouched_desk n).destroyBridgeWith s fr
      (fun fr s o => (untouched_desk n).handleClose s fr o) b)

theorem acts_releaseBridge (h : s.EndsMade) (fr : Frame) (ref : BridgeRef) {b : BridgeCloser}
    (hin : (s.conns b.bridgeInside).state ≠ .connecting)
    (hout : (s.conns b.bridgeOutside).state ≠ .connecting) :
    Acts id s (s.releaseBridge fr ref b) := by
  unfold releaseBridge
  split
  · exact .refl s
  · exact acts_destroyBridge h fr hin hout

/-! ## Sending -/

theorem acts_send (h : s.EndsMade) (a : Answers) (fr : Frame)
    (ho : (s.conns o).state ≠ .connecting) (msg : Bytes) :
    Acts (fun b => b.modifyLine o (.say msg)) s (s.send a fr o msg) := by
  have hlog : Acts (fun b => b.modifyLine o (.say msg)) s (s.logSend o msg) := by
    have hsay := acts_modifyConn (c := fun c => { c with sent := c.sent ++ msg }) (l := .say msg)
      (fun _ => rfl) (fun _ _ => rfl) s o
    exact ⟨hsay.board_eq, hsay.bridge_sub, hsay.made⟩
  unfold send
  split
  · exact hlog.trans (acts_handleClose (hlog.endsMade h) fr (hlog.made o ho))
  · exact hlog

/-- Either all input is passed on or all of it stays. -/
theorem acts_forward (h : s.EndsMade) (a : Answers) (fr : Frame) (o : Obj) {peer : Obj}
    (hpeer : (s.conns peer).state ≠ .connecting) : Acts id s (s.forward a fr o peer) ∨
      Acts (fun b => b.pass o peer (s.conns o).inputBuffer) s (s.forward a fr o peer) := by
  unfold forward
  split
  · have hkeep := acts_modifyConn (c := fun c => { c with inputBuffer := [] }) (l := .keep [])
      (fun _ => rfl) (fun _ _ => rfl) s o
    exact .inr (hkeep.trans (acts_send (hkeep.endsMade h) a _ (hkeep.made peer hpeer) _))
  · exact .inl (.refl s)

/-! ## Moves of the server -/

/-- The bytes are where a switchboard has them, and every registered bridge is a join. -/
structure Sound (s : NServer) (r : Obj → Bytes) : Prop where
  inv : Switchboard.Inv (messages pb) (s.board r)
  bridges : ∀ ref b, s.bridge ref = some b → ∃ ch, s.scMap ref.nonce = some ch ∧
    (b.bridgeInside, b.bridgeOutside) ∈ ch.bridged
  unread : ∀ p, (s.conns p).state = .connecting → r p = []

/-- The switchboard makes moves, and a bridge that is added is a join. -/
structure Steps (s : NServer) (r : Obj → Bytes) (s' : NServer) (r' : Obj → Bytes) : Prop where
  moves : Relation.ReflTransGen (Board.Move (messages pb)) (s.board r) (s'.board r')
  bridges : ∀ ref b, s'.bridge ref = some b → s.bridge ref = some b ∨
    ∃ ch, s'.scMap ref.nonce = some ch ∧ (b.bridgeInside, b.bridgeOutside) ∈ ch.bridged
  unread : ∀ p, (s'.conns p).state = .connecting → r' p = r p

variable {pb} {r' r'' : Obj → Bytes}

theorem Sound.endsMade (h : Sound pb s r) : s.EndsMade := by
  intro ref b hb
  obtain ⟨ch, hch, hmem⟩ := h.bridges ref b hb
  obtain ⟨lv, ld, hlv, hld, -⟩ := (h.inv.desk_ok _ _ (board_desks hch)).joined _ _ hmem
  exact ⟨(board_lines.mp hlv).1, (board_lines.mp hld).1⟩

theorem Steps.bridged (h : Steps pb s r s' r') {nonce : Bytes} {ch : SControlChannel}
    (hch : s.scMap nonce = some ch) : ∃ ch', s'.scMap nonce = some ch' ∧ ch.bridged <+: ch'.bridged := by
  obtain ⟨dk, hdk, -, -, hjoined⟩ := (Grows.moves h.moves).desks nonce _ (board_desks hch)
  obtain ⟨ch', hch', rfl⟩ := Option.map_eq_some_iff.mp hdk
  exact ⟨ch', hch', hjoined⟩

theorem Steps.made (h : Steps pb s r s' r') (hp : (s.conns p).state ≠ .connecting) :
    (s'.conns p).state ≠ .connecting := by
  obtain ⟨l, hl, -⟩ := (Grows.moves h.moves).lines p _ (board_lines_of_made hp)
  exact (board_lines.mp hl).1

theorem Steps.sound (h : Steps pb s r s' r') (hs : Sound pb s r) : Sound pb s' r' := by
  refine ⟨hs.inv.moves h.moves, fun ref b hb => ?_, fun p hp => ?_⟩
  · obtain hb | hb := h.bridges ref b hb
    · obtain ⟨ch, hch, hmem⟩ := hs.bridges ref b hb
      obtain ⟨ch', hch', hpre⟩ := h.bridged hch
      exact ⟨ch', hch', hpre.subset hmem⟩
    · exact hb
  · rw [h.unread p hp, hs.unread p (not_not.mp fun hmade => h.made hmade hp)]

theorem Steps.refl (s : NServer) (r : Obj → Bytes) : Steps pb s r s r :=
  ⟨.refl, fun _ _ h => .inl h, fun _ _ => rfl⟩

theorem Steps.trans (h : Steps pb s r s' r') (h' : Steps pb s' r' s'' r'') :
    Steps pb s r s'' r'' := by
  refine ⟨h.moves.trans h'.moves, fun ref b hb => ?_, fun p hp => ?_⟩
  · obtain hb | hb := h'.bridges ref b hb
    · obtain hb | ⟨ch, hch, hmem⟩ := h.bridges ref b hb
      · exact .inl hb
      · obtain ⟨ch', hch', hpre⟩ := h'.bridged hch
        exact .inr ⟨ch', hch', hpre.subset hmem⟩
    · exact .inr hb
  · rw [h'.unread p hp, h.unread p (not_not.mp fun hmade => h'.made hmade hp)]

theorem Acts.steps (h : Acts f s s') (hmove : Board.Move (messages pb) (s.board r) (f (s.board r))) :
    Steps pb s r s' r :=
  ⟨.single (h.board_eq r ▸ hmove), fun ref b hb => .inl (h.bridge_sub ref b hb), fun _ _ => rfl⟩

theorem Acts.still (h : Acts id s s') (r : Obj → Bytes) : Steps pb s r s' r :=
  ⟨h.board_eq r ▸ .refl, fun ref b hb => .inl (h.bridge_sub ref b hb), fun _ _ => rfl⟩

theorem Sound.forward (h : Sound pb s r) (a : Answers) (fr : Frame) {peer : Obj}
    (ho : (s.conns o).state ≠ .connecting) (hfwd : (s.conns o).onMessage = .forward peer) :
    Steps pb s r (s.forward a fr o peer) r := by
  have hl := board_lines_of_made (r := r) ho
  have hmode : ((s.conns o).line (r o)).mode = .joined peer := congrArg MessageHandle.mode hfwd
  obtain ⟨-, lp, hlp, -⟩ := h.inv.ends_of_joined hl hmode
  obtain hacts | hacts := acts_forward h.endsMade a fr o (board_lines.mp hlp).1
  · exact hacts.still r
  · exact hacts.steps (.pass o peer _ hl hmode)

/-- A new control channel has no bridges. -/
theorem emplaceChannel_bridge_sub {nonce : Bytes} {port : UInt16} {ref : BridgeRef} {b : BridgeCloser}
    (hb : (s.emplaceChannel nonce o port).bridge ref = some b) : s.bridge ref = some b := by
  unfold emplaceChannel at hb
  split at hb
  · exact hb
  · have hne : ref.nonce ≠ nonce := by
      intro he
      simp [bridge, he] at hb
    simpa [bridge, hne] using hb

theorem emplaceChannel_steps {l : Line Obj Bytes UInt8} (hl : (s.board r).lines o = some l)
    (hmode : l.mode = .greeting) (hne : l.received ≠ l.input) (nonce : Bytes) (port : UInt16) :
    Steps pb s r (s.emplaceChannel nonce o port) r := by
  refine ⟨?_, fun ref b hb => .inl (emplaceChannel_bridge_sub hb), fun _ _ => rfl⟩
  unfold emplaceChannel
  split
  · exact .refl
  · rename_i hnone
    rw [Option.not_isSome_iff_eq_none] at hnone
    have hown := acts_modifyConn (c := fun c => { c with isControl := true }) (l := .own)
      (fun _ => rfl) (fun _ _ => rfl) s o
    refine .single ?_
    have hmove : Board.Move (messages pb) (s.board r) ((s.board r).openDesk nonce o) :=
      .openDesk nonce o l hl hmode hne (by simp [board, hnone])
    convert hmove using 1
    have hlines := congrArg Board.lines (hown.board_eq r)
    refine Board.ext hlines (funext fun m => ?_)
    rw [Board.openDesk, Board.setDesk_desks]
    simp only [board, Function.update_apply]
    split
    · rfl
    · rfl

theorem controlHello_steps (h : s.EndsMade) (a : Answers) (fr : Frame) {l : Line Obj Bytes UInt8}
    (hl : (s.board r).lines o = some l) (hmode : l.mode = .greeting) (hne : l.received ≠ l.input)
    {name : Bytes} {port : UInt16} (hok : s.handleControlChannelHello a fr o name port = .ok s') : Steps pb s r s' r := by
  unfold handleControlChannelHello at hok
  dsimp only at hok
  split at hok
  · cases hok
  split at hok
  · cases hok
  · cases hok
    have hdraw : Acts id s (s.drawUuid a.uuid) := ⟨fun _ => rfl, fun _ _ h => h, fun _ h => h⟩
    have hsend := hdraw.trans (acts_send (hdraw.endsMade h) a fr (board_lines.mp hl).1
      (headerInstaller (controlHello a.uuid).serializeAsString))
    have hl' : ((send a (s.drawUuid a.uuid) fr o
        (headerInstaller (controlHello a.uuid).serializeAsString)).board r).lines o =
          some (l.say (headerInstaller (controlHello a.uuid).serializeAsString)) := by
      rw [hsend.board_eq, Function.comp_apply, id, Board.modifyLine_lines, hl, Option.map_some,
        if_pos rfl]
    exact (hsend.steps (.answer o l _ hl hmode hne ⟨a.uuid, rfl⟩)).trans
      (emplaceChannel_steps hl' hmode hne _ _)

/-- Up to the registration of the bridge nothing can close. -/
theorem buildBridge_board {nonce : Bytes} {ch : SControlChannel} (hch : s.scMap nonce = some ch)
    {visitor origin : Obj} (hne : visitor ≠ origin) (rest : List Obj) (left uuid : Bytes)
    (r : Obj → Bytes) :
    ((((s.modifyConn origin fun c => { c with inputBuffer := left }).popVisitor nonce visitor origin
      rest).drawUuid uuid).buildBridge ⟨nonce, uuid⟩ visitor origin).board r =
      (((s.board r).modifyLine visitor (.setMode (.joined origin))).modifyLine origin fun l =>
        (l.keep left).setMode (.joined visitor)).setDesk nonce (ch.desk.join visitor origin rest) := by
  refine Board.ext (funext fun p => ?_) (funext fun m => ?_)
  · rw [Board.setDesk_lines, Board.modifyLine_lines, Board.modifyLine_lines, Option.map_map]
    simp only [board, buildBridge_conns _ _ hne, drawUuid, popVisitor, modifyChannel,
      modifyConn_conns, if_neg hne]
    by_cases hv : p = visitor
    · subst hv
      by_cases hst : (s.conns p).state = .connecting
      · simp [hst]
      · simp [hst, hne, Line.setMode, Connection.line, MessageHandle.mode]
    · by_cases ho : p = origin
      · subst ho
        by_cases hst : (s.conns p).state = .connecting
        · simp [hst, hv]
        · simp [hst, hv, Line.setMode, Line.keep, Connection.line, MessageHandle.mode]
      · by_cases hst : (s.conns p).state = .connecting
        · simp [hst, hv, ho]
        · simp [hst, hv, ho]
  · rw [Board.setDesk_desks]
    simp only [board, buildBridge_scMap, drawUuid, popVisitor, modifyChannel_scMap, modifyConn]
    split
    · simp [hch, SControlChannel.desk, Desk.join]
    · rfl

theorem buildBridge_bridge_cases {ref ref' : BridgeRef} {visitor origin : Obj} {b : BridgeCloser}
    (hb : (s.buildBridge ref visitor origin).bridge ref' = some b) :
    s.bridge ref' = some b ∨ ref' = ref ∧ b = ⟨visitor, origin⟩ := by
  obtain ⟨n, i⟩ := ref
  obtain ⟨m, j⟩ := ref'
  simp only [bridge, buildBridge_scMap] at hb ⊢
  by_cases hm : m = n
  · subst hm
    cases hch : s.scMap m with
    | none => simp [hch] at hb
    | some ch =>
      by_cases hj : j = i
      · subst hj
        cases hold : ch.bridgeClosers j with
        | none =>
          simp only [hch, if_pos, Option.map_some, Option.bind_some, Function.update_self, hold,
            Option.getD_none, Option.some.injEq] at hb
          exact .inr ⟨rfl, hb.symm⟩
        | some c =>
          -- the registration is an `emplace`
          simp only [hch, if_pos, Option.map_some, Option.bind_some, Function.update_self, hold,
            Option.getD_some] at hb
          exact .inl (hold.trans hb)
      · simp only [hch, if_pos, Option.map_some, Option.bind_some, Function.update_of_ne hj] at hb
        exact .inl hb
  · rw [if_neg hm] at hb
    exact .inl hb

/-- From the request on, up to the start message that is sent to the data channel. -/
theorem dataHello_joins (h : Sound pb s r) (a : Answers) (fr : Frame) {nonce hello left : Bytes}
    {ch : SControlChannel} (hch : s.scMap nonce = some ch) {visitor origin : Obj} {rest : List Obj}
    (hq : ch.waitHandleVisitors = visitor :: rest) (ho : (s.conns origin).state ≠ .connecting)
    (hmode : (s.conns origin).onMessage = .handleNewConnection)
    (hinput : (s.conns origin).inputBuffer = hello ++ left) (hasks : (messages pb).Asks nonce hello) :
    Steps pb s r (send a ((((s.modifyConn origin fun c => { c with inputBuffer := left }).popVisitor
      nonce visitor origin rest).drawUuid a.uuid).buildBridge ⟨nonce, a.uuid⟩ visitor origin) fr origin
        (headerInstaller startForwardTcp.serializeAsString)) r := by
  have hl := board_lines_of_made (r := r) ho
  have hgreet : ((s.conns origin).line (r origin)).mode = .greeting := congrArg MessageHandle.mode hmode
  have hok := h.inv.desk_ok nonce _ (board_desks hch)
  obtain ⟨lv, hlv, hw⟩ := hok.waiting visitor (by simp [SControlChannel.desk, hq])
  have hne : visitor ≠ origin := by
    rintro rfl
    rw [hl, Option.some.injEq] at hlv
    rw [hlv, hw.mode_eq] at hgreet
    cases hgreet
  have hboard := buildBridge_board hch hne rest left a.uuid
  generalize hs₁ : (((s.modifyConn origin fun c => { c with inputBuffer := left }).popVisitor nonce
    visitor origin rest).drawUuid a.uuid).buildBridge ⟨nonce, a.uuid⟩ visitor origin = s₁ at hboard ⊢
  have hmade : ∀ p, (s₁.conns p).state = (s.conns p).state := by
    intro p
    simp only [← hs₁, buildBridge_conns _ _ hne, drawUuid, popVisitor, modifyChannel,
      modifyConn_conns]
    split_ifs with h₁ h₂
    · rw [h₁]
    · rw [h₂]
    · rfl
  have hnew : ∀ ref b, s₁.bridge ref = some b → s.bridge ref = some b ∨
      ref.nonce = nonce ∧ b = ⟨visitor, origin⟩ := by
    intro ref b hb
    rw [← hs₁] at hb
    obtain hb | ⟨rfl, rfl⟩ := buildBridge_bridge_cases hb
    · have hpop := modifyChannel_bridge (s := s) (f := fun ch => { ch with
        waitHandleVisitors := rest, bridged := ch.bridged ++ [(visitor, origin)] }) (fun _ => rfl)
        nonce ref
      exact .inl (hpop.symm.trans hb)
    · exact .inr ⟨rfl, rfl⟩
  have hends : s₁.EndsMade := by
    intro ref b hb
    rw [hmade, hmade]
    obtain hb | ⟨-, rfl⟩ := hnew ref b hb
    · exact h.endsMade ref b hb
    · exact ⟨(board_lines.mp hlv).1, ho⟩
  have hsend := acts_send hends a fr (hmade origin ▸ ho)
    (headerInstaller startForwardTcp.serializeAsString)
  refine ⟨.single ?_, fun ref b hb => ?_, fun _ _ => rfl⟩
  · have hmove : Board.Move (messages pb) (s.board r) _ := .join nonce ch.desk visitor origin rest _
      hello left (board_desks hch) hq hl hgreet hinput hasks
    convert hmove using 1
    rw [hsend.board_eq, hboard, Board.join]
    refine Board.ext (funext fun p => ?_) rfl
    simp only [Board.modifyLine_lines, Board.setDesk_lines, Option.map_map]
    refine congrArg (fun g => Option.map g _) (funext fun l => ?_)
    by_cases hp : p = origin
    · simp [hp, messages]
    · simp [hp]
  · obtain hb | ⟨hn, rfl⟩ := hnew ref b (hsend.bridge_sub ref b hb)
    · exact .inl hb
    · right
      have hdk := congrArg (fun b => b.desks nonce) (hsend.board_eq r)
      simp only [hboard, Board.modifyLine_desks, Board.setDesk_desks, if_pos] at hdk
      obtain ⟨ch', hch', hdesk⟩ := Option.map_eq_some_iff.mp hdk
      refine ⟨ch', hn ▸ hch', ?_⟩
      have hjoined := congrArg Desk.joined hdesk
      simp only [SControlChannel.desk, Desk.join] at hjoined
      rw [hjoined]
      exact List.mem_append_right _ (List.mem_singleton.mpr rfl)

theorem Sound.flush (h : Sound pb s r) (a : Answers) (fr : Frame) {visitor : Obj}
    (hv : (s.conns visitor).state ≠ .connecting) : Steps pb s r (s.flush a fr visitor) r := by
  unfold NServer.flush
  split
  · rename_i hfwd
    exact h.forward a fr hv hfwd
  · exact .refl s r
  · exact .refl s r

theorem dataHello_steps (h : Sound pb s r) (a : Answers) (fr : Frame) {nonce hello left : Bytes}
    (ho : (s.conns o).state ≠ .connecting) (hmode : (s.conns o).onMessage = .handleNewConnection)
    (hinput : (s.conns o).inputBuffer = hello ++ left) (hasks : (messages pb).Asks nonce hello)
    (hok : (s.modifyConn o fun c => { c with inputBuffer := left }).handleDataChannelHello a fr o
      nonce = .ok s') : Steps pb s r s' r := by
  unfold handleDataChannelHello at hok
  split at hok
  · cases hok
  · rename_i ch hch
    split at hok
    · cases hok
    · rename_i visitor rest hq
      obtain rfl := eq_of_outlives hok
      have hjoin := dataHello_joins h a ⟨visitor :: fr.conns, a.uuid :: fr.bridges⟩ hch hq ho hmode
        hinput hasks
      obtain ⟨lv, hlv, -⟩ := (h.inv.desk_ok nonce _ (board_desks hch)).waiting visitor
        (by simp [SControlChannel.desk, hq])
      have hv := (board_lines.mp hlv).1
      have hflush := (hjoin.sound h).flush a ⟨visitor :: fr.conns, a.uuid :: fr.bridges⟩ (hjoin.made hv)
      have hboth := hjoin.trans hflush
      exact hboth.trans ((acts_releaseBridge (hboth.sound h).endsMade _ _ (hboth.made hv)
        (hboth.made ho)).still r)

/-! ## Events -/

/-- A piece that is no data hello is taken out of the buffer. -/
theorem Steps.skip {x : Piece} {left : Bytes} (ho : (s.conns o).state ≠ .connecting)
    (hmode : (s.conns o).onMessage = .handleNewConnection)
    (hinput : (s.conns o).inputBuffer = x.bytes ++ left) (hx : x.Valid)
    (hframe : ∀ payload, x = .frame payload →
      (pb.parseHello payload).2.helloType ≠ .dataChannelHello) :
    Steps pb s r (s.modifyConn o fun c => { c with inputBuffer := left }) r :=
  (acts_modifyConn (c := fun c => { c with inputBuffer := left }) (l := .keep left)
    (fun _ => rfl) (fun _ _ => rfl) s o).steps
    (.skip o _ x.bytes left (board_lines_of_made ho) (congrArg MessageHandle.mode hmode) hinput
      ⟨x, hx, rfl, hframe⟩)

theorem handleNewConnection_steps (h : Sound pb s r) (a : Answers) (fr : Frame)
    (ho : (s.conns o).state ≠ .connecting) (hmode : (s.conns o).onMessage = .handleNewConnection)
    (hok : s.handleNewConnection pb a fr o = .ok s') : Steps pb s r s' r := by
  have hl := board_lines_of_made (r := r) ho
  have hgreet : ((s.conns o).line (r o)).mode = .greeting := congrArg MessageHandle.mode hmode
  unfold handleNewConnection at hok
  split at hok
  · rename_i buf hattempt
    cases hok
    -- either nothing has been taken out or junk
    rw [Piece.attemptBytes_eq_next] at hattempt
    cases hnext : Piece.next (s.conns o).inputBuffer with
    | none =>
      simp only [hnext, Prod.mk.injEq, true_and] at hattempt
      have hsame : (s.modifyConn o fun c => { c with inputBuffer := buf }) = s := by
        rw [← hattempt, modifyConn, Function.update_eq_self]
      rw [hsame]
      exact .refl s r
    | some p =>
      obtain ⟨x, rest⟩ := p
      simp only [hnext, Prod.mk.injEq] at hattempt
      obtain ⟨hpay, rfl⟩ := hattempt
      obtain ⟨hx, hinput⟩ := (Piece.next_eq_some_iff _ x rest).mp hnext
      refine .skip ho hmode hinput hx fun payload hframe => ?_
      rw [hframe] at hpay
      cases hpay
  · rename_i recvMsg buf hattempt
    obtain ⟨hmsg, hinput⟩ := attemptBytes_eq_some hattempt
    have hskip : (pb.parseHello recvMsg).2.helloType ≠ .dataChannelHello →
        Steps pb s r (s.modifyConn o fun c => { c with inputBuffer := buf }) r := by
      intro htype
      refine .skip (x := .frame recvMsg) ho hmode hinput hmsg fun payload hframe => ?_
      obtain rfl := Piece.frame.inj hframe
      exact htype
    dsimp only at hok
    split at hok
    · rename_i htype
      have hkeep := hskip (by simp [htype])
      have hused : headerInstaller recvMsg ≠ [] := by
        apply List.ne_nil_of_length_pos
        rw [hmsg.headerInstaller_length]
        exact Nat.add_pos_left (List.length_pos_iff.mpr hmsg.ne_nil) _
      have hne : r o ≠ buf := (h.inv.greets hl hgreet).received_ne hinput hused
      refine hkeep.trans (controlHello_steps (hkeep.sound h).endsMade a fr
        (board_lines_of_made (hkeep.made ho)) ?_ ?_ hok)
      · rw [modifyConn_conns, if_pos rfl]
        exact hgreet
      · rw [modifyConn_conns, if_pos rfl]
        exact hne
    · rename_i htype
      exact dataHello_steps h a fr ho hmode hinput ⟨recvMsg, hmsg, rfl, htype, rfl⟩ hok
    · rename_i htype
      cases hok
      exact hskip (by simp [htype])

theorem handleMessage_steps (h : Sound pb s r) (a : Answers) (fr : Frame)
    (ho : (s.conns o).state ≠ .connecting) (hok : s.handleMessage pb a fr o = .ok s') :
    Steps pb s r s' r := by
  unfold handleMessage at hok
  split at hok
  · cases hok
    exact .refl s r
  · rename_i hmode
    exact handleNewConnection_steps h a fr ho hmode hok
  · rename_i hfwd
    obtain rfl := eq_of_outlives hok
    exact h.forward a fr ho hfwd

theorem readNonBlocking_steps (h : Sound pb s r) (fr : Frame) (ho : (s.conns o).state ≠ .connecting)
    (reads : List Bytes) (e : ReadEnd) : Steps pb s r (s.readNonBlocking fr o reads e)
      (Function.update r o (r o ++ reads.flatten)) := by
  have hread : Steps pb s r
      (s.modifyConn o fun c => { c with inputBuffer := c.inputBuffer ++ reads.flatten })
      (Function.update r o (r o ++ reads.flatten)) := by
    refine ⟨.single ?_, fun _ _ hb => .inl hb, fun p hp => ?_⟩
    · have hmove : Board.Move (messages pb) (s.board r) _ := .receive o reads.flatten
      convert hmove using 1
      refine Board.ext (funext fun p => ?_) rfl
      rw [Board.modifyLine_lines]
      simp only [board, modifyConn_conns]
      by_cases hp : p = o
      · subst hp
        by_cases hst : (s.conns p).state = .connecting
        · simp [hst]
        · simp [hst, Connection.line, Line.receive]
      · simp [hp]
    · rw [Function.update_of_ne]
      rintro rfl
      rw [modifyConn_conns, if_pos rfl] at hp
      exact ho hp
  unfold readNonBlocking
  cases e with
  | again => exact hread
  | closed =>
    exact hread.trans ((acts_handleClose (hread.sound h).endsMade fr (hread.made ho)).still _)

theorem handleDataIn_steps (h : Sound pb s r) (a : Answers) (ho : (s.conns o).state ≠ .connecting)
    {reads : List Bytes} {e : ReadEnd} (hok : s.handleDataIn pb a o reads e = .ok s') :
    Steps pb s r s' (Function.update r o (r o ++ reads.flatten)) := by
  have hread := readNonBlocking_steps h ⟨[o], []⟩ ho reads e
  exact hread.trans (handleMessage_steps (hread.sound h) a ⟨[o], []⟩ (hread.made ho) hok)

theorem connect_steps (h : Sound pb s r) (a : Answers) (ho : (s.conns o).state = .connecting)
    (id : ConnId) : Steps pb s r (s.newConnectionHandle a .ncxAcceptor o id) r := by
  refine ⟨.single ?_, fun _ _ hb => .inl hb, fun _ _ => rfl⟩
  have hmove : Board.Move (messages pb) (s.board r) _ := .connect o (by simp [board, ho])
  convert hmove using 1
  refine Board.ext (funext fun p => ?_) rfl
  rw [Board.setLine_lines]
  simp only [board, newConnectionHandle, modifyConn_conns]
  by_cases hp : p = o
  · subst hp
    simp [newConnection, Connection.line, Connection.none, Line.agent, ServerRef.desk,
      MessageHandle.mode, h.unread p ho]
  · simp [hp]

theorem arrive_steps (h : Sound pb s r) (a : Answers) (ho : (s.conns o).state = .connecting)
    (id : ConnId) {nonce : Bytes} {ch : SControlChannel} (hch : s.scMap nonce = some ch) :
    Steps pb s r (s.newConnectionHandle a (.proxy nonce) o id) r := by
  obtain ⟨lc, hlc, -⟩ := (h.inv.desk_ok nonce _ (board_desks hch)).control
  have hcontrol := (board_lines.mp hlc).1
  let s₁ := (s.modifyConn o fun _ => newConnection (.proxy nonce) id).modifyChannel nonce fun ch =>
    { ch with waitHandleVisitors := ch.waitHandleVisitors ++ [o], accepted := ch.accepted ++ [o] }
  obtain ⟨pools, heq⟩ : ∃ pools, s.newConnectionHandle a (.proxy nonce) o id =
      { send a s₁ ⟨[o], []⟩ ch.ncxClientConn (headerInstaller createDataChannel.serializeAsString) with
        pools := pools } := by
    have hch' : (s.modifyConn o fun _ => newConnection (.proxy nonce) id).scMap nonce = some ch := hch
    simp only [newConnectionHandle, hch']
    exact ⟨_, rfl⟩
  have hbridge : ∀ ref, s₁.bridge ref = s.bridge ref := by
    intro ref
    exact modifyChannel_bridge (s := s) (f := fun ch => { ch with
      waitHandleVisitors := ch.waitHandleVisitors ++ [o], accepted := ch.accepted ++ [o] })
      (fun _ => rfl) nonce ref
  have hmade : ∀ p, (s.conns p).state ≠ .connecting → (s₁.conns p).state ≠ .connecting := by
    intro p hp
    have hne : p ≠ o := by
      rintro rfl
      exact hp ho
    have hconn : s₁.conns p = s.conns p := by
      simp [s₁, modifyChannel, modifyConn, hne]
    rwa [hconn]
  have hends : s₁.EndsMade := by
    intro ref b hb
    obtain ⟨hin, hout⟩ := h.endsMade ref b (hbridge ref ▸ hb)
    exact ⟨hmade _ hin, hmade _ hout⟩
  have hboard : s₁.board r = ((s.board r).setLine o (.caller nonce)).setDesk nonce (ch.desk.arrive o) := by
    refine Board.ext (funext fun p => ?_) (funext fun m => ?_)
    · rw [Board.setDesk_lines, Board.setLine_lines]
      simp only [board, s₁, modifyChannel, modifyConn_conns]
      by_cases hp : p = o
      · subst hp
        simp [newConnection, Connection.line, Connection.none, Line.caller, ServerRef.desk,
          MessageHandle.mode, h.unread p ho]
      · simp [hp]
    · rw [Board.setDesk_desks]
      simp only [board, s₁, modifyChannel_scMap, modifyConn]
      split
      · simp [hch, SControlChannel.desk, Desk.arrive]
      · rfl
  have hsend := acts_send hends a ⟨[o], []⟩ (hmade _ hcontrol)
    (headerInstaller createDataChannel.serializeAsString)
  have hmove : Board.Move (messages pb) (s.board r) _ :=
    .arrive nonce ch.desk o (by simp [board, ho]) (board_desks hch)
  rw [heq]
  refine ⟨.single ?_, fun ref b hb => .inl ?_, fun _ _ => rfl⟩
  · rw [Board.arrive, ← hboard] at hmove
    exact hsend.board_eq r ▸ hmove
  · exact hbridge ref ▸ hsend.bridge_sub ref b hb

theorem step_steps (h : Sound pb s r) {ev : Event} (hok : s.step pb ev = .ok s') :
    Steps pb s r s' fun o => r o ++ s.taken ev o := by
  cases ev with
  | accept srv o id a =>
    have hr : (fun p => r p ++ s.taken (.accept srv o id a) p) = r :=
      funext fun p => List.append_nil (r p)
    rw [hr]
    simp only [NServer.step] at hok
    split at hok
    · rename_i hc
      obtain ⟨hlisten, ho⟩ := hc
      obtain rfl := eq_of_outlives hok
      cases srv with
      | ncxAcceptor => exact connect_steps h a ho id
      | proxy nonce =>
        obtain ⟨ch, hch⟩ := Option.isSome_iff_exists.mp hlisten
        exact arrive_steps h a ho id hch
    · cases hok
      exact .refl s r
  | readable o reads e a =>
    simp only [NServer.step] at hok
    split at hok
    · rename_i hc
      have hr : (fun p => r p ++ s.taken (.readable o reads e a) p) =
          Function.update r o (r o ++ reads.flatten) := by
        funext p
        rw [taken, Function.update_apply]
        by_cases hp : p = o
        · rw [if_pos ⟨hp, hc⟩, if_pos hp, hp]
        · rw [if_neg fun hand => hp hand.1, if_neg hp, List.append_nil]
      rw [hr]
      exact handleDataIn_steps h a hc.1 hok
    · rename_i hc
      cases hok
      have hr : (fun p => r p ++ s.taken (.readable o reads e a) p) = r := by
        funext p
        rw [taken, if_neg fun hand => hc hand.2, List.append_nil]
      rw [hr]
      exact .refl s r

theorem run_steps {evs : List Event} (h : Sound pb s r) (hok : run pb s evs = .ok s') :
    Steps pb s r s' fun o => r o ++ received pb s evs o := by
  induction evs generalizing s r with
  | nil =>
    have hs : s = s' := Except.ok.inj hok
    have hr : (fun p => r p ++ received pb s [] p) = r := funext fun p => List.append_nil (r p)
    rw [hr, ← hs]
    exact .refl s r
  | cons ev evs ih =>
    rw [run, List.foldlM_cons] at hok
    cases hstep : s.step pb ev with
    | error e =>
      rw [hstep] at hok
      cases hok
    | ok s₁ =>
      rw [hstep] at hok
      have hfirst := step_steps h hstep
      have hrest := ih (hfirst.sound h) hok
      have hr : (fun p => r p ++ received pb s (ev :: evs) p) =
          fun p => (r p ++ s.taken ev p) ++ received pb s₁ evs p := by
        funext p
        rw [received, hstep, List.append_assoc]
      rw [hr]
      exact hfirst.trans hrest

theorem run_append {evs : List Event} (h : run pb s evs = .ok s') (more : List Event) :
    run pb s (evs ++ more) = run pb s' more := by
  rw [run] at h
  rw [run, List.foldlM_append, h]
  rfl

theorem new_sound (port : UInt16) : Sound pb (new port) fun _ => [] where
  inv := inv_empty (fun _ => rfl) (fun _ => rfl)
  bridges ref b hb := by cases hb
  unread _ _ := rfl

theorem run_sound (port : UInt16) {evs : List Event} (hok : run pb (new port) evs = .ok s) :
    Sound pb s (received pb (new port) evs) := (run_steps (new_sound port) hok).sound (new_sound port)

end Board

theorem run_exampleEvents : run .wire (new 8080) exampleEvents = .ok exampleTunnel := by
  have hsome : (run .wire (new 8080) exampleEvents).toOption.isSome := by decide +kernel
  obtain ⟨s, hs⟩ := Option.isSome_iff_exists.mp hsome
  rw [exampleTunnel, hs, Option.getD_some]
  exact Runs.ok_of_toOption hs

theorem exampleTunnel_channel : ∃ ch, exampleTunnel.scMap exampleNonce = some ch ∧
    ch.bridged = [(1, 2)] := by
  have hbridged : (exampleTunnel.scMap exampleNonce).map SControlChannel.bridged = some [(1, 2)] := by
    decide +kernel
  exact Option.map_eq_some_iff.mp hbridged

/-- Every run of the server is a run of a switchboard that starts without lines
and desks and receives on each line what was read from the connection. -/
theorem run_refines_switchboard (port : UInt16) (evs : List Event) (s : NServer)
    (h : run pb (new port) evs = .ok s) :
    Relation.ReflTransGen (Board.Move (messages pb)) ⟨fun _ => none, fun _ => none⟩
      (s.board (received pb (new port) evs)) := (run_steps (new_sound port) h).moves

theorem run_refines_switchboard_example :
    Relation.ReflTransGen (Board.Move (messages .wire)) ⟨fun _ => none, fun _ => none⟩
      (exampleTunnel.board (received .wire (new 8080) exampleEvents)) :=
  run_refines_switchboard .wire 8080 exampleEvents exampleTunnel run_exampleEvents

/-- The answers to control hellos that have been given these nonces. -/
def controlAnswers (nonces : List Bytes) : Bytes :=
  frames (nonces.map fun nonce => (controlHello nonce).serializeAsString)

variable {pb} in
theorem exists_controlAnswers {as : List Bytes} (h : ∀ x ∈ as, (messages pb).Answers x) :
    ∃ nonces, as.flatten = controlAnswers nonces := by
  have hmem : as ∈ Set.range (List.map fun nonce =>
      headerInstaller (controlHello nonce).serializeAsString) := by
    rw [Set.range_list_map]
    intro x hx
    obtain ⟨nonce, rfl⟩ := h x hx
    exact ⟨nonce, rfl⟩
  obtain ⟨nonces, rfl⟩ := hmem
  refine ⟨nonces, ?_⟩
  rw [controlAnswers, frames, List.map_map]
  rfl

def Passed (x : Piece) : Prop :=
  x.Valid ∧ ∀ payload, x = .frame payload → (pb.parseHello payload).2.helloType ≠ .dataChannelHello

variable {pb} in
theorem exists_passed {skipped : List Bytes} (h : ∀ x ∈ skipped, (messages pb).Skips x) :
    ∃ pieces : List Piece, (∀ x ∈ pieces, Passed pb x) ∧ skipped.flatten = pieces.flatMap Piece.bytes := by
  induction skipped with
  | nil => exact ⟨[], by simp, rfl⟩
  | cons msg skipped ih =>
    obtain ⟨⟨x, hx, rfl, hframe⟩, hrest⟩ := List.forall_mem_cons.mp h
    obtain ⟨pieces, hpieces, heq⟩ := ih hrest
    refine ⟨x :: pieces, List.forall_mem_cons.mpr ⟨⟨hx, hframe⟩, hpieces⟩, ?_⟩
    rw [List.flatten_cons, List.flatMap_cons, heq]

/-- In every run, a visitor that waits has been sent nothing and all its bytes are
kept.  In a bridge, what was read from the data channel is pieces up to the first
data hello, then what the visitor has been sent, then what is still in the buffer;
and what the data channel has been sent behind the start command is what was read
from the visitor, up to what is still in the buffer.  A client that has neither a
channel nor a bridge has been sent answers to control hellos only. -/
theorem streams_intact (port : UInt16) (evs : List Event) (s : NServer)
    (h : run pb (new port) evs = .ok s) :
    (∀ nonce ch, s.scMap nonce = some ch →
      (∀ v ∈ ch.waitHandleVisitors, (s.conns v).sent = [] ∧
        (s.conns v).inputBuffer = received pb (new port) evs v) ∧
      ∀ v d, (v, d) ∈ ch.bridged →
        (∃ (pieces : List Piece) (payload : Bytes), (∀ x ∈ pieces, Passed pb x) ∧ Frameable payload ∧
          (pb.parseHello payload).2.helloType = .dataChannelHello ∧
          (pb.parseHello payload).2.digest = nonce ∧ received pb (new port) evs d =
            pieces.flatMap Piece.bytes ++ headerInstaller payload ++ (s.conns v).sent ++
              (s.conns d).inputBuffer) ∧
        ∃ passed, received pb (new port) evs v = passed ++ (s.conns v).inputBuffer ∧
          ((s.conns d).isControl = false → ∃ nonces, (s.conns d).sent =
            controlAnswers nonces ++ headerInstaller startForwardTcp.serializeAsString ++ passed)) ∧
    ∀ o, (s.conns o).state ≠ .connecting → (s.conns o).onMessage = .handleNewConnection →
      (s.conns o).isControl = false → ∃ nonces, (s.conns o).sent = controlAnswers nonces := by
  have hsound := run_sound port h
  refine ⟨fun nonce ch hch => ?_, fun o hmade hmode hctl => ?_⟩
  · have hok := hsound.inv.desk_ok nonce _ (board_desks hch)
    refine ⟨fun v hv => ?_, fun v d hvd => ?_⟩
    · obtain ⟨l, hl, hw⟩ := hok.waiting v hv
      obtain ⟨-, rfl⟩ := board_lines.mp hl
      exact ⟨hw.sent_eq, hw.input_eq⟩
    · obtain ⟨lv, ld, hlv, hld, hends⟩ := hok.joined v d hvd
      obtain ⟨-, rfl⟩ := board_lines.mp hlv
      obtain ⟨-, rfl⟩ := board_lines.mp hld
      obtain ⟨skipped, hello, passed, hs⟩ := hends.streams
      obtain ⟨pieces, hpieces, heq⟩ := exists_passed hs.skips
      obtain ⟨payload, hmsg, rfl, htype, hdigest⟩ := hs.asks
      refine ⟨⟨pieces, payload, hpieces, hmsg, htype, hdigest, heq ▸ hs.outward⟩, passed, hs.inward,
        fun hctl => ?_⟩
      obtain ⟨as, has, hsent⟩ := hs.sent_eq hctl
      obtain ⟨nonces, hnonces⟩ := exists_controlAnswers has
      exact ⟨nonces, hsent.trans (by rw [hnonces]; rfl)⟩
  · have hgreets := hsound.inv.greets (board_lines_of_made hmade) (congrArg MessageHandle.mode hmode)
    obtain ⟨as, has, hsent⟩ := hgreets.sent_eq hctl
    obtain ⟨nonces, hnonces⟩ := exists_controlAnswers has
    exact ⟨nonces, hsent.trans hnonces⟩

/-- The visitor of the example says "Hi", and the service "OK". -/
def exampleTraffic : List Event :=
  exampleEvents ++ [.readable 1 [[72, 105]] .again (.calm []),
    .readable 2 [[79, 75]] .again (.calm [])]

theorem streams_intact_example :
    ∃ s, run .wire (new 8080) exampleTraffic = .ok s ∧
      (∃ (pieces : List Piece) (payload : Bytes),
        (Protobuf.wire.parseHello payload).2.digest = exampleNonce ∧
        received .wire (new 8080) exampleTraffic 2 =
          pieces.flatMap Piece.bytes ++ headerInstaller payload ++ [79, 75]) ∧
      ∃ nonces, (s.conns 2).sent = controlAnswers nonces ++
        headerInstaller startForwardTcp.serializeAsString ++ [72, 105] := by
  have hview : (run .wire (new 8080) exampleTraffic).toOption.map (fun s =>
      ((s.scMap exampleNonce).map (·.bridged), (s.conns 1).sent, (s.conns 1).inputBuffer,
        (s.conns 2).inputBuffer, (s.conns 2).isControl)) =
          some (some [(1, 2)], [79, 75], [], [], false) := by
    decide +kernel
  obtain ⟨s, hs, hfacts⟩ := Option.map_eq_some_iff.mp hview
  simp only [Prod.mk.injEq] at hfacts
  obtain ⟨hbridged, hsent, hbuf₁, hbuf₂, hctl⟩ := hfacts
  obtain ⟨ch, hch, hbridged⟩ := Option.map_eq_some_iff.mp hbridged
  have hrun := Runs.ok_of_toOption hs
  obtain ⟨⟨pieces, payload, -, -, -, hdigest, hdata⟩, passed, hvisitor, hstart⟩ :=
    ((streams_intact .wire 8080 exampleTraffic s hrun).1 exampleNonce ch hch).2 1 2
      (by simp [hbridged])
  have hpassed : passed = [72, 105] := by
    have hreceived : received .wire (new 8080) exampleTraffic 1 = [72, 105] := by decide +kernel
    rw [hbuf₁, List.append_nil, hreceived] at hvisitor
    exact hvisitor.symm
  rw [hsent, hbuf₂, List.append_nil] at hdata
  exact ⟨s, hrun, ⟨pieces, payload, hdigest, hdata⟩, hpassed ▸ hstart hctl⟩

/-- At every point of every run, the visitors of a channel are those that have been
bridged, in the order they came, and then those that wait.  No connection is in two
bridges, and what follows only adds to the visitors and bridges of a channel. -/
theorem visitors_accounted (port : UInt16) (evs more : List Event) (s s' : NServer)
    (h : run pb (new port) evs = .ok s) (h' : run pb s more = .ok s') :
    (∀ nonce ch, s.scMap nonce = some ch →
      ch.accepted = ch.bridged.map Prod.fst ++ ch.waitHandleVisitors ∧ ch.accepted.Nodup ∧
      (∀ v ∈ ch.accepted, (s.conns v).server = .proxy nonce) ∧
      ∃ ch', s'.scMap nonce = some ch' ∧ ch'.ncxClientConn = ch.ncxClientConn ∧
        ch.accepted <+: ch'.accepted ∧ ch.bridged <+: ch'.bridged) ∧
    ∀ n₁ n₂ ch₁ ch₂ v₁ v₂ d₁ d₂, s.scMap n₁ = some ch₁ → s.scMap n₂ = some ch₂ →
      (v₁, d₁) ∈ ch₁.bridged → (v₂, d₂) ∈ ch₂.bridged → (v₁ = v₂ ∨ v₁ = d₂ ∨ d₁ = v₂ ∨ d₁ = d₂) →
      n₁ = n₂ ∧ v₁ = v₂ ∧ d₁ = d₂ := by
  have hsound := run_sound port h
  refine ⟨fun nonce ch hch => ?_, fun n₁ n₂ ch₁ ch₂ v₁ v₂ d₁ d₂ hch₁ hch₂ h₁ h₂ hcommon => ?_⟩
  · have hok := hsound.inv.desk_ok nonce _ (board_desks hch)
    refine ⟨hok.accepted_eq, hok.nodup, fun v hv => ?_, ?_⟩
    · obtain ⟨l, hl, hdesk⟩ := hok.mem_accepted hv
      obtain ⟨-, rfl⟩ := board_lines.mp hl
      cases hserver : (s.conns v).server with
      | ncxAcceptor => simp [Connection.line, hserver, ServerRef.desk] at hdesk
      | proxy n =>
        simp only [Connection.line, hserver, ServerRef.desk, Option.some.injEq] at hdesk
        rw [hdesk]
    · obtain ⟨dk, hdk, hcontrol, haccepted, hjoined⟩ :=
        (Grows.moves (run_steps hsound h').moves).desks nonce _ (board_desks hch)
      obtain ⟨ch', hch', rfl⟩ := Option.map_eq_some_iff.mp hdk
      exact ⟨ch', hch', hcontrol, haccepted, hjoined⟩
  · obtain ⟨lv₁, ld₁, hlv₁, hld₁, he₁⟩ := (hsound.inv.desk_ok n₁ _ (board_desks hch₁)).joined v₁ d₁ h₁
    obtain ⟨lv₂, ld₂, hlv₂, hld₂, he₂⟩ := (hsound.inv.desk_ok n₂ _ (board_desks hch₂)).joined v₂ d₂ h₂
    obtain ⟨rfl, rfl⟩ := he₂.eq_of_common hlv₂ hld₂ he₁ hlv₁ hld₁ hcommon
    rw [hlv₁, Option.some.injEq] at hlv₂
    have hdesk := he₂.desk_left
    rw [← hlv₂, he₁.desk_left, Option.some.injEq] at hdesk
    exact ⟨hdesk, rfl, rfl⟩

/-- The only visitor of the example stays bridged when it says something. -/
theorem visitors_accounted_example :
    ∃ s' ch', run .wire exampleTunnel [.readable 1 [[72]] .again (.calm [])] = .ok s' ∧
      s'.scMap exampleNonce = some ch' ∧ [(1, 2)] <+: ch'.bridged := by
  have hsome : (run .wire exampleTunnel [.readable 1 [[72]] .again (.calm [])]).toOption.isSome := by
    decide +kernel
  obtain ⟨s', hs'⟩ := Option.isSome_iff_exists.mp hsome
  have hrun := Runs.ok_of_toOption hs'
  obtain ⟨ch, hch, hbridged⟩ := exampleTunnel_channel
  obtain ⟨-, -, -, ch', hch', -, -, hpre⟩ := (visitors_accounted .wire 8080 exampleEvents _
    exampleTunnel s' run_exampleEvents hrun).1 exampleNonce ch hch
  exact ⟨s', ch', hrun, hch', hbridged ▸ hpre⟩

end NServer

end NcxTunnel
