import NcxTunnel.DataChannel
import NcxTunnel.NServer

/-!
# The data channels of a control channel

`ncx_client/datachannel.cpp` and `handle_cmd_create_datachannel` of
`ncx_client/ccontrolchannel.cpp`, with the connections of the two clients of a
data channel.  The loss of the connection to the server deletes the channel, the
loss of the connection to the service does not.  The outcome of reads and writes
is part of the event; a failed write returns, as it does not with SIGPIPE; connects
succeed.
-/

namespace NcxTunnel

/-- A data channel that has been constructed.  Destroying it closes its connections. -/
structure PooledChannel where
  channelId : Bytes
  channel : DataChannel
  /-- `server_client_->get_connection()` is not null -/
  serverConn : Bool
  /-- `service_client_->get_connection()` is not null -/
  serviceConn : Bool
  deleteSet : Bool
deriving Repr, DecidableEq

structure DataPool where
  channels : Obj → Option PooledChannel
  dataPool : Bytes → Option Obj

inductive DataFault where
  | badFunctionCall
  | nullSend
  | useAfterFree
deriving Repr, DecidableEq

namespace PooledChannel

/-! ## Handlers of the connection to the server -/

/-- The lambda that forwards to the service.  A failed write closes that connection. -/
def forward (writeFails : Bool) (en : PooledChannel) : Except DataFault PooledChannel :=
  if en.channel.inputBuffer = [] then .ok en
  else if en.serviceConn then
    .ok { en with channel := en.channel.forward, serviceConn := !writeFails }
  else .error .nullSend

def doDataChannelTransforward (writeFails : Bool) (en : PooledChannel) :
    Except DataFault PooledChannel :=
  let d := { en.channel with onMessage := .forward, serviceConnected := true }
  forward writeFails { en with channel := d, serviceConn := true }

def waitDataChannelStartCmd (pb : Protobuf) (writeFails : Bool) (en : PooledChannel) :
    Except DataFault PooledChannel :=
  match attemptBytes en.channel.inputBuffer with
  | (none, buf) => .ok { en with channel := { en.channel with inputBuffer := buf } }
  | (some recvCmd, buf) =>
      let en := { en with channel := { en.channel with inputBuffer := buf } }
      match (pb.parseDataChannelCmd recvCmd).2.dataChannelCmd with
      | .startForwardTcp => en.doDataChannelTransforward writeFails
      | .startForwardUdp => .ok en
      | .unnamed _ => .ok en

def handleMessage (pb : Protobuf) (writeFails : Bool) (en : PooledChannel) :
    Except DataFault PooledChannel :=
  match en.channel.onMessage with
  | .waitDataChannelStartCmd => en.waitDataChannelStartCmd pb writeFails
  | .forward => en.forward writeFails

def append (en : PooledChannel) (chunk : Bytes) : PooledChannel :=
  { en with channel := { en.channel with inputBuffer := en.channel.inputBuffer ++ chunk } }

/-- The bytes behind a complete START in the buffer. -/
def start? (pb : Protobuf) (en : PooledChannel) : Option Bytes :=
  match attemptBytes en.channel.inputBuffer with
  | (none, _) => none
  | (some recvCmd, buf) =>
      if (pb.parseDataChannelCmd recvCmd).2.dataChannelCmd = .startForwardTcp then some buf else none

/-- The handler only looks at the buffer. -/
def Idle (pb : Protobuf) (en : PooledChannel) : Prop :=
  (en.channel.onMessage = .waitDataChannelStartCmd → en.start? pb = none) ∧
    (en.channel.onMessage = .forward → en.channel.inputBuffer = [])

/-- The handler has nothing for the service. -/
def Silent (pb : Protobuf) (en : PooledChannel) : Prop :=
  (en.channel.onMessage = .waitDataChannelStartCmd → ∀ rest ∈ en.start? pb, rest = []) ∧
    (en.channel.onMessage = .forward → en.channel.inputBuffer = [])

instance (pb : Protobuf) (en : PooledChannel) : Decidable (en.Idle pb) :=
  inferInstanceAs (Decidable (_ ∧ _))

instance (pb : Protobuf) (en : PooledChannel) : Decidable (en.Silent pb) :=
  inferInstanceAs (Decidable (_ ∧ _))

end PooledChannel

namespace DataPool

def new : DataPool := ⟨fun _ => none, fun _ => none⟩

def setChannel (s : DataPool) (o : Obj) (en : PooledChannel) : DataPool :=
  { s with channels := Function.update s.channels o (some en) }

/-- `~DataChannel` with the two clients. -/
def destroy (s : DataPool) (o : Obj) : DataPool :=
  { s with
    channels := Function.update s.channels o
      ((s.channels o).map fun en => { en with serverConn := false, serviceConn := false }) }

def deleteDataChannel (s : DataPool) (en : PooledChannel) : Except DataFault DataPool :=
  if en.deleteSet then
    match s.dataPool en.channelId with
    | none => .ok s
    | some d =>
        .ok ({ s with dataPool := Function.update s.dataPool en.channelId none }.destroy d)
  else .error .badFunctionCall

/-- `removeConnection` of the client to the server, which has a disconnect callback. -/
def removeServerConn (s : DataPool) (o : Obj) (en : PooledChannel) : Except DataFault DataPool :=
  (s.setChannel o { en with serverConn := false }).deleteDataChannel en

/-- The constructor greets the server before the delete callback is set. -/
def handleCmdCreateDatachannel (s : DataPool) (o : Obj) (channelId nonce : Bytes)
    (writeFails : Bool) : Except DataFault DataPool :=
  let en : PooledChannel := ⟨channelId, .new nonce, true, false, false⟩
  if writeFails then s.removeServerConn o en
  else
    let s := s.setChannel o { en with deleteSet := true }
    match s.dataPool channelId with
    | none => .ok { s with dataPool := Function.update s.dataPool channelId (some o) }
    -- `emplace` keeps the entry that is there
    | some _ => .ok (s.destroy o)

def handleServerIn (pb : Protobuf) (s : DataPool) (o : Obj) (en : PooledChannel) (chunk : Bytes)
    (e : ReadEnd) (writeFails : Bool) : Except DataFault DataPool :=
  let en := en.append chunk
  match e with
  | .again => (en.handleMessage pb writeFails).map (s.setChannel o)
  | .closed => do
      let s' ← s.removeServerConn o en
      -- the connection still calls the handler of the channel that has been deleted
      if s.dataPool en.channelId = some o then
        if en.Idle pb then .ok s' else .error .useAfterFree
      else
        let en ← { en with serverConn := false }.handleMessage pb writeFails
        return s'.setChannel o en

/-- A read event on the connection to the service, which has no disconnect callback. -/
def handleServiceIn (s : DataPool) (o : Obj) (en : PooledChannel) (chunk : Bytes) (e : ReadEnd)
    (writeFails : Bool) : Except DataFault DataPool :=
  let en := { en with serviceConn := decide (e = .again) }
  if chunk = [] then .ok (s.setChannel o en)
  else if en.serverConn then
    let en := { en with channel := en.channel.handleServiceIn chunk }
    if writeFails then s.removeServerConn o en else .ok (s.setChannel o en)
  else .error .nullSend

inductive Event where
  | create (o : Obj) (channelId nonce : Bytes) (writeFails : Bool)
  | serverReadable (o : Obj) (chunk : Bytes) (e : ReadEnd) (writeFails : Bool)
  | serviceReadable (o : Obj) (chunk : Bytes) (e : ReadEnd) (writeFails : Bool)

/-- Events of a connection that is gone are dropped.  Where an earlier handler of the same
batch has destroyed it, the loop calls its freed channel; what that does is not modelled. -/
def step (pb : Protobuf) (s : DataPool) : Event → Except DataFault DataPool
  | .create o channelId nonce writeFails =>
      match s.channels o with
      | none => s.handleCmdCreateDatachannel o channelId nonce writeFails
      | some _ => .ok s
  | .serverReadable o chunk e writeFails =>
      match s.channels o with
      | none => .ok s
      | some en => if en.serverConn then s.handleServerIn pb o en chunk e writeFails else .ok s
  | .serviceReadable o chunk e writeFails =>
      match s.channels o with
      | none => .ok s
      | some en => if en.serviceConn then s.handleServiceIn o en chunk e writeFails else .ok s

/-- Greetings are written; the server closes when the handler has nothing left to do;
the service neither closes nor refuses a write, unless the channel goes with it. -/
def Benign (pb : Protobuf) (s : DataPool) : Event → Prop
  | .create o _ _ writeFails => s.channels o = none → writeFails = false
  | .serverReadable o chunk e writeFails => ∀ en ∈ s.channels o, en.serverConn →
      (e = .closed → (en.append chunk).Idle pb) ∧
      (e = .again → writeFails → (en.append chunk).Silent pb)
  | .serviceReadable o chunk e writeFails => ∀ en ∈ s.channels o, en.serviceConn →
      e = .closed → chunk ≠ [] ∧ writeFails

instance (pb : Protobuf) (s : DataPool) (ev : Event) : Decidable (s.Benign pb ev) :=
  match ev with
  | .create o _ _ writeFails => inferInstanceAs (Decidable (s.channels o = none → writeFails = false))
  | .serverReadable o chunk e writeFails =>
      inferInstanceAs (Decidable (∀ en ∈ s.channels o, en.serverConn →
        (e = .closed → (en.append chunk).Idle pb) ∧
        (e = .again → writeFails → (en.append chunk).Silent pb)))
  | .serviceReadable o chunk e writeFails =>
      inferInstanceAs (Decidable (∀ en ∈ s.channels o, en.serviceConn →
        e = .closed → chunk ≠ [] ∧ writeFails))

end DataPool

/-! ## What a handler does while the service is there -/

section Handlers

variable {pb : Protobuf} {writeFails : Bool} {en : PooledChannel}

namespace PooledChannel

theorem forward_eq (hserv : en.serviceConn = true)
    (hw : writeFails = true → en.channel.inputBuffer = []) :
    en.forward writeFails = .ok { en with channel := en.channel.forward } := by
  rw [forward]
  split
  · rename_i hempty
    rw [DataChannel.forward, if_pos hempty]
  · rename_i hdata
    have hok : writeFails = false := by
      cases writeFails with
      | false => rfl
      | true => exact absurd (hw rfl) hdata
    rw [hok, hserv]
    rfl

/-- The handler does what it does to the channel alone, and the service is connected
exactly while the channel forwards. -/
theorem handleMessage_spec (hserv : en.serviceConn = true ↔ en.channel.onMessage = .forward)
    (hw : writeFails = true → en.Silent pb) :
    ∃ sc, en.handleMessage pb writeFails =
        .ok { en with channel := en.channel.handleMessage pb, serviceConn := sc } ∧
      (sc = true ↔ (en.channel.handleMessage pb).onMessage = .forward) := by
  cases hon : en.channel.onMessage with
  | forward =>
    have hsc := hserv.mpr hon
    refine ⟨en.serviceConn, ?_, ?_⟩
    · rw [handleMessage, hon, DataChannel.handleMessage, hon]
      exact forward_eq hsc fun h => (hw h).2 hon
    · rw [DataChannel.handleMessage, hon]
      simp only [hsc, DataChannel.forward_eq, hon]
  | waitDataChannelStartCmd =>
    have hsc : en.serviceConn ≠ true := by
      intro h
      rw [hserv.mp h] at hon
      cases hon
    simp only [handleMessage, hon, DataChannel.handleMessage, waitDataChannelStartCmd,
      DataChannel.waitDataChannelStartCmd]
    rcases ha : attemptBytes en.channel.inputBuffer with ⟨_ | p, buf⟩
    · exact ⟨en.serviceConn, rfl, by simp [hsc]⟩
    · dsimp only
      cases hcmd : (pb.parseDataChannelCmd p).2.dataChannelCmd with
      | startForwardTcp =>
        -- the service is connected first, then gets what came behind START
        refine ⟨true, ?_, by simp [DataChannel.doDataChannelTransforward, DataChannel.forward_eq]⟩
        refine forward_eq rfl fun h => ?_
        exact (hw h).1 hon buf (by simp [start?, ha, hcmd])
      | startForwardUdp => exact ⟨en.serviceConn, rfl, by simp [hsc]⟩
      | unnamed v => exact ⟨en.serviceConn, rfl, by simp [hsc]⟩

end PooledChannel

end Handlers

/-- What ties a channel to its pool and its connections. -/
structure PooledChannel.Sound (en : PooledChannel) (pooled : Prop) : Prop where
  deleteSet : en.deleteSet = true
  pooled_iff : pooled ↔ en.serverConn = true
  service_iff : en.serviceConn = true ↔ en.serverConn = true ∧ en.channel.onMessage = .forward

namespace DataPool

structure Inv (s : DataPool) : Prop where
  sound : ∀ o en, s.channels o = some en → en.Sound (s.dataPool en.channelId = some o)
  owner : ∀ id o, s.dataPool id = some o → ∃ en, s.channels o = some en ∧ en.channelId = id

section Steps

variable {s : DataPool} {o : Obj} {en en' : PooledChannel}

theorem setChannel_channels (s : DataPool) (o p : Obj) (en : PooledChannel) :
    (s.setChannel o en).channels p = if p = o then some en else s.channels p := by
  simp [setChannel, Function.update_apply]

/-- One channel changes, and the pool has the others where they were. -/
theorem Inv.replace (hinv : s.Inv) {m : Bytes → Option Obj}
    (hsound : en'.Sound (m en'.channelId = some o))
    (hothers : ∀ id p, p ≠ o → (m id = some p ↔ s.dataPool id = some p))
    (howner : ∀ id, m id = some o → en'.channelId = id) :
    Inv { s.setChannel o en' with dataPool := m } := by
  refine ⟨fun p c hp => ?_, fun id p hp => ?_⟩
  · rw [setChannel_channels] at hp
    split at hp
    · rename_i hpo
      cases hp
      rw [hpo]
      exact hsound
    · rename_i hpo
      have hsoundp := hinv.sound p c hp
      exact ⟨hsoundp.deleteSet, (hothers _ p hpo).trans hsoundp.pooled_iff, hsoundp.service_iff⟩
  · rw [setChannel_channels]
    split
    · rename_i hpo
      exact ⟨en', rfl, howner id (hpo ▸ hp)⟩
    · rename_i hpo
      exact hinv.owner id p ((hothers id p hpo).mp hp)

theorem Inv.setChannel (hinv : s.Inv) (hen : s.channels o = some en)
    (hid : en'.channelId = en.channelId) (hsound : en'.Sound (s.dataPool en'.channelId = some o)) :
    (s.setChannel o en').Inv := by
  refine hinv.replace hsound (fun _ _ _ => Iff.rfl) fun id hkey => ?_
  obtain ⟨c, hc, hcid⟩ := hinv.owner id o hkey
  rw [hen, Option.some.injEq] at hc
  rw [hid, hc, hcid]

theorem destroy_setChannel (s : DataPool) (o : Obj) (en : PooledChannel) (m : Bytes → Option Obj) :
    DataPool.destroy { s.setChannel o en with dataPool := m } o =
      { s.setChannel o { en with serverConn := false, serviceConn := false } with dataPool := m } := by
  simp [destroy, setChannel]

theorem create_inv (hinv : s.Inv) (hnew : s.channels o = none) (channelId nonce : Bytes) :
    ∃ s', s.handleCmdCreateDatachannel o channelId nonce false = .ok s' ∧ s'.Inv := by
  have hunowned : ∀ id, s.dataPool id ≠ some o := by
    intro id h
    obtain ⟨c, hc, -⟩ := hinv.owner id o h
    rw [hnew] at hc
    cases hc
  have hpool : ∀ en, (s.setChannel o en).dataPool = s.dataPool := fun _ => rfl
  simp only [handleCmdCreateDatachannel, Bool.false_eq_true, if_false, hpool]
  cases hkey : s.dataPool channelId with
  | none =>
    refine ⟨_, rfl, hinv.replace ⟨rfl, ?_, ?_⟩ (fun id p hpo => ?_) fun id hid => ?_⟩
    · simp
    · simp [DataChannel.new, DataChannel.doDataChannelHandshake]
    · rw [Function.update_apply]
      split
      · rename_i hid
        rw [hid, hkey]
        simp [Ne.symm hpo]
      · rfl
    · rw [Function.update_apply] at hid
      split at hid
      · rename_i he
        exact he.symm
      · exact absurd hid (hunowned id)
  | some d =>
    -- the id is taken, so the new channel is destroyed at once
    refine ⟨_, congrArg Except.ok (destroy_setChannel s o _ s.dataPool), ?_⟩
    refine hinv.replace ⟨rfl, ?_, by simp⟩ (fun _ _ _ => Iff.rfl) fun id hid =>
      absurd hid (hunowned id)
    simp [hunowned]

/-- The connection to the server goes, and the channel with it. -/
theorem removeServerConn_inv (hinv : s.Inv) (hen : s.channels o = some en)
    (hconn : en.serverConn = true) (hid : en'.channelId = en.channelId)
    (hdel : en'.deleteSet = en.deleteSet) :
    ∃ s', s.removeServerConn o en' = .ok s' ∧ s'.Inv := by
  have hsound := hinv.sound o en hen
  have hpooled := hsound.pooled_iff.mpr hconn
  have hpool : ∀ en, (s.setChannel o en).dataPool = s.dataPool := fun _ => rfl
  rw [removeServerConn, deleteDataChannel, hdel, if_pos hsound.deleteSet, hpool, hid, hpooled]
  refine ⟨_, congrArg Except.ok (destroy_setChannel s o _ _), ?_⟩
  refine hinv.replace ⟨hsound.deleteSet, by simp, by simp⟩ (fun id p hpo => ?_)
    fun id hkey => ?_
  · rw [Function.update_apply]
    split
    · rename_i he
      rw [he, hpooled]
      simp [Ne.symm hpo]
    · rfl
  · rw [Function.update_apply] at hkey
    split at hkey
    · cases hkey
    · obtain ⟨c, hc, hcid⟩ := hinv.owner id o hkey
      rw [hen, Option.some.injEq] at hc
      exact hc ▸ hcid

theorem handleServerIn_inv {pb : Protobuf} (hinv : s.Inv) (hen : s.channels o = some en)
    (hconn : en.serverConn = true) {chunk : Bytes} {e : ReadEnd} {writeFails : Bool}
    (hclosed : e = .closed → (en.append chunk).Idle pb)
    (hagain : e = .again → writeFails = true → (en.append chunk).Silent pb) :
    ∃ s', s.handleServerIn pb o en chunk e writeFails = .ok s' ∧ s'.Inv := by
  have hsound := hinv.sound o en hen
  cases e with
  | again =>
    have hserv : (en.append chunk).serviceConn = true ↔
        (en.append chunk).channel.onMessage = .forward := by
      simpa [PooledChannel.append, hconn] using hsound.service_iff
    obtain ⟨sc, hmsg, hsc⟩ := PooledChannel.handleMessage_spec hserv (hagain rfl)
    have heq : s.handleServerIn pb o en chunk .again writeFails =
        .ok (s.setChannel o { en.append chunk with
          channel := (en.append chunk).channel.handleMessage pb
          serviceConn := sc }) := by
      simp only [handleServerIn, hmsg, Except.map]
    refine ⟨_, heq, hinv.setChannel hen rfl ⟨hsound.deleteSet, hsound.pooled_iff, ?_⟩⟩
    rw [hsc]
    exact (and_iff_right hconn).symm
  | closed =>
    -- the channel is gone when its handler runs, which must find nothing to do
    have hremoved : ∃ s', s.removeServerConn o (en.append chunk) = .ok s' ∧ s'.Inv :=
      removeServerConn_inv hinv hen hconn rfl rfl
    obtain ⟨s', hs', hinv'⟩ := hremoved
    refine ⟨s', ?_, hinv'⟩
    have hpooled : s.dataPool (en.append chunk).channelId = some o := hsound.pooled_iff.mpr hconn
    simp only [handleServerIn, hs', bind, Except.bind, if_pos hpooled, if_pos (hclosed rfl)]

theorem handleServiceIn_inv (hinv : s.Inv) (hen : s.channels o = some en)
    (hserv : en.serviceConn = true) {chunk : Bytes} {e : ReadEnd} {writeFails : Bool}
    (hclosed : e = .closed → chunk ≠ [] ∧ writeFails = true) :
    ∃ s', s.handleServiceIn o en chunk e writeFails = .ok s' ∧ s'.Inv := by
  have hsound := hinv.sound o en hen
  obtain ⟨hconn, hon⟩ := hsound.service_iff.mp hserv
  -- a write that succeeds leaves the service connected
  have hopen : (chunk = [] ∨ writeFails = false) → e = .again := by
    intro h
    cases e with
    | again => rfl
    | closed =>
      rcases h with h | h
      · exact absurd h (hclosed rfl).1
      · rw [(hclosed rfl).2] at h
        cases h
  rw [handleServiceIn]
  by_cases hempty : chunk = []
  · rw [if_pos hempty]
    refine ⟨_, rfl, hinv.setChannel hen rfl ⟨hsound.deleteSet, hsound.pooled_iff, ?_⟩⟩
    simp [hopen (.inl hempty), hconn, hon]
  · rw [if_neg hempty, if_pos hconn]
    cases writeFails with
    | true => exact removeServerConn_inv hinv hen hconn rfl rfl
    | false =>
      refine ⟨_, rfl, hinv.setChannel hen rfl ⟨hsound.deleteSet, hsound.pooled_iff, ?_⟩⟩
      simp [hopen (.inr rfl), hconn, hon, DataChannel.handleServiceIn]

theorem step_inv {pb : Protobuf} (hinv : s.Inv) {ev : Event} (hev : s.Benign pb ev) :
    ∃ s', step pb s ev = .ok s' ∧ s'.Inv := by
  cases ev with
  | create o channelId nonce writeFails =>
    cases hen : s.channels o with
    | some en => exact ⟨s, by simp only [step, hen], hinv⟩
    | none =>
      have hwrite : writeFails = false := hev hen
      simp only [step, hen, hwrite]
      exact create_inv hinv hen channelId nonce
  | serverReadable o chunk e writeFails =>
    cases hen : s.channels o with
    | none => exact ⟨s, by simp only [step, hen], hinv⟩
    | some en =>
      simp only [step, hen]
      split
      · rename_i hconn
        obtain ⟨hclosed, hagain⟩ := hev en hen hconn
        exact handleServerIn_inv hinv hen hconn hclosed hagain
      · exact ⟨s, rfl, hinv⟩
  | serviceReadable o chunk e writeFails =>
    cases hen : s.channels o with
    | none => exact ⟨s, by simp only [step, hen], hinv⟩
    | some en =>
      simp only [step, hen]
      split
      · rename_i hserv
        exact handleServiceIn_inv hinv hen hserv (hev en hen hserv)
      · exact ⟨s, rfl, hinv⟩

end Steps

/-- As long as the connections to the service last, greetings are written and the
server closes quietly, a channel is in the pool exactly while it has its connections,
and no handler of a connection that is still there fails.  Nothing is said about a batch
that goes on to a connection which one of its handlers has destroyed. -/
theorem pooled_iff_connected (pb : Protobuf) (s : DataPool)
    (h : Runs.ReachableBy (step pb) (Benign pb) new s) :
    (∀ o en, s.channels o = some en → (s.dataPool en.channelId = some o ↔
      en.serverConn = true ∧ (en.channel.onMessage = .forward → en.serviceConn = true))) ∧
    ∀ ev, s.Benign pb ev → ∃ s', step pb s ev = .ok s' := by
  have hinv : s.Inv := by
    refine h.invariant_of_exists Inv ⟨fun o en hen => ?_, fun id o hid => ?_⟩
      fun s ev hs hpre => step_inv hs hpre
    · cases hen
    · cases hid
  refine ⟨fun o en hen => ?_, fun ev hev => ?_⟩
  · have hsound := hinv.sound o en hen
    rw [hsound.pooled_iff]
    exact ⟨fun hc => ⟨hc, fun hon => hsound.service_iff.mpr ⟨hc, hon⟩⟩, fun hc => hc.1⟩
  · obtain ⟨s', hs', -⟩ := step_inv hinv hev
    exact ⟨s', hs'⟩

/-- A data channel that has been told to start. -/
def exampleForwarding : List Event :=
  [.create 0 [0x61] exampleNonce false,
    .serverReadable 0 (headerInstaller (DataChannelCmd.serializeAsString ⟨some .startForwardTcp⟩))
      .again false]

/-- It forwards in both directions until the server closes. -/
theorem pooled_iff_connected_example :
    ∃ s, Runs.checkedRun (step .wire) (Benign .wire) (exampleForwarding ++
        [.serviceReadable 0 [0x42] .again false, .serverReadable 0 [] .closed false]) new = some s ∧
      ∀ o en, s.channels o = some en → (s.dataPool en.channelId = some o ↔
        en.serverConn = true ∧ (en.channel.onMessage = .forward → en.serviceConn = true)) := by
  obtain ⟨s, hs⟩ := Option.isSome_iff_exists.mp (by decide +kernel :
    (Runs.checkedRun (step .wire) (Benign .wire) (exampleForwarding ++
      [.serviceReadable 0 [0x42] .again false, .serverReadable 0 [] .closed false]) new).isSome)
  exact ⟨s, hs, (pooled_iff_connected .wire s (.of_checkedRun .refl hs)).1⟩

/-- The service closes: the channel stays in the pool, and the next data from the
server is sent on a null connection. -/
theorem service_close_null_send :
    ∃ s en, Runs.ReachableBy (step .wire) (fun _ _ => True) new s ∧ s.channels 0 = some en ∧
      s.dataPool en.channelId = some 0 ∧ en.channel.onMessage = .forward ∧
      en.serviceConn = false ∧
      step .wire s (.serverReadable 0 [0x41] .again false) = .error .nullSend := by
  have hrun : (Runs.checkedRun (step .wire) (fun _ _ => True)
      (exampleForwarding ++ [.serviceReadable 0 [] .closed false]) new).isSome := by
    decide +kernel
  obtain ⟨s, hs⟩ := Option.isSome_iff_exists.mp hrun
  have hview : ((Runs.checkedRun (step .wire) (fun _ _ => True)
      (exampleForwarding ++ [.serviceReadable 0 [] .closed false]) new).map fun s =>
        (s.channels 0, s.dataPool [0x61])) = some (some ⟨[0x61],
          ⟨exampleNonce, .forward, [], true,
            headerInstaller (DataChannel.dataHello exampleNonce).serializeAsString, []⟩,
          true, false, true⟩, some 0) := by
    decide +kernel
  rw [hs, Option.map_some, Option.some.injEq, Prod.mk.injEq] at hview
  refine ⟨s, _, .of_checkedRun .refl hs, hview.1, hview.2, rfl, rfl, ?_⟩
  simp [step, hview.1, handleServerIn, PooledChannel.append, PooledChannel.handleMessage,
    PooledChannel.forward, Except.map]

end DataPool

end NcxTunnel
