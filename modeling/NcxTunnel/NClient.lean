import NcxTunnel.CControlChannel
import NcxTunnel.DataChannel
import NcxTunnel.NServer

/-!
# The tunnel client

`ncx_client/nclient.cpp` with the control channels it keeps in `cc_map_`.  A channel
is filed under a UUID of its own until the server has given it one.  The map owns
the channels, so moving one to another key can destroy it.
-/

namespace NcxTunnel

/-- A value of the map may be a null pointer. -/
abbrev CControlChannelMap := Bytes → Option (Option Obj)

/-- A `CControlChannel` with its connection. -/
structure ControlClient where
  channel : CControlChannel
  connected : Bool
  /-- digests of the control hellos received on its connection -/
  received : List Bytes
  /-- as the constructor leaves them, oldest first -/
  dataChannels : List DataChannel
deriving Repr, DecidableEq

structure NClient where
  controls : Obj → Option ControlClient
  ccMap : CControlChannelMap

inductive ClientFault where
  | useAfterFree
deriving Repr, DecidableEq

/-- The message that a read event gives to `wait_control_channel_hello`. -/
def CControlChannel.greeting (pb : Protobuf) (c : CControlChannel) (chunk : Bytes) :
    Option Hello :=
  if c.onMessage = .waitControlChannelHello then
    (attemptBytes (c.inputBuffer ++ chunk)).1.map fun p => (pb.parseHello p).2
  else none

/-- The digest passed to `register_control_channel_`. -/
def CControlChannel.registers (pb : Protobuf) (c : CControlChannel) (chunk : Bytes) :
    Option Bytes :=
  (c.greeting pb chunk).bind fun hello =>
    match hello.helloType with
    | .controlChannelHello => some hello.digest
    | .dataChannelHello => none
    | .unnamed _ => none

namespace NClient

/-- The registration callback, with the channel that it destroys. -/
def registerControlChannel (m : CControlChannelMap) (oldId newId : Bytes) :
    CControlChannelMap × Option Obj :=
  -- `cc_map_[old_id]` makes an entry if there is none
  let channel := (m oldId).join
  let m := Function.update m oldId (some channel)
  -- an entry that is there stays, and the pointer that was to go there is dropped
  if (m newId).isSome then (Function.update m oldId none, channel)
  else (Function.update (Function.update m newId (some channel)) oldId none, none)

def setControl (s : NClient) (o : Obj) (c : Option ControlClient) : NClient :=
  { s with controls := Function.update s.controls o c }

/-- One round of the loop in `parse_args`.  The connect that `start` has queued
refers to the channel, which `emplace` destroys if the id is taken. -/
def addChannel (s : NClient) (o : Obj) (id : Bytes) (args : CControlChannelArgs) :
    Except ClientFault NClient :=
  if (s.ccMap id).isSome then .error .useAfterFree
  else
    .ok { s.setControl o (some ⟨.new id args, false, [], []⟩) with
      ccMap := Function.update s.ccMap id (some (some o)) }

/-- The channels are numbered in the order of their arguments. -/
def parseArgs : Obj → List (Bytes × CControlChannelArgs) → NClient → Except ClientFault NClient
  | _, [], s => .ok s
  | o, (id, args) :: rest, s => do
      let s ← s.addChannel o id args
      parseArgs (o + 1) rest s

/-- The constructor, with the UUIDs it draws. -/
def new (args : List (Bytes × CControlChannelArgs)) : Except ClientFault NClient :=
  parseArgs 0 args ⟨fun _ => none, fun _ => none⟩

def handleDataIn (pb : Protobuf) (s : NClient) (o : Obj) (c : ControlClient) (chunk : Bytes)
    (e : ReadEnd) : Except ClientFault NClient :=
  let (created, channel) := c.channel.handleDataIn pb chunk
  let c' : ControlClient :=
    { c with
      channel := channel
      connected := decide (e = .again)
      dataChannels := c.dataChannels ++ (created.map DataChannel.new).toList }
  match c.channel.registers pb chunk with
  | none => .ok (s.setControl o (some c'))
  | some nonce =>
      let (m, destroyed) := registerControlChannel s.ccMap c.channel.id nonce
      let s := { s.setControl o (some { c' with received := c.received ++ [nonce] }) with ccMap := m }
      match destroyed with
      | none => .ok s
      -- the handler of a destroyed channel goes on to set its id
      | some d => if d = o then .error .useAfterFree else .ok (s.setControl d none)

inductive Event where
  /-- the queued connect is run and the greeting sent; a write that fails returns -/
  | connect (o : Obj) (writeFails : Bool)
  | readable (o : Obj) (chunk : Bytes) (e : ReadEnd)

def step (pb : Protobuf) (s : NClient) : Event → Except ClientFault NClient
  | .connect o writeFails =>
      match s.controls o with
      | none => .ok s
      | some c =>
          if c.channel.onMessage = .unset then
            .ok (s.setControl o (some { c with
              channel := c.channel.doControlChannelHandshake.2
              connected := !writeFails }))
          else .ok s
  | .readable o chunk e =>
      match s.controls o with
      | none => .ok s
      | some c => if c.connected then s.handleDataIn pb o c chunk e else .ok s

/-- The first message on a connection is a control hello, and its digest is not the
key of a channel. -/
def Greets (pb : Protobuf) (s : NClient) : Event → Prop
  | .connect _ _ => True
  | .readable o chunk _ => ∀ c ∈ s.controls o, ∀ hello ∈ c.channel.greeting pb chunk,
      c.connected → hello.helloType = .controlChannelHello ∧ s.ccMap hello.digest = none

instance (pb : Protobuf) (s : NClient) (ev : Event) : Decidable (s.Greets pb ev) :=
  match ev with
  | .connect _ _ => inferInstanceAs (Decidable True)
  | .readable o chunk _ => inferInstanceAs (Decidable (∀ c ∈ s.controls o,
      ∀ hello ∈ c.channel.greeting pb chunk,
        c.connected → hello.helloType = .controlChannelHello ∧ s.ccMap hello.digest = none))

end NClient

section Phase

variable {pb : Protobuf} {c : CControlChannel} {chunk : Bytes}

/-- The first message ends the phase, and its digest becomes the id if it is a control hello. -/
theorem CControlChannel.handleDataIn_greeting {hello : Hello}
    (h : c.greeting pb chunk = some hello) (htype : hello.helloType = .controlChannelHello) :
    c.registers pb chunk = some hello.digest ∧ (c.handleDataIn pb chunk).1 = none ∧
      (c.handleDataIn pb chunk).2.id = hello.digest := by
  have hreg : c.registers pb chunk = some hello.digest := by
    simp only [registers, h, Option.bind_some, htype]
  unfold greeting at h
  split at h
  · rename_i hwait
    rcases ha : attemptBytes (c.inputBuffer ++ chunk) with ⟨_ | p, buf⟩
    · simp [ha] at h
    · rw [ha, Option.map_some, Option.some.injEq] at h
      refine ⟨hreg, ?_, ?_⟩
      · simp only [handleDataIn, handleMessage, hwait, waitControlChannelHello, ha]
      · simp only [handleDataIn, handleMessage, hwait, waitControlChannelHello, ha, h, htype,
          handleControlChannelHello]
  · cases h

/-- Any other read event leaves id and phase, and only commands create data channels. -/
theorem CControlChannel.handleDataIn_of_greeting_none (h : c.greeting pb chunk = none) :
    c.registers pb chunk = none ∧ (c.handleDataIn pb chunk).2.id = c.id ∧
      (c.handleDataIn pb chunk).2.onMessage = c.onMessage ∧
      ∀ n ∈ (c.handleDataIn pb chunk).1, n = c.id ∧ c.onMessage = .waitServerCmd := by
  have hreg : c.registers pb chunk = none := by rw [registers, h, Option.bind_none]
  rcases ha : attemptBytes (c.inputBuffer ++ chunk) with ⟨_ | p, buf⟩
  · cases hon : c.onMessage with
    | unset => simp [hreg, handleDataIn, handleMessage, hon]
    | waitControlChannelHello =>
      simp [hreg, handleDataIn, handleMessage, hon, waitControlChannelHello, ha]
    | waitServerCmd => simp [hreg, handleDataIn, handleMessage, hon, waitServerCmd, ha]
  · cases hon : c.onMessage with
    | unset => simp [hreg, handleDataIn, handleMessage, hon]
    -- a complete message in this phase is a greeting
    | waitControlChannelHello => simp [greeting, hon, ha] at h
    | waitServerCmd =>
      simp only [hreg, handleDataIn, handleMessage, hon, waitServerCmd, ha]
      cases (pb.parseControlChannelCmd p).2.controlChannelCmd <;>
        simp [handleCmdCreateDatachannel, eq_comm]

end Phase

/-- The phase for commands begins with a digest, and every data channel is made with one. -/
structure ControlClient.Ok (c : ControlClient) : Prop where
  greeted : c.channel.onMessage = .waitServerCmd → c.channel.id ∈ c.received
  nonce : ∀ d ∈ c.dataChannels, ∃ digest ∈ c.received, d = DataChannel.new digest

namespace NClient

/-- Every channel is filed under its id. -/
structure Inv (s : NClient) : Prop where
  ok : ∀ o c, s.controls o = some c → c.Ok
  filed : ∀ o c, s.controls o = some c → s.ccMap c.channel.id = some (some o)

theorem setControl_controls (s : NClient) (o p : Obj) (c : Option ControlClient) :
    (s.setControl o c).controls p = if p = o then c else s.controls p := by
  simp [setControl, Function.update_apply]

/-- A channel has been changed and filed, with the others where they were. -/
theorem Inv.refile {s : NClient} (hinv : s.Inv) {o : Obj} {c : ControlClient} (hok : c.Ok)
    {m : CControlChannelMap} (hfiled : m c.channel.id = some (some o))
    (hm : ∀ p c', p ≠ o → s.controls p = some c' → m c'.channel.id = s.ccMap c'.channel.id) :
    Inv { s.setControl o (some c) with ccMap := m } := by
  refine ⟨fun p c' hp => ?_, fun p c' hp => ?_⟩
  · rw [setControl_controls] at hp
    split at hp
    · cases hp
      exact hok
    · exact hinv.ok p c' hp
  · rw [setControl_controls] at hp
    split at hp
    · rename_i hpo
      cases hp
      rw [hpo]
      exact hfiled
    · rename_i hpo
      change m c'.channel.id = some (some p)
      rw [hm p c' hpo hp]
      exact hinv.filed p c' hp

theorem Inv.setControl {s : NClient} (hinv : s.Inv) {o : Obj} {c : ControlClient} (hok : c.Ok)
    (hfiled : s.ccMap c.channel.id = some (some o)) : (s.setControl o (some c)).Inv :=
  hinv.refile hok hfiled fun _ _ _ _ => rfl

theorem registerControlChannel_eq {m : CControlChannelMap} {oldId newId : Bytes} {o : Obj}
    (hold : m oldId = some (some o)) (hnew : m newId = none) :
    registerControlChannel m oldId newId =
      (Function.update (Function.update m newId (some (some o))) oldId none, none) := by
  have hsame : Function.update m oldId (some (some o)) = m := by
    rw [← hold, Function.update_eq_self]
  simp [registerControlChannel, hold, hnew, hsame]

theorem addChannel_inv {s s' : NClient} {o : Obj} {id : Bytes} {args : CControlChannelArgs}
    (hinv : s.Inv) (h : s.addChannel o id args = .ok s') : s'.Inv := by
  unfold addChannel at h
  split at h
  · cases h
  · rename_i hfree
    rw [Except.ok.injEq] at h
    subst h
    refine hinv.refile ⟨fun hon => ?_, fun d hd => ?_⟩ (Function.update_self _ _ _) ?_
    · cases hon
    · cases hd
    · intro p c' _ hp
      apply Function.update_of_ne
      rintro rfl
      rw [hinv.filed p c' hp] at hfree
      exact hfree rfl

theorem parseArgs_inv {args : List (Bytes × CControlChannelArgs)} {o : Obj} {s s' : NClient}
    (hinv : s.Inv) (h : parseArgs o args s = .ok s') : s'.Inv := by
  induction args generalizing o s with
  | nil =>
    cases h
    exact hinv
  | cons a rest ih =>
    rw [parseArgs] at h
    cases ha : s.addChannel o a.1 a.2 with
    | error e => simp [ha, bind, Except.bind] at h
    | ok s₁ =>
      simp only [ha, bind, Except.bind] at h
      exact ih (addChannel_inv hinv ha) h

theorem handleDataIn_inv {pb : Protobuf} {s : NClient} (hinv : s.Inv) {o : Obj}
    {c : ControlClient} (hc : s.controls o = some c) {chunk : Bytes} {e : ReadEnd}
    (hgreets : ∀ hello ∈ c.channel.greeting pb chunk,
      hello.helloType = .controlChannelHello ∧ s.ccMap hello.digest = none) :
    ∃ s', s.handleDataIn pb o c chunk e = .ok s' ∧ s'.Inv := by
  have hok := hinv.ok o c hc
  have hfiled := hinv.filed o c hc
  cases hg : c.channel.greeting pb chunk with
  | none =>
    obtain ⟨hreg, hid, hon, hcreated⟩ := CControlChannel.handleDataIn_of_greeting_none hg
    refine ⟨_, by simp only [handleDataIn, hreg]; rfl,
      hinv.setControl ⟨fun h => ?_, fun d hd => ?_⟩ ?_⟩
    · dsimp only at h ⊢
      rw [hid]
      exact hok.greeted (hon ▸ h)
    · rcases List.mem_append.mp hd with hd | hd
      · exact hok.nonce d hd
      · -- a new data channel: its nonce is the id of a channel that takes commands
        rw [Option.mem_toList, Option.map_eq_some_iff] at hd
        obtain ⟨n, hn, rfl⟩ := hd
        obtain ⟨rfl, hcmd⟩ := hcreated n hn
        exact ⟨_, hok.greeted hcmd, rfl⟩
    · dsimp only
      rw [hid]
      exact hfiled
  | some hello =>
    obtain ⟨htype, hfree⟩ := hgreets hello hg
    obtain ⟨hreg, hcreated, hid⟩ := CControlChannel.handleDataIn_greeting hg htype
    -- the digest is not a key yet, so the channel moves there from its old id
    have hmap := registerControlChannel_eq hfiled hfree
    refine ⟨_, by simp only [handleDataIn, hreg, hmap]; rfl,
      hinv.refile ⟨fun _ => ?_, fun d hd => ?_⟩ ?_ ?_⟩
    · dsimp only
      rw [hid]
      exact List.mem_append_right _ List.mem_cons_self
    · rw [hcreated, Option.map_none, Option.toList_none, List.append_nil] at hd
      obtain ⟨digest, hdigest, rfl⟩ := hok.nonce d hd
      exact ⟨digest, List.mem_append_left _ hdigest, rfl⟩
    · have hne : hello.digest ≠ c.channel.id := by
        intro he
        rw [he, hfiled] at hfree
        cases hfree
      dsimp only
      rw [hid, Function.update_of_ne hne, Function.update_self]
    · -- the other channels are filed under neither the old id nor the new one
      intro p c' hp hc'
      have hfiled' := hinv.filed p c' hc'
      rw [Function.update_of_ne, Function.update_of_ne]
      · intro he
        rw [he, hfree] at hfiled'
        cases hfiled'
      · intro he
        rw [he, hfiled, Option.some.injEq, Option.some.injEq] at hfiled'
        exact hp hfiled'.symm

theorem step_inv {pb : Protobuf} {s : NClient} (hinv : s.Inv) {ev : Event}
    (hgreets : s.Greets pb ev) : ∃ s', step pb s ev = .ok s' ∧ s'.Inv := by
  cases ev with
  | connect o writeFails =>
    cases hc : s.controls o with
    | none => exact ⟨s, by simp only [step, hc], hinv⟩
    | some c =>
      by_cases hunset : c.channel.onMessage = .unset
      · refine ⟨_, by simp only [step, hc, if_pos hunset]; rfl, hinv.setControl ⟨fun h => ?_, ?_⟩ ?_⟩
        · cases h
        · exact (hinv.ok o c hc).nonce
        · exact hinv.filed o c hc
      · exact ⟨s, by simp only [step, hc, if_neg hunset], hinv⟩
  | readable o chunk e =>
    cases hc : s.controls o with
    | none => exact ⟨s, by simp only [step, hc], hinv⟩
    | some c =>
      by_cases hconn : c.connected = true
      · obtain ⟨s', hs', hinv'⟩ := handleDataIn_inv hinv hc (e := e)
          fun hello hh => hgreets c hc hello hh hconn
        exact ⟨s', by simp only [step, hc, if_pos hconn, hs'], hinv'⟩
      · exact ⟨s, by simp only [step, hc, if_neg hconn], hinv⟩

/-- As long as the first message on every connection is a control hello with a digest
that is not a key yet, a channel that takes commands is filed under a digest
received on its own connection, every data hello carries such a digest, and the
client does not fail. -/
theorem handshake_phase (pb : Protobuf) (args : List (Bytes × CControlChannelArgs))
    (s₀ s : NClient) (hnew : new args = .ok s₀)
    (h : Runs.ReachableBy (step pb) (Greets pb) s₀ s) :
    (∀ o c, s.controls o = some c → c.channel.onMessage = .waitServerCmd →
      c.channel.id ∈ c.received ∧ s.ccMap c.channel.id = some (some o)) ∧
    (∀ o c, s.controls o = some c → ∀ d ∈ c.dataChannels, ∃ digest ∈ c.received,
      d.toServer = headerInstaller (DataChannel.dataHello digest).serializeAsString) ∧
    ∀ ev, s.Greets pb ev → ∃ s', step pb s ev = .ok s' := by
  have hinv : s.Inv := by
    refine h.invariant_of_exists Inv (parseArgs_inv ⟨fun o c hc => ?_, fun o c hc => ?_⟩ hnew)
      fun s ev hs hpre => step_inv hs hpre
    · cases hc
    · cases hc
  refine ⟨fun o c hc hon => ⟨(hinv.ok o c hc).greeted hon, hinv.filed o c hc⟩, ?_, ?_⟩
  · intro o c hc d hd
    obtain ⟨digest, hdigest, rfl⟩ := (hinv.ok o c hc).nonce d hd
    exact ⟨digest, hdigest, rfl⟩
  · intro ev hev
    obtain ⟨s', hs', -⟩ := step_inv hinv hev
    exact ⟨s', hs'⟩

def exampleClient : NClient :=
  ⟨Function.update (fun _ => none) 0 (some ⟨.new [0x61] ⟨[], 80⟩, false, [], []⟩),
    Function.update (fun _ => none) [0x61] (some (some 0))⟩

/-- The server answers with a hello of this type and asks for a data channel. -/
def exampleSession (t : HelloType) : List Event :=
  [.connect 0 false,
    .readable 0 (headerInstaller (Hello.serializeAsString ⟨some t, some exampleNonce, none⟩)) .again,
    .readable 0 (headerInstaller (ControlChannelCmd.serializeAsString ⟨some .createDataChannel⟩))
      .again]

theorem handshake_phase_example :
    ∃ s c, Runs.checkedRun (step .wire) (Greets .wire) (exampleSession .controlChannelHello)
        exampleClient = some s ∧
      s.controls 0 = some c ∧ c.channel.onMessage = .waitServerCmd ∧
      c.channel.id ∈ c.received ∧ s.ccMap c.channel.id = some (some 0) := by
  obtain ⟨s, hs⟩ := Option.isSome_iff_exists.mp (by decide +kernel :
    (Runs.checkedRun (step .wire) (Greets .wire) (exampleSession .controlChannelHello)
      exampleClient).isSome)
  have hphase : ((Runs.checkedRun (step .wire) (Greets .wire)
      (exampleSession .controlChannelHello) exampleClient).bind (·.controls 0)).map
        (·.channel.onMessage) = some .waitServerCmd := by
    decide +kernel
  rw [hs, Option.bind_some] at hphase
  obtain ⟨c, hc, hon⟩ := Option.map_eq_some_iff.mp hphase
  have hfiled := (handshake_phase .wire [([0x61], ⟨[], 80⟩)] exampleClient s rfl
    (.of_checkedRun .refl hs)).1 0 c hc hon
  exact ⟨s, c, hs, hc, hon, hfiled.1, hfiled.2⟩

/-- The server answers with a data hello: the channel takes commands all the same,
and its data channel greets with the id the client drew itself. -/
theorem unconfirmed_id_used :
    ∃ s c, new [([0x61], ⟨[], 80⟩)] = .ok exampleClient ∧
      Runs.ReachableBy (step .wire) (fun _ _ => True) exampleClient s ∧
      s.controls 0 = some c ∧ c.channel.onMessage = .waitServerCmd ∧ c.received = [] ∧
      c.dataChannels.map DataChannel.toServer =
        [headerInstaller (DataChannel.dataHello [0x61]).serializeAsString] := by
  obtain ⟨s, hs⟩ := Option.isSome_iff_exists.mp (by decide +kernel :
    (Runs.checkedRun (step .wire) (fun _ _ => True) (exampleSession .dataChannelHello)
      exampleClient).isSome)
  have hview : ((Runs.checkedRun (step .wire) (fun _ _ => True) (exampleSession .dataChannelHello)
      exampleClient).bind (·.controls 0)).map
        (fun c => (c.channel.onMessage, c.received, c.dataChannels.map DataChannel.toServer)) =
      some (.waitServerCmd, [],
        [headerInstaller (DataChannel.dataHello [0x61]).serializeAsString]) := by
    decide +kernel
  rw [hs, Option.bind_some] at hview
  obtain ⟨c, hc, heq⟩ := Option.map_eq_some_iff.mp hview
  simp only [Prod.mk.injEq] at heq
  exact ⟨s, c, rfl, .of_checkedRun .refl hs, hc, heq⟩

end NClient

end NcxTunnel
