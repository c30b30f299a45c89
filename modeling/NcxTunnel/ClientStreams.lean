import NcxTunnel.ControlRegistry
import NcxTunnel.HostileFrames

/-!
# What a server can make the client do

A server may send anything on a control connection.  What the channel does is said
by the messages it has taken off the front of the stream: the first one gives it
its id, whatever it is, and every later one makes one data channel or none.
-/

namespace NcxTunnel

section Handlers

variable (pb : Protobuf) {c : CControlChannel} {chunk buf msg : Bytes}

/-- The id after the first message. -/
def idGiven (id recvHello : Bytes) : Bytes :=
  if (pb.parseHello recvHello).2.helloType = .controlChannelHello then
    (pb.parseHello recvHello).2.digest
  else id

def asksForChannel (recvServerCmd : Bytes) : Bool :=
  decide ((pb.parseControlChannelCmd recvServerCmd).2.controlChannelCmd = .createDataChannel)

variable {pb}

theorem CControlChannel.handleDataIn_nothing (hmode : c.onMessage ≠ .unset)
    (ha : attemptBytes (c.inputBuffer ++ chunk) = (none, buf)) :
    c.handleDataIn pb chunk = (none, { c with inputBuffer := buf }) := by
  cases hon : c.onMessage with
  | unset => exact absurd hon hmode
  | waitControlChannelHello =>
    simp only [handleDataIn, handleMessage, hon, waitControlChannelHello, ha]
  | waitServerCmd => simp only [handleDataIn, handleMessage, hon, waitServerCmd, ha]

theorem CControlChannel.handleDataIn_first (hmode : c.onMessage = .waitControlChannelHello)
    (ha : attemptBytes (c.inputBuffer ++ chunk) = (some msg, buf)) :
    c.handleDataIn pb chunk = (none, { c with
      id := idGiven pb c.id msg
      onMessage := .waitServerCmd
      inputBuffer := buf }) := by
  cases htype : (pb.parseHello msg).2.helloType <;>
    simp [handleDataIn, handleMessage, hmode, waitControlChannelHello, ha, idGiven, htype,
      handleControlChannelHello]

theorem CControlChannel.handleDataIn_later (hmode : c.onMessage = .waitServerCmd)
    (ha : attemptBytes (c.inputBuffer ++ chunk) = (some msg, buf)) :
    c.handleDataIn pb chunk = (if asksForChannel pb msg then some c.id else none,
      { c with inputBuffer := buf }) := by
  cases hcmd : (pb.parseControlChannelCmd msg).2.controlChannelCmd <;>
    simp [handleDataIn, handleMessage, hmode, waitServerCmd, ha, asksForChannel, hcmd,
      handleCmdCreateDatachannel]

/-- The handshake is behind it. -/
theorem CControlChannel.handleDataIn_started (hmode : c.onMessage ≠ .unset) (chunk : Bytes) :
    (c.handleDataIn pb chunk).2.onMessage ≠ .unset := by
  rcases ha : attemptBytes (c.inputBuffer ++ chunk) with ⟨_ | msg, buf⟩
  · rw [handleDataIn_nothing hmode ha]
    exact hmode
  · cases hon : c.onMessage with
    | unset => exact absurd hon hmode
    | waitControlChannelHello =>
      rw [handleDataIn_first hon ha]
      exact nofun
    | waitServerCmd =>
      rw [handleDataIn_later hon ha]
      exact hmode

end Handlers

/-- A channel made with the id has been given these messages. -/
structure ControlClient.Heard (pb : Protobuf) (id : Bytes) (msgs : List Bytes) (c : ControlClient) :
    Prop where
  greeted : c.channel.onMessage = .waitServerCmd ↔ msgs ≠ []
  id_eq : c.channel.id = (msgs.head?.map (idGiven pb id)).getD id
  dataChannels_eq : c.dataChannels =
    List.replicate (msgs.tail.countP (asksForChannel pb)) (.new c.channel.id)

/-- A channel made with this id and these arguments has read the stream and taken
pieces off its front. -/
structure ControlClient.Follows (pb : Protobuf) (id : Bytes) (args : CControlChannelArgs)
    (stream : Bytes) (c : ControlClient) : Prop where
  args_eq : c.channel.args = args
  unset : c.channel.onMessage = .unset → c.connected = false
  taken : ∃ pieces : List Piece, (∀ x ∈ pieces, x.Valid) ∧
    stream = pieces.flatMap Piece.bytes ++ c.channel.inputBuffer ∧
    c.Heard pb id (pieces.filterMap Piece.payload)

namespace ControlClient

variable {pb : Protobuf} {id stream : Bytes} {args : CControlChannelArgs} {c : ControlClient}

theorem follows_new (id : Bytes) (args : CControlChannelArgs) :
    Follows pb id args [] ⟨.new id args, false, [], []⟩ where
  args_eq := rfl
  unset _ := rfl
  taken := ⟨[], fun _ hx => absurd hx List.not_mem_nil, rfl, by simp [CControlChannel.new], rfl, rfl⟩

/-- What a read event leaves of the channel, the bookkeeping of digests apart. -/
def afterRead (pb : Protobuf) (c : ControlClient) (chunk : Bytes) (connected : Bool)
    (received : List Bytes) : ControlClient :=
  { channel := (c.channel.handleDataIn pb chunk).2
    connected := connected
    received := received
    dataChannels :=
      c.dataChannels ++ ((c.channel.handleDataIn pb chunk).1.map DataChannel.new).toList }

variable {chunk msg buf : Bytes} {msgs : List Bytes}

/-- No message is taken. -/
theorem Heard.nothing (h : c.Heard pb id msgs) (hmode : c.channel.onMessage ≠ .unset)
    (ha : attemptBytes (c.channel.inputBuffer ++ chunk) = (none, buf)) (connected : Bool)
    (received : List Bytes) : (c.afterRead pb chunk connected received).Heard pb id msgs ∧
      (c.afterRead pb chunk connected received).channel.inputBuffer = buf := by
  rw [ControlClient.afterRead, CControlChannel.handleDataIn_nothing hmode ha]
  refine ⟨⟨h.greeted, h.id_eq, ?_⟩, rfl⟩
  rw [Option.map_none, Option.toList_none, List.append_nil]
  exact h.dataChannels_eq

/-- The first message gives the channel its id. -/
theorem Heard.first (h : c.Heard pb id []) (hmode : c.channel.onMessage ≠ .unset)
    (ha : attemptBytes (c.channel.inputBuffer ++ chunk) = (some msg, buf)) (connected : Bool)
    (received : List Bytes) : (c.afterRead pb chunk connected received).Heard pb id [msg] ∧
      (c.afterRead pb chunk connected received).channel.inputBuffer = buf := by
  have hwait : c.channel.onMessage = .waitControlChannelHello := by
    cases hon : c.channel.onMessage with
    | unset => exact absurd hon hmode
    | waitControlChannelHello => rfl
    | waitServerCmd => exact absurd rfl (h.greeted.mp hon)
  rw [ControlClient.afterRead, CControlChannel.handleDataIn_first hwait ha]
  refine ⟨⟨by simp, ?_, ?_⟩, rfl⟩
  · rw [h.id_eq]
    rfl
  · rw [h.dataChannels_eq]
    rfl

/-- A later one makes a data channel or none. -/
theorem Heard.later (h : c.Heard pb id msgs) (hne : msgs ≠ [])
    (ha : attemptBytes (c.channel.inputBuffer ++ chunk) = (some msg, buf)) (connected : Bool)
    (received : List Bytes) :
    (c.afterRead pb chunk connected received).Heard pb id (msgs ++ [msg]) ∧
      (c.afterRead pb chunk connected received).channel.inputBuffer = buf := by
  have hcmd := h.greeted.mpr hne
  rw [ControlClient.afterRead, CControlChannel.handleDataIn_later hcmd ha]
  refine ⟨⟨by simp [hcmd], ?_, ?_⟩, rfl⟩
  · rw [List.head?_append_of_ne_nil _ hne]
    exact h.id_eq
  · rw [List.tail_append_of_ne_nil hne, List.countP_append, List.countP_singleton,
      h.dataChannels_eq]
    dsimp only
    split
    · rw [List.replicate_succ']
      rfl
    · exact List.append_nil _

theorem Heard.message (h : c.Heard pb id msgs) (hmode : c.channel.onMessage ≠ .unset)
    (ha : attemptBytes (c.channel.inputBuffer ++ chunk) = (some msg, buf)) (connected : Bool)
    (received : List Bytes) :
    (c.afterRead pb chunk connected received).Heard pb id (msgs ++ [msg]) ∧
      (c.afterRead pb chunk connected received).channel.inputBuffer = buf := by
  cases msgs with
  | nil => exact h.first hmode ha connected received
  | cons hello cmds => exact h.later (List.cons_ne_nil hello cmds) ha connected received

/-- A read event takes one piece or none. -/
theorem Follows.afterRead (h : c.Follows pb id args stream) (hconnected : c.connected = true)
    (chunk : Bytes) (connected : Bool) (received : List Bytes) :
    (c.afterRead pb chunk connected received).Follows pb id args (stream ++ chunk) := by
  have hmode : c.channel.onMessage ≠ .unset := by
    intro hunset
    rw [h.unset hunset] at hconnected
    cases hconnected
  refine ⟨(c.channel.handleDataIn_id pb chunk).2.trans h.args_eq,
    fun hunset => absurd hunset (CControlChannel.handleDataIn_started hmode chunk), ?_⟩
  obtain ⟨pieces, hvalid, hstream, hheard⟩ := h.taken
  have hattempt := Piece.attemptBytes_eq_next (c.channel.inputBuffer ++ chunk)
  cases hnext : Piece.next (c.channel.inputBuffer ++ chunk) with
  | none =>
    simp only [hnext] at hattempt
    obtain ⟨hheard', hbuf⟩ := hheard.nothing hmode hattempt connected received
    exact ⟨pieces, hvalid, by rw [hstream, List.append_assoc, hbuf], hheard'⟩
  | some p =>
    obtain ⟨x, rest⟩ := p
    obtain ⟨hx, hinput⟩ := (Piece.next_eq_some_iff _ x rest).mp hnext
    simp only [hnext] at hattempt
    have hall : ∀ y ∈ pieces ++ [x], y.Valid := by
      simpa [or_imp, forall_and] using ⟨hvalid, hx⟩
    have hsplit : stream ++ chunk = (pieces ++ [x]).flatMap Piece.bytes ++ rest := by
      rw [hstream, List.append_assoc, hinput, List.flatMap_append, List.flatMap_singleton,
        List.append_assoc]
    cases x with
    | junk header =>
      obtain ⟨hheard', hbuf⟩ := hheard.nothing hmode hattempt connected received
      refine ⟨pieces ++ [.junk header], hall, by rw [hsplit, hbuf], ?_⟩
      rw [List.filterMap_append]
      exact (List.append_nil _).symm ▸ hheard'
    | frame msg =>
      obtain ⟨hheard', hbuf⟩ := hheard.message hmode hattempt connected received
      exact ⟨pieces ++ [.frame msg], hall, by rw [hsplit, hbuf],
        List.filterMap_append ▸ hheard'⟩

end ControlClient

namespace NClient

open ControlClient

variable (pb : Protobuf)

def run (s : NClient) (evs : List Event) : Except ClientFault NClient := evs.foldlM (step pb) s

/-- The bytes that are read from the connection while the event is handled. -/
def taken (s : NClient) : Event → Obj → Bytes
  | .connect _ _, _ => []
  | .readable o chunk _, p =>
      if p = o ∧ (s.controls o).any (·.connected) = true then chunk else []

/-- The bytes that are read from the connection in a run. -/
def received : NClient → List Event → Obj → Bytes
  | _, [], _ => []
  | s, ev :: evs, o => s.taken ev o ++
      match s.step pb ev with
      | .error _ => []
      | .ok s' => received s' evs o

/-- Every channel does what the bytes read from its own connection say. -/
def Obeys (args : List (Bytes × CControlChannelArgs)) (s : NClient) (r : Obj → Bytes) : Prop :=
  ∀ o c, s.controls o = some c → ∃ id a, args[o]? = some (id, a) ∧ c.Follows pb id a (r o)

variable {pb} {args : List (Bytes × CControlChannelArgs)} {s s' : NClient} {o p : Obj}
  {c c' : ControlClient} {r : Obj → Bytes}

/-- The other channels stay as they are, or go. -/
theorem handleDataIn_controls {chunk : Bytes} {e : ReadEnd}
    (hok : s.handleDataIn pb o c chunk e = .ok s') (hp : s'.controls p = some c') :
    p ≠ o ∧ s.controls p = some c' ∨
      p = o ∧ ∃ connected received, c' = c.afterRead pb chunk connected received := by
  have hset : ∀ {s₁ : NClient} {c₁ : ControlClient},
      s₁.controls = (s.setControl o (some c₁)).controls → s₁.controls p = some c' →
        p ≠ o ∧ s.controls p = some c' ∨ p = o ∧ c' = c₁ := by
    intro s₁ c₁ hcontrols hp
    rw [hcontrols, setControl_controls] at hp
    split at hp
    · rename_i hpo
      exact .inr ⟨hpo, (Option.some.inj hp).symm⟩
    · rename_i hpo
      exact .inl ⟨hpo, hp⟩
  unfold handleDataIn at hok
  dsimp only at hok
  split at hok
  · cases hok
    exact (hset rfl hp).imp_right fun h => ⟨h.1, _, _, h.2⟩
  · rename_i nonce hreg
    split at hok
    · cases hok
      exact (hset rfl hp).imp_right fun h => ⟨h.1, _, _, h.2⟩
    · split at hok
      · cases hok
      · cases hok
        rw [setControl_controls] at hp
        split at hp
        · cases hp
        · exact (hset rfl hp).imp_right fun h => ⟨h.1, _, _, h.2⟩

/-- Sending the greeting reads nothing. -/
theorem Follows.connect {id stream : Bytes} {a : CControlChannelArgs}
    (h : c.Follows pb id a stream) (hunset : c.channel.onMessage = .unset) (connected : Bool) :
    Follows pb id a stream { c with
      channel := c.channel.doControlChannelHandshake.2
      connected := connected } := by
  obtain ⟨pieces, hvalid, hstream, hheard⟩ := h.taken
  refine ⟨h.args_eq, nofun, pieces, hvalid, hstream, ?_, hheard.id_eq, hheard.dataChannels_eq⟩
  have hnone := hheard.greeted
  rw [hunset] at hnone
  exact ⟨nofun, fun hne => absurd (hnone.mpr hne) nofun⟩

theorem Obeys.step (h : s.Obeys pb args r) {ev : Event} (hok : s.step pb ev = .ok s') :
    s'.Obeys pb args fun o => r o ++ s.taken ev o := by
  intro p c' hp
  dsimp only
  cases ev with
  | connect o writeFails =>
    have htaken : s.taken (.connect o writeFails) p = [] := rfl
    rw [htaken, List.append_nil]
    simp only [NClient.step] at hok
    split at hok
    · cases hok
      exact h p c' hp
    · rename_i c hc
      split at hok
      · rename_i hunset
        cases hok
        rw [setControl_controls] at hp
        split at hp
        · rename_i hpo
          cases hp
          obtain ⟨id, a, ha, hf⟩ := h p c (hpo ▸ hc)
          exact ⟨id, a, ha, Follows.connect hf hunset _⟩
        · exact h p c' hp
      · cases hok
        exact h p c' hp
  | readable o chunk e =>
    have hother : p ≠ o → s.taken (.readable o chunk e) p = [] :=
      fun hpo => if_neg fun h => hpo h.1
    have hunread : (s.controls o).any (·.connected) = false →
        s.taken (.readable o chunk e) p = [] := by
      intro hnone
      rw [taken, if_neg]
      rintro ⟨-, hany⟩
      rw [hnone] at hany
      cases hany
    simp only [NClient.step] at hok
    split at hok
    · rename_i hnone
      cases hok
      rw [hunread (by rw [hnone]; rfl), List.append_nil]
      exact h p c' hp
    · rename_i c hc
      split at hok
      · rename_i hconnected
        obtain ⟨hpo, hp⟩ | ⟨rfl, connected, received, rfl⟩ := handleDataIn_controls hok hp
        · rw [hother hpo, List.append_nil]
          exact h p c' hp
        · obtain ⟨id, a, ha, hf⟩ := h p c hc
          have htaken : s.taken (.readable p chunk e) p = chunk := by
            rw [taken, if_pos]
            exact ⟨rfl, by rw [hc]; exact hconnected⟩
          rw [htaken]
          exact ⟨id, a, ha, hf.afterRead hconnected chunk connected received⟩
      · rename_i hconnected
        cases hok
        rw [hunread (by rw [hc]; simpa using hconnected), List.append_nil]
        exact h p c' hp

theorem Obeys.run {evs : List Event} (h : s.Obeys pb args r) (hok : run pb s evs = .ok s') :
    s'.Obeys pb args fun o => r o ++ received pb s evs o := by
  induction evs generalizing s r with
  | nil =>
    cases hok
    have hr : (fun o => r o ++ received pb s' [] o) = r := funext fun o => List.append_nil (r o)
    rwa [hr]
  | cons ev evs ih =>
    rw [NClient.run, List.foldlM_cons] at hok
    cases hstep : s.step pb ev with
    | error e =>
      rw [hstep] at hok
      cases hok
    | ok s₁ =>
      rw [hstep] at hok
      have hr : (fun o => r o ++ received pb s (ev :: evs) o) =
          fun o => (r o ++ s.taken ev o) ++ received pb s₁ evs o := by
        funext o
        rw [received, hstep, List.append_assoc]
      rw [hr]
      exact ih (h.step hstep) hok

theorem addChannel_obeys {done : List (Bytes × CControlChannelArgs)}
    {a : Bytes × CControlChannelArgs} (h : s.Obeys pb done fun _ => [])
    (hok : s.addChannel done.length a.1 a.2 = .ok s') :
    s'.Obeys pb (done ++ [a]) fun _ => [] := by
  unfold addChannel at hok
  split at hok
  · cases hok
  · cases hok
    intro p c hp
    dsimp only at hp
    rw [setControl_controls] at hp
    split at hp
    · rename_i hpo
      cases hp
      exact ⟨a.1, a.2, by rw [hpo, List.getElem?_concat_length], follows_new a.1 a.2⟩
    · obtain ⟨id, a', ha, hf⟩ := h p c hp
      refine ⟨id, a', ?_, hf⟩
      rw [List.getElem?_append_left (List.getElem?_eq_some_iff.mp ha).1, ha]

/-- The channels of the constructor have read nothing. -/
theorem parseArgs_obeys {done rest : List (Bytes × CControlChannelArgs)}
    (h : s.Obeys pb done fun _ => []) (hok : parseArgs done.length rest s = .ok s') :
    s'.Obeys pb (done ++ rest) fun _ => [] := by
  induction rest generalizing done s with
  | nil =>
    cases hok
    rwa [List.append_nil]
  | cons a rest ih =>
    rw [parseArgs] at hok
    cases hadd : s.addChannel done.length a.1 a.2 with
    | error e =>
      rw [hadd] at hok
      cases hok
    | ok s₁ =>
      rw [hadd] at hok
      have hlen : done.length + 1 = (done ++ [a]).length := by rw [List.length_append]; rfl
      have hmade : s₁.Obeys pb (done ++ [a]) fun _ => [] := addChannel_obeys h hadd
      rw [hlen] at hok
      rw [List.append_cons]
      exact ih hmade hok

theorem new_obeys (h : new args = .ok s) : s.Obeys pb args fun _ => [] := by
  have hempty : (⟨fun _ => none, fun _ => none⟩ : NClient).Obeys pb [] fun _ => [] := nofun
  exact parseArgs_obeys hempty h

/-- A message is paid for with six bytes at least. -/
theorem length_messages_le {pieces : List Piece} (h : ∀ x ∈ pieces, x.Valid) :
    6 * (pieces.filterMap Piece.payload).length ≤ (pieces.flatMap Piece.bytes).length := by
  induction pieces with
  | nil => exact Nat.le_refl 0
  | cons x pieces ih =>
    obtain ⟨hx, hrest⟩ := List.forall_mem_cons.mp h
    have hle := ih hrest
    rw [List.flatMap_cons, List.length_append]
    cases x with
    | frame msg =>
      have hmsg : Frameable msg := hx
      have hpos := hmsg.length_pos
      have hlen := hmsg.headerInstaller_length
      rw [msgHeaderLength] at hlen
      rw [List.filterMap_cons_some (f := Piece.payload) rfl, List.length_cons, Piece.bytes, hlen]
      omega
    | junk header =>
      rw [List.filterMap_cons_none (f := Piece.payload) rfl]
      omega

/-- In every run of the client, whatever the servers send and whichever connections
close, a channel is what its own arguments and the messages in the first pieces of its
own stream say, and its buffer holds the other pieces.  The first message gives it its
id, and it has made one data channel, with that id, for each later one that asks for
one; each has cost the server six bytes at least, and the first message six more. -/
theorem channels_follow_streams (pb : Protobuf) (args : List (Bytes × CControlChannelArgs))
    (s₀ s : NClient) (evs : List Event) (o : Obj) (c : ControlClient) (hnew : new args = .ok s₀)
    (h : run pb s₀ evs = .ok s) (hc : s.controls o = some c) :
    ∃ id a done left rest, args[o]? = some (id, a) ∧ c.channel.args = a ∧
      MadeOf (received pb s₀ evs o) (done ++ left) rest ∧
      MadeOf c.channel.inputBuffer left rest ∧ c.Heard pb id (done.filterMap Piece.payload) ∧
      (c.dataChannels ≠ [] →
        6 * (c.dataChannels.length + 1) ≤ (received pb s₀ evs o).length) := by
  obtain ⟨id, a, ha, hf⟩ := (new_obeys hnew).run h o c hc
  obtain ⟨pieces, hvalid, hstream, hheard⟩ := hf.taken
  change received pb s₀ evs o = _ at hstream
  obtain ⟨left, rest, hleft⟩ := Piece.code.exists_splits c.channel.inputBuffer
  have hsplit := hleft.cons_words hvalid
  refine ⟨id, a, pieces, left, rest, ha, hf.args_eq, madeOf_iff_splits.mpr ?_,
    madeOf_iff_splits.mpr hleft, hheard, fun hne => ?_⟩
  · exact hstream ▸ hsplit
  · have hlen := length_messages_le hvalid
    have hmsgs := congrArg List.length hheard.dataChannels_eq
    have hcount := List.countP_le_length (p := asksForChannel pb)
      (l := (pieces.filterMap Piece.payload).tail)
    have hbytes := congrArg List.length hstream
    rw [List.length_append] at hbytes
    rw [List.length_replicate] at hmsgs
    rw [List.length_tail] at hcount
    have hpos := List.length_pos_iff.mpr hne
    omega

/-- The server answers with a data hello, asks for a data channel and sends noise.  The
first two are the messages of the channel, which keeps its own id. -/
theorem channels_follow_streams_noise :
    ∃ s c, run .wire exampleClient (exampleSession .dataChannelHello ++
        [.readable 0 [1, 2, 3, 4, 5] .again]) = .ok s ∧ s.controls 0 = some c ∧
      c.channel.args = ⟨[], 80⟩ ∧ c.Heard .wire [0x61]
        [Hello.serializeAsString ⟨some .dataChannelHello, some exampleNonce, none⟩,
          ControlChannelCmd.serializeAsString ⟨some .createDataChannel⟩] ∧
      c.dataChannels = [.new [0x61]] := by
  obtain ⟨s, hs⟩ := Option.isSome_iff_exists.mp (by decide +kernel :
    (run .wire exampleClient (exampleSession .dataChannelHello ++
      [.readable 0 [1, 2, 3, 4, 5] .again])).toOption.isSome)
  have hchannel : ((run .wire exampleClient (exampleSession .dataChannelHello ++
      [.readable 0 [1, 2, 3, 4, 5] .again])).toOption.bind (·.controls 0)).map
        (fun c => (c.channel.inputBuffer, c.dataChannels)) = some ([], [.new [0x61]]) := by
    decide +kernel
  rw [hs, Option.bind_some] at hchannel
  obtain ⟨c, hc, hfacts⟩ := Option.map_eq_some_iff.mp hchannel
  rw [Prod.mk.injEq] at hfacts
  have hrun := Runs.ok_of_toOption hs
  obtain ⟨id, a, done, left, rest, hargs, ha, hall, hleft, hheard, -⟩ :=
    channels_follow_streams .wire [([0x61], ⟨[], 80⟩)] exampleClient s _ 0 c rfl hrun hc
  rw [List.getElem?_cons_zero, Option.some.injEq, Prod.mk.injEq] at hargs
  obtain ⟨rfl, rfl⟩ := hargs
  have hmade : MadeOf (received .wire exampleClient (exampleSession .dataChannelHello ++
      [.readable 0 [1, 2, 3, 4, 5] .again]) 0)
        [.frame (Hello.serializeAsString ⟨some .dataChannelHello, some exampleNonce, none⟩),
          .frame (ControlChannelCmd.serializeAsString ⟨some .createDataChannel⟩),
          .junk [1, 2, 3, 4, 5]] [] := by
    refine ⟨?_, by decide +kernel, .inl (by decide)⟩
    simp only [List.forall_mem_cons, List.not_mem_nil, false_implies, implies_true, and_true]
    exact ⟨(Hello.valid_of_isUuid .dataChannelHello exampleNonce_isUuid).frameable rfl,
      frameable_enumField CCmd.createDataChannel, rfl, rfl⟩
  obtain ⟨hdone, -⟩ := (madeOf_iff_splits.mp hall).unique (madeOf_iff_splits.mp hmade)
  have hempty : MadeOf c.channel.inputBuffer [] [] :=
    ⟨fun _ hx => absurd hx List.not_mem_nil, hfacts.1, .inl (by decide)⟩
  obtain ⟨rfl, -⟩ := (madeOf_iff_splits.mp hleft).unique (madeOf_iff_splits.mp hempty)
  rw [List.append_nil] at hdone
  rw [hdone] at hheard
  exact ⟨s, c, hrun, hc, ha, hheard, hfacts.2⟩

end NClient

end NcxTunnel
