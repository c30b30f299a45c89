import NcxTunnel.CloseEffects

/-!
# The batches of the server loop

`EventLoop::run` collects the channels that are ready and then handles them one by
one.  A channel is part of its connection, and that is destroyed with its last
strong reference, which an earlier handler of the same batch can drop.
-/

namespace NcxTunnel.NServer

/-- What holds a connection by `std::shared_ptr` between two handlers. -/
inductive Owner where
  | connections
  | waitHandleVisitors
  | ncxClientConn
deriving Repr, DecidableEq

def strongRefs (s : NServer) (o : Obj) : List Owner :=
  (if s.inPool o then [.connections] else []) ++
    (if s.waiting o then [.waitHandleVisitors] else []) ++
    if (s.conns o).isControl then [.ncxClientConn] else []

theorem lock_iff_strongRefs (s : NServer) (o : Obj) :
    s.lock ⟨[], []⟩ o = true ↔ s.strongRefs o ≠ [] := by
  cases hp : s.inPool o <;> cases hw : s.waiting o <;> cases hc : (s.conns o).isControl <;>
    simp [lock, strongRefs, hp, hw, hc]

theorem mem_strongRefs (s : NServer) (o : Obj) (w : Owner) : w ∈ s.strongRefs o ↔
    match w with
    | .connections => s.inPool o = true
    | .waitHandleVisitors => s.waiting o = true
    | .ncxClientConn => (s.conns o).isControl = true := by
  cases w <;> simp [strongRefs]

theorem waiting_iff (s : NServer) (o : Obj) :
    s.waiting o = true ↔ ∃ nonce, (s.conns o).server = .proxy nonce ∧ o ∈ s.queue nonce := by
  unfold waiting
  cases (s.conns o).server with
  | ncxAcceptor => simp
  | proxy nonce =>
    cases hch : s.scMap nonce with
    | none => simp [queue, hch]
    | some ch => simp [queue, hch]

/-! ## Batches -/

inductive ChannelOwner where
  /-- the channel of the eventfd -/
  | eventLoop
  | acceptor (srv : ServerRef)
  | connection (o : Obj)
deriving Repr, DecidableEq

/-- A channel that `poll` has returned, with what its event brings. -/
inductive ActiveChannel where
  | wakeup
  | acceptor (srv : ServerRef) (o : Obj) (id : ConnId) (a : Answers)
  | connection (o : Obj) (reads : List Bytes) (e : ReadEnd) (a : Answers)

namespace ActiveChannel

def owner : ActiveChannel → ChannelOwner
  | wakeup => .eventLoop
  | acceptor srv _ _ _ => .acceptor srv
  | connection o _ _ _ => .connection o

/-- The wakeup callback only reads the eventfd. -/
def event : ActiveChannel → Option Event
  | wakeup => none
  | acceptor srv o id a => some (.accept srv o id a)
  | connection o reads e a => some (.readable o reads e a)

end ActiveChannel

/-- The owner exists: acceptors go with their server, connections with their last reference. -/
def OwnerAlive (s : NServer) : ChannelOwner → Prop
  | .eventLoop => True
  | .acceptor srv => s.listening srv = true
  | .connection o => s.strongRefs o ≠ []

instance (s : NServer) (w : ChannelOwner) : Decidable (s.OwnerAlive w) :=
  match w with
  | .eventLoop => inferInstanceAs (Decidable True)
  | .acceptor _ => inferInstanceAs (Decidable (_ = _))
  | .connection _ => inferInstanceAs (Decidable (_ ≠ _))

/-- The eventfd and the listeners stay in the epoll set for good. -/
def Registered (s : NServer) : ChannelOwner → Prop
  | .connection o => (s.conns o).state ≠ .connecting ∧ (s.conns o).isEpolled = true
  | .eventLoop => True
  | .acceptor _ => True

instance (s : NServer) (w : ChannelOwner) : Decidable (s.Registered w) :=
  match w with
  | .connection _ => inferInstanceAs (Decidable (_ ∧ _))
  | .eventLoop => inferInstanceAs (Decidable True)
  | .acceptor _ => inferInstanceAs (Decidable True)

/-- What `epoll_wait` can return: every channel once, of an owner that exists. -/
structure Polled (s : NServer) (batch : List ActiveChannel) : Prop where
  alive : ∀ ch ∈ batch, s.OwnerAlive ch.owner
  registered : ∀ ch ∈ batch, s.Registered ch.owner
  distinct : (batch.map ActiveChannel.owner).Nodup

instance (s : NServer) (batch : List ActiveChannel) : Decidable (s.Polled batch) :=
  decidable_of_iff ((∀ ch ∈ batch, s.OwnerAlive ch.owner) ∧ (∀ ch ∈ batch, s.Registered ch.owner) ∧
    (batch.map ActiveChannel.owner).Nodup)
    ⟨fun h => ⟨h.1, h.2.1, h.2.2⟩, fun h => ⟨h.alive, h.registered, h.distinct⟩⟩

variable (pb : Protobuf)

def handleEvent (s : NServer) (ch : ActiveChannel) : Except Fault NServer :=
  match ch.event with
  | none => .ok s
  | some ev => s.step pb ev

def handleEvents (s : NServer) (batch : List ActiveChannel) : Except Fault NServer :=
  batch.foldlM (handleEvent pb) s

/-- The event does not take this reference to `p`: it closes nothing that is filed under
the same id of the same server, files nothing there, and does not bridge `p`. -/
def LeavesRef (s : NServer) (ev : Event) (p : Obj) : Owner → Prop
  | .connections =>
      (∀ x, s.Closes pb ev x → (s.conns x).server = (s.conns p).server →
        (s.conns x).connId ≠ (s.conns p).connId) ∧
      ∀ srv o id a, ev = .accept srv o id a → srv = (s.conns p).server → id ≠ (s.conns p).connId
  | .waitHandleVisitors =>
      ∀ o reads e a, ev = .readable o reads e a → s.nextVisitor pb o reads ≠ some p
  | .ncxClientConn => True

/-- Some reference to the connection is left. -/
def Spares (s : NServer) (ev : Event) (p : Obj) : Prop :=
  ∃ w ∈ s.strongRefs p, s.LeavesRef pb ev p w

/-- At every channel of the batch, what its event closes spares the connections whose
channels are still to come. -/
def SparesLater (s : NServer) (batch : List ActiveChannel) : Prop :=
  ∀ before ch after, batch = before ++ ch :: after → ∀ s', s.handleEvents pb before = .ok s' →
    ∀ ev ∈ ch.event, s'.UuidFresh pb ev ∧
      ∀ p, .connection p ∈ after.map ActiveChannel.owner → s'.Spares pb ev p

section Handler

variable {pb} {s s' : NServer} {p : Obj}

theorem strongRefs_ne_nil {w : Owner} (h : w ∈ s.strongRefs p) : s.strongRefs p ≠ [] :=
  List.ne_nil_of_mem h

theorem Spares.accept {srv : ServerRef} {o : Obj} {id : ConnId} {a : Answers}
    (h : s.Spares pb (.accept srv o id a) p) (hnew : (s.conns o).state = .connecting)
    (hp : (s.conns p).state ≠ .connecting) :
    ((s.newConnectionHandle a srv o id).conns p).state ≠ .connecting ∧
      (s.newConnectionHandle a srv o id).strongRefs p ≠ [] := by
  obtain ⟨s₁, hs₁, haffects, hcontrol, hqueue⟩ := newConnectionHandle_effect pb s a srv hnew id
  have hpo : p ≠ o := by
    rintro rfl
    exact hp hnew
  have hconn : (s.modifyConn o fun _ => newConnection srv id).conns p = s.conns p := by
    rw [modifyConn_conns, if_neg hpo]
  have hserver : (s₁.conns p).server = (s.conns p).server := by rw [haffects.server_eq, hconn]
  have hconnId : (s₁.conns p).connId = (s.conns p).connId := by rw [haffects.connId_eq, hconn]
  rw [hs₁]
  refine ⟨haffects.made p (by rwa [hconn]), ?_⟩
  obtain ⟨w, hw, hleaves⟩ := h
  apply strongRefs_ne_nil (w := w)
  rw [mem_strongRefs] at hw ⊢
  cases w with
  | connections =>
    -- the command may close others, and then the new connection is filed
    obtain ⟨hcloses, hfiled⟩ := hleaves
    have hkey : s₁.pools (s.conns p).server (s.conns p).connId =
        s.pools (s.conns p).server (s.conns p).connId := by
      refine haffects.pools_eq _ _ fun x hx => ?_
      rw [modifyConn_conns]
      split
      · exact fun hsrv => hfiled srv o id a rfl hsrv
      · exact hcloses x hx
    simp only [inPool, decide_eq_true_eq] at hw ⊢
    rw [hserver, hconnId, Function.update_apply]
    split
    · rename_i hsrv
      have hid := hfiled srv o id a rfl hsrv.symm
      rw [← hsrv, Connections.assign_apply, if_neg (Ne.symm hid), ← hw, ← hkey, hsrv]
    · rw [hkey, hw]
  | waitHandleVisitors =>
    rw [waiting_iff] at hw ⊢
    obtain ⟨nonce, hproxy, hmem⟩ := hw
    exact ⟨nonce, hserver.trans hproxy, hqueue nonce p hmem⟩
  | ncxClientConn =>
    exact haffects.isControl p (by rw [hconn]; exact hw)

theorem Spares.read {o : Obj} {reads : List Bytes} {e : ReadEnd} {a : Answers}
    (h : s.Spares pb (.readable o reads e a) p) (heffect : s.ReadEffect pb o reads e a s') :
    s'.strongRefs p ≠ [] := by
  have haffects := heffect.affects
  obtain ⟨w, hw, hleaves⟩ := h
  apply strongRefs_ne_nil (w := w)
  rw [mem_strongRefs] at hw ⊢
  cases w with
  | connections =>
    simp only [inPool, decide_eq_true_eq] at hw ⊢
    rw [haffects.server_eq, haffects.connId_eq, haffects.pools_eq _ _ hleaves.1]
    exact hw
  | waitHandleVisitors =>
    rw [waiting_iff] at hw ⊢
    obtain ⟨nonce, hproxy, hmem⟩ := hw
    refine ⟨nonce, (haffects.server_eq p).trans hproxy, ?_⟩
    exact (heffect.queue_kept nonce p hmem).resolve_right (hleaves o reads e a rfl)
  | ncxClientConn => exact haffects.isControl p hw

theorem Spares.step {ev : Event} (h : s.Spares pb ev p) (huuid : s.UuidFresh pb ev)
    (hp : (s.conns p).state ≠ .connecting) (hok : s.step pb ev = .ok s') :
    (s'.conns p).state ≠ .connecting ∧ s'.strongRefs p ≠ [] := by
  have hquiet : (s.conns p).state ≠ .connecting ∧ s.strongRefs p ≠ [] := by
    obtain ⟨w, hw, -⟩ := h
    exact ⟨hp, strongRefs_ne_nil hw⟩
  cases ev with
  | accept srv o id a =>
    rcases step_accept_cases hok with ⟨hnew, rfl⟩ | rfl
    · exact h.accept hnew hp
    · exact hquiet
  | readable o reads e a =>
    rcases step_readable_cases hok with ⟨-, hread⟩ | rfl
    · have heffect : s.ReadEffect pb o reads e a s' := handleDataIn_effect huuid hread
      exact ⟨heffect.affects.made p hp, h.read heffect⟩
    · exact hquiet

/-- Channels stay in `sc_map_`, so no listener is ever destroyed. -/
theorem listening_step {ev : Event} (huuid : s.UuidFresh pb ev) (hok : s.step pb ev = .ok s')
    {srv : ServerRef} (hsrv : s.listening srv = true) : s'.listening srv = true := by
  have hkept : ∀ n c, s.control n = some c → s'.control n = some c := by
    intro n c hc
    cases ev with
    | accept srv o id a =>
      rcases step_accept_cases hok with ⟨hnew, rfl⟩ | rfl
      · obtain ⟨s₁, hs₁, -, hcontrol, -⟩ := newConnectionHandle_effect pb s a srv hnew id
        rw [hs₁]
        exact (hcontrol n).trans hc
      · exact hc
    | readable o reads e a =>
      rcases step_readable_cases hok with ⟨-, hread⟩ | rfl
      · exact (handleDataIn_effect huuid hread).control_kept n c hc
      · exact hc
  cases srv with
  | ncxAcceptor => rfl
  | proxy nonce =>
    obtain ⟨ch, hch⟩ := Option.isSome_iff_exists.mp hsrv
    obtain ⟨ch', hch', -⟩ := Option.map_eq_some_iff.mp (hkept nonce _ (control_eq hch))
    exact Option.isSome_iff_exists.mpr ⟨ch', hch'⟩

/-- The channel can be dispatched, now or after other handlers. -/
structure Ready (s : NServer) (w : ChannelOwner) : Prop where
  alive : s.OwnerAlive w
  made : ∀ o, w = .connection o → (s.conns o).state ≠ .connecting

theorem Ready.handleEvent {ch : ActiveChannel} {w : ChannelOwner} (h : s.Ready w)
    (hspares : ∀ ev ∈ ch.event, s.UuidFresh pb ev ∧ ∀ p, w = .connection p → s.Spares pb ev p)
    (hok : s.handleEvent pb ch = .ok s') : s'.Ready w := by
  unfold NServer.handleEvent at hok
  cases hev : ch.event with
  | none =>
    simp only [hev, Except.ok.injEq] at hok
    exact hok ▸ h
  | some ev =>
    simp only [hev] at hok
    obtain ⟨huuid, hspares⟩ := hspares ev hev
    cases w with
    | eventLoop => exact ⟨trivial, fun _ he => by cases he⟩
    | acceptor srv => exact ⟨listening_step huuid hok h.alive, fun _ he => by cases he⟩
    | connection p =>
      obtain ⟨hmade, hrefs⟩ := (hspares p rfl).step huuid (h.made p rfl) hok
      refine ⟨hrefs, fun o he => ?_⟩
      cases he
      exact hmade

end Handler

variable {pb} in
theorem SparesLater.tail {s s₁ : NServer} {ch : ActiveChannel} {batch : List ActiveChannel}
    (h : s.SparesLater pb (ch :: batch)) (hok : s.handleEvent pb ch = .ok s₁) :
    s₁.SparesLater pb batch := by
  intro before ch' after he s' hs' ev hev
  refine h (ch :: before) ch' after (by rw [he, List.cons_append]) s' ?_ ev hev
  rw [handleEvents, List.foldlM_cons, hok]
  exact hs'

/-- No event goes to a dead channel, provided every handler leaves some reference to each
connection whose channel is still to come. -/
theorem dispatched_owner_alive (s : NServer) (batch : List ActiveChannel) (hpolled : s.Polled batch)
    (hspares : s.SparesLater pb batch) : ∀ before ch after, batch = before ++ ch :: after →
      ∀ s', s.handleEvents pb before = .ok s' → s'.OwnerAlive ch.owner := by
  have hready : ∀ ch ∈ batch, s.Ready ch.owner := by
    intro ch hch
    refine ⟨hpolled.alive ch hch, fun o ho => ?_⟩
    have hregistered := hpolled.registered ch hch
    rw [ho] at hregistered
    exact hregistered.1
  clear hpolled
  -- by induction on the handlers that have run
  intro before
  induction before generalizing s batch with
  | nil =>
    rintro ch after rfl s' hs'
    cases hs'
    exact (hready ch (by simp)).alive
  | cons first before ih =>
    rintro ch after rfl s' hs'
    rw [handleEvents, List.foldlM_cons] at hs'
    cases hfirst : s.handleEvent pb first with
    | error f => simp [hfirst, bind, Except.bind] at hs'
    | ok s₁ =>
      rw [hfirst] at hs'
      refine ih s₁ (before ++ ch :: after) (hspares.tail hfirst) (fun c hc => ?_) ch after rfl s' hs'
      refine (hready c (List.mem_cons_of_mem _ hc)).handleEvent (fun ev hev => ?_) hfirst
      obtain ⟨huuid, hall⟩ := hspares [] first (before ++ ch :: after) rfl s rfl ev hev
      exact ⟨huuid, fun p hp => hall p (List.mem_map.mpr ⟨c, hc, hp⟩)⟩

/-- Two clients have connected and not greeted yet. -/
def exampleClients : NServer :=
  ((new 8080).newConnectionHandle (.calm []) .ncxAcceptor 0 1).newConnectionHandle (.calm [])
    .ncxAcceptor 1 2

/-- One of two clients closes, and the event of the other comes after it. -/
theorem dispatched_owner_alive_example :
    ∃ s', exampleClients.handleEvents .wire [.connection 0 [] .closed (.calm [])] = .ok s' ∧
      s'.OwnerAlive (.connection 1) := by
  obtain ⟨s', hs', hscMap⟩ : ∃ s', exampleClients.handleEvents .wire
      [.connection 0 [] .closed (.calm [])] = .ok s' ∧ s'.scMap = fun _ => none := ⟨_, rfl, rfl⟩
  have hpolled : exampleClients.Polled
      [.connection 0 [] .closed (.calm []), .connection 1 [] .again (.calm [])] := by
    decide +kernel
  have hcuts : ∀ x, exampleClients.Cuts 0 x → x = 0 := by
    intro x hx
    rcases Relation.ReflTransGen.cases_head hx.2 with hx | ⟨y, ⟨-, -, ref, b, hnotice, -⟩, -⟩
    · exact hx.symm
    · cases hnotice
  have hcloses : ∀ x, exampleClients.Closes .wire (.readable 0 [] .closed (.calm [])) x → x = 0 := by
    rintro x (⟨-, hx⟩ | ⟨peer, hpeer, -⟩ | ⟨hello, -, -, hfails, -⟩ | ⟨visitor, -, -, -, hfails, -⟩)
    · exact hcuts x hx
    · cases hpeer
    · cases hfails
    · rcases hfails with hfails | ⟨-, hfails⟩ <;> cases hfails
  have hspares : exampleClients.SparesLater .wire
      [.connection 0 [] .closed (.calm []), .connection 1 [] .again (.calm [])] := by
    intro before ch after he s₁ hs₁ ev hev
    rcases before with - | ⟨b, before⟩
    · rw [List.nil_append, List.cons.injEq] at he
      obtain ⟨rfl, rfl⟩ := he
      cases hs₁
      cases hev
      refine ⟨fun _ _ => rfl, fun p hp => ?_⟩
      obtain rfl : p = 1 := by simpa [ActiveChannel.owner] using hp
      refine ⟨.connections, by decide +kernel, fun x hx _ => ?_, fun _ _ _ _ he => by cases he⟩
      rw [hcloses x hx]
      decide +kernel
    · rw [List.cons_append, List.cons.injEq] at he
      obtain ⟨rfl, he⟩ := he
      rcases before with - | ⟨b, before⟩
      · rw [List.nil_append, List.cons.injEq] at he
        obtain ⟨rfl, rfl⟩ := he
        cases hev
        rw [hs', Except.ok.injEq] at hs₁
        refine ⟨fun _ nonce => ?_, fun p hp => by simp at hp⟩
        rw [← hs₁, bridge, hscMap, Option.bind_none]
      · simp at he
  exact ⟨s', hs', dispatched_owner_alive .wire exampleClients _ hpolled hspares
    [.connection 0 [] .closed (.calm [])] (.connection 1 [] .again (.calm [])) [] rfl s' hs'⟩

/-- Both ends of a bridge are ready.  The visitor is at its end, its close destroys the
data channel, and the next event of the batch is for that. -/
theorem bridge_end_dispatched_dead :
    ∃ s s', Reachable .wire 8080 s ∧
      s.Polled [.connection 1 [] .closed (.calm []), .connection 2 [] .again (.calm [])] ∧
      s.handleEvents .wire [.connection 1 [] .closed (.calm [])] = .ok s' ∧
      ¬s'.OwnerAlive (.connection 2) := by
  have hview : ((run .wire (new 8080) exampleEvents).toOption.bind fun s =>
      (s.handleEvents .wire [.connection 1 [] .closed (.calm [])]).toOption.map fun s' =>
        decide (s.Polled [.connection 1 [] .closed (.calm []), .connection 2 [] .again (.calm [])] ∧
          ¬s'.OwnerAlive (.connection 2))) = some true := by
    decide +kernel
  obtain ⟨s, hs, hview⟩ := Option.bind_eq_some_iff.mp hview
  obtain ⟨s', hs', hfacts⟩ := Option.map_eq_some_iff.mp hview
  obtain ⟨hpolled, hdead⟩ := of_decide_eq_true hfacts
  exact ⟨s, s', ⟨exampleEvents, Runs.ok_of_toOption hs⟩, hpolled, Runs.ok_of_toOption hs', hdead⟩

end NcxTunnel.NServer
