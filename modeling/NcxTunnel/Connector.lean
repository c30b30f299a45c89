import NcxTunnel.Pool
import NcxTunnel.Runs

/-!
# A client and its connector

`network/client.cpp` and `network/connector.cpp`, called on the loop thread, so that
`run_on_onwer_thread` calls at once.  The client keeps `connected_` and `conn_`, the
connector `connect_` and `state_`.  Every attempt to connect succeeds; the callbacks
of the user do not call the client.  Connections are numbered by `next_conn_id_`.
-/

namespace NcxTunnel

inductive ConnectorState where
  | kDisconnected
  | kConnecting
  | kConnected
deriving Repr, DecidableEq

structure Connector where
  connect : Bool
  state : ConnectorState
  channel : Bool
deriving Repr, DecidableEq

structure Client where
  connector : Connector
  connected : Bool
  conn : Option Obj
  nextConnId : ℕ
  state : Obj → ConnectionState

namespace Client

inductive Fault where
  /-- `assert(state_ == kDisconnected)` in `startInLoop` -/
  | stateNotDisconnected
  /-- `assert(conn == conn_)` in `removeConnection` -/
  | otherConnection
  /-- `channel_` is null in `removeAndResetChannel` -/
  | nullChannel
deriving Repr, DecidableEq

def new : Client := ⟨⟨false, .kDisconnected, false⟩, false, none, 0, fun _ => .connecting⟩

/-- `ConnectionEstablished` sets the state of the connection. -/
def newConnection (s : Client) : Client :=
  { s with
    nextConnId := s.nextConnId + 1
    conn := some (s.nextConnId + 1)
    state := Function.update s.state (s.nextConnId + 1) .connected }

/-- With `ConnectionConstructor`. -/
def removeConnection (s : Client) (o : Obj) : Except Fault Client :=
  if s.conn = some o then
    .ok { s with
      conn := none
      state := if s.state o = .connected then Function.update s.state o .disconnected else s.state
      connected := false }
  else .error .otherConnection

/-- `Connection::handle_close`, with `removeConnection` as its `on_close_`. -/
def handleClose (s : Client) (o : Obj) : Except Fault Client :=
  if s.state o = .disconnected then .ok s
  else do
    let s ← s.removeConnection o
    return { s with state := Function.update s.state o .disconnected }

/-- `Connector::startInLoop`, with `newConnection` as its callback. -/
def startInLoop (s : Client) : Except Fault Client :=
  if s.connector.state = .kDisconnected then
    if s.connector.connect then
      .ok { s with connector := { s.connector with state := .kConnected } }.newConnection
    else .ok s
  else .error .stateNotDisconnected

/-- `Connector::stopInLoop`: a connector that is connected stays so. -/
def stopInLoop (s : Client) : Except Fault Client :=
  if s.connector.state = .kConnecting then
    if s.connector.channel then
      .ok { s with connector := { s.connector with state := .kDisconnected, channel := false } }
    else .error .nullChannel
  else .ok s

def connect (s : Client) : Except Fault Client :=
  if s.connected then .ok s
  else startInLoop { s with connected := true, connector := { s.connector with connect := true } }

def stop (s : Client) : Except Fault Client :=
  stopInLoop { s with connected := false, connector := { s.connector with connect := false } }

inductive Op where
  | connect
  | stop
  | remoteClose
deriving Repr, DecidableEq

def step (s : Client) : Op → Except Fault Client
  | .connect => s.connect
  | .stop => s.stop
  | .remoteClose =>
      match s.conn with
      | none => .ok s
      | some o => s.handleClose o

/-- Behind a step the connector is disconnected unless the client is connected, and
behind `stop` no connection is open. -/
def Agrees (op : Op) (s : Client) : Prop :=
  (s.connected = false → s.connector.state = .kDisconnected) ∧
    (op = .stop → ∀ o, s.state o ≠ .connected)

structure Idle (s : Client) : Prop where
  connected : s.connected = false
  connector : s.connector.state = .kDisconnected
  conn : s.conn = none
  closed : ∀ o, s.state o ≠ .connected

/-- From the first connect on, as long as nothing else is done. -/
structure Up (s : Client) : Prop where
  connected : s.connected = true
  connector : s.connector.state = .kConnected
  established : ∃ o, s.conn = some o ∧ s.state o = .connected

theorem new_idle : new.Idle := by
  refine ⟨rfl, rfl, rfl, fun o h => ?_⟩
  cases h

variable {s : Client} {op : Op} {ops : List Op}

/-- `stop` changes flags only. -/
theorem step_stop (h : s.connector.state ≠ .kConnecting) :
    s.step .stop =
      .ok { s with connected := false, connector := { s.connector with connect := false } } := by
  simp only [step, stop, stopInLoop, if_neg h]

theorem Idle.step_connect (h : s.Idle) : ∃ s', s.step .connect = .ok s' ∧ s'.Up := by
  refine ⟨_, by simp only [step, connect, startInLoop, h.connected, h.connector]; rfl, rfl, rfl, ?_⟩
  exact ⟨_, rfl, Function.update_self _ _ _⟩

theorem Idle.step_other (h : s.Idle) (hop : op ≠ .connect) :
    ∃ s', s.step op = .ok s' ∧ s'.Idle := by
  cases op with
  | connect => exact absurd rfl hop
  | stop =>
    refine ⟨_, step_stop (by simp [h.connector]), ?_⟩
    exact ⟨rfl, h.connector, h.conn, h.closed⟩
  | remoteClose => exact ⟨s, by simp only [step, h.conn], h⟩

theorem Up.step_connect (h : s.Up) : s.step .connect = .ok s := by
  simp only [step, connect, h.connected, if_true]

/-- Neither a stop nor a close tells the connector. -/
theorem Up.step_other (h : s.Up) (hop : op ≠ .connect) :
    ∃ s', s.step op = .ok s' ∧ s'.connected = false ∧ s'.connector.state = .kConnected := by
  cases op with
  | connect => exact absurd rfl hop
  | stop =>
    exact ⟨_, step_stop (by simp [h.connector]), rfl, h.connector⟩
  | remoteClose =>
    obtain ⟨o, hconn, hstate⟩ := h.established
    refine ⟨_, by simp only [step, hconn, handleClose, hstate, removeConnection]; rfl, rfl, ?_⟩
    exact h.connector

theorem Up.agrees (h : s.Up) : Agrees .connect s := by
  refine ⟨fun hc => ?_, fun hs => ?_⟩
  · rw [h.connected] at hc
    cases hc
  · cases hs

theorem Up.everyStep_iff (h : s.Up) :
    Runs.EveryStep step (fun _ op s' => Agrees op s') ops s ↔ ∀ op ∈ ops, op = .connect := by
  induction ops with
  | nil => exact ⟨fun _ => List.forall_mem_nil _, fun _ => trivial⟩
  | cons op ops ih =>
    rw [List.forall_mem_cons]
    by_cases hop : op = .connect
    · rw [hop, Runs.everyStep_cons h.step_connect, ih]
      exact and_congr_left' (iff_of_true h.agrees rfl)
    · obtain ⟨s', hs', hconnected, hconnector⟩ := h.step_other hop
      rw [Runs.everyStep_cons hs']
      refine ⟨fun hall => ?_, fun hall => absurd hall.1 hop⟩
      have hstate := hall.1.1 hconnected
      rw [hconnector] at hstate
      cases hstate

theorem Idle.everyStep_iff (h : s.Idle) :
    Runs.EveryStep step (fun _ op s' => Agrees op s') ops s ↔
      ∀ before op after, ops = before ++ op :: after → op ≠ .connect → Op.connect ∉ before := by
  induction ops generalizing s with
  | nil => exact ⟨fun _ before op after he => absurd he (by simp), fun _ => trivial⟩
  | cons op ops ih =>
    rw [Runs.forall_split_cons]
    by_cases hop : op = .connect
    · obtain ⟨s', hs', hup⟩ := h.step_connect
      rw [hop, Runs.everyStep_cons hs', hup.everyStep_iff, and_iff_right hup.agrees]
      refine ⟨fun hall => ⟨fun _ => List.not_mem_nil, ?_⟩, fun hall op' hmem => ?_⟩
      · rintro before op' after rfl hne
        exact absurd (hall op' (by simp)) hne
      · obtain ⟨before, after, rfl⟩ := List.append_of_mem hmem
        by_contra hne
        exact hall.2 before op' after rfl hne List.mem_cons_self
    · obtain ⟨s', hs', hidle⟩ := h.step_other hop
      have hagrees : Agrees op s' := ⟨fun _ => hidle.connector, fun _ => hidle.closed⟩
      rw [Runs.everyStep_cons hs', ih hidle, and_iff_right hagrees]
      refine ⟨fun hall => ⟨fun _ => List.not_mem_nil, fun before op' after he hne => ?_⟩,
        fun hall before op' after he hne hmem => ?_⟩
      · rw [List.mem_cons, not_or]
        exact ⟨Ne.symm hop, hall before op' after he hne⟩
      · exact hall.2 before op' after he hne (List.mem_cons_of_mem op hmem)

/-- Flags and connector agree along a sequence of calls, no assertion fails, and
`stop` leaves no connection open, exactly if neither a stop nor a close by the
peer comes after a connect. -/
theorem client_connector_agree_iff (ops : List Op) :
    Runs.EveryStep step (fun _ op s' => (s'.connected = false →
        s'.connector.state = .kDisconnected) ∧ (op = .stop → ∀ o, s'.state o ≠ .connected))
      ops new ↔
    ∀ before op after, ops = before ++ op :: after → op ≠ .connect → Op.connect ∉ before := by
  change Runs.EveryStep step (fun _ op s' => Agrees op s') ops new ↔ _
  refine new_idle.everyStep_iff

/-- After a close by the peer a further connect aborts, and `stop` leaves the
connection open. -/
theorem client_connector_disagree :
    (∃ s, [Op.connect, .remoteClose].foldlM step new = .ok s ∧ s.connected = false ∧
      s.connector.state = .kConnected ∧ s.step .connect = .error .stateNotDisconnected) ∧
    ∃ s, [Op.connect, .stop].foldlM step new = .ok s ∧ s.state 1 = .connected := by
  exact ⟨⟨_, rfl, rfl, rfl, rfl⟩, _, rfl, rfl⟩

end Client

end NcxTunnel
