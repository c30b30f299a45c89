import NcxTunnel.Pool
import NcxTunnel.Runs

/-!
# Descriptors of the client process

`network/connector.cpp`, `network/client.cpp`, and the destructors in
`network/connection.cpp` and `network/socket.cpp`.  The `TcpSocket` of a connector
opens a descriptor; the `Connection` made from it is given the number.  Both close
the number when they are destroyed, and the kernel gives a closed number out again.
-/

namespace NcxTunnel

inductive Descriptor where
  | socket (client : Obj)
  | other
deriving Repr, DecidableEq

inductive ConnectionLife where
  | unmade
  /-- `conn_` of the client refers to it -/
  | attached
  /-- only functions on the call stack refer to it -/
  | detached
  | destroyed
deriving Repr, DecidableEq

/-- A `Client` as far as its descriptor goes. -/
structure ClientFds where
  fd : ℕ
  connector : Bool
  connection : ConnectionLife
deriving Repr, DecidableEq

inductive Closer where
  | connection
  | tcpSocket
deriving Repr, DecidableEq

structure Close where
  client : Obj
  closer : Closer
  fd : ℕ
  /-- what the number referred to -/
  hit : Option Descriptor
deriving Repr, DecidableEq

/-- It closes what was opened for its own client and has not been closed since. -/
def Close.Own (k : Close) : Prop := k.hit = some (.socket k.client)

instance (k : Close) : Decidable k.Own := inferInstanceAs (Decidable (_ = _))

structure Descriptors where
  table : ℕ → Option Descriptor
  clients : Obj → Option ClientFds
  closes : List Close

namespace Descriptors

/-- No client yet; some numbers are in use. -/
def init (used : ℕ → Bool) : Descriptors where
  table n := if used n then some .other else none
  clients _ := none
  closes := []

def setClient (s : Descriptors) (c : Obj) (cl : ClientFds) : Descriptors :=
  { s with clients := Function.update s.clients c (some cl) }

/-- `close` of a number that is not open does nothing. -/
def close (s : Descriptors) (c : Obj) (closer : Closer) (fd : ℕ) : Descriptors :=
  { s with
    table := Function.update s.table fd none
    closes := s.closes ++ [⟨c, closer, fd, s.table fd⟩] }

def destroyConnection (s : Descriptors) (c : Obj) (cl : ClientFds) : Descriptors :=
  (s.close c .connection cl.fd).setClient c { cl with connection := .destroyed }

/-- `~Connector`, which runs `~TcpSocket`.  The client lets go of its connection. -/
def destroyConnector (s : Descriptors) (c : Obj) (cl : ClientFds) : Descriptors :=
  (s.close c .tcpSocket cl.fd).setClient c { cl with
    connector := false
    connection := if cl.connection = .attached then .detached else cl.connection }

/-- `~Client`: members go in reverse order, so `conn_` goes before `connector_`. -/
def destroyClient (s : Descriptors) (c : Obj) (cl : ClientFds) (guarded : Bool) : Descriptors :=
  if cl.connection = .attached ∧ ¬guarded then
    (s.destroyConnection c cl).destroyConnector c { cl with connection := .destroyed }
  else s.destroyConnector c cl

inductive Event where
  | create (c : Obj) (fd : ℕ)
  | connect (c : Obj)
  | remoteClose (c : Obj)
  | destroyConnection (c : Obj)
  /-- `~Client`; `guarded` if an event of the connection is being handled -/
  | destroyClient (c : Obj) (guarded : Bool)
deriving Repr, DecidableEq

/-- What cannot happen in a state leaves it as it is. -/
def step (s : Descriptors) : Event → Descriptors
  | .create c fd =>
      if s.clients c = none ∧ s.table fd = none then
        { s with table := Function.update s.table fd (some (.socket c)) }.setClient c
          ⟨fd, true, .unmade⟩
      else s
  | .connect c =>
      match s.clients c with
      | none => s
      | some cl =>
          if cl.connector ∧ cl.connection = .unmade then
            s.setClient c { cl with connection := .attached }
          else s
  | .remoteClose c =>
      match s.clients c with
      | none => s
      | some cl =>
          if cl.connection = .attached then s.setClient c { cl with connection := .detached } else s
  | .destroyConnection c =>
      match s.clients c with
      | none => s
      | some cl => if cl.connection = .detached then s.destroyConnection c cl else s
  | .destroyClient c guarded =>
      match s.clients c with
      | none => s
      | some cl => if cl.connector then s.destroyClient c cl guarded else s

def run (s : Descriptors) (evs : List Event) : Descriptors := evs.foldl step s

/-- The object that is destroyed is the first of the two with its number, and the
other one is not destroyed with it. -/
def FirstToClose (s : Descriptors) : Event → Prop
  | .create _ _ => True
  | .connect _ => True
  | .remoteClose _ => True
  | .destroyConnection c => ∀ cl ∈ s.clients c, cl.connection = .detached → cl.connector
  | .destroyClient c guarded => ∀ cl ∈ s.clients c, cl.connector →
      cl.connection ≠ .destroyed ∧ (cl.connection = .attached → guarded)

/-- Neither object has been destroyed. -/
def Intact (cl : ClientFds) : Prop := cl.connector = true ∧ cl.connection ≠ .destroyed

def AllOwn (s : Descriptors) : Prop := ∀ k ∈ s.closes, k.Own

structure Inv (s : Descriptors) : Prop where
  intact : ∀ n c, s.table n = some (.socket c) → ∃ cl, s.clients c = some cl ∧ cl.fd = n ∧ Intact cl
  held : s.AllOwn → ∀ c cl, s.clients c = some cl → Intact cl → s.table cl.fd = some (.socket c)

section Steps

variable {s : Descriptors} {c : Obj} {cl cl' : ClientFds}

theorem setClient_clients (s : Descriptors) (c d : Obj) (cl : ClientFds) :
    (s.setClient c cl).clients d = if d = c then some cl else s.clients d := by
  simp [setClient, Function.update_apply]

theorem init_inv (used : ℕ → Bool) : (init used).Inv := by
  refine ⟨fun n c h => ?_, fun _ c cl h => ?_⟩
  · simp only [init] at h
    split at h
    · cases h
    · cases h
  · cases h

theorem create_inv (hinv : s.Inv) {fd : ℕ} (hc : s.clients c = none) (hfd : s.table fd = none) :
    ({ s with table := Function.update s.table fd (some (.socket c)) }.setClient c
      ⟨fd, true, .unmade⟩).Inv := by
  refine ⟨fun n d h => ?_, fun hown d cl h hcl => ?_⟩
  · change Function.update s.table fd (some (.socket c)) n = some (.socket d) at h
    rw [setClient_clients]
    by_cases hn : n = fd
    · subst hn
      rw [Function.update_self, Option.some.injEq, Descriptor.socket.injEq] at h
      rw [if_pos h.symm]
      exact ⟨_, rfl, rfl, rfl, by simp⟩
    · rw [Function.update_of_ne hn] at h
      obtain ⟨cl, hcl, hrest⟩ := hinv.intact n d h
      have hd : d ≠ c := by
        rintro rfl
        rw [hc] at hcl
        cases hcl
      rw [if_neg hd]
      exact ⟨cl, hcl, hrest⟩
  · change Function.update s.table fd (some (.socket c)) cl.fd = some (.socket d)
    rw [setClient_clients] at h
    split at h
    · rename_i hd
      cases h
      rw [hd, Function.update_self]
    · have hopen := hinv.held hown d cl h hcl
      rw [Function.update_of_ne, hopen]
      rintro he
      rw [he, hfd] at hopen
      cases hopen

/-- A change that destroys nothing. -/
theorem setClient_inv (hinv : s.Inv) (hc : s.clients c = some cl) (hfd : cl'.fd = cl.fd)
    (hintact : Intact cl' ↔ Intact cl) : (s.setClient c cl').Inv := by
  refine ⟨fun n d h => ?_, fun hown d cl₁ h hcl => ?_⟩
  · obtain ⟨cl₁, hcl₁, hn, hi⟩ := hinv.intact n d h
    rw [setClient_clients]
    split
    · rename_i hd
      rw [hd, hc, Option.some.injEq] at hcl₁
      subst hcl₁
      exact ⟨cl', rfl, hfd.trans hn, hintact.mpr hi⟩
    · exact ⟨cl₁, hcl₁, hn, hi⟩
  · rw [setClient_clients] at h
    split at h
    · rename_i hd
      cases h
      have := hinv.held hown c cl hc (hintact.mp hcl)
      rw [hd, hfd]
      exact this
    · exact hinv.held hown d cl₁ h hcl

/-- The close is right if and only if it is the first for the client. -/
theorem close_allOwn_iff (hinv : s.Inv) (hc : s.clients c = some cl) (closer : Closer) :
    ((s.close c closer cl.fd).setClient c cl').AllOwn ↔ s.AllOwn ∧ Intact cl := by
  have hlast : ((s.close c closer cl.fd).setClient c cl').AllOwn ↔
      s.AllOwn ∧ s.table cl.fd = some (.socket c) := by
    simp [AllOwn, close, setClient, Close.Own, or_imp, forall_and]
  rw [hlast]
  constructor
  · intro h
    obtain ⟨cl₁, hcl₁, -, hi⟩ := hinv.intact cl.fd c h.2
    rw [hc, Option.some.injEq] at hcl₁
    exact ⟨h.1, hcl₁ ▸ hi⟩
  · intro h
    exact ⟨h.1, hinv.held h.1 c cl hc h.2⟩

theorem close_inv (hinv : s.Inv) (hc : s.clients c = some cl) (closer : Closer)
    (hgone : ¬Intact cl') : ((s.close c closer cl.fd).setClient c cl').Inv := by
  refine ⟨fun n d h => ?_, fun hown d cl₁ h hcl => ?_⟩
  · change Function.update s.table cl.fd none n = some (.socket d) at h
    rw [Function.update_apply] at h
    split at h
    · cases h
    · rename_i hn
      obtain ⟨cl₁, hcl₁, hn₁, hi⟩ := hinv.intact n d h
      -- the number of the client itself is not open any more
      have hd : d ≠ c := by
        rintro rfl
        rw [hc, Option.some.injEq] at hcl₁
        exact hn (hcl₁ ▸ hn₁.symm)
      rw [setClient_clients, if_neg hd]
      exact ⟨cl₁, hcl₁, hn₁, hi⟩
  · rw [setClient_clients] at h
    split at h
    · cases h
      exact absurd hcl hgone
    · rename_i hd
      obtain ⟨hown₀, hi⟩ := (close_allOwn_iff hinv hc closer).mp hown
      have hopen := hinv.held hown₀ d cl₁ h hcl
      change Function.update s.table cl.fd none cl₁.fd = some (.socket d)
      rw [Function.update_of_ne, hopen]
      -- a number belongs to one client at a time
      intro he
      rw [he, hinv.held hown₀ c cl hc hi, Option.some.injEq, Descriptor.socket.injEq] at hopen
      exact hd hopen.symm

theorem destroyConnection_inv (hinv : s.Inv) (hc : s.clients c = some cl) :
    (s.destroyConnection c cl).Inv := close_inv hinv hc .connection fun h => h.2 rfl

theorem destroyConnector_inv (hinv : s.Inv) (hc : s.clients c = some cl) :
    (s.destroyConnector c cl).Inv := by
  refine close_inv hinv hc .tcpSocket fun h => ?_
  cases h.1

/-- The second close of a client that takes its connection along is always wrong. -/
theorem destroyClient_spec (hinv : s.Inv) (hc : s.clients c = some cl) (hcl : cl.connector)
    (guarded : Bool) : (s.destroyClient c cl guarded).Inv ∧
      ((s.destroyClient c cl guarded).AllOwn ↔
        s.AllOwn ∧ cl.connection ≠ .destroyed ∧ (cl.connection = .attached → guarded)) := by
  rw [destroyClient]
  split
  · rename_i hboth
    -- the connection closes the number first, so the socket cannot be right
    have hinv₁ := destroyConnection_inv hinv hc
    have hc₁ : (s.destroyConnection c cl).clients c = some { cl with connection := .destroyed } := by
      rw [destroyConnection, setClient_clients, if_pos rfl]
    refine ⟨destroyConnector_inv hinv₁ hc₁, ?_⟩
    rw [destroyConnector, close_allOwn_iff hinv₁ hc₁]
    simp [Intact, hboth]
  · rename_i hone
    refine ⟨destroyConnector_inv hinv hc, ?_⟩
    rw [destroyConnector, close_allOwn_iff hinv hc, Intact]
    simp only [not_and, not_not] at hone
    exact ⟨fun h => ⟨h.1, h.2.2, hone⟩, fun h => ⟨h.1, hcl, h.2.1⟩⟩

theorem step_spec (hinv : s.Inv) (ev : Event) :
    (s.step ev).Inv ∧ ((s.step ev).AllOwn ↔ s.AllOwn ∧ s.FirstToClose ev) := by
  -- the first three events close nothing
  cases ev with
  | create c fd =>
    simp only [step, FirstToClose, and_true]
    split
    · rename_i h
      exact ⟨create_inv hinv h.1 h.2, Iff.rfl⟩
    · exact ⟨hinv, Iff.rfl⟩
  | connect c =>
    simp only [step, FirstToClose, and_true]
    cases hc : s.clients c with
    | none => exact ⟨hinv, Iff.rfl⟩
    | some cl =>
      dsimp only
      split
      · rename_i h
        exact ⟨setClient_inv hinv hc rfl (by simp [Intact, h.2]), Iff.rfl⟩
      · exact ⟨hinv, Iff.rfl⟩
  | remoteClose c =>
    simp only [step, FirstToClose, and_true]
    cases hc : s.clients c with
    | none => exact ⟨hinv, Iff.rfl⟩
    | some cl =>
      dsimp only
      split
      · rename_i h
        exact ⟨setClient_inv hinv hc rfl (by simp [Intact, h]), Iff.rfl⟩
      · exact ⟨hinv, Iff.rfl⟩
  | destroyConnection c =>
    simp only [step, FirstToClose]
    cases hc : s.clients c with
    | none => exact ⟨hinv, by simp⟩
    | some cl =>
      dsimp only
      split
      · rename_i h
        refine ⟨destroyConnection_inv hinv hc, ?_⟩
        rw [destroyConnection, close_allOwn_iff hinv hc]
        simp [Intact, h]
      · rename_i h
        exact ⟨hinv, by simp [h]⟩
  | destroyClient c guarded =>
    simp only [step, FirstToClose]
    cases hc : s.clients c with
    | none => exact ⟨hinv, by simp⟩
    | some cl =>
      dsimp only
      split
      · rename_i h
        obtain ⟨hinv', hown⟩ := destroyClient_spec hinv hc h guarded
        exact ⟨hinv', by rw [hown]; simp [h]⟩
      · rename_i h
        exact ⟨hinv, by simp [h]⟩

end Steps

theorem run_allOwn_iff {s : Descriptors} (hinv : s.Inv) (evs : List Event) :
    (s.run evs).AllOwn ↔ s.AllOwn ∧ ∀ before ev after, evs = before ++ ev :: after →
      (s.run before).FirstToClose ev := by
  induction evs generalizing s with
  | nil => simp [run]
  | cons ev evs ih =>
    obtain ⟨hinv', hown⟩ := step_spec hinv ev
    have hrun : s.run (ev :: evs) = (s.step ev).run evs := rfl
    rw [hrun, ih hinv', hown, and_assoc,
      Runs.forall_split_cons (P := fun before ev => (s.run before).FirstToClose ev)]
    rfl

/-- In a run, every close hits what was opened for its own client and is still open,
if and only if nothing is ever destroyed after, or together with, the other
object that has its number. -/
theorem closes_own_iff (used : ℕ → Bool) (evs : List Event) :
    (∀ k ∈ ((init used).run evs).closes, k.Own) ↔
      ∀ before ev after, evs = before ++ ev :: after →
        ((init used).run before).FirstToClose ev := by
  have h := run_allOwn_iff (init_inv used) evs
  have hnone : (init used).AllOwn := by
    intro k hk
    cases hk
  rw [AllOwn] at h
  rw [h, and_iff_right hnone]

/-- The service of a data channel closes, its number goes to the next channel, and
is closed once more when the first channel is destroyed. -/
theorem reused_number_closed :
    let s := (init (· < 3)).run [.create 0 3, .connect 0, .remoteClose 0, .destroyConnection 0,
      .create 1 3, .connect 1, .destroyClient 0 false]
    s.closes = [⟨0, .connection, 3, some (.socket 0)⟩, ⟨0, .tcpSocket, 3, some (.socket 1)⟩] ∧
      s.clients 1 = some ⟨3, true, .attached⟩ ∧ ¬∀ k ∈ s.closes, k.Own := by
  decide

end Descriptors

end NcxTunnel
