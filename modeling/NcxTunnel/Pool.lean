import Mathlib

/-!
# The connection pool of a server

`network/server.cpp`.  A `Server` owns its connections through an
`unordered_map` from `conn_id` to the connection.  The id is drawn at random in
`1, …, 10000` when the connection is made and is not checked against the ids in
use, so it is an input here.  A connection object is named by the order of its
creation.
-/

namespace NcxTunnel

abbrev Obj := ℕ

abbrev ConnId := ℕ

inductive ConnectionState where
  | connecting
  | connected
  | disconnecting
  | disconnected
deriving Repr, DecidableEq

/-- `std::unordered_map<int, std::shared_ptr<Connection>>`. -/
abbrev Connections := ConnId → Option Obj

namespace Connections

/-- `connections[id] = conn`: an entry under the same id is replaced. -/
def assign (m : Connections) (id : ConnId) (o : Obj) : Connections := Function.update m id (some o)

/-- `if (find(id) != end()) erase(id)`. -/
def erase (m : Connections) (id : ConnId) : Connections := Function.update m id none

def Holds (m : Connections) (o : Obj) : Prop := ∃ id, m id = some o

variable {m : Connections} {id k : ConnId} {o : Obj}

theorem assign_apply : (m.assign id o) k = if k = id then some o else m k := by
  simp [assign, Function.update_apply]

theorem erase_apply : (m.erase id) k = if k = id then none else m k := by
  simp [erase, Function.update_apply]

end Connections

/-- A server with the connections it has made. -/
structure Server where
  connections : Connections
  connId : Obj → ConnId
  state : Obj → ConnectionState
  created : ℕ

namespace Server

def new : Server := ⟨fun _ => none, fun _ => 0, fun _ => .connecting, 0⟩

/-- The new connection is established first and then put into the pool. -/
def newConnectionHandle (s : Server) (id : ConnId) : Server where
  connections := s.connections.assign id s.created
  connId := Function.update s.connId s.created id
  state := Function.update s.state s.created .connected
  created := s.created + 1

/-- Erase by id, then `ConnectionConstructor`. -/
def disconnectHandleInLoop (s : Server) (o : Obj) : Server :=
  { s with
    connections := s.connections.erase (s.connId o)
    state := if s.state o = .connected then Function.update s.state o .disconnected else s.state }

/-- `Connection::handle_close`, with `disconnectHandle` as its `on_close_`. -/
def handleClose (s : Server) (o : Obj) : Server :=
  if s.state o = .disconnected then s
  else
    let s := s.disconnectHandleInLoop o
    { s with state := Function.update s.state o .disconnected }

def Live (s : Server) (o : Obj) : Prop := s.state o = .connected

instance (s : Server) (o : Obj) : Decidable (s.Live o) := inferInstanceAs (Decidable (_ = _))

inductive Event where
  | accept (id : ConnId)
  | close (o : Obj)

def step (s : Server) : Event → Server
  | .accept id => s.newConnectionHandle id
  | .close o => if o < s.created then s.handleClose o else s

theorem step_close (s : Server) (o : Obj) :
    s.step (.close o) = if o < s.created then s.handleClose o else s := rfl

def run (evs : List Event) : Server := evs.foldl step new

/-- The pool holds exactly the live connections. -/
def Complete (s : Server) : Prop := ∀ o, s.connections.Holds o ↔ s.Live o

/-- No live connection has this id. -/
def FreshId (s : Server) (id : ConnId) : Prop := ∀ o, s.Live o → s.connId o ≠ id

/-- Entries are under the id of their connection, and every connection made is live or closed. -/
structure Keyed (s : Server) : Prop where
  key_eq : ∀ {id o}, s.connections id = some o → s.connId o = id
  lt_created : ∀ {id o}, s.connections id = some o → o < s.created
  live_lt : ∀ {o}, s.Live o → o < s.created
  live_or : ∀ {o}, o < s.created → s.Live o ∨ s.state o = .disconnected

theorem new_keyed : new.Keyed := by
  constructor <;> simp [new, Live]

section Step

variable {s : Server} (h : s.Keyed)

@[simp] theorem newConnectionHandle_connections (id k : ConnId) :
    (s.newConnectionHandle id).connections k =
      if k = id then some s.created else s.connections k := Connections.assign_apply

theorem newConnectionHandle_live (id : ConnId) {o : Obj} :
    (s.newConnectionHandle id).Live o ↔ o = s.created ∨ s.Live o := by
  by_cases ho : o = s.created
  · subst ho
    simp [Live, newConnectionHandle]
  · simp [Live, newConnectionHandle, ho]

@[simp] theorem newConnectionHandle_connId (id : ConnId) (o : Obj) :
    (s.newConnectionHandle id).connId o = if o = s.created then id else s.connId o := by
  simp [newConnectionHandle, Function.update_apply]

include h in
theorem Keyed.newConnectionHandle (id : ConnId) : (s.newConnectionHandle id).Keyed := by
  refine ⟨fun {k o} ho => ?_, fun {k o} ho => ?_, fun {o} ho => ?_, fun {o} ho => ?_⟩
  · rw [newConnectionHandle_connections] at ho
    rw [newConnectionHandle_connId]
    split at ho
    · rename_i hk
      rw [if_pos (Option.some.inj ho).symm, hk]
    · rw [if_neg (Nat.ne_of_lt (h.lt_created ho)), h.key_eq ho]
  · rw [newConnectionHandle_connections] at ho
    split at ho
    · exact Option.some.inj ho ▸ Nat.lt_succ_self _
    · exact Nat.lt_succ_of_lt (h.lt_created ho)
  · rcases (newConnectionHandle_live id).mp ho with rfl | ho
    · exact Nat.lt_succ_self _
    · exact Nat.lt_succ_of_lt (h.live_lt ho)
  · have ho : o < s.created + 1 := ho
    rcases Nat.lt_succ_iff_lt_or_eq.mp ho with ho | rfl
    · have hne : o ≠ s.created := Nat.ne_of_lt ho
      simpa [Live, Server.newConnectionHandle, hne] using h.live_or ho
    · exact .inl ((newConnectionHandle_live id).mpr (.inl rfl))

/-- Closing a live connection empties the slot of its id and ends that connection only. -/
theorem handleClose_of_live {o : Obj} (ho : s.Live o) :
    s.handleClose o = { s with
      connections := s.connections.erase (s.connId o)
      state := Function.update s.state o .disconnected } := by
  have hs : s.state o = .connected := ho
  simp [handleClose, disconnectHandleInLoop, hs]

include h in
/-- A second close finds the state `DISCONNECTED` and does nothing. -/
theorem Keyed.handleClose_of_not_live {o : Obj} (ho : o < s.created) (hl : ¬s.Live o) :
    s.handleClose o = s := by
  rw [handleClose, if_pos ((h.live_or ho).resolve_left hl)]

include h in
theorem Keyed.handleClose {o : Obj} (ho : o < s.created) : (s.handleClose o).Keyed := by
  by_cases hl : s.Live o
  · rw [handleClose_of_live hl]
    refine ⟨fun {k p} hp => ?_, fun {k p} hp => ?_, fun {p} hp => ?_, fun {p} hp => ?_⟩
    · simp only [Connections.erase_apply] at hp
      split at hp
      · cases hp
      · exact h.key_eq hp
    · simp only [Connections.erase_apply] at hp
      split at hp
      · cases hp
      · exact h.lt_created hp
    · have hpo : p ≠ o := by
        rintro rfl
        simp [Live] at hp
      exact h.live_lt (by simpa only [Live, Function.update_of_ne hpo] using hp)
    · by_cases hpo : p = o
      · exact .inr (by simp [hpo])
      · simpa only [Live, Function.update_of_ne hpo] using h.live_or hp
  · rwa [h.handleClose_of_not_live ho hl]

include h in
theorem Keyed.step (ev : Event) : (s.step ev).Keyed := by
  cases ev with
  | accept id => exact h.newConnectionHandle id
  | close o =>
    rw [step_close]
    split
    · exact h.handleClose ‹_›
    · exact h

end Step

theorem run_append (evs : List Event) (ev : Event) : run (evs ++ [ev]) = (run evs).step ev := by
  simp [run]

theorem run_keyed (evs : List Event) : (run evs).Keyed := by
  induction evs using List.reverseRecOn with
  | nil => exact new_keyed
  | append_singleton evs ev ih => exact run_append evs ev ▸ ih.step ev

section Complete

variable {s : Server} (hk : s.Keyed) (hc : s.Complete)

include hk in
theorem Keyed.holds_iff {o : Obj} : s.connections.Holds o ↔ s.connections (s.connId o) = some o :=
  ⟨fun ⟨_, h⟩ => (hk.key_eq h).symm ▸ h, fun h => ⟨_, h⟩⟩

include hk hc in
/-- Accepting keeps the pool complete just when the drawn id is not in use: a
live connection under the same id loses its entry. -/
theorem newConnectionHandle_complete_iff (id : ConnId) :
    (s.newConnectionHandle id).Complete ↔ s.FreshId id := by
  have hk' := hk.newConnectionHandle id
  constructor
  · intro hc' o ho hid
    have hlt := hk.live_lt ho
    have hheld := hk'.holds_iff.mp ((hc' o).mpr ((newConnectionHandle_live id).mpr (.inr ho)))
    rw [newConnectionHandle_connId, if_neg (Nat.ne_of_lt hlt), hid,
      newConnectionHandle_connections, if_pos rfl, Option.some.injEq] at hheld
    exact Nat.ne_of_gt hlt hheld
  · intro hfresh o
    rw [hk'.holds_iff, newConnectionHandle_live, newConnectionHandle_connId]
    by_cases ho : o = s.created
    · simp [ho]
    · rw [if_neg ho, newConnectionHandle_connections]
      have hold : s.connections (s.connId o) = some o ↔ s.Live o := by
        rw [← hk.holds_iff, hc o]
      split
      · rename_i hid
        have hdead : ¬s.Live o := fun hl => hfresh o hl hid
        simp [ho, hdead, Ne.symm ho]
      · simp [ho, hold]

include hk hc in
theorem Complete.handleClose {o : Obj} (hlt : o < s.created) : (s.handleClose o).Complete := by
  by_cases ho : s.Live o
  · rw [handleClose_of_live ho]
    intro p
    have hheld := hk.holds_iff.mp ((hc o).mpr ho)
    constructor
    · rintro ⟨k, hp⟩
      simp only [Connections.erase_apply] at hp
      split at hp
      · cases hp
      · rename_i hne
        have hpo : p ≠ o := by
          rintro rfl
          exact hne (hk.key_eq hp).symm
        have hlive := (hc p).mp ⟨k, hp⟩
        simpa only [Live, Function.update_of_ne hpo] using hlive
    · intro hp
      have hpo : p ≠ o := by
        rintro rfl
        simp [Live] at hp
      have hp' : s.Live p := by simpa only [Live, Function.update_of_ne hpo] using hp
      have hpheld := hk.holds_iff.mp ((hc p).mpr hp')
      refine ⟨s.connId p, ?_⟩
      -- two live connections of a complete pool have different ids
      have hne : s.connId p ≠ s.connId o := by
        intro he
        rw [he, hheld, Option.some.injEq] at hpheld
        exact hpo hpheld.symm
      simp only [Connections.erase_apply, if_neg hne, hpheld]
  · rwa [hk.handleClose_of_not_live hlt ho]

end Complete

/-- In every state of a run the pool holds exactly the connections established
and not closed, if and only if no accept draws the id of a live connection. -/
theorem pool_complete_iff_fresh (evs : List Event) :
    (∀ done, done <+: evs → (run done).Complete) ↔
      ∀ done id, done ++ [.accept id] <+: evs → (run done).FreshId id := by
  constructor
  · intro h done id hpre
    have hc := h done ((List.prefix_append _ _).trans hpre)
    have hc' := h _ hpre
    rw [run_append] at hc'
    exact (newConnectionHandle_complete_iff (run_keyed done) hc id).mp hc'
  · intro h done
    induction done using List.reverseRecOn with
    | nil =>
      intro _ o
      simp [run, new, Live, Connections.Holds]
    | append_singleton done ev ih =>
      intro hpre
      have hc := ih ((List.prefix_append _ _).trans hpre)
      rw [run_append]
      cases ev with
      | accept id =>
        exact (newConnectionHandle_complete_iff (run_keyed done) hc id).mpr (h done id hpre)
      | close o =>
        rw [step_close]
        split
        · exact Complete.handleClose (run_keyed done) hc ‹_›
        · exact hc

/-- Two connections draw the id `5`: the first is dropped, and closing the second
leaves a live connection outside the pool. -/
theorem pool_drops_live_connection :
    (run [.accept 5, .accept 5]).Live 0 ∧ ¬(run [.accept 5, .accept 5]).connections.Holds 0 := by
  refine ⟨by decide, ?_⟩
  rw [Keyed.holds_iff (run_keyed _)]
  decide

end Server

end NcxTunnel
