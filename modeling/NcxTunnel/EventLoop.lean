import Mathlib

/-!
# The task queue of the loop

`network/EventLoop.cpp`.  Threads other than the loop's hand over functions in two
steps: the append under the lock, then the write to the eventfd.  The loop polls,
handles the channels that are ready, takes the whole list and runs it.  The steps
of all threads interleave freely; a step that its thread is not at does nothing.
On the loop thread `run_on_onwer_thread` is a plain call, so only `wakeup_loop` is
left of it here.  The loop is not stopped.
-/

namespace NcxTunnel

/-- A function handed over, with the thread that did it and the number of the append. -/
structure Task (θ φ : Type*) where
  thread : θ
  number : ℕ
  func : φ
deriving DecidableEq

inductive ReadyChannel where
  | wakeup
  | other
deriving Repr, DecidableEq

inductive LoopPoint where
  | poll
  | handleEvents (activeChannels : List ReadyChannel)
  /-- inside `do_after_handle_events`, behind the swap -/
  | runFuncs
deriving Repr, DecidableEq

structure EventLoop (θ φ : Type*) where
  point : LoopPoint
  toDoList : List (Task θ φ)
  /-- taken from the list and not run yet -/
  funcs : List (Task θ φ)
  executed : List (Task θ φ)
  appended : List (Task θ φ)
  /-- the counter of `wakeup_fd_` -/
  counter : ℕ
  /-- the append for which a thread has still to write to the eventfd -/
  waking : θ → Option ℕ

inductive LoopAction (θ φ : Type*) where
  | addToDo (thread : θ) (func : φ)
  | wakeupLoop (thread : θ)
  | poll (activeChannels : List ReadyChannel)
  | handleEvent
  /-- `wakeup_loop` on the loop thread, as in `Server::disconnectHandle` -/
  | wakeupFromLoop
  | swapToDoList
  | runFunc

namespace EventLoop

variable {θ φ : Type*}

def new : EventLoop θ φ := ⟨.poll, [], [], [], [], 0, fun _ => none⟩

/-- A write of `1` to an eventfd; one that would overflow fails and changes nothing. -/
def writeEventfd (counter : ℕ) : ℕ := if counter < 2 ^ 64 - 2 then counter + 1 else counter

/-- `wakeup_callback`: reading resets the counter, or fails if that is `0` already. -/
def wakeupCallback (s : EventLoop θ φ) : EventLoop θ φ := { s with counter := 0 }

def step [DecidableEq θ] (s : EventLoop θ φ) : LoopAction θ φ → EventLoop θ φ
  | .addToDo thread func =>
      if s.waking thread = none then
        let task := ⟨thread, s.appended.length, func⟩
        { s with
          toDoList := s.toDoList ++ [task]
          appended := s.appended ++ [task]
          waking := Function.update s.waking thread (some task.number) }
      else s
  | .wakeupLoop thread =>
      if s.waking thread = none then s
      else { s with
        counter := writeEventfd s.counter
        waking := Function.update s.waking thread none }
  | .poll activeChannels =>
      match s.point, activeChannels with
      | .poll, [] => s
      | .poll, c :: cs => { s with point := .handleEvents (c :: cs) }
      | _, _ => s
  | .handleEvent =>
      match s.point with
      | .handleEvents (.wakeup :: cs) => { s.wakeupCallback with point := .handleEvents cs }
      | .handleEvents (.other :: cs) => { s with point := .handleEvents cs }
      | _ => s
  | .wakeupFromLoop =>
      if s.point = .poll then s else { s with counter := writeEventfd s.counter }
  | .swapToDoList =>
      match s.point with
      | .handleEvents [] => { s with point := .runFuncs, funcs := s.toDoList, toDoList := [] }
      | _ => s
  | .runFunc =>
      match s.point, s.funcs with
      | .runFuncs, [] => { s with point := .poll }
      | .runFuncs, f :: fs => { s with funcs := fs, executed := s.executed ++ [f] }
      | _, _ => s

def Reachable [DecidableEq θ] (s : EventLoop θ φ) : Prop :=
  ∃ acts : List (LoopAction θ φ), acts.foldl step new = s

/-- With the counter at `0`, every task on the list still has its wakeup to come,
except while channels are handled: then the swap is still to come, behind the reset. -/
structure Inv (s : EventLoop θ φ) : Prop where
  order : s.executed ++ s.funcs ++ s.toDoList = s.appended
  funcs_eq : s.point ≠ .runFuncs → s.funcs = []
  wakeup : (∀ cs, s.point ≠ .handleEvents cs) → s.counter = 0 →
    ∀ t ∈ s.toDoList, s.waking t.thread = some t.number

theorem new_inv : (new : EventLoop θ φ).Inv := by
  constructor <;> simp [new]

theorem writeEventfd_ne_zero (counter : ℕ) : writeEventfd counter ≠ 0 := by
  unfold writeEventfd
  split <;> omega

variable [DecidableEq θ] {s : EventLoop θ φ}

theorem Inv.addToDo (h : s.Inv) (thread : θ) (func : φ) : (s.step (.addToDo thread func)).Inv := by
  rw [step]
  split
  · rename_i hidle
    refine ⟨?_, h.funcs_eq, ?_⟩
    · rw [← List.append_assoc, h.order]
    · intro hpoint hzero t ht
      rcases List.mem_append.mp ht with ht | ht
      · -- an older task of this thread would have its wakeup to come
        have hwaking := h.wakeup hpoint hzero t ht
        have hne : t.thread ≠ thread := by
          intro he
          rw [he, hidle] at hwaking
          cases hwaking
        simpa [Function.update_of_ne hne] using hwaking
      · rw [List.mem_singleton] at ht
        simp [ht]
  · exact h

theorem Inv.wakeupLoop (h : s.Inv) (thread : θ) : (s.step (.wakeupLoop thread)).Inv := by
  rw [step]
  split
  · exact h
  -- the write leaves the counter above zero, whoever still waits to write
  · exact ⟨h.order, h.funcs_eq, fun _ hzero => absurd hzero (writeEventfd_ne_zero _)⟩

theorem Inv.poll (h : s.Inv) (activeChannels : List ReadyChannel) :
    (s.step (.poll activeChannels)).Inv := by
  simp only [step]
  split
  · exact h
  · rename_i c cs hpoint
    refine ⟨h.order, fun _ => h.funcs_eq (by simp [hpoint]), ?_⟩
    intro hno
    exact absurd rfl (hno (c :: cs))
  · exact h

theorem Inv.handleEvent (h : s.Inv) : (s.step .handleEvent).Inv := by
  simp only [step]
  split
  -- the counter is reset, and the swap of this round is still to come
  · rename_i cs hpoint
    refine ⟨h.order, fun _ => h.funcs_eq (by simp [hpoint]), ?_⟩
    intro hno
    exact absurd rfl (hno cs)
  · rename_i cs hpoint
    refine ⟨h.order, fun _ => h.funcs_eq (by simp [hpoint]), ?_⟩
    intro hno
    exact absurd rfl (hno cs)
  · exact h

theorem Inv.wakeupFromLoop (h : s.Inv) : (s.step .wakeupFromLoop).Inv := by
  rw [step]
  split
  · exact h
  · exact ⟨h.order, h.funcs_eq, fun _ hzero => absurd hzero (writeEventfd_ne_zero _)⟩

theorem Inv.swapToDoList (h : s.Inv) : (s.step .swapToDoList).Inv := by
  simp only [step]
  split
  · rename_i hpoint
    -- the functions taken in the last round have all been run
    have horder := h.order
    rw [h.funcs_eq (by simp [hpoint]), List.append_nil] at horder
    refine ⟨?_, fun hno => absurd rfl hno, fun _ _ t ht => ?_⟩
    · simpa using horder
    · exact absurd ht List.not_mem_nil
  · exact h

theorem Inv.runFunc (h : s.Inv) : (s.step .runFunc).Inv := by
  simp only [step]
  split
  · rename_i hpoint hfuncs
    refine ⟨h.order, fun _ => hfuncs, fun _ hzero => ?_⟩
    exact h.wakeup (by simp [hpoint]) hzero
  · rename_i f fs hpoint hfuncs
    have horder := h.order
    rw [hfuncs] at horder
    refine ⟨?_, fun hno => absurd hpoint hno, h.wakeup⟩
    simpa using horder
  · exact h

theorem Inv.step (h : s.Inv) (act : LoopAction θ φ) : (s.step act).Inv := by
  cases act with
  | addToDo thread func => exact h.addToDo thread func
  | wakeupLoop thread => exact h.wakeupLoop thread
  | poll activeChannels => exact h.poll activeChannels
  | handleEvent => exact h.handleEvent
  | wakeupFromLoop => exact h.wakeupFromLoop
  | swapToDoList => exact h.swapToDoList
  | runFunc => exact h.runFunc

theorem Inv.run (h : s.Inv) (acts : List (LoopAction θ φ)) : (acts.foldl EventLoop.step s).Inv := by
  induction acts generalizing s with
  | nil => exact h
  | cons act acts ih => exact ih (h.step act)

/-- In every interleaving: what has run, what is taken and what is on the list are
together the functions appended, in order.  When the loop is about to block with
functions on the list, it will be woken: the counter is not `0`, or each thread
that appended one of them has still to write. -/
theorem tasks_once_in_order (s : EventLoop θ φ) (h : s.Reachable) :
    s.executed ++ s.funcs ++ s.toDoList = s.appended ∧
      (s.point = .poll → s.toDoList ≠ [] →
        s.counter ≠ 0 ∨ ∀ t ∈ s.toDoList, s.waking t.thread = some t.number) := by
  obtain ⟨acts, rfl⟩ := h
  have hinv := (new_inv : (new : EventLoop θ φ).Inv).run acts
  refine ⟨hinv.order, fun hpoint _ => ?_⟩
  rw [or_iff_not_imp_left, not_not]
  exact hinv.wakeup (by simp [hpoint])

/-- Two threads; the loop has taken the first function when the second one comes. -/
def exampleActions : List (LoopAction Bool ℕ) :=
  [.addToDo false 7, .wakeupLoop false, .poll [.wakeup], .handleEvent, .swapToDoList,
    .addToDo true 8, .runFunc, .runFunc]

/-- The loop blocks with a function on the list whose thread is still to wake it. -/
theorem tasks_once_in_order_example :
    ((exampleActions.foldl step new).point = .poll ∧
      (exampleActions.foldl step new).counter = 0 ∧
      (exampleActions.foldl step new).toDoList = [⟨true, 1, 8⟩]) ∧
    (exampleActions.foldl step new).waking true = some 1 := by
  have hstate : (exampleActions.foldl step new).point = .poll ∧
      (exampleActions.foldl step new).counter = 0 ∧
      (exampleActions.foldl step new).toDoList = [⟨true, 1, 8⟩] := by
    decide
  have hall := (tasks_once_in_order (exampleActions.foldl step new) ⟨_, rfl⟩).2 hstate.1
    (by simp [hstate.2.2])
  refine ⟨hstate, ?_⟩
  exact (hall.resolve_left (by simp [hstate.2.1])) ⟨true, 1, 8⟩ (by simp [hstate.2.2])

end EventLoop

end NcxTunnel
