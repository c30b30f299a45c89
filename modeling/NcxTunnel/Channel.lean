import NcxTunnel.Runs

/-!
# Channels and the interest list of the kernel

`network/channel.cpp` and `network/epoll.cpp`.  A channel keeps the events it
listens to in a `short` and whether it has been added to the poller; the kernel
keeps a mask for each descriptor in its list.  Channels are told apart by their
descriptor.  `Epoll::epoll_ctl` drops the result of the system call, so a failure
changes nothing that follows.
-/

namespace NcxTunnel

abbrev EpollEvents := BitVec 32

def EPOLLIN : EpollEvents := 0x001
def EPOLLPRI : EpollEvents := 0x002
def EPOLLOUT : EpollEvents := 0x004
def EPOLLET : EpollEvents := 1 <<< 31

structure Channel where
  listenEvents : BitVec 16
  isEpolled : Bool
deriving Repr, DecidableEq

inductive Errno where
  | EEXIST
  | ENOENT
deriving Repr, DecidableEq

/-- The channels of a loop and its poller. -/
structure Epoll where
  channels : ℕ → Channel
  interest : ℕ → Option EpollEvents
  /-- of the last call of `::epoll_ctl`, if it failed -/
  errno : Option Errno
  /-- what has been asked for since the last `disableAll` -/
  requested : ℕ → EpollEvents

namespace Epoll

inductive Ctl where
  | add
  | mod
  | del

/-- `::epoll_ctl`: with what it leaves for the descriptor. -/
def Ctl.apply (ev : EpollEvents) : Ctl → Option EpollEvents → Except Errno (Option EpollEvents)
  | .add, none => .ok (some ev)
  | .add, some _ => .error .EEXIST
  | .mod, none => .error .ENOENT
  | .mod, some _ => .ok (some ev)
  | .del, none => .error .ENOENT
  | .del, some _ => .ok none

def epollCtl (s : Epoll) (op : Ctl) (fd : ℕ) (ev : EpollEvents) : Epoll :=
  match op.apply ev (s.interest fd) with
  | .ok entry => { s with interest := Function.update s.interest fd entry, errno := none }
  | .error e => { s with errno := some e }

def setChannel (s : Epoll) (fd : ℕ) (c : Channel) : Epoll :=
  { s with channels := Function.update s.channels fd c }

def setEpolled (s : Epoll) (fd : ℕ) : Epoll :=
  s.setChannel fd { s.channels fd with isEpolled := true }

/-- The `short` is widened with its sign. -/
def updateChannel (s : Epoll) (fd : ℕ) : Epoll :=
  let ev := (s.channels fd).listenEvents.signExtend 32
  if (s.channels fd).isEpolled then s.epollCtl .mod fd ev
  else (s.epollCtl .add fd ev).setEpolled fd

def deleteChannel (s : Epoll) (fd : ℕ) : Epoll := s.epollCtl .del fd 0

/-- A compound assignment to `listen_events_`: the right side is computed with 32
bits and cut to a `short`. -/
def assign (s : Epoll) (fd : ℕ) (f : BitVec 32 → BitVec 32) : Epoll :=
  s.setChannel fd { s.channels fd with
    listenEvents := (f ((s.channels fd).listenEvents.signExtend 32)).setWidth 16 }

def enableRead (s : Epoll) (fd : ℕ) : Epoll :=
  (s.assign fd (· ||| (EPOLLIN ||| EPOLLPRI))).updateChannel fd

def enableWrite (s : Epoll) (fd : ℕ) : Epoll := (s.assign fd (· ||| EPOLLOUT)).updateChannel fd

def disableWrite (s : Epoll) (fd : ℕ) : Epoll := (s.assign fd (· &&& ~~~EPOLLOUT)).updateChannel fd

def disableAll (s : Epoll) (fd : ℕ) : Epoll := (s.assign fd (fun _ => 0)).updateChannel fd

def setEt (s : Epoll) (fd : ℕ) : Epoll := (s.assign fd (· ||| EPOLLET)).updateChannel fd

/-- It stores the callback as well. -/
def setReadCallback (s : Epoll) (fd : ℕ) : Epoll := s.enableRead fd

def remove (s : Epoll) (fd : ℕ) : Epoll := s.deleteChannel fd

inductive Op where
  | enableRead
  | enableWrite
  | disableWrite
  | disableAll
  | setEt
  | setReadCallback
  | remove
deriving Repr, DecidableEq

def Op.request (r : EpollEvents) : Op → EpollEvents
  | enableRead => r ||| (EPOLLIN ||| EPOLLPRI)
  | enableWrite => r ||| EPOLLOUT
  | disableWrite => r &&& ~~~EPOLLOUT
  | disableAll => 0
  | setEt => r ||| EPOLLET
  | setReadCallback => r ||| (EPOLLIN ||| EPOLLPRI)
  | remove => r

def Op.apply (s : Epoll) (fd : ℕ) : Op → Epoll
  | enableRead => s.enableRead fd
  | enableWrite => s.enableWrite fd
  | disableWrite => s.disableWrite fd
  | disableAll => s.disableAll fd
  | setEt => s.setEt fd
  | setReadCallback => s.setReadCallback fd
  | remove => s.remove fd

def step (s : Epoll) (i : ℕ × Op) : Epoll :=
  i.2.apply { s with requested := Function.update s.requested i.1 (i.2.request (s.requested i.1)) }
    i.1

def new : Epoll := ⟨fun _ => ⟨0, false⟩, fun _ => none, none, fun _ => 0⟩

/-- A descriptor is in the list exactly if its channel says so, with the mask asked for. -/
structure Mirrors (s : Epoll) : Prop where
  registered : ∀ fd, (s.interest fd).isSome ↔ (s.channels fd).isEpolled
  mask : ∀ fd, ∀ ev ∈ s.interest fd, ev = s.requested fd

/-- Without edge triggering three bits are in use, in the channel as in the request. -/
structure Inv (s : Epoll) : Prop extends s.Mirrors where
  flags : ∀ fd, ∃ f : BitVec 3, (s.channels fd).listenEvents = f.setWidth 16 ∧
    s.requested fd = f.setWidth 32

theorem new_inv : new.Inv := by
  refine ⟨⟨fun fd => ?_, fun fd ev h => ?_⟩, fun fd => ⟨0, rfl, rfl⟩⟩
  · simp [new]
  · cases h

variable {s : Epoll} {fd : ℕ} {op : Op} {ops : List (ℕ × Op)}

/-- As long as the flag tells what is in the list, an update does not fail. -/
theorem updateChannel_eq (h : (s.interest fd).isSome ↔ (s.channels fd).isEpolled) :
    s.updateChannel fd = { s with
      channels := Function.update s.channels fd { s.channels fd with isEpolled := true }
      interest := Function.update s.interest fd
        (some ((s.channels fd).listenEvents.signExtend 32))
      errno := none } := by
  unfold updateChannel epollCtl
  cases hin : s.interest fd with
  | none =>
    have hflag : (s.channels fd).isEpolled = false := by simpa [hin] using h
    simp [hflag, Ctl.apply, setEpolled, setChannel]
  | some ev =>
    have hflag : (s.channels fd).isEpolled = true := by simpa [hin] using h
    have hsame : ({ s.channels fd with isEpolled := true } : Channel) = s.channels fd := by
      rw [← hflag]
    simp [hflag, Ctl.apply, hsame]

/-- The word of a channel after an assignment. -/
def Op.word (op : Op) (l : BitVec 16) : BitVec 16 := (op.request (l.signExtend 32)).setWidth 16

/-- All operations but `remove` are one assignment and an update. -/
theorem step_update (h : s.Mirrors) (hop : op ≠ .remove) :
    s.step (fd, op) =
      { channels := Function.update s.channels fd ⟨op.word (s.channels fd).listenEvents, true⟩
        interest := Function.update s.interest fd
          (some ((op.word (s.channels fd).listenEvents).signExtend 32))
        errno := none
        requested := Function.update s.requested fd (op.request (s.requested fd)) } := by
  have hupdate : s.step (fd, op) = updateChannel (assign { s with
      requested := Function.update s.requested fd (op.request (s.requested fd)) } fd op.request)
      fd := by
    cases op with
    | remove => exact absurd rfl hop
    | enableRead => rfl
    | enableWrite => rfl
    | disableWrite => rfl
    | disableAll => rfl
    | setEt => rfl
    | setReadCallback => rfl
  rw [hupdate, updateChannel_eq (by simpa [assign, setChannel] using h.registered fd)]
  simp [assign, setChannel, Op.word]

/-- The operations on the low bits survive the way through the `short`. -/
theorem word_flags (hremove : op ≠ .remove) (het : op ≠ .setEt) (f : BitVec 3) :
    ∃ g : BitVec 3, op.word (f.setWidth 16) = g.setWidth 16 ∧
      op.request (f.setWidth 32) = g.setWidth 32 ∧
      (g.setWidth 16).signExtend 32 = g.setWidth 32 := by
  cases op with
  | remove => exact absurd rfl hremove
  | setEt => exact absurd rfl het
  | enableRead => revert f; decide
  | enableWrite => revert f; decide
  | disableWrite => revert f; decide
  | disableAll => revert f; decide
  | setReadCallback => revert f; decide

/-- `EPOLLET` is bit 31, and does not. -/
theorem word_setEt (f : BitVec 3) :
    (Op.setEt.word (f.setWidth 16)).signExtend 32 ≠ Op.setEt.request (f.setWidth 32) := by
  revert f
  decide

theorem Inv.step_update (h : s.Inv) (hremove : op ≠ .remove) (het : op ≠ .setEt) :
    (s.step (fd, op)).Inv := by
  obtain ⟨f, hword, hreq⟩ := h.flags fd
  obtain ⟨g, hg, hgr, hsext⟩ := word_flags hremove het f
  rw [Epoll.step_update h.toMirrors hremove, hword, hreq, hg, hgr, hsext]
  refine ⟨⟨fun p => ?_, fun p ev hp => ?_⟩, fun p => ?_⟩
  · by_cases hpf : p = fd
    · simp [hpf]
    · simpa [Function.update_of_ne hpf] using h.registered p
  · by_cases hpf : p = fd
    · subst hpf
      simpa [eq_comm] using hp
    · simp only [Function.update_of_ne hpf] at hp ⊢
      exact h.mask p ev hp
  · by_cases hpf : p = fd
    · exact ⟨g, by simp [hpf], by simp [hpf]⟩
    · simp only [Function.update_of_ne hpf]
      exact h.flags p

/-- A word without bit 31 is registered for a request with it. -/
theorem Inv.step_setEt (h : s.Inv) : ¬(s.step (fd, .setEt)).Mirrors := by
  intro hm
  obtain ⟨f, hword, hreq⟩ := h.flags fd
  rw [Epoll.step_update h.toMirrors (by decide), hword, hreq] at hm
  have hmask := hm.mask fd _ (Function.update_self _ _ _)
  dsimp only at hmask
  rw [Function.update_self] at hmask
  exact word_setEt f hmask

theorem step_remove_of_none (hin : s.interest fd = none) :
    s.step (fd, .remove) = { s with errno := some .ENOENT } := by
  simp [step, Op.apply, Op.request, remove, deleteChannel, epollCtl, hin, Ctl.apply]

/-- The entry goes, and the flag of the channel stays. -/
theorem Mirrors.step_remove (h : s.Mirrors) (hflag : (s.channels fd).isEpolled = true) :
    ¬(s.step (fd, .remove)).Mirrors := by
  intro hm
  obtain ⟨ev, hev⟩ := Option.isSome_iff_exists.mp ((h.registered fd).mpr hflag)
  have hreg := hm.registered fd
  simp [step, Op.apply, Op.request, remove, deleteChannel, epollCtl, hev, Ctl.apply, hflag] at hreg

/-- Behind an operation list and channels agree, and an update has not failed. -/
def Good (i : ℕ × Op) (s : Epoll) : Prop := s.Mirrors ∧ (i.2 ≠ .remove → s.errno = none)

/-- An operation that keeps the agreement: it asks for no edge triggering and takes
out no channel that has been added. -/
structure Sound (s : Epoll) (i : ℕ × Op) : Prop where
  level : i.2 ≠ .setEt
  unregistered : i.2 = .remove → (s.channels i.1).isEpolled = false

theorem Inv.step_sound (h : s.Inv) (hi : s.Sound (fd, op)) :
    (s.step (fd, op)).Inv ∧ Good (fd, op) (s.step (fd, op)) ∧
      ∀ p, ((s.step (fd, op)).channels p).isEpolled = false ↔
        (s.channels p).isEpolled = false ∧ (p = fd → op = .remove) := by
  by_cases hop : op = .remove
  · have hin : s.interest fd = none := by
      have hreg := h.registered fd
      simpa [hi.unregistered hop] using hreg
    rw [hop, step_remove_of_none hin]
    refine ⟨⟨⟨h.registered, h.mask⟩, h.flags⟩, ⟨⟨h.registered, h.mask⟩, ?_⟩, fun p => ?_⟩
    · exact fun hne => absurd rfl hne
    · exact (and_iff_left fun _ => rfl).symm
  · have hinv : (s.step (fd, op)).Inv := h.step_update hop hi.level
    refine ⟨hinv, ⟨hinv.toMirrors, fun _ => ?_⟩, fun p => ?_⟩
    · rw [Epoll.step_update h.toMirrors hop]
    · rw [Epoll.step_update h.toMirrors hop]
      by_cases hpf : p = fd
      · simp [hpf, hop]
      · simp [hpf]

theorem Inv.step_not_sound (h : s.Inv) (hi : ¬s.Sound (fd, op)) :
    ¬Good (fd, op) (s.step (fd, op)) := by
  rintro ⟨hm, -⟩
  refine hi ⟨fun het => ?_, fun hop => ?_⟩
  · dsimp only at het
    rw [het] at hm
    exact h.step_setEt hm
  · dsimp only at hop ⊢
    rw [hop] at hm
    by_contra hflag
    exact h.toMirrors.step_remove (Bool.not_eq_false _ ▸ hflag) hm

theorem Inv.everyStep_iff (h : s.Inv) :
    Runs.EveryStep (ε := Empty) (fun s i => .ok (s.step i)) (fun _ i s' => Good i s') ops s ↔
      ∀ before i after, ops = before ++ i :: after → i.2 ≠ .setEt ∧
        (i.2 = .remove → (s.channels i.1).isEpolled = false ∧
          ∀ op, (i.1, op) ∈ before → op = .remove) := by
  induction ops generalizing s with
  | nil => exact ⟨fun _ before i after he => absurd he (by simp), fun _ => trivial⟩
  | cons i ops ih =>
    obtain ⟨fd, op⟩ := i
    rw [Runs.forall_split_cons, Runs.everyStep_cons rfl]
    by_cases hi : s.Sound (fd, op)
    · obtain ⟨hinv, hgood, hflag⟩ := h.step_sound hi
      rw [ih hinv, and_iff_right hgood, and_iff_right]
      · refine forall₄_congr fun before j after he => and_congr_right fun _ => ?_
        refine imp_congr_right fun _ => ?_
        -- a channel is without entry behind the step if it was before and the step is no update of it
        rw [hflag j.1]
        constructor
        · rintro ⟨⟨hold, hhere⟩, hbefore⟩
          refine ⟨hold, fun op' hmem => ?_⟩
          rcases List.mem_cons.mp hmem with heq | hmem
          · rw [Prod.mk.injEq] at heq
            rw [heq.2]
            exact hhere heq.1
          · exact hbefore op' hmem
        · rintro ⟨hold, hbefore⟩
          refine ⟨⟨hold, fun heq => hbefore op ?_⟩, fun op' hmem => hbefore op' ?_⟩
          · rw [heq]
            exact List.mem_cons_self
          · exact List.mem_cons_of_mem _ hmem
      · exact ⟨hi.level, fun hop => ⟨hi.unregistered hop, fun _ hmem => absurd hmem List.not_mem_nil⟩⟩
    · refine iff_of_false (fun hall => h.step_not_sound hi hall.1) fun hall => hi ?_
      exact ⟨hall.1.1, fun hop => (hall.1.2 hop).1⟩

/-- Along a sequence of operations on any channels, the list of the kernel holds
exactly the channels that say so, under the masks asked for, and no update
fails, exactly if no operation is `set_et` and none removes a channel that an
earlier one has added. -/
theorem registration_mirrors_iff (ops : List (ℕ × Op)) :
    Runs.EveryStep (ε := Empty) (fun s i => .ok (s.step i)) (fun _ i s' => Good i s') ops new ↔
      ∀ before i after, ops = before ++ i :: after → i.2 ≠ .setEt ∧
        (i.2 = .remove → ∀ op, (i.1, op) ∈ before → op = .remove) := by
  rw [new_inv.everyStep_iff]
  refine forall₄_congr fun before i after he => and_congr_right fun _ => ?_
  exact imp_congr_right fun _ => and_iff_right rfl

/-- Edge triggering is asked for and not registered.  A channel that is removed
still says that it is in the list, and its next update fails. -/
theorem registration_diverges :
    (∃ s, s = [(3, Op.enableRead), (3, .setEt)].foldl step new ∧
      s.interest 3 = some (EPOLLIN ||| EPOLLPRI) ∧
      s.requested 3 = EPOLLIN ||| EPOLLPRI ||| EPOLLET) ∧
    ∃ s, s = [(3, Op.enableRead), (3, .remove)].foldl step new ∧
      s.interest 3 = none ∧ (s.channels 3).isEpolled = true ∧
      (s.step (3, .enableRead)).errno = some .ENOENT := by
  refine ⟨⟨_, rfl, ?_, ?_⟩, _, rfl, ?_, ?_, ?_⟩ <;> decide

end Epoll

end NcxTunnel
