import Mathlib

/-!
# Runs of partial step functions

A program that is driven by a list of inputs: `step s i` gives the output and
the next state, or `none` where the program leaves its defined behaviour.
`run` collects the outputs.  An input may have a precondition on the state in
which it comes; `Admissible` says that along the run every input meets its own.
-/

namespace NcxTunnel.Runs

variable {σ τ ι ο : Type*}

def run (step : σ → ι → Option (ο × σ)) : List ι → σ → Option (List ο × σ)
  | [], s => some ([], s)
  | i :: is, s => do
      let (o, s) ← step s i
      let (os, s) ← run step is s
      return (o :: os, s)

/-- The same for a total step function. -/
def runTotal (step : τ → ι → ο × τ) : List ι → τ → List ο × τ
  | [], t => ([], t)
  | i :: is, t =>
      let (o, t) := step t i
      let (os, t) := runTotal step is t
      (o :: os, t)

def Admissible (step : σ → ι → Option (ο × σ)) (pre : σ → ι → Prop) : List ι → σ → Prop
  | [], _ => True
  | i :: is, s => pre s i ∧ ∀ o s', step s i = some (o, s') → Admissible step pre is s'

variable {step : σ → ι → Option (ο × σ)} {pre : σ → ι → Prop}

theorem run_nil (s : σ) : run step [] s = some ([], s) := rfl

theorem run_cons_of_eq {i : ι} {is : List ι} {s s₁ s₂ : σ} {o : ο} {os : List ο}
    (h₁ : step s i = some (o, s₁)) (h₂ : run step is s₁ = some (os, s₂)) :
    run step (i :: is) s = some (o :: os, s₂) := by
  simp [run, h₁, h₂]

theorem run_cons_eq_some {i : ι} {is : List ι} {s s' : σ} {os : List ο}
    (h : run step (i :: is) s = some (os, s')) :
    ∃ o s₁ os', step s i = some (o, s₁) ∧ run step is s₁ = some (os', s') ∧ os = o :: os' := by
  simp only [run, Option.bind_eq_bind, Option.bind_eq_some_iff, Prod.exists] at h
  obtain ⟨o, s₁, h₁, os', s₂, h₂, h₃⟩ := h
  simp only [Option.pure_def, Option.some.injEq, Prod.mk.injEq] at h₃
  exact ⟨o, s₁, os', h₁, by rw [h₂, h₃.2], h₃.1.symm⟩

theorem Admissible.left {is js : List ι} {s : σ} (h : Admissible step pre (is ++ js) s) :
    Admissible step pre is s := by
  induction is generalizing s with
  | nil => trivial
  | cons i is ih => exact ⟨h.1, fun o s' he => ih (h.2 o s' he)⟩

/-- Forward simulation: if every admissible step keeps the invariant and does
what the total step does on the abstract state, so does every admissible run. -/
theorem run_simulates (inv : σ → Prop) (abs : σ → τ) (spec : τ → ι → ο × τ)
    (hstep : ∀ s i, inv s → pre s i →
      ∃ o s', step s i = some (o, s') ∧ inv s' ∧ spec (abs s) i = (o, abs s'))
    {is : List ι} {s : σ} (hinv : inv s) (hadm : Admissible step pre is s) :
    ∃ os s', run step is s = some (os, s') ∧ inv s' ∧ runTotal spec is (abs s) = (os, abs s') := by
  induction is generalizing s with
  | nil => exact ⟨[], s, rfl, hinv, rfl⟩
  | cons i is ih =>
    obtain ⟨o, s₁, he, hinv₁, hspec⟩ := hstep s i hinv hadm.1
    obtain ⟨os, s₂, hrun, hinv₂, hrest⟩ := ih hinv₁ (hadm.2 o s₁ he)
    refine ⟨o :: os, s₂, run_cons_of_eq he hrun, hinv₂, ?_⟩
    simp only [runTotal, hspec, hrest]

/-- A condition on the inputs alone may join the preconditions. -/
theorem Admissible.and_forall {is : List ι} {s : σ} {P : ι → Prop}
    (h : Admissible step pre is s) (hP : ∀ i ∈ is, P i) :
    Admissible step (fun s i => pre s i ∧ P i) is s := by
  induction is generalizing s with
  | nil => trivial
  | cons i is ih =>
    rw [List.forall_mem_cons] at hP
    exact ⟨⟨h.1, hP.1⟩, fun o s' he => ih (h.2 o s' he) hP.2⟩

/-! ## The largest value so far -/

/-- The largest value that `f` has along a run, the first state included. -/
def peak (step : σ → ι → Option (ο × σ)) (f : σ → ℕ) : List ι → σ → ℕ
  | [], s => f s
  | i :: is, s =>
      match step s i with
      | none => f s
      | some (_, s') => max (f s) (peak step f is s')

theorem le_peak (f : σ → ℕ) (is : List ι) (s : σ) : f s ≤ peak step f is s := by
  cases is with
  | nil => exact Nat.le_refl _
  | cons i is =>
    rw [peak]
    split
    · exact Nat.le_refl _
    · exact Nat.le_max_left _ _

theorem peak_cons {i : ι} {is : List ι} {s s' : σ} {o : ο} (f : σ → ℕ)
    (h : step s i = some (o, s')) : peak step f (i :: is) s = max (f s) (peak step f is s') := by
  rw [peak, h]

/-- Along a run that does not fail, `peak` is the greatest of the values after
each of its initial parts. -/
theorem peak_isGreatest (f : σ → ℕ) {is : List ι} {s s' : σ} {os : List ο}
    (h : run step is s = some (os, s')) :
    IsGreatest {n | ∃ past outs t, past <+: is ∧ run step past s = some (outs, t) ∧ f t = n}
      (peak step f is s) := by
  induction is generalizing s os with
  | nil =>
    refine ⟨⟨[], [], s, List.prefix_rfl, rfl, rfl⟩, ?_⟩
    rintro n ⟨past, outs, t, hpast, hrun, rfl⟩
    rw [List.prefix_nil.mp hpast, run_nil, Option.some.injEq, Prod.mk.injEq] at hrun
    rw [peak, hrun.2]
  | cons i is ih =>
    obtain ⟨o, s₁, os', hstep, hrest, -⟩ := run_cons_eq_some h
    obtain ⟨⟨past, outs, t, hpast, hrun, ht⟩, hub⟩ := ih hrest
    rw [peak_cons f hstep]
    refine ⟨?_, ?_⟩
    · rcases Nat.le_total (f s) (peak step f is s₁) with hle | hle
      · rw [Nat.max_eq_right hle]
        exact ⟨i :: past, o :: outs, t, List.cons_prefix_cons.mpr ⟨rfl, hpast⟩,
          run_cons_of_eq hstep hrun, ht⟩
      · rw [Nat.max_eq_left hle]
        exact ⟨[], [], s, List.nil_prefix, rfl, rfl⟩
    · rintro n ⟨past', outs', t', hpast', hrun', rfl⟩
      cases past' with
      | nil =>
        rw [run_nil, Option.some.injEq, Prod.mk.injEq] at hrun'
        rw [hrun'.2]
        exact Nat.le_max_left _ _
      | cons j past' =>
        obtain ⟨rfl, hpre⟩ := List.cons_prefix_cons.mp hpast'
        obtain ⟨o', s₂, os₂, hstep', hrun', -⟩ := run_cons_eq_some hrun'
        rw [hstep, Option.some.injEq, Prod.mk.injEq] at hstep'
        rw [← hstep'.2] at hrun'
        exact le_max_of_le_right (hub ⟨past', os₂, t', hpre, hrun', rfl⟩)

/-- If one step never takes `size` above a bound given by the value of `f` behind
it, a run never takes it above the bound given by the peak of `f`. -/
theorem run_le_bound_peak (inv : σ → Prop) (size f : σ → ℕ) {bound : ℕ → ℕ}
    (hbound : Monotone bound)
    (hstep : ∀ s i, inv s → pre s i →
      ∃ o s', step s i = some (o, s') ∧ inv s' ∧ size s' ≤ max (size s) (bound (f s')))
    {is : List ι} {s : σ} (hinv : inv s) (hadm : Admissible step pre is s) :
    ∃ os s', run step is s = some (os, s') ∧ size s' ≤ max (size s) (bound (peak step f is s)) := by
  induction is generalizing s with
  | nil => exact ⟨[], s, rfl, Nat.le_max_left _ _⟩
  | cons i is ih =>
    obtain ⟨o, s₁, he, hinv₁, hsize⟩ := hstep s i hinv hadm.1
    obtain ⟨os, s₂, hrun, hrest⟩ := ih hinv₁ (hadm.2 o s₁ he)
    refine ⟨o :: os, s₂, run_cons_of_eq he hrun, ?_⟩
    rw [peak_cons f he]
    -- the value behind the step is one of those the peak of the rest is taken over
    have hfirst : bound (f s₁) ≤ bound (max (f s) (peak step f is s₁)) :=
      hbound (le_max_of_le_right (le_peak f is s₁))
    have hlater : bound (peak step f is s₁) ≤ bound (max (f s) (peak step f is s₁)) :=
      hbound (Nat.le_max_right _ _)
    omega

/-- What holds at every point of a list holds at its head and at every point behind it. -/
theorem forall_split_cons {P : List ι → ι → Prop} {i : ι} {is : List ι} :
    (∀ before j after, i :: is = before ++ j :: after → P before j) ↔
      P [] i ∧ ∀ before j after, is = before ++ j :: after → P (i :: before) j := by
  constructor
  · intro h
    refine ⟨h [] i is rfl, fun before j after he => ?_⟩
    exact h (i :: before) j after (by rw [he, List.cons_append])
  · intro h before j after he
    cases before with
    | nil =>
      rw [List.nil_append, List.cons.injEq] at he
      exact he.1 ▸ h.1
    | cons b before =>
      rw [List.cons_append, List.cons.injEq] at he
      exact he.1 ▸ h.2 before j after he.2

/-- No step of the run fails, and every one is as `good` says. -/
def EveryStep {ε : Type*} (next : σ → ι → Except ε σ) (good : σ → ι → σ → Prop) :
    List ι → σ → Prop
  | [], _ => True
  | i :: is, s => ∃ s', next s i = .ok s' ∧ good s i s' ∧ EveryStep next good is s'

theorem everyStep_cons {ε : Type*} {next : σ → ι → Except ε σ} {good : σ → ι → σ → Prop} {i : ι}
    {is : List ι} {s s' : σ} (h : next s i = .ok s') :
    EveryStep next good (i :: is) s ↔ good s i s' ∧ EveryStep next good is s' := by
  constructor
  · rintro ⟨s₁, hs₁, hgood, hrest⟩
    rw [h, Except.ok.injEq] at hs₁
    rw [hs₁]
    exact ⟨hgood, hrest⟩
  · rintro ⟨hgood, hrest⟩
    exact ⟨s', h, hgood, hrest⟩

/-- The states of runs in which no step fails and every input meets its precondition. -/
inductive ReachableBy {ε : Type*} (next : σ → ι → Except ε σ) (pre : σ → ι → Prop) (s₀ : σ) :
    σ → Prop
  | refl : ReachableBy next pre s₀ s₀
  | tail {s s' : σ} {i : ι} : ReachableBy next pre s₀ s → pre s i → next s i = .ok s' →
      ReachableBy next pre s₀ s'

/-- An invariant that every such step keeps holds in all of them. -/
theorem ReachableBy.invariant {ε : Type*} {next : σ → ι → Except ε σ} {s₀ s : σ}
    (inv : σ → Prop) (h₀ : inv s₀)
    (hstep : ∀ s i s', inv s → pre s i → next s i = .ok s' → inv s')
    (h : ReachableBy next pre s₀ s) : inv s := by
  induction h with
  | refl => exact h₀
  | tail _ hpre hnext ih => exact hstep _ _ _ ih hpre hnext

/-- The same where such a step never fails. -/
theorem ReachableBy.invariant_of_exists {ε : Type*} {next : σ → ι → Except ε σ} {s₀ s : σ}
    (inv : σ → Prop) (h₀ : inv s₀)
    (hstep : ∀ s i, inv s → pre s i → ∃ s', next s i = .ok s' ∧ inv s')
    (h : ReachableBy next pre s₀ s) : inv s := by
  refine h.invariant inv h₀ fun s i s' hs hpre hnext => ?_
  obtain ⟨s₁, hs₁, hinv⟩ := hstep s i hs hpre
  rw [hs₁, Except.ok.injEq] at hnext
  exact hnext ▸ hinv

theorem ok_of_toOption {ε : Type*} {x : Except ε σ} {s : σ} (h : x.toOption = some s) :
    x = .ok s := by
  cases x with
  | error e => cases h
  | ok t => exact congrArg Except.ok (Option.some.inj h)

/-- Take the steps and check the preconditions on the way. -/
def checkedRun {ε : Type*} (next : σ → ι → Except ε σ) (pre : σ → ι → Prop)
    [∀ s i, Decidable (pre s i)] : List ι → σ → Option σ
  | [], s => some s
  | i :: is, s =>
      if pre s i then
        match next s i with
        | .error _ => none
        | .ok s' => checkedRun next pre is s'
      else none

theorem ReachableBy.of_checkedRun {ε : Type*} {next : σ → ι → Except ε σ}
    [∀ s i, Decidable (pre s i)] {s₀ s s' : σ} {is : List ι} (h : ReachableBy next pre s₀ s)
    (hrun : checkedRun next pre is s = some s') : ReachableBy next pre s₀ s' := by
  induction is generalizing s with
  | nil =>
    rw [checkedRun, Option.some.injEq] at hrun
    exact hrun ▸ h
  | cons i is ih =>
    rw [checkedRun] at hrun
    split at hrun
    · rename_i hpre
      cases hnext : next s i with
      | error e => simp [hnext] at hrun
      | ok s₁ =>
        simp only [hnext] at hrun
        exact ih (h.tail hpre hnext) hrun
    · cases hrun

end NcxTunnel.Runs
