import NcxTunnel.Runs

/-!
# Runs that cannot go on for ever

Steps of a partial system that lower a rank as long as an invariant holds: the rank
of the first state bounds the length of every run.  The rank is often what is left
to do, summed over a collection of parts that grows; a step then concerns few parts.
-/

namespace NcxTunnel.Ranking

section Path

variable {σ ι ε : Type*}

/-- No step of the run fails, and every input meets its precondition. -/
inductive Path (next : σ → ι → Except ε σ) (pre : σ → ι → Prop) : List ι → σ → σ → Prop
  | nil (s : σ) : Path next pre [] s s
  | cons {i : ι} {is : List ι} {s s₁ s' : σ} : pre s i → next s i = .ok s₁ →
      Path next pre is s₁ s' → Path next pre (i :: is) s s'

variable {next : σ → ι → Except ε σ} {pre : σ → ι → Prop}

/-- The rank pays for every step. -/
theorem Path.length_add_rank_le (inv : σ → Prop) (rank : σ → ℕ)
    (hstep : ∀ s i s', inv s → pre s i → next s i = .ok s' → inv s' ∧ rank s' < rank s)
    {is : List ι} {s s' : σ} (h : Path next pre is s s') (hinv : inv s) :
    inv s' ∧ is.length + rank s' ≤ rank s := by
  induction h with
  | nil s => exact ⟨hinv, by simp⟩
  | cons hpre hnext _ ih =>
    obtain ⟨hinv₁, hlt⟩ := hstep _ _ _ hinv hpre hnext
    obtain ⟨hinv', hle⟩ := ih hinv₁
    refine ⟨hinv', ?_⟩
    rw [List.length_cons]
    omega

theorem Path.of_checkedRun [∀ s i, Decidable (pre s i)] {is : List ι} {s s' : σ}
    (hrun : Runs.checkedRun next pre is s = some s') : Path next pre is s s' := by
  induction is generalizing s with
  | nil =>
    rw [Runs.checkedRun, Option.some.injEq] at hrun
    exact hrun ▸ .nil s
  | cons i is ih =>
    rw [Runs.checkedRun] at hrun
    split at hrun
    · rename_i hpre
      cases hnext : next s i with
      | error e => simp [hnext] at hrun
      | ok s₁ =>
        simp only [hnext] at hrun
        exact .cons hpre hnext (ih hrun)
    · cases hrun

end Path

variable {ι : Type*} {w w' : ι → ℕ} {T : Finset ι}

/-- Outside `T` nothing changes, so the sums compare as they do over `T`. -/
theorem finsum_add_sum_eq (hfin : w.support.Finite) (hoff : ∀ p ∉ T, w' p = w p) :
    ∑ᶠ p, w' p + ∑ p ∈ T, w p = ∑ᶠ p, w p + ∑ p ∈ T, w' p := by
  classical
  have hw : w.support ⊆ ↑(hfin.toFinset ∪ T) := by
    intro p hp
    simp [Function.mem_support.mp hp]
  have hw' : w'.support ⊆ ↑(hfin.toFinset ∪ T) := by
    intro p hp
    by_cases hT : p ∈ T
    · simp [hT]
    · rw [Function.mem_support, hoff p hT] at hp
      simp [hp]
  have hrest : ∑ p ∈ (hfin.toFinset ∪ T) \ T, w' p = ∑ p ∈ (hfin.toFinset ∪ T) \ T, w p := by
    apply Finset.sum_congr rfl
    intro p hp
    exact hoff p (Finset.mem_sdiff.mp hp).2
  have hT : T ⊆ hfin.toFinset ∪ T := Finset.subset_union_right
  rw [finsum_eq_sum_of_support_subset w hw, finsum_eq_sum_of_support_subset w' hw',
    ← Finset.sum_sdiff hT (f := w), ← Finset.sum_sdiff hT (f := w'), hrest]
  omega

theorem finsum_lt (hfin : w.support.Finite) (hoff : ∀ p ∉ T, w' p = w p)
    (hlt : ∑ p ∈ T, w' p < ∑ p ∈ T, w p) : ∑ᶠ p, w' p < ∑ᶠ p, w p := by
  have heq := finsum_add_sum_eq hfin hoff
  omega

end NcxTunnel.Ranking
