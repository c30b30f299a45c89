import NcxTunnel.Runs

/-!
# Reading words of a prefix code from a stream

No word of the code begins another one, so at most one of them stands at the
front of a stream and `next` finds it.  Symbols arrive in chunks, and the reader
tries to take one word at a time, at moments that have nothing to do with the
boundaries between words.
-/

namespace NcxTunnel

/-- `β` are the words and `symbols` is how they are written; those that are not
`Valid` are never written. -/
structure PrefixCode (α β : Type*) where
  symbols : β → List α
  Valid : β → Prop
  next : List α → Option (β × List α)
  next_eq_some_iff : ∀ q x rest, next q = some (x, rest) ↔ Valid x ∧ q = symbols x ++ rest
  /-- A lower bound for the length of a word. -/
  width : ℕ
  width_pos : 0 < width
  width_le : ∀ x, Valid x → width ≤ (symbols x).length

namespace PrefixCode

variable {α β : Type*} (c : PrefixCode α β)

theorem next_symbols {x : β} (hx : c.Valid x) (rest : List α) :
    c.next (c.symbols x ++ rest) = some (x, rest) :=
  (c.next_eq_some_iff _ x rest).mpr ⟨hx, rfl⟩

theorem next_length {q rest : List α} {x : β} (h : c.next q = some (x, rest)) :
    rest.length + c.width ≤ q.length := by
  obtain ⟨hx, rfl⟩ := (c.next_eq_some_iff q x rest).mp h
  have := c.width_le x hx
  rw [List.length_append]
  omega

/-- How `words` are written one behind the other. -/
def write (words : List β) : List α := words.flatMap c.symbols

@[simp] theorem write_nil : c.write [] = [] := rfl

@[simp] theorem write_cons (x : β) (words : List β) :
    c.write (x :: words) = c.symbols x ++ c.write words := rfl

@[simp] theorem write_append (words words' : List β) :
    c.write (words ++ words') = c.write words ++ c.write words' := List.flatMap_append

/-- `q` is written with `words`, and no further word can be made out in the `rest`. -/
structure Splits (q : List α) (words : List β) (rest : List α) : Prop where
  valid : ∀ x ∈ words, c.Valid x
  eq : q = c.write words ++ rest
  stuck : c.next rest = none

theorem exists_splits (q : List α) : ∃ words rest, c.Splits q words rest := by
  -- each word takes symbols off the front, so the rest is shorter
  induction hlen : q.length using Nat.strong_induction_on generalizing q with
  | h n ih =>
    cases hnext : c.next q with
    | none => exact ⟨[], q, fun _ h => absurd h List.not_mem_nil, rfl, hnext⟩
    | some p =>
      obtain ⟨x, q'⟩ := p
      have hshort := c.next_length hnext
      have hpos := c.width_pos
      obtain ⟨words, rest, hvalid, heq, hstuck⟩ := ih q'.length (by omega) q' rfl
      obtain ⟨hx, hq⟩ := (c.next_eq_some_iff q x q').mp hnext
      refine ⟨x :: words, rest, List.forall_mem_cons.mpr ⟨hx, hvalid⟩, ?_, hstuck⟩
      rw [hq, heq, write_cons, List.append_assoc]

/-- What is written first is found first, so a stream splits in one way only. -/
theorem Splits.unique {c : PrefixCode α β} {q : List α} {words words' : List β}
    {rest rest' : List α} (h : c.Splits q words rest) (h' : c.Splits q words' rest') :
    words = words' ∧ rest = rest' := by
  induction words generalizing q words' with
  | nil =>
    cases words' with
    | nil => exact ⟨rfl, h.eq.symm.trans h'.eq⟩
    | cons x words' =>
      have hx := c.next_symbols (h'.valid x List.mem_cons_self) (c.write words' ++ rest')
      rw [← List.append_assoc, ← write_cons, ← h'.eq, h.eq, write_nil, List.nil_append,
        h.stuck] at hx
      cases hx
  | cons x words ih =>
    have hx := c.next_symbols (h.valid x List.mem_cons_self) (c.write words ++ rest)
    rw [← List.append_assoc, ← write_cons, ← h.eq] at hx
    cases words' with
    | nil =>
      rw [h'.eq, write_nil, List.nil_append, h'.stuck] at hx
      cases hx
    | cons y words' =>
      have hy := c.next_symbols (h'.valid y List.mem_cons_self) (c.write words' ++ rest')
      rw [← List.append_assoc, ← write_cons, ← h'.eq, hx, Option.some.injEq, Prod.mk.injEq] at hy
      have htail : c.Splits (c.write words ++ rest) words rest :=
        ⟨fun z hz => h.valid z (List.mem_cons_of_mem _ hz), rfl, h.stuck⟩
      have htail' : c.Splits (c.write words ++ rest) words' rest' :=
        ⟨fun z hz => h'.valid z (List.mem_cons_of_mem _ hz), hy.2, h'.stuck⟩
      obtain ⟨hwords, hrest⟩ := ih htail htail'
      exact ⟨by rw [hy.1, hwords], hrest⟩

/-- Words taken off the front are words of the whole. -/
theorem Splits.cons_words {c : PrefixCode α β} {q rest : List α} {taken words : List β}
    (hvalid : ∀ x ∈ taken, c.Valid x) (h : c.Splits q words rest) :
    c.Splits (c.write taken ++ q) (taken ++ words) rest := by
  refine ⟨?_, ?_, h.stuck⟩
  · intro x hx
    rcases List.mem_append.mp hx with hx | hx
    · exact hvalid x hx
    · exact h.valid x hx
  · rw [h.eq, write_append, List.append_assoc]

/-! ## Reading while symbols arrive -/

inductive Feed (α : Type*) where
  | arrive (chunk : List α)
  | attempt

def Feed.symbols : Feed α → List α
  | arrive chunk => chunk
  | attempt => []

def arrived (evs : List (Feed α)) : List α := evs.flatMap Feed.symbols

def feed (q : List α) : Feed α → Option β × List α
  | .arrive chunk => (none, q ++ chunk)
  | .attempt =>
      match c.next q with
      | none => (none, q)
      | some (x, rest) => (some x, rest)

def run (evs : List (Feed α)) (q : List α) : List (Option β) × List α := Runs.runTotal c.feed evs q

theorem feed_valid (q : List α) (ev : Feed α) (x : β) (hx : x ∈ (c.feed q ev).1) : c.Valid x := by
  cases ev with
  | arrive chunk => cases hx
  | attempt =>
    rw [feed] at hx
    cases hnext : c.next q with
    | none => simp [hnext] at hx
    | some p =>
      obtain ⟨y, rest⟩ := p
      simp only [hnext, Option.mem_def, Option.some.injEq] at hx
      exact hx ▸ ((c.next_eq_some_iff q y rest).mp hnext).1

/-- One event loses nothing: the word it yields is what is missing from the queue. -/
theorem feed_eq (q : List α) (ev : Feed α) :
    q ++ ev.symbols = c.write (c.feed q ev).1.toList ++ (c.feed q ev).2 := by
  cases ev with
  | arrive chunk => rfl
  | attempt =>
    rw [feed, Feed.symbols, List.append_nil]
    cases hnext : c.next q with
    | none => rfl
    | some p =>
      obtain ⟨y, rest⟩ := p
      simpa using ((c.next_eq_some_iff q y rest).mp hnext).2

theorem run_cons (ev : Feed α) (evs : List (Feed α)) (q : List α) :
    c.run (ev :: evs) q =
      ((c.feed q ev).1 :: (c.run evs (c.feed q ev).2).1, (c.run evs (c.feed q ev).2).2) := rfl

/-- The words yielded along a run, and what is left of the queue, are what was
there and what has arrived. -/
theorem run_eq (evs : List (Feed α)) (q : List α) :
    q ++ arrived evs = c.write ((c.run evs q).1.filterMap id) ++ (c.run evs q).2 := by
  induction evs generalizing q with
  | nil => exact List.append_nil q
  | cons ev evs ih =>
    have hstep := c.feed_eq q ev
    rw [run_cons]
    dsimp only
    calc q ++ arrived (ev :: evs) = (q ++ ev.symbols) ++ arrived evs := by
          rw [List.append_assoc]
          rfl
      _ = c.write (c.feed q ev).1.toList ++ ((c.feed q ev).2 ++ arrived evs) := by
          rw [hstep, List.append_assoc]
      _ = _ := by
          rw [ih, ← List.append_assoc, ← write_append]
          cases (c.feed q ev).1 <;> rfl

theorem run_valid (evs : List (Feed α)) (q : List α) :
    ∀ x ∈ (c.run evs q).1.filterMap id, c.Valid x := by
  induction evs generalizing q with
  | nil => exact fun _ h => absurd h List.not_mem_nil
  | cons ev evs ih =>
    intro x hx
    rw [run_cons, List.mem_filterMap] at hx
    obtain ⟨o, ho, rfl⟩ := hx
    rcases List.mem_cons.mp ho with ho | ho
    · exact c.feed_valid q ev x ho.symm
    · exact ih _ x (List.mem_filterMap.mpr ⟨_, ho, rfl⟩)

/-- Whatever the schedule, a run yields the first words of the stream and leaves
the others to be split off its queue. -/
theorem run_splits (evs : List (Feed α)) (q : List α) {words : List β} {rest : List α}
    (h : c.Splits (q ++ arrived evs) words rest) :
    ∃ left, words = (c.run evs q).1.filterMap id ++ left ∧ c.Splits (c.run evs q).2 left rest := by
  obtain ⟨left, rest', hleft⟩ := c.exists_splits (c.run evs q).2
  have hall := hleft.cons_words (c.run_valid evs q)
  rw [← c.run_eq] at hall
  obtain ⟨rfl, rfl⟩ := h.unique hall
  exact ⟨left, rfl, hleft⟩

theorem run_append (evs evs' : List (Feed α)) (q : List α) :
    (c.run (evs ++ evs') q).2 = (c.run evs' (c.run evs q).2).2 := by
  induction evs generalizing q with
  | nil => rfl
  | cons ev evs ih => exact ih _

theorem run_attempts_of_stuck {q : List α} (h : c.next q = none) (n : ℕ) :
    (c.run (List.replicate n .attempt) q).2 = q := by
  induction n with
  | zero => rfl
  | succ n ih =>
    have hfeed : c.feed q .attempt = (none, q) := by rw [feed, h]
    rw [List.replicate_succ, run_cons, hfeed]
    exact ih

/-- An attempt that yields a word takes at least `width` symbols, so `n` of them
are enough for a queue shorter than `n + 1` times that. -/
theorem run_attempts_stuck {q : List α} {n : ℕ} (h : q.length < (n + 1) * c.width) :
    c.next (c.run (List.replicate n .attempt) q).2 = none := by
  induction n generalizing q with
  | zero =>
    cases hnext : c.next q with
    | none => exact hnext
    | some p =>
      have := c.next_length hnext
      omega
  | succ n ih =>
    cases hnext : c.next q with
    | none => rw [c.run_attempts_of_stuck hnext, hnext]
    | some p =>
      have hshort := c.next_length hnext
      have hfeed : c.feed q .attempt = (some p.1, p.2) := by rw [feed, hnext]
      rw [List.replicate_succ, run_cons, hfeed]
      rw [Nat.add_mul, Nat.one_mul] at h
      have hlt : p.2.length < (n + 1) * c.width := by omega
      exact ih hlt

theorem run_length_le (evs : List (Feed α)) (q : List α) :
    (c.run evs q).2.length ≤ (q ++ arrived evs).length := by
  rw [c.run_eq, List.length_append]
  exact Nat.le_add_left _ _

/-- After enough attempts at the end nothing is left but what no word begins. -/
theorem run_complete {evs : List (Feed α)} {n : ℕ} {q : List α} {words : List β} {rest : List α}
    (h : c.Splits (q ++ arrived evs) words rest)
    (hn : (q ++ arrived evs).length < (n + 1) * c.width) :
    (c.run (evs ++ List.replicate n .attempt) q).1.filterMap id = words ∧
      (c.run (evs ++ List.replicate n .attempt) q).2 = rest := by
  have harrived : arrived (evs ++ List.replicate n .attempt) = arrived evs := by
    rw [arrived, List.flatMap_append]
    suffices ((List.replicate n Feed.attempt).flatMap Feed.symbols : List α) = [] by
      rw [this, List.append_nil]
      rfl
    rw [List.flatMap_eq_nil_iff]
    intro ev hev
    rw [List.eq_of_mem_replicate hev]
    rfl
  rw [← harrived] at h
  obtain ⟨left, hwords, hleft⟩ := c.run_splits (evs ++ List.replicate n .attempt) q h
  have hstuck : c.next (c.run (evs ++ List.replicate n .attempt) q).2 = none := by
    rw [c.run_append]
    exact c.run_attempts_stuck (Nat.lt_of_le_of_lt (c.run_length_le evs q) hn)
  have hnone : c.Splits (c.run (evs ++ List.replicate n .attempt) q).2 []
      (c.run (evs ++ List.replicate n .attempt) q).2 :=
    ⟨fun _ h => absurd h List.not_mem_nil, rfl, hstuck⟩
  obtain ⟨rfl, hrest⟩ := hleft.unique hnone
  exact ⟨by rw [hwords, List.append_nil], hrest.symm⟩

end PrefixCode

end NcxTunnel
