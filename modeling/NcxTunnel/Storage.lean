import Mathlib

/-!
# Bounds-checked storage

A `std::vector` of elements that is read and written one element at a time.
Every access is checked: a read or a write past the end gives `none`, so a
program over this storage that returns `some` has made no access outside it.

`copyWithin` is `std::copy` from the vector into itself.  It runs upwards, so
a later read sees what an earlier write of the same call has stored.
-/

namespace NcxTunnel.Storage

variable {α : Type*}

/-- Copy `n` elements from index `src` on to index `dst` on, in ascending order. -/
def copyWithin : ℕ → ℕ → ℕ → List α → Option (List α)
  | 0, _, _, v => some v
  | n + 1, src, dst, v => do
      let x ← v[src]?
      if dst < v.length then copyWithin n (src + 1) (dst + 1) (v.set dst x) else none

/-- Store the elements of a foreign range from index `dst` on. -/
def copyIn : List α → ℕ → List α → Option (List α)
  | [], _, v => some v
  | x :: xs, dst, v => if dst < v.length then copyIn xs (dst + 1) (v.set dst x) else none

/-- Read `n` elements from index `src` on. -/
def copyOut : ℕ → ℕ → List α → Option (List α)
  | 0, _, _ => some []
  | n + 1, src, v => do
      let x ← v[src]?
      let xs ← copyOut n (src + 1) v
      return x :: xs

/-- `vector::resize`: cut, or fill up with `d`. -/
def resize (d : α) (n : ℕ) (v : List α) : List α := v.take n ++ List.replicate (n - v.length) d

/-- The elements at indices `i, …, i + n - 1`. -/
def window (v : List α) (i n : ℕ) : List α := (v.drop i).take n

theorem window_length {v : List α} {i n : ℕ} (h : i + n ≤ v.length) :
    (window v i n).length = n := by
  simp only [window, List.length_take, List.length_drop]
  omega

theorem window_succ {v : List α} {i n : ℕ} {x : α} (h : v[i]? = some x) :
    window v i (n + 1) = x :: window v (i + 1) n := by
  obtain ⟨hi, rfl⟩ := List.getElem?_eq_some_iff.mp h
  simp only [window, List.drop_eq_getElem_cons hi, List.take_succ_cons]

@[simp] theorem window_zero (v : List α) (i : ℕ) : window v i 0 = [] := by
  simp [window]

theorem window_add (v : List α) (i m n : ℕ) :
    window v i (m + n) = window v i m ++ window v (i + m) n := by
  simp only [window, List.take_add, List.drop_drop]

/-- A window of a vector does not see a store outside it. -/
theorem window_set_of_outside {v : List α} {i n j : ℕ} {x : α} (h : j < i ∨ i + n ≤ j) :
    window (v.set j x) i n = window v i n := by
  apply List.ext_getElem?
  intro k
  simp only [window, List.getElem?_take, List.getElem?_drop]
  split
  · rw [List.getElem?_set_ne (by omega)]
  · rfl

theorem copyOut_eq_window {n src : ℕ} {v : List α} (h : src + n ≤ v.length) :
    copyOut n src v = some (window v src n) := by
  induction n generalizing src with
  | zero => simp [copyOut]
  | succ n ih =>
    have hsrc : src < v.length := by omega
    have hx : v[src]? = some v[src] := List.getElem?_eq_getElem hsrc
    rw [copyOut, hx, ih (by omega), window_succ hx]
    rfl

/-- What a copy that starts at `dst` may change: nothing before `dst`, and not the size. -/
structure KeepsBefore (dst : ℕ) (v v' : List α) : Prop where
  length_eq : v'.length = v.length
  getElem?_eq : ∀ i < dst, v'[i]? = v[i]?

theorem KeepsBefore.refl (dst : ℕ) (v : List α) : KeepsBefore dst v v := ⟨rfl, fun _ _ => rfl⟩

theorem KeepsBefore.of_set {dst : ℕ} {v v' : List α} {x : α}
    (h : KeepsBefore (dst + 1) (v.set dst x) v') : KeepsBefore dst v v' := by
  refine ⟨by simpa using h.length_eq, fun i hi => ?_⟩
  rw [h.getElem?_eq i (by omega), List.getElem?_set_ne (by omega)]

theorem KeepsBefore.window_eq {dst : ℕ} {v v' : List α} (h : KeepsBefore dst v v')
    {i n : ℕ} (hin : i + n ≤ dst) : window v' i n = window v i n := by
  apply List.ext_getElem?
  intro k
  simp only [window, List.getElem?_take, List.getElem?_drop]
  split
  · exact h.getElem?_eq _ (by omega)
  · rfl

/-- The element stored first stays where it is, since the copy goes on upwards. -/
theorem KeepsBefore.getElem?_set {dst : ℕ} {v v' : List α} {x : α} (hdst : dst < v.length)
    (h : KeepsBefore (dst + 1) (v.set dst x) v') : v'[dst]? = some x := by
  rw [h.getElem?_eq dst (by omega), List.getElem?_set_self hdst]

theorem copyIn_spec {xs : List α} {dst : ℕ} {v : List α} (h : dst + xs.length ≤ v.length) :
    ∃ v', copyIn xs dst v = some v' ∧ KeepsBefore dst v v' ∧ window v' dst xs.length = xs := by
  induction xs generalizing dst v with
  | nil => exact ⟨v, rfl, .refl dst v, by simp⟩
  | cons x xs ih =>
    simp only [List.length_cons] at h
    have hdst : dst < v.length := by omega
    have hroom : dst + 1 + xs.length ≤ (v.set dst x).length := by
      rw [List.length_set]
      omega
    obtain ⟨v', he, hk, hw⟩ := ih hroom
    refine ⟨v', by rw [copyIn, if_pos hdst, he], hk.of_set, ?_⟩
    rw [List.length_cons, window_succ (hk.getElem?_set hdst), hw]

/-- Copying down, or in place, moves the whole range even where source and target overlap. -/
theorem copyWithin_spec {n src dst : ℕ} {v : List α} (hle : dst ≤ src)
    (h : src + n ≤ v.length) :
    ∃ v', copyWithin n src dst v = some v' ∧ KeepsBefore dst v v' ∧
      window v' dst n = window v src n := by
  induction n generalizing src dst v with
  | zero => exact ⟨v, rfl, .refl dst v, by simp⟩
  | succ n ih =>
    have hsrc : src < v.length := by omega
    have hdst : dst < v.length := by omega
    have hx : v[src]? = some v[src] := List.getElem?_eq_getElem hsrc
    have hroom : src + 1 + n ≤ (v.set dst v[src]).length := by
      rw [List.length_set]
      omega
    obtain ⟨v', he, hk, hw⟩ := ih (Nat.succ_le_succ hle) hroom
    refine ⟨v', ?_, hk.of_set, ?_⟩
    · rw [copyWithin, hx]
      simpa only [Option.bind_eq_bind, Option.bind_some, if_pos hdst] using he
    · rw [window_succ (hk.getElem?_set hdst), hw, window_set_of_outside (by omega), window_succ hx]

theorem copyIn_length {xs : List α} {dst : ℕ} {v v' : List α} (h : copyIn xs dst v = some v') :
    v'.length = v.length := by
  induction xs generalizing dst v with
  | nil =>
    rw [copyIn, Option.some.injEq] at h
    rw [h]
  | cons x xs ih =>
    rw [copyIn] at h
    split at h
    · rw [ih h, List.length_set]
    · cases h

theorem copyWithin_length {n src dst : ℕ} {v v' : List α} (h : copyWithin n src dst v = some v') :
    v'.length = v.length := by
  induction n generalizing src dst v with
  | zero =>
    rw [copyWithin, Option.some.injEq] at h
    rw [h]
  | succ n ih =>
    simp only [copyWithin, Option.bind_eq_bind, Option.bind_eq_some_iff] at h
    obtain ⟨x, -, h⟩ := h
    split at h
    · rw [ih h, List.length_set]
    · cases h

@[simp] theorem resize_length (d : α) (n : ℕ) (v : List α) : (resize d n v).length = n := by
  simp only [resize, List.length_append, List.length_take, List.length_replicate]
  omega

theorem window_resize (d : α) {n : ℕ} {v : List α} {i m : ℕ} (hn : v.length ≤ n)
    (h : i + m ≤ v.length) : window (resize d n v) i m = window v i m := by
  rw [resize, List.take_of_length_le hn, window, List.drop_append_of_le_length (by omega),
    List.take_append_of_le_length (by simp only [List.length_drop]; omega), window]

end NcxTunnel.Storage
