import Mathlib

/-!
# Bytes in flight

One side of a connection has sent a stream, the other has read the first `read`
items of it and still holds some of these in a buffer.  A read takes any number
of the items that are on their way.
-/

namespace NcxTunnel.Streams

variable {α : Type*}

/-- The next items of a stream, at most `k` of them. -/
def arriving (sent : List α) (read k : ℕ) : List α := (sent.drop read).take k

/-- What the reader has not handled yet: its buffer, then what is on the way. -/
def unhandled (buf sent : List α) (read : ℕ) : List α := buf ++ sent.drop read

variable (buf sent : List α) {read : ℕ} (k : ℕ)

@[simp] theorem arriving_nil (read : ℕ) : arriving ([] : List α) read k = [] := by
  simp [arriving]

theorem read_add_length_arriving_le (h : read ≤ sent.length) :
    read + (arriving sent read k).length ≤ sent.length := by
  simp only [arriving, List.length_take, List.length_drop]
  omega

theorem drop_read_arriving : arriving sent read k ++
    sent.drop (read + (arriving sent read k).length) = sent.drop read := by
  rw [← List.drop_drop, arriving, List.length_take]
  by_cases h : k ≤ (sent.drop read).length
  · rw [Nat.min_eq_left h, List.take_append_drop]
  · have hle : (sent.drop read).length ≤ k := by omega
    rw [Nat.min_eq_right hle, List.take_of_length_le hle, List.drop_length, List.append_nil]

/-- A read adds to the part of the stream that has been read. -/
theorem take_read_arriving (read : ℕ) :
    sent.take (read + (arriving sent read k).length) = sent.take read ++ arriving sent read k := by
  have hparts : sent.take (read + (arriving sent read k).length) ++
      sent.drop (read + (arriving sent read k).length) =
      (sent.take read ++ arriving sent read k) ++
        sent.drop (read + (arriving sent read k).length) := by
    rw [List.take_append_drop, List.append_assoc, drop_read_arriving, List.take_append_drop]
  exact List.append_cancel_right hparts

/-- A read moves items into the buffer and handles none of them. -/
theorem unhandled_arriving :
    unhandled (buf ++ arriving sent read k) sent (read + (arriving sent read k).length) =
      unhandled buf sent read := by
  rw [unhandled, unhandled, List.append_assoc, drop_read_arriving]

theorem unhandled_append (h : read ≤ sent.length) (more : List α) :
    unhandled buf (sent ++ more) read = unhandled buf sent read ++ more := by
  rw [unhandled, unhandled, List.drop_append_of_le_length h, List.append_assoc]

/-- Once everything has been read only the buffer is left. -/
theorem unhandled_length : unhandled buf sent sent.length = buf := by
  rw [unhandled, List.drop_length, List.append_nil]

end NcxTunnel.Streams
