import NcxTunnel.BufferQueue

/-!
# How large a buffer gets

`EnsureWriteableBytes` grows the vector to `write_index_ + len`, and
`write_index_` drifts upwards while bytes are taken from the front.  The vector
grows only if moving the readable bytes down would not make enough room, and
then `read_index_` is at most `len + 7`: so the new size is less than twice what
is readable once the bytes are in.
-/

namespace NcxTunnel.Buffer
open Storage

/-- `Append`, `Peek*` and `Retrieve*`: everything but a reservation on its own. -/
def Op.Moves : Op → Prop
  | ensureWriteableBytes _ => False
  | _ => True

/-- The size that a backlog of `m` bytes accounts for. -/
def backlogSize (m : ℕ) : ℕ := 8 + 2 * m

theorem backlogSize_mono : Monotone backlogSize := by
  intro m n hmn
  unfold backlogSize
  omega

variable {b b' : Buffer}

theorem WellFormed.ensureWriteableBytes_length (h : b.WellFormed) {len : ℕ}
    (hfit : b.writeIndex + len + 8 < 2 ^ 64) (he : b.ensureWriteableBytes len = some b') :
    b'.buffer.length ≤ max b.buffer.length (backlogSize (b.contents.length + len)) := by
  have hw := h.writeAbleBytes_eq
  have hl := h.contents_length
  obtain ⟨h1, h2, h3, h4⟩ := h
  unfold ensureWriteableBytes at he
  rw [hw, prependAbleBytes, kPrePendIndex, sizeT_of_lt (by omega : 8 + len < 2 ^ 64),
    sizeT_of_lt (by omega : b.buffer.length - b.writeIndex + b.readIndex < 2 ^ 64),
    sizeT_of_lt (by omega : b.writeIndex + len < 2 ^ 64)] at he
  split_ifs at he with hroom hcompact
  · cases he
    exact Nat.le_max_left _ _
  · simp only [Option.bind_eq_bind, Option.bind_eq_some_iff, Option.pure_def, Option.some.injEq] at he
    obtain ⟨v, hv, rfl⟩ := he
    change v.length ≤ _
    rw [copyWithin_length hv]
    exact Nat.le_max_left _ _
  -- growth: the test for moving down has failed, which bounds `read_index_`
  · cases he
    rw [resize_length, backlogSize]
    omega

theorem WellFormed.append_length (h : b.WellFormed) {message : Bytes}
    (hfit : b.writeIndex + message.length + 8 < 2 ^ 64) (he : b.append message = some b') :
    b'.buffer.length ≤ max b.buffer.length (backlogSize (b.contents.length + message.length)) := by
  simp only [append, Option.bind_eq_bind, Option.bind_eq_some_iff, Option.pure_def,
    Option.some.injEq] at he
  obtain ⟨b₁, he₁, v, hv, rfl⟩ := he
  change v.length ≤ _
  rw [copyIn_length hv]
  exact h.ensureWriteableBytes_length hfit he₁

/-- Taking bytes out changes the indices only. -/
theorem retrieve_buffer {len : ℕ} (he : b.retrieve len = some b') : b'.buffer = b.buffer := by
  unfold retrieve at he
  split_ifs at he <;> cases he <;> rfl

theorem retrieveUntil_buffer {stop : ℕ} (he : b.retrieveUntil stop = some b') :
    b'.buffer = b.buffer := by
  unfold retrieveUntil at he
  split_ifs at he
  cases he
  rfl

theorem retrieveAsString_buffer {len : ℕ} {out : Bytes}
    (he : b.retrieveAsString len = some (out, b')) : b'.buffer = b.buffer := by
  unfold retrieveAsString at he
  split_ifs at he
  simp only [Option.bind_eq_bind, Option.bind_eq_some_iff, Option.pure_def, Option.some.injEq,
    Prod.mk.injEq] at he
  obtain ⟨ret, -, b₁, hb₁, -, rfl⟩ := he
  exact retrieve_buffer hb₁

theorem retrieveUtilAsString_buffer {stop : ℕ} {out : Bytes}
    (he : b.retrieveUtilAsString stop = some (out, b')) : b'.buffer = b.buffer := by
  unfold retrieveUtilAsString at he
  split_ifs at he
  simp only [Option.bind_eq_bind, Option.bind_eq_some_iff, Option.pure_def, Option.some.injEq,
    Prod.mk.injEq] at he
  obtain ⟨ret, -, b₁, hb₁, -, rfl⟩ := he
  exact retrieveUntil_buffer hb₁

theorem retrieveAllAsString_buffer {out : Bytes} (he : b.retrieveAllAsString = some (out, b')) :
    b'.buffer = b.buffer := by
  simp only [retrieveAllAsString, Option.bind_eq_bind, Option.bind_eq_some_iff, Option.pure_def,
    Option.some.injEq, Prod.mk.injEq] at he
  obtain ⟨ret, -, -, rfl⟩ := he
  rfl

/-- One operation: the size stays, or the bytes appended account for it. -/
theorem WellFormed.apply_length (h : b.WellFormed) {op : Op} {out : Bytes} (hpre : op.Pre b)
    (hmoves : op.Moves) (he : op.apply b = some (out, b')) :
    b'.buffer.length ≤ max b.buffer.length (backlogSize b'.readAbleBytes) := by
  obtain ⟨hwf, hq⟩ := h.of_apply hpre he
  have hbacklog : (op.onQueue b.contents).2.length = b'.readAbleBytes := by
    rw [hq, hwf.readAbleBytes_eq_length]
  rw [← hbacklog]
  have hkeeps : b'.buffer = b.buffer →
      b'.buffer.length ≤ max b.buffer.length (backlogSize (op.onQueue b.contents).2.length) := by
    intro hsame
    rw [hsame]
    exact Nat.le_max_left _ _
  cases op with
  | ensureWriteableBytes len => exact hmoves.elim
  | appendCString message =>
    obtain ⟨b₂, he₂, ⟨⟩⟩ := Option.map_eq_some_iff.mp he
    simpa only [Op.onQueue, List.length_append] using h.append_length hpre he₂
  | append message =>
    obtain ⟨b₂, he₂, ⟨⟩⟩ := Option.map_eq_some_iff.mp he
    simpa only [Op.onQueue, List.length_append] using h.append_length hpre he₂
  | appendString message =>
    obtain ⟨b₂, he₂, ⟨⟩⟩ := Option.map_eq_some_iff.mp he
    simpa only [Op.onQueue, List.length_append] using h.append_length hpre he₂
  | peekAsString len =>
    obtain ⟨s, -, ⟨⟩⟩ := Option.map_eq_some_iff.mp he
    exact hkeeps rfl
  | peekAllAsString =>
    obtain ⟨s, -, ⟨⟩⟩ := Option.map_eq_some_iff.mp he
    exact hkeeps rfl
  | retrieve len =>
    obtain ⟨b₂, he₂, ⟨⟩⟩ := Option.map_eq_some_iff.mp he
    exact hkeeps (retrieve_buffer he₂)
  | retrieveAll =>
    cases he
    exact hkeeps rfl
  | retrieveAsString len => exact hkeeps (retrieveAsString_buffer he)
  | retrieveAllAsString => exact hkeeps (retrieveAllAsString_buffer he)
  | retrieveUntil k =>
    obtain ⟨b₂, he₂, ⟨⟩⟩ := Option.map_eq_some_iff.mp he
    exact hkeeps (retrieveUntil_buffer he₂)
  | retrieveUtilAsString k => exact hkeeps (retrieveUtilAsString_buffer he)

/-- The backlogs that a run has had so far, the one at its end included. -/
def backlogs (done : List Op) : Set ℕ :=
  {n | ∃ past outs b, past <+: done ∧ run past new = some (outs, b) ∧ b.readAbleBytes = n}

theorem new_length : new.buffer.length = 1024 := List.length_replicate

theorem run_length_le_peak {ops : List Op} (hadm : Admissible ops new)
    (hmoves : ∀ op ∈ ops, op.Moves) :
    ∃ outs b, run ops new = some (outs, b) ∧
      b.buffer.length ≤ max 1024 (backlogSize (Runs.peak Op.apply readAbleBytes ops new)) := by
  rw [← new_length]
  refine Runs.run_le_bound_peak WellFormed (fun b => b.buffer.length) readAbleBytes
    backlogSize_mono ?_ new_wellFormed (Runs.Admissible.and_forall hadm hmoves)
  rintro b op hwf ⟨hpre, hmoves⟩
  obtain ⟨out, b', he, hwf', -⟩ := hwf.apply_spec op hpre
  exact ⟨out, b', he, hwf', hwf.apply_length hpre hmoves he⟩

/-- At every point of a run the vector is no larger than `1024` or `8` plus twice
the largest backlog so far; a bound on the backlog bounds it for good. -/
theorem run_size_le_backlog (ops : List Op) (hadm : Admissible ops new)
    (hmoves : ∀ op ∈ ops, op.Moves) :
    ∀ done, done <+: ops → ∃ outs b, run done new = some (outs, b) ∧
      (∃ m, IsGreatest (backlogs done) m ∧ b.buffer.length ≤ max 1024 (8 + 2 * m)) ∧
      ∀ bound, (∀ n ∈ backlogs done, n ≤ bound) →
        b.buffer.length ≤ max 1024 (8 + 2 * bound) := by
  rintro done ⟨rest, rfl⟩
  have hdone : ∀ op ∈ done, op.Moves := fun op hop => hmoves op (List.mem_append_left rest hop)
  obtain ⟨outs, b, hrun, hle⟩ := run_length_le_peak (Runs.Admissible.left hadm) hdone
  have hpeak : IsGreatest (backlogs done) (Runs.peak Op.apply readAbleBytes done new) :=
    Runs.peak_isGreatest readAbleBytes hrun
  refine ⟨outs, b, hrun, ⟨_, hpeak, hle⟩, fun bound hbound => ?_⟩
  have hpeak_le := hbound _ hpeak.1
  unfold backlogSize at hle
  omega

theorem admissible_drift {m₁ m₂ : Bytes} (hm₁ : m₁.length = 600) (hm₂ : m₂.length = 1200) :
    Admissible [.append m₁, .retrieve 500, .append m₂] new := by
  have hfirst : Op.Pre new (.append m₁) := by
    change 8 + m₁.length + 8 < 2 ^ 64
    omega
  refine ⟨hfirst, fun out₁ b₁ he₁ => ?_⟩
  obtain ⟨h₁, hq₁⟩ := new_wellFormed.of_apply hfirst he₁
  have hread : b₁.readAbleBytes = 600 := by
    rw [contents_new, Op.onQueue, List.nil_append, Prod.mk.injEq] at hq₁
    rw [h₁.readAbleBytes_eq_length, ← hq₁.2, hm₁]
  have hsecond : Op.Pre b₁ (.retrieve 500) := by
    change 500 ≤ b₁.readAbleBytes
    omega
  refine ⟨hsecond, fun out₂ b₂ he₂ => ⟨?_, fun _ _ _ => trivial⟩⟩
  -- the vector is still small, so the indices are
  have hsize := new_wellFormed.apply_length hfirst trivial he₁
  have hwrite := (h₁.of_apply hsecond he₂).1.write_le_size
  obtain ⟨b₃, he₃, he₄⟩ := Option.map_eq_some_iff.mp he₂
  rw [Prod.mk.injEq] at he₄
  rw [← he₄.2, retrieve_buffer he₃] at hwrite
  rw [new_length, hread, backlogSize] at hsize
  change b₂.writeIndex + m₂.length + 8 < 2 ^ 64
  rw [← he₄.2]
  omega

/-- Six hundred bytes in, five hundred out, twelve hundred in. -/
theorem run_size_le_backlog_drift :
    let ops : List Op :=
      [.append (List.replicate 600 1), .retrieve 500, .append (List.replicate 1200 2)]
    Admissible ops new ∧ ∃ outs b, run ops new = some (outs, b) ∧
      ∃ m, IsGreatest (backlogs ops) m ∧ b.buffer.length ≤ max 1024 (8 + 2 * m) := by
  intro ops
  have hadm : Admissible ops new :=
    admissible_drift List.length_replicate List.length_replicate
  have hmoves : ∀ op ∈ ops, op.Moves := by
    simp only [ops, List.forall_mem_cons, Op.Moves, true_and]
    exact List.forall_mem_nil _
  obtain ⟨outs, b, hrun, hm, -⟩ := run_size_le_backlog ops hadm hmoves ops List.prefix_rfl
  exact ⟨hadm, outs, b, hrun, hm⟩

end NcxTunnel.Buffer
