import NcxTunnel.Runs
import NcxTunnel.Buffer

/-!
# A buffer is a queue of bytes

Runs of buffer operations from the constructor, compared with the same runs on
an unbounded queue.  The pointer that the `Until` operations take is given by
its distance from `beginRead()`.
-/

namespace NcxTunnel.Buffer

inductive Op where
  | appendCString (message : Bytes)
  | append (message : Bytes)
  | appendString (message : Bytes)
  | ensureWriteableBytes (len : ℕ)
  | peekAsString (len : ℕ)
  | peekAllAsString
  | retrieve (len : ℕ)
  | retrieveAll
  | retrieveAsString (len : ℕ)
  | retrieveAllAsString
  | retrieveUntil (k : ℕ)
  | retrieveUtilAsString (k : ℕ)

namespace Op

/-- The call on a buffer, with the string it returns (empty for the `void` ones). -/
def apply (b : Buffer) : Op → Option (Bytes × Buffer)
  | appendCString message => (b.appendCString message).map ([], ·)
  | append message => (b.append message).map ([], ·)
  | appendString message => (b.appendString message).map ([], ·)
  | ensureWriteableBytes len => (b.ensureWriteableBytes len).map ([], ·)
  | peekAsString len => (b.peekAsString len).map (·, b)
  | peekAllAsString => b.peekAllAsString.map (·, b)
  | retrieve len => (b.retrieve len).map ([], ·)
  | retrieveAll => some ([], b.retrieveAll)
  | retrieveAsString len => b.retrieveAsString len
  | retrieveAllAsString => b.retrieveAllAsString
  | retrieveUntil k => (b.retrieveUntil (b.readIndex + k)).map ([], ·)
  | retrieveUtilAsString k => b.retrieveUtilAsString (b.readIndex + k)

/-- What the caller has to respect: no `size_t` overflow where room is made, and
no more bytes taken or looked at than are readable. -/
def Pre (b : Buffer) : Op → Prop
  | appendCString message => b.writeIndex + (message.takeWhile (· != 0)).length + 8 < 2 ^ 64
  | append message => b.writeIndex + message.length + 8 < 2 ^ 64
  | appendString message => b.writeIndex + message.length + 8 < 2 ^ 64
  | ensureWriteableBytes len => b.writeIndex + len + 8 < 2 ^ 64
  | peekAsString len => len ≤ b.readAbleBytes
  | retrieve len => len ≤ b.readAbleBytes
  | retrieveAsString len => len ≤ b.readAbleBytes
  | retrieveUntil k => k ≤ b.readAbleBytes
  | retrieveUtilAsString k => k ≤ b.readAbleBytes
  | peekAllAsString => True
  | retrieveAll => True
  | retrieveAllAsString => True

def onQueue (q : Bytes) : Op → Bytes × Bytes
  | appendCString message => ([], q ++ message.takeWhile (· != 0))
  | append message => ([], q ++ message)
  | appendString message => ([], q ++ message)
  | ensureWriteableBytes _ => ([], q)
  | peekAsString len => (q.take len, q)
  | peekAllAsString => (q, q)
  | retrieve len => ([], q.drop len)
  | retrieveAll => ([], [])
  | retrieveAsString len => (q.take len, q.drop len)
  | retrieveAllAsString => (q, [])
  | retrieveUntil k => ([], q.drop k)
  | retrieveUtilAsString k => (q.take k, q.drop k)

end Op

/-- A run of buffer operations, with the strings returned. -/
def run : List Op → Buffer → Option (List Bytes × Buffer) := Runs.run Op.apply

/-- Every operation of the run respects its precondition when it is called. -/
def Admissible : List Op → Buffer → Prop := Runs.Admissible Op.apply Op.Pre

def queueRun : List Op → Bytes → List Bytes × Bytes := Runs.runTotal Op.onQueue

/-- The buffers a program can hold. -/
def Reachable (b : Buffer) : Prop := ∃ ops outs, Admissible ops new ∧ run ops new = some (outs, b)

theorem WellFormed.apply_spec {b : Buffer} (h : b.WellFormed) (op : Op) (hpre : op.Pre b) :
    ∃ out b', op.apply b = some (out, b') ∧ b'.WellFormed ∧
      op.onQueue b.contents = (out, b'.contents) := by
  have hlen : ∀ {k : ℕ}, k ≤ b.readAbleBytes → k ≤ b.contents.length :=
    fun hk => h.readAbleBytes_eq_length ▸ hk
  cases op with
  | appendCString message =>
    obtain ⟨b', he, hwf, hc⟩ := h.append_spec hpre
    exact ⟨[], b', by simp [Op.apply, appendCString, he], hwf, by simp [Op.onQueue, hc]⟩
  | append message =>
    obtain ⟨b', he, hwf, hc⟩ := h.append_spec hpre
    exact ⟨[], b', by simp [Op.apply, he], hwf, by simp [Op.onQueue, hc]⟩
  | appendString message =>
    obtain ⟨b', he, hwf, hc⟩ := h.append_spec hpre
    exact ⟨[], b', by simp [Op.apply, appendString, he], hwf, by simp [Op.onQueue, hc]⟩
  | ensureWriteableBytes len =>
    obtain ⟨b', he, hwf, hc, -⟩ := h.ensureWriteableBytes_spec hpre
    exact ⟨[], b', by simp [Op.apply, he], hwf, by simp [Op.onQueue, hc]⟩
  | peekAsString len =>
    exact ⟨_, b, by simp [Op.apply, h.peekAsString_eq (hlen hpre)], h, rfl⟩
  | peekAllAsString =>
    exact ⟨_, b, by simp [Op.apply, h.peekAllAsString_eq], h, rfl⟩
  | retrieve len =>
    obtain ⟨b', he, hwf, hc⟩ := h.retrieve_spec (hlen hpre)
    exact ⟨[], b', by simp [Op.apply, he], hwf, by simp [Op.onQueue, hc]⟩
  | retrieveAll =>
    exact ⟨[], _, rfl, h.retrieveAll_spec.1, by simp [Op.onQueue, h.retrieveAll_spec.2]⟩
  | retrieveAsString len =>
    obtain ⟨b', he, hwf, hc⟩ := h.retrieveAsString_spec (hlen hpre)
    exact ⟨_, b', he, hwf, by simp [Op.onQueue, hc]⟩
  | retrieveAllAsString =>
    exact ⟨_, _, h.retrieveAllAsString_spec, h.retrieveAll_spec.1,
      by simp [Op.onQueue, h.retrieveAll_spec.2]⟩
  | retrieveUntil k =>
    obtain ⟨b', he, hwf, hc⟩ := h.retrieveUntil_spec (hlen hpre)
    exact ⟨[], b', by simp [Op.apply, he], hwf, by simp [Op.onQueue, hc]⟩
  | retrieveUtilAsString k =>
    obtain ⟨b', he, hwf, hc⟩ := h.retrieveUtilAsString_spec (hlen hpre)
    exact ⟨_, b', he, hwf, by simp [Op.onQueue, hc]⟩

/-- The same for a call that is known to return. -/
theorem WellFormed.of_apply {b b' : Buffer} (h : b.WellFormed) {op : Op} {out : Bytes}
    (hpre : op.Pre b) (he : op.apply b = some (out, b')) :
    b'.WellFormed ∧ op.onQueue b.contents = (out, b'.contents) := by
  obtain ⟨out₁, b₁, he₁, hwf, hq⟩ := h.apply_spec op hpre
  rw [he, Option.some.injEq, Prod.mk.injEq] at he₁
  rw [he₁.1, he₁.2]
  exact ⟨hwf, hq⟩

theorem WellFormed.run_spec {b : Buffer} (h : b.WellFormed) {ops : List Op}
    (hadm : Admissible ops b) :
    ∃ outs b', run ops b = some (outs, b') ∧ b'.WellFormed ∧
      queueRun ops b.contents = (outs, b'.contents) :=
  Runs.run_simulates WellFormed contents Op.onQueue (fun _ op hwf hpre => hwf.apply_spec op hpre)
    h hadm

theorem Reachable.wellFormed {b : Buffer} (h : b.Reachable) : b.WellFormed := by
  obtain ⟨ops, outs, hadm, hrun⟩ := h
  obtain ⟨outs', b', he, hwf, -⟩ := new_wellFormed.run_spec hadm
  rw [hrun] at he
  simp only [Option.some.injEq, Prod.mk.injEq] at he
  exact he.2 ▸ hwf

/-- Along every admissible run from the constructor no access leaves the vector,
the indices stay ordered, and returned strings and readable bytes are those of
the queue. -/
theorem run_refines_queue (ops : List Op) (hadm : Admissible ops new) :
    ∀ done, done <+: ops → ∃ outs b, run done new = some (outs, b) ∧
      (kPrePendIndex ≤ b.readIndex ∧ b.readIndex ≤ b.writeIndex ∧
        b.writeIndex ≤ b.buffer.length) ∧
      queueRun done [] = (outs, b.contents) := by
  rintro done ⟨rest, rfl⟩
  obtain ⟨outs, b, he, hwf, hq⟩ := new_wellFormed.run_spec (Runs.Admissible.left hadm)
  rw [contents_new] at hq
  exact ⟨outs, b, he, ⟨hwf.prepend_le, hwf.read_le_write, hwf.write_le_size⟩, hq⟩

/-- Preconditions further on need only hold for buffers with the queue's content. -/
theorem WellFormed.admissible_cons {b : Buffer} (h : b.WellFormed) {op : Op} {ops : List Op}
    (hpre : op.Pre b)
    (hops : ∀ b' : Buffer, b'.WellFormed → b'.contents = (op.onQueue b.contents).2 →
      Admissible ops b') : Admissible (op :: ops) b := by
  refine ⟨hpre, fun out b' he => ?_⟩
  obtain ⟨hwf, hq⟩ := h.of_apply hpre he
  exact hops b' hwf (by rw [hq])

/-- A string with a terminator inside is appended, looked at and taken out. -/
theorem run_refines_queue_hello :
    Admissible [.appendCString [104, 105, 0, 33], .peekAsString 1, .retrieveAsString 2] new ∧
      ∃ outs b, run [.appendCString [104, 105, 0, 33], .peekAsString 1, .retrieveAsString 2] new =
        some (outs, b) ∧ outs = [[], [104], [104, 105]] ∧ b.contents = [] := by
  have hadm : Admissible [.appendCString [104, 105, 0, 33], .peekAsString 1, .retrieveAsString 2]
      new := by
    have hfit : 8 + 2 + 8 < 2 ^ 64 := by decide
    refine new_wellFormed.admissible_cons hfit fun b₁ h₁ hc₁ => ?_
    have hc₁ : b₁.contents = [104, 105] := by simpa [Op.onQueue] using hc₁
    refine h₁.admissible_cons (by simp [Op.Pre, h₁.readAbleBytes_eq_length, hc₁])
      fun b₂ h₂ hc₂ => ?_
    have hc₂ : b₂.contents = [104, 105] := by simpa [Op.onQueue, hc₁] using hc₂
    exact ⟨by simp [Op.Pre, h₂.readAbleBytes_eq_length, hc₂], fun _ _ _ => trivial⟩
  obtain ⟨outs, b, he, -, hq⟩ := run_refines_queue _ hadm _ List.prefix_rfl
  simp only [queueRun, Runs.runTotal, Op.onQueue, Prod.mk.injEq] at hq
  exact ⟨hadm, outs, b, he, hq.1.symm, hq.2.symm⟩

end NcxTunnel.Buffer
