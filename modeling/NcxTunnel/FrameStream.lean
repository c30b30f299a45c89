import NcxTunnel.Framing

/-!
# Frames through a buffer, in any chunks

A stream of frames arrives in chunks that need not respect the frame
boundaries.  Appending the chunks and attempting to read a message come in any
order.
-/

namespace NcxTunnel

inductive FrameEvent where
  | chunk (c : Bytes)
  | attempt

namespace FrameEvent

def apply (b : Buffer) : FrameEvent → Option (Option Bytes × Buffer)
  | chunk c => (b.append c).map (none, ·)
  | attempt => NcxTunnel.attempt b

/-- Appending must not overflow `size_t`. -/
def Pre (b : Buffer) : FrameEvent → Prop
  | chunk c => b.writeIndex + c.length + 8 < 2 ^ 64
  | attempt => True

def onQueue (q : Bytes) : FrameEvent → Option Bytes × Bytes
  | chunk c => (none, q ++ c)
  | attempt => attemptBytes q

def bytes : FrameEvent → Bytes
  | chunk c => c
  | attempt => []

end FrameEvent

def received (evs : List FrameEvent) : Bytes := evs.flatMap FrameEvent.bytes

/-- The payloads that attempts have yielded, in order. -/
def yields (outs : List (Option Bytes)) : List Bytes := outs.filterMap id

/-- Repeat the attempt until it returns nothing; `none` if `fuel` attempts are not enough. -/
def drain : ℕ → Buffer → Option (List Bytes × Buffer)
  | 0, _ => none
  | fuel + 1, b => do
      let (out, b) ← attempt b
      match out with
      | none => return ([], b)
      | some p =>
          let (ps, b) ← drain fuel b
          return (p :: ps, b)

@[simp] theorem received_chunk (c : Bytes) (evs : List FrameEvent) :
    received (.chunk c :: evs) = c ++ received evs := rfl

@[simp] theorem received_attempt (evs : List FrameEvent) :
    received (.attempt :: evs) = received evs := rfl

theorem FrameEvent.apply_spec {b : Buffer} (h : b.WellFormed) (ev : FrameEvent) (hpre : ev.Pre b) :
    ∃ out b', ev.apply b = some (out, b') ∧ b'.WellFormed ∧
      ev.onQueue b.contents = (out, b'.contents) := by
  cases ev with
  | chunk c =>
    obtain ⟨b', he, hwf, hc⟩ := h.append_spec hpre
    exact ⟨none, b', by simp [FrameEvent.apply, he], hwf, by simp [FrameEvent.onQueue, hc]⟩
  | attempt => exact attempt_spec h

/-- On the readable bytes: whatever part of the stream has arrived, the payloads
yielded are the first ones, and the frames of the others are still to come. -/
theorem runTotal_yields {evs : List FrameEvent} {ps : List Bytes} (hps : ∀ p ∈ ps, Frameable p)
    {q rest : Bytes} (h : q ++ (received evs ++ rest) = frames ps) :
    ∃ ps', yields (Runs.runTotal FrameEvent.onQueue evs q).1 ++ ps' = ps ∧
      (Runs.runTotal FrameEvent.onQueue evs q).2 ++ rest = frames ps' := by
  -- on the events; what is buffered and what is still to come make up the frames left
  induction evs generalizing ps q with
  | nil => exact ⟨ps, rfl, by simpa [received, Runs.runTotal] using h⟩
  | cons ev evs ih =>
    cases ev with
    | chunk c =>
      obtain ⟨ps', hy, hq⟩ := ih hps (q := q ++ c) (by simpa using h)
      exact ⟨ps', by simpa [Runs.runTotal, FrameEvent.onQueue, yields] using hy, hq⟩
    | attempt =>
      rw [received_attempt] at h
      rcases attemptBytes_of_prefix hps h with ⟨ha, -⟩ | ⟨p, ps₁, q', rfl, ha, hq'⟩
      · obtain ⟨ps', hy, hq⟩ := ih hps h
        exact ⟨ps', by simpa [Runs.runTotal, FrameEvent.onQueue, ha, yields] using hy,
          by simpa [Runs.runTotal, FrameEvent.onQueue, ha] using hq⟩
      · obtain ⟨ps', hy, hq⟩ := ih (fun p hp => hps p (List.mem_cons_of_mem _ hp)) hq'
        exact ⟨ps', by simpa [Runs.runTotal, FrameEvent.onQueue, ha, yields] using hy,
          by simpa [Runs.runTotal, FrameEvent.onQueue, ha] using hq⟩

/-- Once all frames are in the buffer, draining gives their payloads and empties it. -/
theorem drain_spec {ps : List Bytes} (hps : ∀ p ∈ ps, Frameable p) {b : Buffer}
    (h : b.WellFormed) (hc : b.contents = frames ps) {fuel : ℕ} (hfuel : ps.length < fuel) :
    ∃ b', drain fuel b = some (ps, b') ∧ b'.contents = [] := by
  induction ps generalizing b fuel with
  | nil =>
    obtain ⟨fuel, rfl⟩ := Nat.exists_eq_add_of_lt hfuel
    obtain ⟨out, b', he, -, hq⟩ := attempt_spec h
    rw [hc, frames_nil, attemptBytes_nil, Prod.mk.injEq] at hq
    exact ⟨b', by simp [drain, he, ← hq.1], hq.2.symm⟩
  | cons p ps ih =>
    obtain ⟨fuel, rfl⟩ := Nat.exists_eq_add_of_lt hfuel
    have hp := hps p List.mem_cons_self
    obtain ⟨out, b₁, he, hwf, hq⟩ := attempt_spec h
    rw [hc, frames_cons, hp.attemptBytes_frame, Prod.mk.injEq] at hq
    have hfuel' : ps.length < ps.length + 1 + fuel := by omega
    obtain ⟨b₂, hd, hc₂⟩ :=
      ih (fun p hp => hps p (List.mem_cons_of_mem _ hp)) hwf hq.2.symm hfuel'
    refine ⟨b₂, ?_, hc₂⟩
    rw [List.length_cons, drain, he, ← hq.1]
    simp [hd]

/-- Round trip: payloads framed by `HeaderInstaller` and sent through a buffer
come out unaltered and in order, however the stream is cut and whenever the
reader tries; a try that yields nothing leaves the readable bytes alone; and once
everything has arrived, trying until nothing comes yields the rest. -/
theorem framing_round_trip (ps : List Bytes) (hps : ∀ p ∈ ps, p ≠ [] ∧ p.length < 2 ^ 32)
    (b₀ : Buffer) (hreach : b₀.Reachable) (hempty : b₀.contents = []) (evs : List FrameEvent)
    (hevs : received evs <+: (ps.map headerInstaller).flatten)
    (hadm : Runs.Admissible FrameEvent.apply FrameEvent.Pre evs b₀) :
    ∃ outs b, Runs.run FrameEvent.apply evs b₀ = some (outs, b) ∧ yields outs <+: ps ∧
      (∃ out b', attempt b = some (out, b') ∧ (out = none → b'.contents = b.contents)) ∧
      (received evs = (ps.map headerInstaller).flatten → ∀ fuel, ps.length < fuel →
        ∃ left b', drain fuel b = some (left, b') ∧ yields outs ++ left = ps ∧
          b'.contents = []) := by
  have hps' : ∀ p ∈ ps, Frameable p := fun p hp => ⟨(hps p hp).1, (hps p hp).2⟩
  obtain ⟨outs, b, hrun, hwf, hspec⟩ := Runs.run_simulates Buffer.WellFormed Buffer.contents
    FrameEvent.onQueue (fun _ ev hwf hpre => ev.apply_spec hwf hpre) hreach.wellFormed hadm
  obtain ⟨rest, hrest⟩ := hevs
  have hstream : b₀.contents ++ (received evs ++ rest) = frames ps := by
    rw [hempty]
    exact hrest
  obtain ⟨ps', hy, hq⟩ := runTotal_yields hps' hstream
  rw [hspec] at hy hq
  have hps'' : ∀ p ∈ ps', Frameable p :=
    fun p hp => hps' p (hy ▸ List.mem_append_right _ hp)
  refine ⟨outs, b, hrun, ⟨ps', hy⟩, ?_, ?_⟩
  · obtain ⟨out, b', he, -, hab⟩ := attempt_spec hwf
    refine ⟨out, b', he, ?_⟩
    rintro rfl
    rcases attemptBytes_of_prefix hps'' hq with ⟨ha, -⟩ | ⟨p, _, _, -, ha, -⟩
    · rw [hab, Prod.mk.injEq] at ha
      exact ha.2
    · rw [hab, Prod.mk.injEq] at ha
      cases ha.1
  · intro hall fuel hfuel
    have hnil : rest = [] := by
      rw [hall] at hrest
      simpa using hrest
    rw [hnil, List.append_nil] at hq
    have hlen : ps'.length < fuel := by
      have := congrArg List.length hy
      rw [List.length_append] at this
      omega
    obtain ⟨b', hd, hc'⟩ := drain_spec hps'' hwf hq hlen
    exact ⟨ps', b', hd, hy, hc'⟩

/-- Two frames arriving in one chunk: one attempt yields the first payload, draining the other. -/
theorem framing_round_trip_coalesced :
    ∃ outs b, Runs.run FrameEvent.apply
        [.chunk [0x0D, 2, 0, 0, 0, 7, 8, 0x0D, 1, 0, 0, 0, 9], .attempt] Buffer.new =
          some (outs, b) ∧
      ∃ left b', drain 3 b = some (left, b') ∧ yields outs ++ left = [[7, 8], [9]] ∧
        b'.contents = [] := by
  have hfit : 8 + 13 + 8 < 2 ^ 64 := by decide
  obtain ⟨outs, b, hrun, -, -, hall⟩ := framing_round_trip [[7, 8], [9]] (by simp) Buffer.new
    ⟨[], [], trivial, rfl⟩ Buffer.contents_new
    [.chunk [0x0D, 2, 0, 0, 0, 7, 8, 0x0D, 1, 0, 0, 0, 9], .attempt]
    ⟨[], by decide⟩ ⟨hfit, fun _ _ _ => ⟨trivial, fun _ _ _ => trivial⟩⟩
  exact ⟨outs, b, hrun, hall (by decide) 3 (by decide)⟩

end NcxTunnel
