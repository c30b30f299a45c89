import Mathlib

/-!
# A switchboard

Desks are opened on behalf of a party and callers arrive at them.  A party that
asks for it is joined with the caller that has waited longest at a desk, and from
then on each of the two is sent what the other one says.  Nothing is said about
lines that go down: a switchboard only moves items from one line to another.
-/

namespace NcxTunnel.Switchboard

/-- What is done with the items that come in on a line. -/
inductive Mode (ι : Type*) where
  | queued
  | greeting
  | joined (peer : ι)

structure Line (ι κ α : Type*) where
  desk : Option κ
  mode : Mode ι
  /-- some desk belongs to this party -/
  isControl : Bool
  received : List α
  /-- the end of `received` that has not been used yet -/
  input : List α
  sent : List α

structure Desk (ι : Type*) where
  control : ι
  waiting : List ι
  /-- all callers, oldest first -/
  accepted : List ι
  /-- caller and party of every join, oldest first -/
  joined : List (ι × ι)

@[ext] structure Board (ι κ α : Type*) where
  lines : ι → Option (Line ι κ α)
  desks : κ → Option (Desk ι)

/-- The messages of a switchboard. -/
structure Messages (κ α : Type*) where
  Asks : κ → List α → Prop
  Skips : List α → Prop
  Answers : List α → Prop
  /-- to the owner of a desk, for every caller -/
  create : List α
  /-- to the party that is joined -/
  start : List α

variable {ι κ α : Type*}

def Line.caller (k : κ) : Line ι κ α := ⟨some k, .queued, false, [], [], []⟩

def Line.agent : Line ι κ α := ⟨none, .greeting, false, [], [], []⟩

def Line.say (msg : List α) (l : Line ι κ α) : Line ι κ α := { l with sent := l.sent ++ msg }

def Line.receive (xs : List α) (l : Line ι κ α) : Line ι κ α :=
  { l with received := l.received ++ xs, input := l.input ++ xs }

def Line.keep (xs : List α) (l : Line ι κ α) : Line ι κ α := { l with input := xs }

def Line.setMode (m : Mode ι) (l : Line ι κ α) : Line ι κ α := { l with mode := m }

def Line.own (l : Line ι κ α) : Line ι κ α := { l with isControl := true }

def Desk.arrive (o : ι) (dk : Desk ι) : Desk ι :=
  { dk with waiting := dk.waiting ++ [o], accepted := dk.accepted ++ [o] }

def Desk.join (v d : ι) (rest : List ι) (dk : Desk ι) : Desk ι :=
  { dk with waiting := rest, joined := dk.joined ++ [(v, d)] }

namespace Board

section Lines

variable [DecidableEq ι] (b : Board ι κ α)

def setLine (o : ι) (l : Line ι κ α) : Board ι κ α :=
  { b with lines := Function.update b.lines o (some l) }

def modifyLine (o : ι) (f : Line ι κ α → Line ι κ α) : Board ι κ α :=
  { b with lines := Function.update b.lines o ((b.lines o).map f) }

/-- All input of `o`, which is `xs`, goes to `p`. -/
def pass (o p : ι) (xs : List α) : Board ι κ α :=
  (b.modifyLine o (.keep [])).modifyLine p (.say xs)

theorem setLine_lines (o p : ι) (l : Line ι κ α) :
    (b.setLine o l).lines p = if p = o then some l else b.lines p := by
  simp [setLine, Function.update_apply]

theorem modifyLine_lines (o p : ι) (f : Line ι κ α → Line ι κ α) :
    (b.modifyLine o f).lines p = (b.lines p).map fun l => if p = o then f l else l := by
  by_cases hp : p = o
  · subst hp
    simp [modifyLine]
  · simp [modifyLine, hp]

@[simp] theorem setLine_desks (o : ι) (l : Line ι κ α) : (b.setLine o l).desks = b.desks := rfl

@[simp] theorem modifyLine_desks (o : ι) (f : Line ι κ α → Line ι κ α) :
    (b.modifyLine o f).desks = b.desks := rfl

end Lines

section Desks

variable [DecidableEq κ] (b : Board ι κ α)

def setDesk (k : κ) (dk : Desk ι) : Board ι κ α :=
  { b with desks := Function.update b.desks k (some dk) }

theorem setDesk_desks (k m : κ) (dk : Desk ι) :
    (b.setDesk k dk).desks m = if m = k then some dk else b.desks m := by
  simp [setDesk, Function.update_apply]

@[simp] theorem setDesk_lines (k : κ) (dk : Desk ι) : (b.setDesk k dk).lines = b.lines := rfl

end Desks

variable [DecidableEq ι] [DecidableEq κ]

def arrive (b : Board ι κ α) (msgs : Messages κ α) (k : κ) (dk : Desk ι) (o : ι) : Board ι κ α :=
  ((b.setLine o (.caller k)).setDesk k (dk.arrive o)).modifyLine dk.control (.say msgs.create)

def openDesk (b : Board ι κ α) (k : κ) (o : ι) : Board ι κ α :=
  (b.modifyLine o .own).setDesk k ⟨o, [], [], []⟩

def join (b : Board ι κ α) (msgs : Messages κ α) (k : κ) (dk : Desk ι) (v d : ι) (rest : List ι)
    (left : List α) : Board ι κ α :=
  ((b.modifyLine v (.setMode (.joined d))).modifyLine d fun l =>
    ((l.keep left).setMode (.joined v)).say msgs.start).setDesk k (dk.join v d rest)

/-- What can happen. -/
inductive Move (msgs : Messages κ α) : Board ι κ α → Board ι κ α → Prop
  | connect {b : Board ι κ α} (o : ι) : b.lines o = none → Move msgs b (b.setLine o .agent)
  | arrive {b : Board ι κ α} (k : κ) (dk : Desk ι) (o : ι) : b.lines o = none →
      b.desks k = some dk → Move msgs b (b.arrive msgs k dk o)
  | receive {b : Board ι κ α} (o : ι) (xs : List α) : Move msgs b (b.modifyLine o (.receive xs))
  | skip {b : Board ι κ α} (o : ι) (l : Line ι κ α) (used left : List α) : b.lines o = some l →
      l.mode = .greeting → l.input = used ++ left → msgs.Skips used →
      Move msgs b (b.modifyLine o (.keep left))
  | answer {b : Board ι κ α} (o : ι) (l : Line ι κ α) (msg : List α) : b.lines o = some l →
      l.mode = .greeting → l.received ≠ l.input → msgs.Answers msg →
      Move msgs b (b.modifyLine o (.say msg))
  | openDesk {b : Board ι κ α} (k : κ) (o : ι) (l : Line ι κ α) : b.lines o = some l →
      l.mode = .greeting → l.received ≠ l.input → b.desks k = none → Move msgs b (b.openDesk k o)
  | join {b : Board ι κ α} (k : κ) (dk : Desk ι) (v d : ι) (rest : List ι) (l : Line ι κ α)
      (hello left : List α) : b.desks k = some dk → dk.waiting = v :: rest → b.lines d = some l →
      l.mode = .greeting → l.input = hello ++ left → msgs.Asks k hello →
      Move msgs b (b.join msgs k dk v d rest left)
  | pass {b : Board ι κ α} (o p : ι) (l : Line ι κ α) : b.lines o = some l →
      l.mode = .joined p → Move msgs b (b.pass o p l.input)

end Board

/-! ## What holds of a switchboard -/

/-- A caller that waits has been sent nothing, and all it has said is kept. -/
structure Line.Waits (k : κ) (l : Line ι κ α) : Prop where
  desk_eq : l.desk = some k
  mode_eq : l.mode = .queued
  sent_eq : l.sent = []
  input_eq : l.input = l.received

/-- A party that has not been joined. -/
structure Line.Greets (msgs : Messages κ α) (l : Line ι κ α) : Prop where
  desk_eq : l.desk = none
  mode_eq : l.mode = .greeting
  received_eq : ∃ skipped : List (List α), (∀ x ∈ skipped, msgs.Skips x) ∧
    l.received = skipped.flatten ++ l.input
  sent_eq : l.isControl = false → ∃ as : List (List α), (∀ x ∈ as, msgs.Answers x) ∧
    l.sent = as.flatten
  untouched : l.received = l.input → l.isControl = false ∧ l.sent = []

/-- What was said on the two lines of a join.  Behind the request, all that the party
says is sent to the caller; behind the start message, the party is sent all that the
caller says. -/
structure Streams (msgs : Messages κ α) (k : κ) (lv ld : Line ι κ α) (skipped : List (List α))
    (hello passed : List α) : Prop where
  skips : ∀ x ∈ skipped, msgs.Skips x
  asks : msgs.Asks k hello
  outward : ld.received = skipped.flatten ++ hello ++ lv.sent ++ ld.input
  inward : lv.received = passed ++ lv.input
  sent_eq : ld.isControl = false → ∃ as : List (List α), (∀ x ∈ as, msgs.Answers x) ∧
    ld.sent = as.flatten ++ msgs.start ++ passed
  direct : skipped.flatten = [] → ld.isControl = false ∧ ld.sent = msgs.start ++ passed

/-- The two ends of a join. -/
structure Ends (msgs : Messages κ α) (k : κ) (v d : ι) (lv ld : Line ι κ α) : Prop where
  desk_left : lv.desk = some k
  desk_right : ld.desk = none
  mode_left : lv.mode = .joined d
  mode_right : ld.mode = .joined v
  streams : ∃ skipped hello passed, Streams msgs k lv ld skipped hello passed

structure DeskOk (msgs : Messages κ α) (b : Board ι κ α) (k : κ) (dk : Desk ι) : Prop where
  accepted_eq : dk.accepted = dk.joined.map Prod.fst ++ dk.waiting
  nodup : dk.accepted.Nodup
  control : ∃ l, b.lines dk.control = some l ∧ l.desk = none ∧ l.isControl = true
  waiting : ∀ v ∈ dk.waiting, ∃ l, b.lines v = some l ∧ l.Waits k
  joined : ∀ v d, (v, d) ∈ dk.joined →
    ∃ lv ld, b.lines v = some lv ∧ b.lines d = some ld ∧ Ends msgs k v d lv ld

/-- The line is where its mode says. -/
inductive LineOk (msgs : Messages κ α) (b : Board ι κ α) (o : ι) (l : Line ι κ α) : Prop
  | waits (k : κ) (dk : Desk ι) : b.desks k = some dk → o ∈ dk.waiting → LineOk msgs b o l
  | greets : l.Greets msgs → LineOk msgs b o l
  | calls (k : κ) (dk : Desk ι) (p : ι) : b.desks k = some dk → (o, p) ∈ dk.joined →
      LineOk msgs b o l
  | answers (k : κ) (dk : Desk ι) (p : ι) : b.desks k = some dk → (p, o) ∈ dk.joined →
      LineOk msgs b o l

structure Inv (msgs : Messages κ α) (b : Board ι κ α) : Prop where
  desk_ok : ∀ k dk, b.desks k = some dk → DeskOk msgs b k dk
  line_ok : ∀ o l, b.lines o = some l → LineOk msgs b o l

section Inv

variable {msgs : Messages κ α} {b b' : Board ι κ α} {k : κ} {dk : Desk ι}

/-- Every caller of a desk has a line that says so. -/
theorem DeskOk.mem_accepted (h : DeskOk msgs b k dk) {v : ι} (hv : v ∈ dk.accepted) :
    ∃ l, b.lines v = some l ∧ l.desk = some k := by
  rw [h.accepted_eq, List.mem_append, List.mem_map] at hv
  obtain ⟨⟨w, d⟩, hvd, rfl⟩ | hv := hv
  · obtain ⟨lv, ld, hlv, hld, hends⟩ := h.joined w d hvd
    exact ⟨lv, hlv, hends.desk_left⟩
  · obtain ⟨l, hl, hw⟩ := h.waiting v hv
    exact ⟨l, hl, hw.desk_eq⟩

/-- A desk stays in order if the lines of its parties change in a way that suits it. -/
theorem DeskOk.map (h : DeskOk msgs b k dk) (g : ι → Line ι κ α → Line ι κ α)
    (hlines : ∀ p l, b.lines p = some l → b'.lines p = some (g p l))
    (hcontrol : ∀ p l, l.desk = none → l.isControl = true →
      (g p l).desk = none ∧ (g p l).isControl = true)
    (hwaits : ∀ v l, v ∈ dk.waiting → b.lines v = some l → l.Waits k → (g v l).Waits k)
    (hends : ∀ v d lv ld, (v, d) ∈ dk.joined → b.lines v = some lv → b.lines d = some ld →
      Ends msgs k v d lv ld → Ends msgs k v d (g v lv) (g d ld)) : DeskOk msgs b' k dk where
  accepted_eq := h.accepted_eq
  nodup := h.nodup
  control := by
    obtain ⟨l, hl, hdesk, hctl⟩ := h.control
    exact ⟨_, hlines _ l hl, hcontrol _ l hdesk hctl⟩
  waiting v hv := by
    obtain ⟨l, hl, hw⟩ := h.waiting v hv
    exact ⟨_, hlines v l hl, hwaits v l hv hl hw⟩
  joined v d hvd := by
    obtain ⟨lv, ld, hlv, hld, he⟩ := h.joined v d hvd
    exact ⟨_, _, hlines v lv hlv, hlines d ld hld, hends v d lv ld hvd hlv hld he⟩

/-- Every party of the desk is still there, at most further on. -/
structure Desk.Before (dk dk' : Desk ι) : Prop where
  waiting : ∀ v ∈ dk.waiting, v ∈ dk'.waiting ∨ ∃ d, (v, d) ∈ dk'.joined
  joined : ∀ e ∈ dk.joined, e ∈ dk'.joined

theorem Desk.Before.refl (dk : Desk ι) : dk.Before dk := ⟨fun _ h => .inl h, fun _ h => h⟩

theorem LineOk.map {o : ι} {l l' : Line ι κ α} (h : LineOk msgs b o l)
    (hdesks : ∀ k dk, b.desks k = some dk → ∃ dk', b'.desks k = some dk' ∧ dk.Before dk')
    (hgreets : l.Greets msgs → LineOk msgs b' o l') : LineOk msgs b' o l' := by
  cases h with
  | waits k dk hdk ho =>
    obtain ⟨dk', hdk', hbefore⟩ := hdesks k dk hdk
    obtain ho' | ⟨d, ho'⟩ := hbefore.waiting o ho
    · exact .waits k dk' hdk' ho'
    · exact .calls k dk' d hdk' ho'
  | greets hl => exact hgreets hl
  | calls k dk p hdk ho =>
    obtain ⟨dk', hdk', hbefore⟩ := hdesks k dk hdk
    exact .calls k dk' p hdk' (hbefore.joined _ ho)
  | answers k dk p hdk ho =>
    obtain ⟨dk', hdk', hbefore⟩ := hdesks k dk hdk
    exact .answers k dk' p hdk' (hbefore.joined _ ho)

theorem Ends.ne {v d : ι} {lv ld : Line ι κ α} (h : Ends msgs k v d lv ld)
    (hlv : b.lines v = some lv) (hld : b.lines d = some ld) : v ≠ d := by
  rintro rfl
  rw [hlv, Option.some.injEq] at hld
  have hdesk := h.desk_left
  rw [hld, h.desk_right] at hdesk
  cases hdesk

/-- The lines change and the desks do not. -/
theorem Inv.map (h : Inv msgs b) (g : ι → Line ι κ α → Line ι κ α)
    (hlines : ∀ p, b'.lines p = (b.lines p).map (g p)) (hdesks : b'.desks = b.desks)
    (hcontrol : ∀ p l, l.desk = none → l.isControl = true →
      (g p l).desk = none ∧ (g p l).isControl = true)
    (hwaits : ∀ k v l, b.lines v = some l → l.Waits k → (g v l).Waits k)
    (hgreets : ∀ o l, b.lines o = some l → l.Greets msgs → (g o l).Greets msgs)
    (hends : ∀ k v d lv ld, b.lines v = some lv → b.lines d = some ld →
      Ends msgs k v d lv ld → Ends msgs k v d (g v lv) (g d ld)) : Inv msgs b' where
  desk_ok k dk hdk := by
    rw [hdesks] at hdk
    refine (h.desk_ok k dk hdk).map g (fun p l hl => ?_) hcontrol (fun v l _ => hwaits k v l)
      (fun v d lv ld _ => hends k v d lv ld)
    rw [hlines, hl, Option.map_some]
  line_ok o l' hl' := by
    rw [hlines, Option.map_eq_some_iff] at hl'
    obtain ⟨l, hl, rfl⟩ := hl'
    refine (h.line_ok o l hl).map (fun k dk hdk => ⟨dk, ?_, .refl dk⟩) fun hg =>
      .greets (hgreets o l hl hg)
    rw [hdesks, hdk]

/-- One line changes. -/
theorem Inv.modifyLine [DecidableEq ι] (h : Inv msgs b) {o : ι} {f : Line ι κ α → Line ι κ α}
    (hcontrol : ∀ l, l.desk = none → l.isControl = true →
      (f l).desk = none ∧ (f l).isControl = true)
    (hwaits : ∀ k l, b.lines o = some l → l.Waits k → (f l).Waits k)
    (hgreets : ∀ l, b.lines o = some l → l.Greets msgs → (f l).Greets msgs)
    (hleft : ∀ k d lv ld, b.lines o = some lv → Ends msgs k o d lv ld → Ends msgs k o d (f lv) ld)
    (hright : ∀ k v lv ld, b.lines o = some ld → Ends msgs k v o lv ld →
      Ends msgs k v o lv (f ld)) : Inv msgs (b.modifyLine o f) := by
  refine h.map (fun p l => if p = o then f l else l) (fun p => b.modifyLine_lines o p f) rfl
    (fun p l hdesk hctl => ?_) (fun k v l hl hw => ?_) (fun p l hl hg => ?_)
    (fun k v d lv ld hlv hld he => ?_)
  · split
    · exact hcontrol l hdesk hctl
    · exact ⟨hdesk, hctl⟩
  · split
    · rename_i hv
      exact hwaits k l (hv ▸ hl) hw
    · exact hw
  · split
    · rename_i hp
      exact hgreets l (hp ▸ hl) hg
    · exact hg
  · have hne := he.ne hlv hld
    split
    · rename_i hv
      subst hv
      rw [if_neg (Ne.symm hne)]
      exact hleft k d lv ld hlv he
    · split
      · rename_i hd
        subst hd
        exact hright k v lv ld hld he
      · exact he

variable [DecidableEq ι]

theorem Inv.receive (h : Inv msgs b) (o : ι) (xs : List α) :
    Inv msgs (b.modifyLine o (.receive xs)) := by
  refine h.modifyLine (fun l hdesk hctl => ⟨hdesk, hctl⟩) (fun k l _ hw => ?_) (fun l _ hg => ?_)
    (fun k d lv ld _ he => ?_) (fun k v lv ld _ he => ?_)
  · exact ⟨hw.desk_eq, hw.mode_eq, hw.sent_eq, congrArg (· ++ xs) hw.input_eq⟩
  · obtain ⟨skipped, hskips, hreceived⟩ := hg.received_eq
    refine ⟨hg.desk_eq, hg.mode_eq, ⟨skipped, hskips, ?_⟩, hg.sent_eq, fun heq => ?_⟩
    · simp only [Line.receive, hreceived, List.append_assoc]
    · exact hg.untouched (List.append_cancel_right heq)
  · obtain ⟨skipped, hello, passed, hs⟩ := he.streams
    refine { he with streams := ⟨skipped, hello, passed, { hs with inward := ?_ }⟩ }
    simp only [Line.receive, hs.inward, List.append_assoc]
  · obtain ⟨skipped, hello, passed, hs⟩ := he.streams
    refine { he with streams := ⟨skipped, hello, passed, { hs with outward := ?_ }⟩ }
    simp only [Line.receive, hs.outward, List.append_assoc]

/-- The line of a party that has not been joined changes. -/
theorem Inv.modifyGreeting (h : Inv msgs b) {o : ι} {l : Line ι κ α} (hl : b.lines o = some l)
    (hmode : l.mode = .greeting) {f : Line ι κ α → Line ι κ α}
    (hcontrol : ∀ l, l.desk = none → l.isControl = true →
      (f l).desk = none ∧ (f l).isControl = true)
    (hgreets : l.Greets msgs → (f l).Greets msgs) : Inv msgs (b.modifyLine o f) := by
  have heq : ∀ {l'}, b.lines o = some l' → l = l' := fun hl' => Option.some.inj (hl.symm.trans hl')
  refine h.modifyLine hcontrol (fun k l' hl' hw => ?_) (fun l' hl' hg => ?_)
    (fun k d lv ld hlv he => ?_) (fun k v lv ld hld he => ?_)
  · rw [heq hl', hw.mode_eq] at hmode
    cases hmode
  · rw [← heq hl'] at hg ⊢
    exact hgreets hg
  · rw [heq hlv, he.mode_left] at hmode
    cases hmode
  · rw [heq hld, he.mode_right] at hmode
    cases hmode

theorem Inv.skip (h : Inv msgs b) {o : ι} {l : Line ι κ α} (hl : b.lines o = some l)
    (hmode : l.mode = .greeting) {used left : List α} (hinput : l.input = used ++ left)
    (hskips : msgs.Skips used) : Inv msgs (b.modifyLine o (.keep left)) := by
  refine h.modifyGreeting hl hmode (fun l hdesk hctl => ⟨hdesk, hctl⟩) fun hg => ?_
  obtain ⟨skipped, hskipped, hreceived⟩ := hg.received_eq
  refine ⟨hg.desk_eq, hg.mode_eq, ⟨skipped ++ [used], ?_, ?_⟩, hg.sent_eq, fun heq => ?_⟩
  · simpa [or_imp, forall_and] using ⟨hskipped, hskips⟩
  · simp [Line.keep, hreceived, hinput]
  · -- nothing was skipped, now or before
    have hall : l.received = left := heq
    rw [hreceived, hinput, ← List.append_assoc, List.append_left_eq_self] at hall
    obtain ⟨hnil, rfl⟩ := List.append_eq_nil_iff.mp hall
    exact hg.untouched (by rw [hreceived, hnil, List.nil_append])

theorem Inv.answer (h : Inv msgs b) {o : ι} {l : Line ι κ α} (hl : b.lines o = some l)
    (hmode : l.mode = .greeting) (hne : l.received ≠ l.input) {msg : List α}
    (hmsg : msgs.Answers msg) : Inv msgs (b.modifyLine o (.say msg)) := by
  refine h.modifyGreeting hl hmode (fun l hdesk hctl => ⟨hdesk, hctl⟩) fun hg => ?_
  refine ⟨hg.desk_eq, hg.mode_eq, hg.received_eq, fun hctl => ?_, fun heq => absurd heq hne⟩
  obtain ⟨as, has, hsent⟩ := hg.sent_eq hctl
  refine ⟨as ++ [msg], ?_, ?_⟩
  · simpa [or_imp, forall_and] using ⟨has, hmsg⟩
  · simp [Line.say, hsent]

omit [DecidableEq ι] in
theorem Line.Greets.received_ne {l : Line ι κ α} (h : l.Greets msgs) {used left : List α}
    (hinput : l.input = used ++ left) (hused : used ≠ []) : l.received ≠ left := by
  obtain ⟨skipped, -, hreceived⟩ := h.received_eq
  rw [hreceived, hinput, ← List.append_assoc, ne_eq, List.append_left_eq_self,
    List.append_eq_nil_iff]
  exact fun hnil => hused hnil.2

omit [DecidableEq ι] in
/-- A line belongs to one join at most, and to one side of it. -/
theorem Ends.eq_of_common {k' : κ} {v d v' d' : ι} {lv ld lv' ld' : Line ι κ α}
    (h : Ends msgs k v d lv ld) (hlv : b.lines v = some lv) (hld : b.lines d = some ld)
    (h' : Ends msgs k' v' d' lv' ld') (hlv' : b.lines v' = some lv')
    (hld' : b.lines d' = some ld') (hcommon : v' = v ∨ v' = d ∨ d' = v ∨ d' = d) :
    v' = v ∧ d' = d := by
  obtain rfl | rfl | rfl | rfl := hcommon
  · rw [hlv, Option.some.injEq] at hlv'
    have hmode := h.mode_left
    rw [hlv', h'.mode_left, Mode.joined.injEq] at hmode
    exact ⟨rfl, hmode⟩
  · rw [hld, Option.some.injEq] at hlv'
    have hdesk := h.desk_right
    rw [hlv', h'.desk_left] at hdesk
    cases hdesk
  · rw [hlv, Option.some.injEq] at hld'
    have hdesk := h.desk_left
    rw [hld', h'.desk_right] at hdesk
    cases hdesk
  · rw [hld, Option.some.injEq] at hld'
    have hmode := h.mode_right
    rw [hld', h'.mode_right, Mode.joined.injEq] at hmode
    exact ⟨hmode, rfl⟩

/-- Both lines of a join change, as far as what they carry goes. -/
theorem Inv.modifyEnds (h : Inv msgs b) {v d : ι} {lv ld : Line ι κ α}
    (hlv : b.lines v = some lv) (hld : b.lines d = some ld) (he : Ends msgs k v d lv ld)
    {f g : Line ι κ α → Line ι κ α} (hlines : ∀ p, b'.lines p = (b.lines p).map fun l =>
      if p = v then f l else if p = d then g l else l) (hdesks : b'.desks = b.desks)
    (hf : ∀ l, (f l).desk = l.desk ∧ (f l).isControl = l.isControl)
    (hg : ∀ l, (g l).desk = l.desk ∧ (g l).isControl = l.isControl)
    (hends : ∀ k', Ends msgs k' v d lv ld → Ends msgs k' v d (f lv) (g ld)) : Inv msgs b' := by
  have hne := he.ne hlv hld
  have hv : ∀ {l}, b.lines v = some l → lv = l := fun hl => Option.some.inj (hlv.symm.trans hl)
  have hd : ∀ {l}, b.lines d = some l → ld = l := fun hl => Option.some.inj (hld.symm.trans hl)
  have hjoined : ∀ p l, b.lines p = some l → p = v ∨ p = d →
      l.mode ≠ .queued ∧ l.mode ≠ .greeting := by
    rintro p l hl (rfl | rfl)
    · rw [← hv hl, he.mode_left]
      exact ⟨nofun, nofun⟩
    · rw [← hd hl, he.mode_right]
      exact ⟨nofun, nofun⟩
  refine h.map _ hlines hdesks (fun p l hdesk hctl => ?_) (fun k' p l hl hw => ?_)
    (fun p l hl hgr => ?_) (fun k' v' d' lv' ld' hlv' hld' he' => ?_)
  · split
    · rw [(hf l).1, (hf l).2]
      exact ⟨hdesk, hctl⟩
    · split
      · rw [(hg l).1, (hg l).2]
        exact ⟨hdesk, hctl⟩
      · exact ⟨hdesk, hctl⟩
  · have hmode := hw.mode_eq
    split
    · exact absurd hmode (hjoined p l hl (.inl ‹_›)).1
    · split
      · exact absurd hmode (hjoined p l hl (.inr ‹_›)).1
      · exact hw
  · have hmode := hgr.mode_eq
    split
    · exact absurd hmode (hjoined p l hl (.inl ‹_›)).2
    · split
      · exact absurd hmode (hjoined p l hl (.inr ‹_›)).2
      · exact hgr
  · by_cases hcommon : v' = v ∨ v' = d ∨ d' = v ∨ d' = d
    · obtain ⟨rfl, rfl⟩ := he.eq_of_common hlv hld he' hlv' hld' hcommon
      rw [if_pos rfl, if_neg (Ne.symm hne), if_pos rfl, ← hv hlv', ← hd hld']
      rw [← hv hlv', ← hd hld'] at he'
      exact hends k' he'
    · simp only [not_or] at hcommon
      obtain ⟨h₁, h₂, h₃, h₄⟩ := hcommon
      rw [if_neg h₁, if_neg h₂, if_neg h₃, if_neg h₄]
      exact he'

omit [DecidableEq ι] in
theorem Ends.pass_left {v d : ι} {lv ld : Line ι κ α} (h : Ends msgs k v d lv ld) :
    Ends msgs k v d (lv.keep []) (ld.say lv.input) := by
  obtain ⟨skipped, hello, passed, hs⟩ := h.streams
  refine { h with streams := ⟨skipped, hello, passed ++ lv.input, { hs with
    inward := ?_, sent_eq := fun hctl => ?_, direct := fun hnil => ?_ }⟩ }
  · simp [Line.keep, hs.inward]
  · obtain ⟨as, has, hsent⟩ := hs.sent_eq hctl
    refine ⟨as, has, ?_⟩
    simp [Line.say, hsent]
  · obtain ⟨hctl, hsent⟩ := hs.direct hnil
    exact ⟨hctl, by simp [Line.say, hsent]⟩

omit [DecidableEq ι] in
theorem Ends.pass_right {v d : ι} {lv ld : Line ι κ α} (h : Ends msgs k v d lv ld) :
    Ends msgs k v d (lv.say ld.input) (ld.keep []) := by
  obtain ⟨skipped, hello, passed, hs⟩ := h.streams
  refine { h with streams := ⟨skipped, hello, passed, { hs with outward := ?_ }⟩ }
  simp [Line.keep, Line.say, hs.outward]

omit [DecidableEq ι] in
/-- A line that is joined is one side of a join. -/
theorem Inv.ends_of_joined (h : Inv msgs b) {o p : ι} {l : Line ι κ α} (hl : b.lines o = some l)
    (hmode : l.mode = .joined p) : ∃ k lp, b.lines p = some lp ∧
      (Ends msgs k o p l lp ∨ Ends msgs k p o lp l) := by
  have heq : ∀ {l'}, b.lines o = some l' → l = l' := fun hl' => Option.some.inj (hl.symm.trans hl')
  cases h.line_ok o l hl with
  | waits k dk hdk ho =>
    obtain ⟨l', hl', hw⟩ := (h.desk_ok k dk hdk).waiting o ho
    rw [heq hl', hw.mode_eq] at hmode
    cases hmode
  | greets hg =>
    rw [hg.mode_eq] at hmode
    cases hmode
  | calls k dk q hdk ho =>
    obtain ⟨l', lq, hl', hlq, he⟩ := (h.desk_ok k dk hdk).joined o q ho
    rw [← heq hl'] at he
    rw [he.mode_left, Mode.joined.injEq] at hmode
    subst hmode
    exact ⟨k, lq, hlq, .inl he⟩
  | answers k dk q hdk ho =>
    obtain ⟨lq, l', hlq, hl', he⟩ := (h.desk_ok k dk hdk).joined q o ho
    rw [← heq hl'] at he
    rw [he.mode_right, Mode.joined.injEq] at hmode
    subst hmode
    exact ⟨k, lq, hlq, .inr he⟩

omit [DecidableEq ι] in
/-- A line that is read for requests belongs to a party that has not been joined. -/
theorem Inv.greets (h : Inv msgs b) {o : ι} {l : Line ι κ α} (hl : b.lines o = some l)
    (hmode : l.mode = .greeting) : l.Greets msgs := by
  have heq : ∀ {l'}, b.lines o = some l' → l = l' := fun hl' => Option.some.inj (hl.symm.trans hl')
  cases h.line_ok o l hl with
  | waits k dk hdk ho =>
    obtain ⟨l', hl', hw⟩ := (h.desk_ok k dk hdk).waiting o ho
    rw [heq hl', hw.mode_eq] at hmode
    cases hmode
  | greets hg => exact hg
  | calls k dk p hdk ho =>
    obtain ⟨lo, lp, hlo, hlp, he⟩ := (h.desk_ok k dk hdk).joined o p ho
    rw [heq hlo, he.mode_left] at hmode
    cases hmode
  | answers k dk p hdk ho =>
    obtain ⟨lp, lo, hlp, hlo, he⟩ := (h.desk_ok k dk hdk).joined p o ho
    rw [heq hlo, he.mode_right] at hmode
    cases hmode

theorem Inv.pass (h : Inv msgs b) {o p : ι} {l : Line ι κ α} (hl : b.lines o = some l)
    (hmode : l.mode = .joined p) : Inv msgs (b.pass o p l.input) := by
  obtain ⟨k, lp, hlp, he | he⟩ := h.ends_of_joined hl hmode
  · have hne := he.ne hl hlp
    refine h.modifyEnds (f := .keep []) (g := .say l.input) hl hlp he (fun q => ?_) rfl
      (fun _ => ⟨rfl, rfl⟩) (fun _ => ⟨rfl, rfl⟩) fun k' he' => he'.pass_left
    rw [Board.pass, Board.modifyLine_lines, Board.modifyLine_lines, Option.map_map]
    refine congrArg (fun g => (b.lines q).map g) (funext fun x => ?_)
    by_cases hq : q = o
    · subst hq
      simp [hne]
    · simp [hq]
  · have hne := he.ne hlp hl
    refine h.modifyEnds (f := .say l.input) (g := .keep []) hlp hl he (fun q => ?_) rfl
      (fun _ => ⟨rfl, rfl⟩) (fun _ => ⟨rfl, rfl⟩) fun k' he' => he'.pass_right
    rw [Board.pass, Board.modifyLine_lines, Board.modifyLine_lines, Option.map_map]
    refine congrArg (fun g => (b.lines q).map g) (funext fun x => ?_)
    by_cases hq : q = p
    · subst hq
      simp [hne]
    · simp [hq]

theorem Inv.connect (h : Inv msgs b) {o : ι} (ho : b.lines o = none) :
    Inv msgs (b.setLine o .agent) where
  desk_ok k dk hdk := by
    refine (h.desk_ok k dk hdk).map (fun _ l => l) (fun p l hl => ?_) (fun _ _ h₁ h₂ => ⟨h₁, h₂⟩)
      (fun _ _ _ _ hw => hw) (fun _ _ _ _ _ _ _ he => he)
    rw [Board.setLine_lines, if_neg (by rintro rfl; simp [ho] at hl), hl]
  line_ok p l hl := by
    rw [Board.setLine_lines] at hl
    split at hl
    · cases hl
      exact .greets ⟨rfl, rfl, ⟨[], by simp, rfl⟩, fun _ => ⟨[], by simp, rfl⟩, fun _ => ⟨rfl, rfl⟩⟩
    · exact (h.line_ok p l hl).map (fun k dk hdk => ⟨dk, hdk, .refl dk⟩) .greets

/-- A message to the owner of a desk. -/
theorem Inv.sayControl (h : Inv msgs b) {o : ι} {l : Line ι κ α} (hl : b.lines o = some l)
    (hdesk : l.desk = none) (hctl : l.isControl = true) (msg : List α) :
    Inv msgs (b.modifyLine o (.say msg)) := by
  have heq : ∀ {l'}, b.lines o = some l' → l = l' := fun hl' => Option.some.inj (hl.symm.trans hl')
  refine h.modifyLine (fun l hdesk hctl => ⟨hdesk, hctl⟩) (fun k l' hl' hw => ?_)
    (fun l' hl' hg => ?_) (fun k d lv ld hlv he => ?_) (fun k v lv ld hld he => ?_)
  · rw [heq hl', hw.desk_eq] at hdesk
    cases hdesk
  · rw [heq hl'] at hctl
    refine ⟨hg.desk_eq, hg.mode_eq, hg.received_eq, fun hno => ?_, fun heq => ?_⟩
    · exact absurd hctl (by simpa [Line.say] using hno)
    · exact absurd hctl (by simp [(hg.untouched heq).1])
  · rw [heq hlv, he.desk_left] at hdesk
    cases hdesk
  · obtain ⟨skipped, hello, passed, hs⟩ := he.streams
    rw [heq hld] at hctl
    refine { he with streams := ⟨skipped, hello, passed, { hs with
      sent_eq := fun hno => ?_, direct := fun hnil => ?_ }⟩ }
    · exact absurd hctl (by simpa [Line.say] using hno)
    · exact absurd hctl (by simp [(hs.direct hnil).1])

variable [DecidableEq κ]

omit [DecidableEq ι] in
/-- A desk that is further on takes the place of the old one. -/
theorem Board.setDesk_before (dk' : Desk ι) (hdesks : b'.desks = (b.setDesk k dk').desks)
    (hdk : b.desks k = some dk) (hbefore : dk.Before dk') (m : κ) (em : Desk ι)
    (hm : b.desks m = some em) : ∃ em', b'.desks m = some em' ∧ em.Before em' := by
  rw [hdesks, Board.setDesk_desks]
  split
  · rename_i hmk
    rw [hmk, hdk, Option.some.injEq] at hm
    exact ⟨dk', rfl, hm ▸ hbefore⟩
  · exact ⟨em, hm, .refl em⟩

theorem Inv.arrive (h : Inv msgs b) {o : ι} (ho : b.lines o = none) (hdk : b.desks k = some dk) :
    Inv msgs (b.arrive msgs k dk o) := by
  have hok := h.desk_ok k dk hdk
  have hold : ∀ p l, b.lines p = some l →
      ((b.setLine o (.caller k)).setDesk k (dk.arrive o)).lines p = some l := by
    intro p l hl
    rw [Board.setDesk_lines, Board.setLine_lines, if_neg (by rintro rfl; simp [ho] at hl), hl]
  have hnew : ((b.setLine o (.caller k)).setDesk k (dk.arrive o)).lines o = some (.caller k) := by
    rw [Board.setDesk_lines, Board.setLine_lines, if_pos rfl]
  have hkept : ∀ m em, b.desks m = some em →
      DeskOk msgs ((b.setLine o (.caller k)).setDesk k (dk.arrive o)) m em := by
    intro m em hm
    exact (h.desk_ok m em hm).map (fun _ l => l) hold (fun _ _ h₁ h₂ => ⟨h₁, h₂⟩)
      (fun _ _ _ _ hw => hw) (fun _ _ _ _ _ _ _ he => he)
  have harrived : Inv msgs ((b.setLine o (.caller k)).setDesk k (dk.arrive o)) := by
    constructor
    · intro m em hm
      rw [Board.setDesk_desks] at hm
      split at hm
      · rename_i hmk
        subst hmk
        cases hm
        have hm := hkept m dk hdk
        refine ⟨?_, ?_, hm.control, ?_, hm.joined⟩
        · rw [Desk.arrive, hok.accepted_eq, List.append_assoc]
        · -- a caller that was here before has a line
          refine List.Nodup.append hok.nodup (List.nodup_singleton o) ?_
          rw [List.disjoint_singleton]
          intro hmem
          obtain ⟨l, hl, -⟩ := hok.mem_accepted hmem
          rw [ho] at hl
          cases hl
        · intro v hv
          rw [Desk.arrive, List.mem_append, List.mem_singleton] at hv
          obtain hv | rfl := hv
          · exact hm.waiting v hv
          · exact ⟨_, hnew, rfl, rfl, rfl, rfl⟩
      · exact hkept m em hm
    · intro p l hl
      rw [Board.setDesk_lines, Board.setLine_lines] at hl
      split at hl
      · rename_i hp
        subst hp
        exact .waits k (dk.arrive p) (by simp [Board.setDesk_desks]) (by simp [Desk.arrive])
      · refine (h.line_ok p l hl).map (fun m em hm => ?_) .greets
        refine Board.setDesk_before (dk.arrive o) rfl hdk ⟨fun v hv => .inl ?_, fun _ he => he⟩
          m em hm
        exact List.mem_append_left _ hv
  obtain ⟨l, hl, hdesk, hctl⟩ := hok.control
  exact harrived.sayControl (hold _ l hl) hdesk hctl msgs.create

theorem Inv.openDesk (h : Inv msgs b) {o : ι} {l : Line ι κ α} (hl : b.lines o = some l)
    (hmode : l.mode = .greeting) (hne : l.received ≠ l.input) (hk : b.desks k = none) :
    Inv msgs (b.openDesk k o) := by
  have howned : Inv msgs (b.modifyLine o .own) := by
    refine h.modifyGreeting hl hmode (fun _ hdesk _ => ⟨hdesk, rfl⟩) fun hg => ?_
    exact ⟨hg.desk_eq, hg.mode_eq, hg.received_eq, nofun, fun heq => absurd heq hne⟩
  have hdesk := (h.greets hl hmode).desk_eq
  constructor
  · intro m em hm
    rw [Board.openDesk, Board.setDesk_desks] at hm
    split at hm
    · cases hm
      refine ⟨rfl, List.nodup_nil, ⟨l.own, ?_, hdesk, rfl⟩, by simp, by simp⟩
      simp [Board.openDesk, Board.modifyLine_lines, hl]
    · exact (howned.desk_ok m em hm).map (fun _ l => l) (fun _ _ hl => hl)
        (fun _ _ h₁ h₂ => ⟨h₁, h₂⟩) (fun _ _ _ _ hw => hw) (fun _ _ _ _ _ _ _ he => he)
  · intro p l' hl'
    refine (howned.line_ok p l' hl').map (fun m em hm => ⟨em, ?_, .refl em⟩) .greets
    rw [Board.openDesk, Board.setDesk_desks, if_neg, hm]
    rintro rfl
    simp [hk] at hm

omit [DecidableEq ι] [DecidableEq κ] in
/-- A caller that is joined leaves the queue it has waited in. -/
theorem DeskOk.join_rest {v d : ι} {rest : List ι} (h : DeskOk msgs b k dk)
    (hq : dk.waiting = v :: rest) : (dk.join v d rest).accepted =
      (dk.join v d rest).joined.map Prod.fst ++ (dk.join v d rest).waiting ∧ v ∉ rest := by
  have hnodup := h.nodup
  rw [h.accepted_eq, hq] at hnodup
  refine ⟨?_, (List.nodup_cons.mp hnodup.of_append_right).1⟩
  simp [Desk.join, h.accepted_eq, hq]

omit [DecidableEq ι] [DecidableEq κ] in
/-- The ends of a new join. -/
theorem Line.Waits.ends {v d : ι} {lv ld : Line ι κ α} (hv : lv.Waits k) (hd : ld.Greets msgs)
    {hello left : List α} (hinput : ld.input = hello ++ left) (hasks : msgs.Asks k hello) :
    Ends msgs k v d (lv.setMode (.joined d)) (((ld.keep left).setMode (.joined v)).say msgs.start) where
  desk_left := hv.desk_eq
  desk_right := hd.desk_eq
  mode_left := rfl
  mode_right := rfl
  streams := by
    obtain ⟨skipped, hskips, hreceived⟩ := hd.received_eq
    refine ⟨skipped, hello, [], hskips, hasks, ?_, hv.input_eq.symm, fun hctl => ?_, fun hnil => ?_⟩
    · simp [Line.say, Line.setMode, Line.keep, hreceived, hinput, hv.sent_eq]
    · obtain ⟨as, has, hsent⟩ := hd.sent_eq hctl
      exact ⟨as, has, by simp [Line.say, Line.setMode, Line.keep, hsent]⟩
    · obtain ⟨hctl, hsent⟩ := hd.untouched (by rw [hreceived, hnil, List.nil_append])
      exact ⟨hctl, by simp [Line.say, Line.setMode, Line.keep, hsent]⟩

theorem Board.join_lines (b : Board ι κ α) (msgs : Messages κ α) (k : κ) (dk : Desk ι) {v d : ι}
    (hne : v ≠ d) (rest : List ι) (left : List α) (p : ι) : (b.join msgs k dk v d rest left).lines p = (b.lines p).map fun l =>
      if p = v then l.setMode (.joined d)
      else if p = d then ((l.keep left).setMode (.joined v)).say msgs.start else l := by
  rw [Board.join, Board.setDesk_lines, Board.modifyLine_lines, Board.modifyLine_lines,
    Option.map_map]
  refine congrArg (fun g => (b.lines p).map g) (funext fun x => ?_)
  by_cases hp : p = v
  · subst hp
    simp [hne]
  · simp [hp]

omit [DecidableEq ι] [DecidableEq κ] in
/-- A line that is not joined is on no side of a join. -/
theorem Ends.apart {v d o : ι} {lv ld l : Line ι κ α} (h : Ends msgs k v d lv ld)
    (hlv : b.lines v = some lv) (hld : b.lines d = some ld) (hl : b.lines o = some l)
    (hmode : ∀ p, l.mode ≠ .joined p) : v ≠ o ∧ d ≠ o := by
  constructor
  · rintro rfl
    rw [hl, Option.some.injEq] at hlv
    exact hmode d (hlv ▸ h.mode_left)
  · rintro rfl
    rw [hl, Option.some.injEq] at hld
    exact hmode v (hld ▸ h.mode_right)

/-- The caller at the front of a queue and the line that asks for it. -/
structure Board.Meets (b : Board ι κ α) (k : κ) (dk : Desk ι) (v d : ι) (rest : List ι)
    (lv ld : Line ι κ α) : Prop where
  desk_eq : b.desks k = some dk
  waiting_eq : dk.waiting = v :: rest
  caller_eq : b.lines v = some lv
  waits : lv.Waits k
  asker_eq : b.lines d = some ld
  greeting : ld.mode = .greeting

namespace Board.Meets

variable {v d : ι} {rest : List ι} {lv ld : Line ι κ α} (hm : b.Meets k dk v d rest lv ld)

include hm

omit [DecidableEq ι] [DecidableEq κ] in
/-- A line that waits is not the one that asks. -/
theorem ne_of_waits {m : κ} {p : ι} {l : Line ι κ α} (hl : b.lines p = some l) (hw : l.Waits m) :
    p ≠ d := by
  rintro rfl
  have hgreeting := hm.greeting
  rw [hm.asker_eq, Option.some.injEq] at hl
  rw [hl, hw.mode_eq] at hgreeting
  cases hgreeting

omit [DecidableEq ι] [DecidableEq κ] in
theorem ne : v ≠ d := hm.ne_of_waits hm.caller_eq hm.waits

omit [DecidableEq ι] [DecidableEq κ] in
/-- A caller waits at one desk only. -/
theorem ne_of_waits_elsewhere {m : κ} {p : ι} {l : Line ι κ α} (hl : b.lines p = some l)
    (hw : l.Waits m) (hmk : m ≠ k) : p ≠ v := by
  rintro rfl
  have hdesk := hm.waits.desk_eq
  rw [hm.caller_eq, Option.some.injEq] at hl
  rw [hl, hw.desk_eq, Option.some.injEq] at hdesk
  exact hmk hdesk

omit [DecidableEq ι] [DecidableEq κ] in
theorem ne_of_greets {p : ι} {l : Line ι κ α} (hl : b.lines p = some l) (hg : l.Greets msgs) :
    p ≠ v := by
  rintro rfl
  have hmode := hm.waits.mode_eq
  rw [hm.caller_eq, Option.some.injEq] at hl
  rw [hl, hg.mode_eq] at hmode
  cases hmode

theorem lines_of_ne {p : ι} {l : Line ι κ α} (hl : b.lines p = some l) (hpv : p ≠ v)
    (hpd : p ≠ d) (left : List α) : (b.join msgs k dk v d rest left).lines p = some l := by
  rw [b.join_lines msgs k dk hm.ne, hl, Option.map_some, if_neg hpv, if_neg hpd]

/-- A join leaves control lines control lines. -/
theorem control {p : ι} (left : List α)
    (hp : ∃ l, b.lines p = some l ∧ l.desk = none ∧ l.isControl = true) :
    ∃ l, (b.join msgs k dk v d rest left).lines p = some l ∧ l.desk = none ∧
      l.isControl = true := by
  obtain ⟨l, hl, hdesk, hctl⟩ := hp
  refine ⟨_, by rw [b.join_lines msgs k dk hm.ne, hl, Option.map_some], ?_⟩
  split
  · exact ⟨hdesk, hctl⟩
  · split
    · exact ⟨hdesk, hctl⟩
    · exact ⟨hdesk, hctl⟩

/-- The other callers go on waiting. -/
theorem waiting {m : κ} {p : ι} (left : List α) (hpv : p ≠ v)
    (hp : ∃ l, b.lines p = some l ∧ l.Waits m) :
    ∃ l, (b.join msgs k dk v d rest left).lines p = some l ∧ l.Waits m := by
  obtain ⟨l, hl, hw⟩ := hp
  exact ⟨l, hm.lines_of_ne hl hpv (hm.ne_of_waits hl hw) left, hw⟩

/-- The joins there are already go on. -/
theorem joined (h : Inv msgs b) {m : κ} {em : Desk ι} {v' d' : ι} (left : List α)
    (hem : b.desks m = some em) (hmem : (v', d') ∈ em.joined) :
    ∃ lv ld, (b.join msgs k dk v d rest left).lines v' = some lv ∧
      (b.join msgs k dk v d rest left).lines d' = some ld ∧ Ends msgs m v' d' lv ld := by
  obtain ⟨lv', ld', hlv', hld', he⟩ := (h.desk_ok m em hem).joined v' d' hmem
  obtain ⟨h₁, h₂⟩ := he.apart hlv' hld' hm.caller_eq (by simp [hm.waits.mode_eq])
  obtain ⟨h₃, h₄⟩ := he.apart hlv' hld' hm.asker_eq (by simp [hm.greeting])
  exact ⟨lv', ld', hm.lines_of_ne hlv' h₁ h₃ left, hm.lines_of_ne hld' h₂ h₄ left, he⟩

/-- The desk that loses a caller and gains a join. -/
theorem deskOk (h : Inv msgs b) {hello left : List α} (hinput : ld.input = hello ++ left)
    (hasks : msgs.Asks k hello) :
    DeskOk msgs (b.join msgs k dk v d rest left) k (dk.join v d rest) := by
  have hok := h.desk_ok k dk hm.desk_eq
  obtain ⟨haccepted, hrest⟩ := hok.join_rest (d := d) hm.waiting_eq
  refine ⟨haccepted, hok.nodup, hm.control left hok.control, fun p hp => ?_, fun v' d' hmem => ?_⟩
  · refine hm.waiting left ?_ (hok.waiting p (hm.waiting_eq ▸ .tail v hp))
    rintro rfl
    exact hrest hp
  · rw [Desk.join, List.mem_append, List.mem_singleton] at hmem
    obtain hmem | hmem := hmem
    · exact hm.joined h left hm.desk_eq hmem
    · obtain ⟨rfl, rfl⟩ := Prod.mk.injEq .. ▸ hmem
      refine ⟨_, _, ?_, ?_, hm.waits.ends (h.greets hm.asker_eq hm.greeting) hinput hasks⟩
      · rw [b.join_lines msgs k dk hm.ne, hm.caller_eq, Option.map_some, if_pos rfl]
      · rw [b.join_lines msgs k dk hm.ne, hm.asker_eq, Option.map_some, if_neg hm.ne.symm,
          if_pos rfl]

/-- The other desks. -/
theorem deskOk_of_ne (h : Inv msgs b) {m : κ} {em : Desk ι} (left : List α)
    (hem : b.desks m = some em) (hmk : m ≠ k) :
    DeskOk msgs (b.join msgs k dk v d rest left) m em := by
  have hok := h.desk_ok m em hem
  refine ⟨hok.accepted_eq, hok.nodup, hm.control left hok.control, fun p hp => ?_,
    fun v' d' hmem => hm.joined h left hem hmem⟩
  obtain ⟨l, hl, hw⟩ := hok.waiting p hp
  exact hm.waiting left (hm.ne_of_waits_elsewhere hl hw hmk) ⟨l, hl, hw⟩

end Board.Meets

theorem Inv.join (h : Inv msgs b) {v d : ι} {rest : List ι} {l : Line ι κ α}
    {hello left : List α} (hdk : b.desks k = some dk) (hq : dk.waiting = v :: rest)
    (hl : b.lines d = some l) (hmode : l.mode = .greeting) (hinput : l.input = hello ++ left)
    (hasks : msgs.Asks k hello) : Inv msgs (b.join msgs k dk v d rest left) := by
  obtain ⟨lv, hlv, hv⟩ := (h.desk_ok k dk hdk).waiting v (by simp [hq])
  have hm : b.Meets k dk v d rest lv l := ⟨hdk, hq, hlv, hv, hl, hmode⟩
  constructor
  · intro m em hem
    rw [Board.join, Board.setDesk_desks] at hem
    split at hem
    · rename_i hmk
      subst hmk
      cases hem
      exact hm.deskOk h hinput hasks
    · rename_i hmk
      exact hm.deskOk_of_ne h left hem hmk
  · intro p lp' hlp'
    obtain ⟨lp, hlp, -⟩ := Option.map_eq_some_iff.mp
      ((b.join_lines msgs k dk hm.ne rest left p).symm.trans hlp')
    refine (h.line_ok p lp hlp).map (Board.setDesk_before (dk.join v d rest) rfl hdk
      ⟨fun w hw => ?_, fun e he => List.mem_append_left _ he⟩) fun hg => ?_
    · rw [hq, List.mem_cons] at hw
      obtain rfl | hw := hw
      · exact .inr ⟨d, by simp [Desk.join]⟩
      · exact .inl hw
    · by_cases hpd : p = d
      · subst hpd
        exact .answers k (dk.join v p rest) v (by simp [Board.join, Board.setDesk_desks])
          (by simp [Desk.join])
      · rw [hm.lines_of_ne hlp (hm.ne_of_greets hlp hg) hpd left, Option.some.injEq] at hlp'
        exact .greets (hlp' ▸ hg)

theorem Inv.move (h : Inv msgs b) (hm : Board.Move msgs b b') : Inv msgs b' := by
  cases hm with
  | connect o ho => exact h.connect ho
  | arrive k dk o ho hdk => exact h.arrive ho hdk
  | receive o xs => exact h.receive o xs
  | skip o l used left hl hmode hinput hskips => exact h.skip hl hmode hinput hskips
  | answer o l msg hl hmode hne hmsg => exact h.answer hl hmode hne hmsg
  | openDesk k o l hl hmode hne hk => exact h.openDesk hl hmode hne hk
  | join k dk v d rest l hello left hdk hq hl hmode hinput hasks =>
    exact h.join hdk hq hl hmode hinput hasks
  | pass o p l hl hmode => exact h.pass hl hmode

theorem Inv.moves (h : Inv msgs b) (hm : Relation.ReflTransGen (Board.Move msgs) b b') :
    Inv msgs b' := by
  induction hm with
  | refl => exact h
  | tail _ hmove ih => exact ih.move hmove

omit [DecidableEq ι] [DecidableEq κ] in
theorem inv_empty (hlines : ∀ o, b.lines o = none) (hdesks : ∀ k, b.desks k = none) :
    Inv msgs b := by
  constructor
  · intro k dk hdk
    simp [hdesks] at hdk
  · intro o l hl
    simp [hlines] at hl

/-! ## Nothing is taken back -/

/-- What has come in, what has been sent and who has been joined stays so. -/
structure Grows (b b' : Board ι κ α) : Prop where
  lines : ∀ o l, b.lines o = some l → ∃ l', b'.lines o = some l' ∧ l'.desk = l.desk ∧
    l.received <+: l'.received ∧ l.sent <+: l'.sent
  desks : ∀ k dk, b.desks k = some dk → ∃ dk', b'.desks k = some dk' ∧
    dk'.control = dk.control ∧ dk.accepted <+: dk'.accepted ∧ dk.joined <+: dk'.joined

namespace Grows

omit [DecidableEq ι] [DecidableEq κ] in
theorem refl (b : Board ι κ α) : Grows b b :=
  ⟨fun _ l hl => ⟨l, hl, rfl, List.prefix_rfl, List.prefix_rfl⟩,
    fun _ dk hdk => ⟨dk, hdk, rfl, List.prefix_rfl, List.prefix_rfl⟩⟩

omit [DecidableEq ι] [DecidableEq κ] in
theorem trans {b'' : Board ι κ α} (h : Grows b b') (h' : Grows b' b'') : Grows b b'' := by
  constructor
  · intro o l hl
    obtain ⟨l', hl', hdesk, hreceived, hsent⟩ := h.lines o l hl
    obtain ⟨l'', hl'', hdesk', hreceived', hsent'⟩ := h'.lines o l' hl'
    exact ⟨l'', hl'', hdesk'.trans hdesk, hreceived.trans hreceived', hsent.trans hsent'⟩
  · intro k dk hdk
    obtain ⟨dk', hdk', hcontrol, haccepted, hjoined⟩ := h.desks k dk hdk
    obtain ⟨dk'', hdk'', hcontrol', haccepted', hjoined'⟩ := h'.desks k dk' hdk'
    exact ⟨dk'', hdk'', hcontrol'.trans hcontrol, haccepted.trans haccepted',
      hjoined.trans hjoined'⟩

omit [DecidableEq κ] in
theorem modifyLine (b : Board ι κ α) (o : ι) {f : Line ι κ α → Line ι κ α}
    (hf : ∀ l, (f l).desk = l.desk ∧ l.received <+: (f l).received ∧ l.sent <+: (f l).sent) :
    Grows b (b.modifyLine o f) := by
  refine ⟨fun p l hl => ⟨if p = o then f l else l, ?_, ?_⟩, (refl b).desks⟩
  · rw [Board.modifyLine_lines, hl, Option.map_some]
  · split
    · exact hf l
    · exact ⟨rfl, List.prefix_rfl, List.prefix_rfl⟩

omit [DecidableEq κ] in
theorem setLine {o : ι} (ho : b.lines o = none) (l : Line ι κ α) : Grows b (b.setLine o l) := by
  refine ⟨fun p l' hl' => ⟨l', ?_, rfl, List.prefix_rfl, List.prefix_rfl⟩, (refl b).desks⟩
  rw [Board.setLine_lines, if_neg (by rintro rfl; simp [ho] at hl'), hl']

omit [DecidableEq ι] in
theorem setDesk {dk' : Desk ι} (h : ∀ dk, b.desks k = some dk → dk'.control = dk.control ∧
    dk.accepted <+: dk'.accepted ∧ dk.joined <+: dk'.joined) : Grows b (b.setDesk k dk') := by
  refine ⟨(refl b).lines, fun m em hm => ?_⟩
  rw [Board.setDesk_desks]
  split
  · rename_i hmk
    exact ⟨dk', rfl, h em (hmk ▸ hm)⟩
  · exact ⟨em, hm, rfl, List.prefix_rfl, List.prefix_rfl⟩

theorem move (hm : Board.Move msgs b b') : Grows b b' := by
  cases hm with
  | connect o ho => exact setLine ho _
  | arrive k dk o ho hdk =>
    refine ((setLine ho (.caller k)).trans (setDesk fun dk' hdk' => ?_)).trans
      (modifyLine _ _ fun l => ⟨rfl, List.prefix_rfl, List.prefix_append _ _⟩)
    rw [Board.setLine_desks, hdk, Option.some.injEq] at hdk'
    exact hdk' ▸ ⟨rfl, List.prefix_append _ _, List.prefix_rfl⟩
  | receive o xs =>
    exact modifyLine _ _ fun l => ⟨rfl, List.prefix_append _ _, List.prefix_rfl⟩
  | skip o l used left hl hmode hinput hskips =>
    exact modifyLine _ _ fun l => ⟨rfl, List.prefix_rfl, List.prefix_rfl⟩
  | answer o l msg hl hmode hne hmsg =>
    exact modifyLine _ _ fun l => ⟨rfl, List.prefix_rfl, List.prefix_append _ _⟩
  | openDesk k o l hl hmode hne hk =>
    have hown : Grows b (b.modifyLine o .own) :=
      modifyLine _ _ fun l => ⟨rfl, List.prefix_rfl, List.prefix_rfl⟩
    refine hown.trans (setDesk fun dk hdk => ?_)
    simp [hk] at hdk
  | join k dk v d rest l hello left hdk hq hl hmode hinput hasks =>
    have hv : Grows b (b.modifyLine v (.setMode (.joined d))) :=
      modifyLine _ _ fun l => ⟨rfl, List.prefix_rfl, List.prefix_rfl⟩
    have hd : Grows _ ((b.modifyLine v (.setMode (.joined d))).modifyLine d fun l =>
        ((l.keep left).setMode (.joined v)).say msgs.start) :=
      modifyLine _ _ fun l => ⟨rfl, List.prefix_rfl, List.prefix_append _ _⟩
    refine (hv.trans hd).trans (setDesk fun dk' hdk' => ?_)
    rw [Board.modifyLine_desks, Board.modifyLine_desks, hdk, Option.some.injEq] at hdk'
    exact hdk' ▸ ⟨rfl, List.prefix_rfl, List.prefix_append _ _⟩
  | pass o p l hl hmode =>
    have ho : Grows b (b.modifyLine o (.keep [])) :=
      modifyLine _ _ fun l => ⟨rfl, List.prefix_rfl, List.prefix_rfl⟩
    exact ho.trans (modifyLine _ _ fun l => ⟨rfl, List.prefix_rfl, List.prefix_append _ _⟩)

theorem moves (hm : Relation.ReflTransGen (Board.Move msgs) b b') : Grows b b' := by
  induction hm with
  | refl => exact refl b
  | tail _ hmove ih => exact ih.trans (move hmove)

end Grows

end Inv

end NcxTunnel.Switchboard
