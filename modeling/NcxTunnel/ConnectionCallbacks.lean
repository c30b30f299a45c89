import NcxTunnel.NServer

/-!
# The callbacks of a connection

`network/connection.cpp` for a single connection.  A callback may use the
connection again, and so may the callbacks that this leads to: what they do is a
`Script`, with a script for the disconnect callback and one for the close notice
wherever the connection could close.  `on_close_` is always set; `Server` and
`Client` run `ConnectionConstructor` in it.
-/

namespace NcxTunnel.Callbacks

inductive Callback where
  | onConn
  | onMessage
  | onClose
  | noticeOnClose
deriving Repr, DecidableEq

structure Conn where
  state : ConnectionState
  /-- which callbacks are set -/
  onConn : Bool
  onMessage : Bool
  noticeOnClose : Bool
  /-- callbacks called, oldest first -/
  trace : List Callback
  /-- states, latest first -/
  history : List ConnectionState
deriving Repr, DecidableEq

inductive Script where
  | done
  | setMessageHandle (isSet : Bool) (next : Script)
  | setCloseNotice (isSet : Bool) (next : Script)
  /-- `Send`, with a write that may meet a fatal error and return -/
  | send (fails : Bool) (disconnect notice next : Script)
  | forceClose (disconnect notice next : Script)
deriving Repr, DecidableEq

namespace Conn

def new (onConn onMessage noticeOnClose : Bool) : Conn :=
  ⟨.connecting, onConn, onMessage, noticeOnClose, [], [.connecting]⟩

def setState (c : Conn) (st : ConnectionState) : Conn :=
  { c with state := st, history := st :: c.history }

def call (c : Conn) (cb : Callback) : Conn := { c with trace := c.trace ++ [cb] }

def connectionConstructor (c : Conn) : Conn :=
  if c.state = .connected then c.setState .disconnected else c

/-- `handle_close`, with what the disconnect callback and the close notice do. -/
def handleCloseWith (disconnect notice : Conn → Conn) (c : Conn) : Conn :=
  if c.state = .disconnected then c
  else
    let c := disconnect (c.call .onClose).connectionConstructor
    let c := if c.noticeOnClose then notice (c.call .noticeOnClose) else c
    c.setState .disconnected

def forceCloseWith (disconnect notice : Conn → Conn) (c : Conn) : Conn :=
  if c.state = .connected ∨ c.state = .disconnecting then
    handleCloseWith disconnect notice (c.setState .disconnecting)
  else c

end Conn

def Script.run : Script → Conn → Conn
  | done, c => c
  | setMessageHandle isSet next, c => next.run { c with onMessage := isSet }
  | setCloseNotice isSet next, c => next.run { c with noticeOnClose := isSet }
  | send fails disconnect notice next, c =>
      next.run (if fails then c.handleCloseWith disconnect.run notice.run else c)
  | forceClose disconnect notice next, c =>
      next.run (c.forceCloseWith disconnect.run notice.run)

namespace Conn

/-- `ConnectionEstablished`, with what `on_conn_` does. -/
def established (c : Conn) (script : Script) : Conn :=
  let c := c.setState .connected
  if c.onConn then script.run (c.call .onConn) else c

def handleMessage (c : Conn) (script : Script) : Conn :=
  if c.onMessage then script.run (c.call .onMessage) else c

def readNonBlocking (c : Conn) (e : ReadEnd) (disconnect notice : Script) : Conn :=
  match e with
  | .again => c
  | .closed => c.handleCloseWith disconnect.run notice.run

def handleDataIn (c : Conn) (e : ReadEnd) (disconnect notice onMessage : Script) : Conn :=
  (c.readNonBlocking e disconnect notice).handleMessage onMessage

end Conn

inductive Event where
  | readable (e : ReadEnd) (disconnect notice onMessage : Script)
  /-- another part of the program uses the connection -/
  | calls (script : Script)
deriving Repr, DecidableEq

namespace Conn

def step (c : Conn) : Event → Conn
  | .readable e disconnect notice onMessage => c.handleDataIn e disconnect notice onMessage
  | .calls script => script.run c

def run (c : Conn) (evs : List Event) : Conn := evs.foldl step c

end Conn

/-! ## The protocol -/

/-- Any number of messages, then the close, then its notice. -/
def InOrder (first trace : List Callback) : Prop :=
  ∃ k, ∃ last ∈ [[], [.onClose], [.onClose, .noticeOnClose]],
    trace = first ++ List.replicate k .onMessage ++ last

/-- The order of the declaration of `ConnectionState`. -/
def rank : ConnectionState → ℕ
  | .connecting => 0
  | .connected => 1
  | .disconnecting => 2
  | .disconnected => 3

/-- The state only moves forward. -/
def Forward (history : List ConnectionState) : Prop :=
  history.Pairwise fun later earlier => rank earlier ≤ rank later

namespace Script

/-- Nothing in it tries to close the connection. -/
def Quiet : Script → Prop
  | done => True
  | setMessageHandle _ next => next.Quiet
  | setCloseNotice _ next => next.Quiet
  | send fails _ _ next => fails = false ∧ next.Quiet
  | forceClose _ _ _ => False

/-- Whether a message handle is set after a script that closes nothing. -/
def messageAfter : Script → Bool → Bool
  | done, m => m
  | setMessageHandle isSet next, _ => next.messageAfter isSet
  | setCloseNotice _ next, m => next.messageAfter m
  | send _ _ _ next, m => next.messageAfter m
  | forceClose _ _ next, m => next.messageAfter m

/-- The same for the close notice. -/
def noticeAfter : Script → Bool → Bool
  | done, n => n
  | setMessageHandle _ next, n => next.noticeAfter n
  | setCloseNotice isSet next, _ => next.noticeAfter isSet
  | send _ _ _ next, n => next.noticeAfter n
  | forceClose _ _ next, n => next.noticeAfter n

/-- If the script of an open connection closes it by `force_close`, the callbacks that
this leads to do not try to close it once more. -/
def Orderly : Script → Bool → Prop
  | done, _ => True
  | setMessageHandle _ next, n => next.Orderly n
  | setCloseNotice isSet next, _ => next.Orderly isSet
  | send fails _ _ next, n => fails = true ∨ next.Orderly n
  | forceClose disconnect notice _, n =>
      disconnect.Quiet ∧ (disconnect.noticeAfter n = true → notice.Quiet)

end Script

/-- A closed connection has no message handle when it is read, nor has one that the
read closes; and what uses an open connection is orderly. -/
def Conn.Admits (c : Conn) : Event → Prop
  | .readable e disconnect notice onMessage =>
      if c.state = .disconnected then c.onMessage = false
      else match e with
        | .again => c.onMessage = true → onMessage.Orderly c.noticeOnClose
        | .closed =>
            (if disconnect.noticeAfter c.noticeOnClose then
              notice.messageAfter (disconnect.messageAfter c.onMessage)
            else disconnect.messageAfter c.onMessage) = false
  | .calls script => c.state ≠ .disconnected → script.Orderly c.noticeOnClose

/-! ## The state moves forward -/

/-- The states so far are in order, and the present one is the last. -/
structure Conn.Monotone (c : Conn) : Prop where
  forward : Forward c.history
  le_state : ∀ st ∈ c.history, rank st ≤ rank c.state

section Monotone

variable {c : Conn} {disconnect notice : Conn → Conn}

theorem rank_le (st : ConnectionState) : rank st ≤ rank .disconnected := by
  cases st <;> decide

theorem Conn.Monotone.setState (h : c.Monotone) {st : ConnectionState}
    (hle : rank c.state ≤ rank st) : (c.setState st).Monotone := by
  have hst : ∀ st' ∈ c.history, rank st' ≤ rank st := fun st' hst' => (h.le_state st' hst').trans hle
  refine ⟨List.pairwise_cons.mpr ⟨hst, h.forward⟩, fun st' hst' => ?_⟩
  rcases List.mem_cons.mp hst' with rfl | hst'
  · exact le_rfl
  · exact hst st' hst'

theorem Conn.Monotone.connectionConstructor (h : c.Monotone) : c.connectionConstructor.Monotone := by
  rw [Conn.connectionConstructor]
  split
  · exact h.setState (rank_le _)
  · exact h

theorem Conn.Monotone.handleCloseWith (h : c.Monotone)
    (hd : ∀ c : Conn, c.Monotone → (disconnect c).Monotone)
    (hn : ∀ c : Conn, c.Monotone → (notice c).Monotone) :
    (c.handleCloseWith disconnect notice).Monotone := by
  rw [Conn.handleCloseWith]
  split
  · exact h
  · apply Conn.Monotone.setState _ (rank_le _)
    have hcall : (c.call .onClose).Monotone := ⟨h.forward, h.le_state⟩
    have hafter := hd _ hcall.connectionConstructor
    split
    · exact hn _ ⟨hafter.forward, hafter.le_state⟩
    · exact hafter

theorem Script.run_monotone (script : Script) (h : c.Monotone) : (script.run c).Monotone := by
  induction script generalizing c with
  | done => exact h
  | setMessageHandle isSet next ih => exact ih ⟨h.forward, h.le_state⟩
  | setCloseNotice isSet next ih => exact ih ⟨h.forward, h.le_state⟩
  | send fails disconnect notice next ihd ihn ih =>
    apply ih
    split
    · exact h.handleCloseWith (fun _ => ihd) (fun _ => ihn)
    · exact h
  | forceClose disconnect notice next ihd ihn ih =>
    apply ih
    rw [Conn.forceCloseWith]
    split
    · rename_i hopen
      refine (h.setState ?_).handleCloseWith (fun _ => ihd) (fun _ => ihn)
      -- `force_close` passes its guard in the two states before `DISCONNECTED` only
      rcases hopen with hst | hst
      · rw [hst]
        decide
      · rw [hst]
    · exact h

theorem Conn.Monotone.handleMessage (h : c.Monotone) (script : Script) :
    (c.handleMessage script).Monotone := by
  rw [Conn.handleMessage]
  split
  · exact script.run_monotone ⟨h.forward, h.le_state⟩
  · exact h

theorem Conn.Monotone.step (h : c.Monotone) (ev : Event) : (c.step ev).Monotone := by
  cases ev with
  | readable e disconnect notice onMessage =>
    apply Conn.Monotone.handleMessage
    cases e with
    | again => exact h
    | closed =>
      exact h.handleCloseWith (fun _ => disconnect.run_monotone) (fun _ => notice.run_monotone)
  | calls script => exact script.run_monotone h

theorem Conn.Monotone.run (h : c.Monotone) (evs : List Event) : (c.run evs).Monotone := by
  induction evs generalizing c with
  | nil => exact h
  | cons ev evs ih => exact ih (h.step ev)

theorem Conn.established_monotone (onConn onMessage noticeOnClose : Bool) (script : Script) :
    ((Conn.new onConn onMessage noticeOnClose).established script).Monotone := by
  have hnew : (Conn.new onConn onMessage noticeOnClose).Monotone :=
    ⟨List.pairwise_singleton _ _, fun st hst => by rw [List.mem_singleton.mp hst]; rfl⟩
  have hconn : ((Conn.new onConn onMessage noticeOnClose).setState .connected).Monotone :=
    hnew.setState (Nat.zero_le _)
  rw [Conn.established]
  split
  · exact script.run_monotone ⟨hconn.forward, hconn.le_state⟩
  · exact hconn

end Monotone

/-- After an `on_close` comes a message or another `on_close`. -/
def Broken (trace : List Callback) : Prop :=
  ∃ before after, trace = before ++ .onClose :: after ∧ (.onMessage ∈ after ∨ .onClose ∈ after)

theorem Broken.mono {t t' : List Callback} (h : Broken t) (hpre : t <+: t') : Broken t' := by
  obtain ⟨before, after, rfl, hbad⟩ := h
  obtain ⟨rest, rfl⟩ := hpre
  refine ⟨before, after ++ rest, by simp, ?_⟩
  rcases hbad with hbad | hbad
  · exact .inl (List.mem_append_left _ hbad)
  · exact .inr (List.mem_append_left _ hbad)

theorem Broken.not_inOrder {first t : List Callback} (hfirst : .onClose ∉ first) (h : Broken t) :
    ¬InOrder first t := by
  rintro ⟨k, last, hlast, ht⟩
  obtain ⟨before, after, hsplit, hbad⟩ := h
  have hclean : Callback.onClose ∉ first ++ List.replicate k .onMessage := by
    simp [hfirst, List.mem_replicate]
  -- the first `on_close` is the head of the last part
  have hafter : ∃ more, last = more ++ .onClose :: after := by
    rw [hsplit, List.append_eq_append_iff] at ht
    rcases ht with ⟨more, hmore, hrest⟩ | ⟨more, hmore, hrest⟩
    · cases more with
      | nil => exact ⟨[], hrest.symm⟩
      | cons cb more =>
        rw [List.cons_append, List.cons.injEq] at hrest
        rw [hmore, hrest.1] at hclean
        exact absurd (List.mem_append_right _ List.mem_cons_self) hclean
    · exact ⟨more, hrest⟩
  obtain ⟨more, rfl⟩ := hafter
  simp only [List.mem_cons, List.not_mem_nil, or_false] at hlast
  rcases hlast with hlast | hlast | hlast
  · simp at hlast
  · cases more with
    | nil => simp_all
    | cons cb more => simp at hlast
  · cases more with
    | nil => simp_all
    | cons cb more =>
      rw [List.cons_append, List.cons.injEq] at hlast
      cases more with
      | nil => simp at hlast
      | cons cb more => simp at hlast

section Grow

variable {c : Conn} {disconnect notice : Conn → Conn}
  (hd : ∀ c : Conn, c.trace <+: (disconnect c).trace)
  (hn : ∀ c : Conn, c.trace <+: (notice c).trace)

include hd hn

theorem Conn.handleCloseWith_onClose (h : c.state ≠ .disconnected) :
    c.trace ++ [.onClose] <+: (c.handleCloseWith disconnect notice).trace := by
  have hconstructor : (c.call .onClose).connectionConstructor.trace = c.trace ++ [.onClose] := by
    rw [Conn.connectionConstructor]
    split <;> rfl
  rw [Conn.handleCloseWith, if_neg h, ← hconstructor]
  refine (hd _).trans ?_
  dsimp only
  split
  · have hnotice := hn ((disconnect (c.call .onClose).connectionConstructor).call .noticeOnClose)
    exact (List.prefix_append _ _).trans hnotice
  · exact List.prefix_rfl

theorem Conn.handleCloseWith_grows (c : Conn) :
    c.trace <+: (c.handleCloseWith disconnect notice).trace := by
  by_cases h : c.state = .disconnected
  · rw [Conn.handleCloseWith, if_pos h]
  · exact (List.prefix_append _ _).trans (Conn.handleCloseWith_onClose hd hn h)

end Grow

theorem Script.run_grows (script : Script) (c : Conn) : c.trace <+: (script.run c).trace := by
  induction script generalizing c with
  | done => exact List.prefix_rfl
  | setMessageHandle isSet next ih => exact ih { c with onMessage := isSet }
  | setCloseNotice isSet next ih => exact ih { c with noticeOnClose := isSet }
  | send fails disconnect notice next ihd ihn ih =>
    refine List.IsPrefix.trans ?_ (ih _)
    split
    · exact Conn.handleCloseWith_grows ihd ihn c
    · exact List.prefix_rfl
  | forceClose disconnect notice next ihd ihn ih =>
    refine List.IsPrefix.trans ?_ (ih _)
    rw [Conn.forceCloseWith]
    split
    · exact Conn.handleCloseWith_grows ihd ihn (c.setState .disconnecting)
    · exact List.prefix_rfl

/-! ## Scripts -/

section Scripts

variable {c : Conn} {script disconnect notice : Script}

/-- Where nothing closes the connection, only handles are set. -/
theorem Script.run_inert (h : script.Quiet ∨ c.state = .disconnected) : script.run c =
    { c with
      onMessage := script.messageAfter c.onMessage
      noticeOnClose := script.noticeAfter c.noticeOnClose } := by
  induction script generalizing c with
  | done => rfl
  | setMessageHandle isSet next ih => exact ih (c := { c with onMessage := isSet }) h
  | setCloseNotice isSet next ih => exact ih (c := { c with noticeOnClose := isSet }) h
  | send fails disconnect notice next ihd ihn ih =>
    have hsame : (if fails then c.handleCloseWith disconnect.run notice.run else c) = c := by
      rcases h with h | h
      · rw [if_neg (by simp [h.1])]
      · rw [Conn.handleCloseWith, if_pos h, ite_self]
    rw [Script.run, hsame]
    exact ih (h.imp_left And.right)
  | forceClose disconnect notice next ihd ihn ih =>
    rcases h with h | h
    · exact absurd h id
    · have hsame : c.forceCloseWith disconnect.run notice.run = c := by
        rw [Conn.forceCloseWith, if_neg (by simp [h])]
      rw [Script.run, hsame]
      exact ih (.inr h)

/-- A script that tries to close the connection and can adds an `on_close`. -/
theorem Script.run_not_quiet (h : ¬script.Quiet)
    (hst : c.state = .connected ∨ c.state = .disconnecting) :
    ∃ calls, (script.run c).trace = c.trace ++ calls ∧ .onClose ∈ calls := by
  have hne : c.state ≠ .disconnected := by
    rcases hst with hst | hst <;> simp [hst]
  -- what closes calls `on_close`, and the rest of the script only adds to the trace
  have hclosed : ∀ (next : Script) (c' : Conn), c.trace ++ [.onClose] <+: c'.trace →
      ∃ calls, (next.run c').trace = c.trace ++ calls ∧ .onClose ∈ calls := by
    intro next c' hpre
    obtain ⟨rest, hrest⟩ := hpre.trans (next.run_grows c')
    exact ⟨.onClose :: rest, by rw [← hrest]; simp, List.mem_cons_self⟩
  induction script generalizing c with
  | done => exact absurd trivial h
  | setMessageHandle isSet next ih => exact ih (c := { c with onMessage := isSet }) h hst hne hclosed
  | setCloseNotice isSet next ih => exact ih (c := { c with noticeOnClose := isSet }) h hst hne hclosed
  | send fails disconnect notice next ihd ihn ih =>
    rw [Script.run]
    cases fails with
    | false => exact ih (fun hq => h ⟨rfl, hq⟩) hst hne hclosed
    | true =>
      exact hclosed next _ (Conn.handleCloseWith_onClose disconnect.run_grows notice.run_grows hne)
  | forceClose disconnect notice next ihd ihn ih =>
    rw [Script.run, Conn.forceCloseWith, if_pos hst]
    refine hclosed next _ (Conn.handleCloseWith_onClose (c := c.setState .disconnecting)
      disconnect.run_grows notice.run_grows ?_)
    simp [Conn.setState]

/-- The close of a connection with its notice, if there is one. -/
def closing (hasNotice : Bool) : List Callback :=
  if hasNotice then [.onClose, .noticeOnClose] else [.onClose]

/-- The close is reported once if the connection is marked as closed before the
callbacks run, or they do not try to close it. -/
theorem Conn.handleCloseWith_once (disconnect notice : Script) (hne : c.state ≠ .disconnected)
    (h : c.state = .connected ∨
      disconnect.Quiet ∧ (disconnect.noticeAfter c.noticeOnClose = true → notice.Quiet)) :
    (c.handleCloseWith disconnect.run notice.run).state = .disconnected ∧
    (c.handleCloseWith disconnect.run notice.run).trace =
      c.trace ++ closing (disconnect.noticeAfter c.noticeOnClose) ∧
    (c.handleCloseWith disconnect.run notice.run).onMessage =
      if disconnect.noticeAfter c.noticeOnClose then
        notice.messageAfter (disconnect.messageAfter c.onMessage)
      else disconnect.messageAfter c.onMessage := by
  -- the connection as the disconnect callback finds it
  obtain ⟨c₁, hc₁⟩ : ∃ c₁, c₁ = (c.call .onClose).connectionConstructor := ⟨_, rfl⟩
  have hfields : c₁.trace = c.trace ++ [.onClose] ∧ c₁.onMessage = c.onMessage ∧
      c₁.noticeOnClose = c.noticeOnClose ∧ (c.state = .connected → c₁.state = .disconnected) := by
    rw [hc₁, Conn.connectionConstructor]
    split
    · exact ⟨rfl, rfl, rfl, fun _ => rfl⟩
    · rename_i hst
      exact ⟨rfl, rfl, rfl, fun h => absurd h hst⟩
  obtain ⟨htrace, hmessage, hnotice, hstate⟩ := hfields
  have hinert : disconnect.Quiet ∨ c₁.state = .disconnected := by
    rcases h with h | h
    · exact .inr (hstate h)
    · exact .inl h.1
  rw [Conn.handleCloseWith, if_neg hne, ← hc₁]
  dsimp only
  rw [Script.run_inert hinert, hmessage, hnotice]
  dsimp only
  cases hn : disconnect.noticeAfter c.noticeOnClose with
  | false =>
    simp only [Bool.false_eq_true, if_false, Conn.setState, closing, htrace, and_self]
  | true =>
    simp only [if_true]
    rw [Script.run_inert]
    · simp [Conn.setState, Conn.call, closing, htrace]
    · rcases h with h | h
      · exact .inr (hstate h)
      · exact .inl (h.2 hn)

/-- A connection that is not marked as closed while its callbacks run is closed again by them. -/
theorem Conn.handleCloseWith_twice (hst : c.state = .disconnecting)
    (h : ¬(disconnect.Quiet ∧ (disconnect.noticeAfter c.noticeOnClose = true → notice.Quiet))) :
    Broken (c.handleCloseWith disconnect.run notice.run).trace := by
  have hne : c.state ≠ .disconnected := by simp [hst]
  have hconstructor : (c.call .onClose).connectionConstructor = c.call .onClose := by
    rw [Conn.connectionConstructor, if_neg (by simp [Conn.call, hst])]
  have hdisconnecting : (c.call .onClose).state = .disconnecting := hst
  rw [Conn.handleCloseWith, if_neg hne, hconstructor]
  dsimp only
  -- the second close comes from the disconnect callback or from the notice
  by_cases hquiet : disconnect.Quiet
  · have hnotice : disconnect.noticeAfter c.noticeOnClose = true ∧ ¬notice.Quiet := by
      simpa [hquiet] using h
    rw [Script.run_inert (.inl hquiet)]
    simp only [Conn.call, hnotice.1, if_true]
    obtain ⟨calls, hcalls, hmem⟩ := Script.run_not_quiet hnotice.2 (c := { c with
      onMessage := disconnect.messageAfter c.onMessage
      noticeOnClose := true
      trace := c.trace ++ [.onClose] ++ [.noticeOnClose] }) (.inr hst)
    refine ⟨c.trace, .noticeOnClose :: calls, hcalls.trans ?_, .inr (List.mem_cons_of_mem _ hmem)⟩
    simp
  · obtain ⟨calls, hcalls, hmem⟩ := Script.run_not_quiet hquiet (.inr hdisconnecting)
    have hbroken : Broken (disconnect.run (c.call .onClose)).trace :=
      ⟨c.trace, calls, by rw [hcalls]; simp [Conn.call], .inr hmem⟩
    refine hbroken.mono ?_
    split
    · exact (List.prefix_append _ _).trans
        (notice.run_grows ((disconnect.run (c.call .onClose)).call .noticeOnClose))
    · exact List.prefix_rfl

end Scripts

/-- Established, and only messages have been reported. -/
def Conn.Open (first : List Callback) (c : Conn) : Prop :=
  c.state = .connected ∧ ∃ k, c.trace = first ++ List.replicate k .onMessage

/-- Closed, which has been reported once. -/
def Conn.Closed (first : List Callback) (c : Conn) : Prop :=
  c.state = .disconnected ∧ ∃ k hasNotice,
    c.trace = first ++ List.replicate k .onMessage ++ closing hasNotice

section Runs

variable {first : List Callback} {c : Conn} {script : Script} {ev : Event}

theorem Conn.Open.inOrder (h : c.Open first) : InOrder first c.trace := by
  obtain ⟨-, k, hk⟩ := h
  exact ⟨k, [], by simp, by simpa using hk⟩

theorem Conn.Closed.inOrder (h : c.Closed first) : InOrder first c.trace := by
  obtain ⟨-, k, hasNotice, hk⟩ := h
  refine ⟨k, closing hasNotice, ?_, hk⟩
  cases hasNotice <;> simp [closing]

theorem Conn.Open.close (h : c.Open first) {c' : Conn} {hasNotice : Bool}
    (hst : c'.state = .disconnected) (htrace : c'.trace = c.trace ++ closing hasNotice) :
    c'.Closed first := by
  obtain ⟨-, k, hk⟩ := h
  exact ⟨hst, k, hasNotice, by rw [htrace, hk]⟩

theorem Conn.Closed.run (h : c.Closed first) (script : Script) : (script.run c).Closed first := by
  rw [Script.run_inert (.inr h.1)]
  exact h

/-- A message to a closed connection is out of order. -/
theorem Conn.Closed.broken (h : c.Closed first) (script : Script) :
    Broken (script.run (c.call .onMessage)).trace := by
  obtain ⟨-, k, hasNotice, hk⟩ := h
  have hmessage : Broken (c.call .onMessage).trace := by
    cases hasNotice with
    | false => exact ⟨first ++ List.replicate k .onMessage, [.onMessage],
        by simp [Conn.call, hk, closing], by simp⟩
    | true => exact ⟨first ++ List.replicate k .onMessage, [.noticeOnClose, .onMessage],
        by simp [Conn.call, hk, closing], by simp⟩
  exact hmessage.mono (script.run_grows _)

theorem Conn.Closed.handleMessage (h : c.Closed first) (script : Script) :
    (c.onMessage = false → (c.handleMessage script).Closed first) ∧
      (¬c.onMessage = false → Broken (c.handleMessage script).trace) := by
  rw [Conn.handleMessage]
  split
  · rename_i hon
    exact ⟨fun hoff => by simp [hon] at hoff, fun _ => h.broken script⟩
  · rename_i hoff
    exact ⟨fun _ => h, fun hon => absurd (Bool.not_eq_true _ ▸ hoff) hon⟩

theorem Script.run_orderly (ho : c.Open first) (h : script.Orderly c.noticeOnClose) :
    (script.run c).Open first ∨ (script.run c).Closed first := by
  induction script generalizing c with
  | done => exact .inl ho
  | setMessageHandle isSet next ih => exact ih (c := { c with onMessage := isSet }) ho h
  | setCloseNotice isSet next ih => exact ih (c := { c with noticeOnClose := isSet }) ho h
  | send fails disconnect notice next ihd ihn ih =>
    cases fails with
    | false => exact ih ho (h.resolve_left (by simp))
    | true =>
      obtain ⟨hst, htrace, -⟩ := Conn.handleCloseWith_once disconnect notice
        (by simp [ho.1]) (.inl ho.1)
      exact .inr ((ho.close hst htrace).run next)
  | forceClose disconnect notice next ihd ihn ih =>
    obtain ⟨hst, htrace, -⟩ := Conn.handleCloseWith_once (c := c.setState .disconnecting)
      disconnect notice (by simp [Conn.setState]) (.inr h)
    rw [Script.run, Conn.forceCloseWith, if_pos (.inl ho.1)]
    exact .inr ((ho.close hst htrace).run next)

theorem Script.run_not_orderly (ho : c.Open first) (h : ¬script.Orderly c.noticeOnClose) :
    Broken (script.run c).trace := by
  induction script generalizing c with
  | done => exact absurd trivial h
  | setMessageHandle isSet next ih => exact ih (c := { c with onMessage := isSet }) ho h
  | setCloseNotice isSet next ih => exact ih (c := { c with noticeOnClose := isSet }) ho h
  | send fails disconnect notice next ihd ihn ih =>
    cases fails with
    | false => exact ih ho fun hnext => h (.inr hnext)
    | true => exact absurd (.inl rfl) h
  | forceClose disconnect notice next ihd ihn ih =>
    rw [Script.run, Conn.forceCloseWith, if_pos (.inl ho.1)]
    exact (Conn.handleCloseWith_twice (c := c.setState .disconnecting) rfl h).mono
      (next.run_grows _)

theorem Conn.Open.handleMessage (ho : c.Open first) (script : Script) :
    ((c.onMessage = true → script.Orderly c.noticeOnClose) →
        (c.handleMessage script).Open first ∨ (c.handleMessage script).Closed first) ∧
      (¬(c.onMessage = true → script.Orderly c.noticeOnClose) →
        Broken (c.handleMessage script).trace) := by
  rw [Conn.handleMessage]
  split
  · rename_i hon
    have hcall : (c.call .onMessage).Open first := by
      obtain ⟨hst, k, hk⟩ := ho
      exact ⟨hst, k + 1, by rw [Conn.call, hk, List.append_assoc, List.replicate_succ']⟩
    exact ⟨fun h => Script.run_orderly hcall (h hon),
      fun h => Script.run_not_orderly hcall fun horderly => h fun _ => horderly⟩
  · rename_i hoff
    exact ⟨fun _ => .inl ho, fun h => absurd (fun hon => absurd hon hoff) h⟩

/-- An admissible step ends open or closed in order, any other one breaks the order. -/
theorem Conn.step_spec (hc : c.Open first ∨ c.Closed first) (ev : Event) :
    (c.Admits ev → (c.step ev).Open first ∨ (c.step ev).Closed first) ∧
      (¬c.Admits ev → Broken (c.step ev).trace) := by
  cases ev with
  | calls script =>
    rcases hc with ho | hcl
    · have hne : c.state ≠ .disconnected := by simp [ho.1]
      exact ⟨fun h => Script.run_orderly ho (h hne),
        fun h => Script.run_not_orderly ho fun horderly => h fun _ => horderly⟩
    · exact ⟨fun _ => .inr (hcl.run script), fun h => absurd (fun hne => absurd hcl.1 hne) h⟩
  | readable e disconnect notice onMessage =>
    rcases hc with ho | hcl
    · have hne : c.state ≠ .disconnected := by simp [ho.1]
      cases e with
      | again =>
        simp only [Conn.Admits, if_neg hne, Conn.step, Conn.handleDataIn, Conn.readNonBlocking]
        exact ho.handleMessage onMessage
      | closed =>
        -- the read closes the connection, and the message handle is called behind it
        obtain ⟨hst, htrace, hmessage⟩ := Conn.handleCloseWith_once disconnect notice hne
          (.inl ho.1)
        have hclosed := ho.close hst htrace
        simp only [Conn.Admits, if_neg hne, ← hmessage, Conn.step, Conn.handleDataIn,
          Conn.readNonBlocking]
        obtain ⟨hoff, hon⟩ := hclosed.handleMessage onMessage
        exact ⟨fun h => .inr (hoff h), hon⟩
    · -- `handle_close` does nothing on a closed connection
      have hsame : c.readNonBlocking e disconnect notice = c := by
        cases e with
        | again => rfl
        | closed => rw [Conn.readNonBlocking, Conn.handleCloseWith, if_pos hcl.1]
      simp only [Conn.Admits, if_pos hcl.1, Conn.step, Conn.handleDataIn, hsame]
      obtain ⟨hoff, hon⟩ := hcl.handleMessage onMessage
      exact ⟨fun h => .inr (hoff h), hon⟩

theorem Conn.step_grows (c : Conn) (ev : Event) : c.trace <+: (c.step ev).trace := by
  cases ev with
  | calls script => exact script.run_grows c
  | readable e disconnect notice onMessage =>
    have hread : c.trace <+: (c.readNonBlocking e disconnect notice).trace := by
      cases e with
      | again => exact List.prefix_rfl
      | closed => exact Conn.handleCloseWith_grows disconnect.run_grows notice.run_grows c
    refine hread.trans ?_
    rw [Conn.step, Conn.handleDataIn, Conn.handleMessage]
    split
    · exact (List.prefix_append _ _).trans (onMessage.run_grows (Conn.call _ .onMessage))
    · exact List.prefix_rfl

theorem Conn.run_grows (c : Conn) (evs : List Event) : c.trace <+: (c.run evs).trace := by
  induction evs generalizing c with
  | nil => exact List.prefix_rfl
  | cons ev evs ih => exact (c.step_grows ev).trans (ih _)

theorem Conn.run_inOrder_iff (hfirst : .onClose ∉ first) (hc : c.Open first ∨ c.Closed first)
    (evs : List Event) : InOrder first (c.run evs).trace ↔
      ∀ before ev after, evs = before ++ ev :: after → (c.run before).Admits ev := by
  induction evs generalizing c with
  | nil => simpa [Conn.run] using hc.elim Conn.Open.inOrder Conn.Closed.inOrder
  | cons ev evs ih =>
    have hrun : c.run (ev :: evs) = (c.step ev).run evs := rfl
    rw [Runs.forall_split_cons (P := fun before ev => (c.run before).Admits ev), hrun]
    -- a step that is not admitted breaks the order for good
    by_cases hadmits : c.Admits ev
    · rw [ih ((c.step_spec hc ev).1 hadmits)]
      exact (and_iff_right hadmits).symm
    · have hbroken := ((c.step_spec hc ev).2 hadmits).mono ((c.step ev).run_grows evs)
      exact ⟨fun h => absurd h (hbroken.not_inOrder hfirst), fun h => absurd h.1 hadmits⟩

end Runs

/-- The callbacks of an established connection come in order, and its state only moves
forward, if and only if no read event finds or makes it closed while a message
handle is set, and no callback of a `force_close` tries to close it again. -/
theorem callbacks_in_order_iff (onConn onMessage noticeOnClose : Bool) (script : Script)
    (evs : List Event) :
    (InOrder (if onConn then [.onConn] else [])
        (((Conn.new onConn onMessage noticeOnClose).established script).run evs).trace ∧
      Forward (((Conn.new onConn onMessage noticeOnClose).established script).run evs).history) ↔
    (onConn = true → script.Orderly noticeOnClose) ∧
      ∀ before ev after, evs = before ++ ev :: after →
        (((Conn.new onConn onMessage noticeOnClose).established script).run before).Admits ev := by
  have hforward := ((Conn.established_monotone onConn onMessage noticeOnClose script).run evs).forward
  rw [and_iff_left hforward]
  cases onConn with
  | false =>
    simp only [Bool.false_eq_true, if_false, false_implies, true_and]
    exact Conn.run_inOrder_iff List.not_mem_nil (.inl ⟨rfl, 0, rfl⟩) evs
  | true =>
    have hopen : (((Conn.new true onMessage noticeOnClose).setState .connected).call
        .onConn).Open [.onConn] := ⟨rfl, 0, rfl⟩
    simp only [if_true, true_implies]
    by_cases horderly : script.Orderly noticeOnClose
    · rw [and_iff_right horderly]
      exact Conn.run_inOrder_iff (by simp) (Script.run_orderly hopen horderly) evs
    · have hbroken := (Script.run_not_orderly hopen horderly).mono
        (Conn.run_grows ((Conn.new true onMessage noticeOnClose).established script) evs)
      exact ⟨fun h => absurd h (hbroken.not_inOrder (by simp)), fun h => absurd h.1 horderly⟩

/-- A peer that sends data and closes: the message comes after the close. -/
theorem message_after_close :
    (((Conn.new true true false).established .done).run [.readable .closed .done .done .done]).trace =
        [.onConn, .onClose, .onMessage] ∧
      ¬InOrder [.onConn] [.onConn, .onClose, .onMessage] :=
  ⟨rfl, Broken.not_inOrder (by simp) ⟨[.onConn], [.onMessage], rfl, by simp⟩⟩

end NcxTunnel.Callbacks
