import NcxTunnel.BridgeRuns

/-!
# Closing either end of a bridge

`handle_close`, the close notice, `~BridgeCloser` and `force_close` call each other.
On a state whose bridges are intact the recursion ends at depth two, with both ends
closed and nothing else touched.
-/

namespace NcxTunnel.NServer

/-- Registered bridges have two different ends, established, in their pools under
their own ids and set up by `handle_data_channel_hello`. -/
structure BridgesOpen (s : NServer) : Prop where
  ends : ∀ {ref b}, s.bridge ref = some b → s.Bridged ref b.bridgeInside b.bridgeOutside
  filed : ∀ {srv id o}, s.pools srv id = some o →
    (s.conns o).server = srv ∧ (s.conns o).connId = id

/-- So it is between the events of every orderly run. -/
theorem Inv.bridgesOpen {pending : Option Obj} {s : NServer} (h : s.Inv pending) :
    s.BridgesOpen :=
  ⟨h.ends, fun ho => ⟨(h.filed ho).1, (h.filed ho).2.1⟩⟩

/-- The bridge is off the map and both its ends are closed. -/
def teardown (s : NServer) (ref : BridgeRef) (o peer : Obj) : NServer :=
  ((s.eraseBridgeCloser ref).closeOne o).closeOne peer

section Teardown

variable {s : NServer} {ref : BridgeRef} {b : BridgeCloser} {o peer : Obj} {fr : Frame}

theorem teardown_conns (hne : o ≠ peer) (p : Obj) : (s.teardown ref o peer).conns p =
    if p = o ∨ p = peer then { s.conns p with
      state := .disconnected
      isEpolled := false
      closedAt := (s.conns p).closedAt ++ [(s.conns p).sent] } else s.conns p := by
  rw [teardown, closeOne_conns]
  by_cases hp : p = peer
  · rw [if_pos hp, closeOne_conns_of_ne _ hne.symm, if_pos (.inr hp), hp, eraseBridgeCloser_conns]
  · rw [if_neg hp, closeOne_conns, eraseBridgeCloser_conns]
    by_cases ho : p = o
    · rw [if_pos ho, if_pos (.inl ho), ho]
    · rw [if_neg ho, if_neg (not_or.mpr ⟨ho, hp⟩)]

theorem teardown_pools (hne : o ≠ peer) (srv : ServerRef) (id : ConnId) :
    (s.teardown ref o peer).pools srv id =
      if srv = (s.conns peer).server ∧ id = (s.conns peer).connId ∨
        srv = (s.conns o).server ∧ id = (s.conns o).connId then none else s.pools srv id := by
  rw [teardown, closeOne_pools, closeOne_conns_of_ne _ hne.symm, closeOne_pools, ite_or]
  rfl

theorem teardown_bridge (r : BridgeRef) :
    (s.teardown ref o peer).bridge r = if r = ref then none else s.bridge r :=
  eraseBridgeCloser_bridge s ref r

theorem teardown_queue (nonce : Bytes) : (s.teardown ref o peer).queue nonce = s.queue nonce :=
  eraseBridgeCloser_queue s ref nonce

/-- The function that was setting the bridge up lets go of it. -/
theorem releaseBridge_teardown (h : s.Bridged ref o peer) (hb : b = ⟨o, peer⟩ ∨ b = ⟨peer, o⟩) :
    ((s.eraseBridgeCloser ref).closeOne o).releaseBridge fr ref b = s.teardown ref o peer := by
  have hgone : ((s.eraseBridgeCloser ref).closeOne o).bridge ref = none := by
    rw [bridge_of_scMap_eq (closeOne_scMap _ _), eraseBridgeCloser_bridge, if_pos rfl]
  have hpeer : ((s.eraseBridgeCloser ref).closeOne o).conns peer = s.conns peer :=
    closeOne_conns_of_ne _ h.ne.symm
  rw [releaseBridge, hgone]
  apply destroyBridgeWith_eq h.ne hb
  · simp [closeOne_conns]
  · exact lock_of_pooled (closeOne_pooled h.ne.symm h.end_left.pooled h.end_right.pooled)
  · exact forceClose_single (hpeer ▸ h.end_right.connected) (h.unregistered o)

theorem Bridged.handleClose (h : s.Bridged ref o peer) (hfr : ref.bridgeId ∉ fr.bridges) :
    s.handleClose fr o = s.teardown ref o peer := by
  obtain ⟨k, hk⟩ : ∃ k, s.drawn.length = k + 1 :=
    Nat.exists_eq_succ_of_ne_zero (Nat.pos_iff_ne_zero.mp (List.length_pos_of_mem h.drawn))
  rw [NServer.handleClose, hk]
  exact handleCloseFuel_bridged h hfr

/-- A closed end is in no pool, and no other connection has left one. -/
theorem teardown_pools_eq_some (h : s.BridgesOpen) (hbr : s.Bridged ref o peer) (srv : ServerRef)
    (id : ConnId) (p : Obj) : (s.teardown ref o peer).pools srv id = some p ↔
      s.pools srv id = some p ∧ p ≠ o ∧ p ≠ peer := by
  rw [teardown_pools hbr.ne]
  constructor
  · intro hp
    split at hp
    · cases hp
    · rename_i hkey
      obtain ⟨hsrv, hid⟩ := h.filed hp
      refine ⟨hp, ?_, ?_⟩
      · rintro rfl
        exact hkey (.inr ⟨hsrv.symm, hid.symm⟩)
      · rintro rfl
        exact hkey (.inl ⟨hsrv.symm, hid.symm⟩)
  · rintro ⟨hp, hpo, hpp⟩
    rw [if_neg, hp]
    -- the keys of the two ends are their own
    rintro (⟨rfl, rfl⟩ | ⟨rfl, rfl⟩)
    · rw [hbr.end_right.pooled, Option.some.injEq] at hp
      exact hpp hp.symm
    · rw [hbr.end_left.pooled, Option.some.injEq] at hp
      exact hpo hp.symm

end Teardown

/-- `handle_close` on either end of a bridge ends, with both ends closed once, out of
the poller and out of their pools, and with no other connection, bridge or queue
changed.  While the bridge is still being set up, the second end is closed when the
function that does it lets go of the bridge. -/
theorem bridge_close_cascade (s : NServer) (h : s.BridgesOpen) (ref : BridgeRef) (b : BridgeCloser)
    (hb : s.bridge ref = some b) (o peer : Obj) (hends : b = ⟨o, peer⟩ ∨ b = ⟨peer, o⟩) :
    ∃ s' : NServer,
      (∀ fr fuel, ref.bridgeId ∉ fr.bridges → 2 ≤ fuel → handleCloseFuel fuel fr s o = s') ∧
      (∀ fr, ref.bridgeId ∉ fr.bridges → s.handleClose fr o = s') ∧
      (∀ fr fr', ref.bridgeId ∈ fr.bridges →
        (s.handleClose fr o).releaseBridge fr' ref b = s') ∧
      (∀ p, p = o ∨ p = peer → (s'.conns p).state = .disconnected ∧
        (s'.conns p).isEpolled = false ∧
        (s'.conns p).closedAt = (s.conns p).closedAt ++ [(s.conns p).sent] ∧
        ∀ srv id, s'.pools srv id ≠ some p) ∧
      (∀ p, p ≠ o → p ≠ peer → s'.conns p = s.conns p ∧
        ∀ srv id, s'.pools srv id = some p ↔ s.pools srv id = some p) ∧
      (∀ r, s'.bridge r = if r = ref then none else s.bridge r) ∧
      ∀ nonce, s'.queue nonce = s.queue nonce := by
  have hbr : s.Bridged ref o peer := by
    rcases hends with rfl | rfl
    · exact h.ends hb
    · exact (h.ends hb).symm
  refine ⟨s.teardown ref o peer, ?_, fun fr hfr => hbr.handleClose hfr, ?_, ?_, ?_,
    teardown_bridge, teardown_queue⟩
  · intro fr fuel hfr hfuel
    -- one level for each end: the notice of the second finds no bridge
    obtain ⟨k, rfl⟩ : ∃ k, fuel = k + 2 := ⟨fuel - 2, by omega⟩
    exact handleCloseFuel_bridged hbr hfr
  · intro fr fr' hfr
    rw [handleClose, handleCloseFuel_held hbr hfr]
    exact releaseBridge_teardown hbr hends
  · intro p hp
    rw [teardown_conns hbr.ne, if_pos hp]
    refine ⟨rfl, rfl, rfl, fun srv id hpool => ?_⟩
    obtain ⟨-, hpo, hpp⟩ := (teardown_pools_eq_some h hbr srv id p).mp hpool
    exact hp.elim hpo hpp
  · intro p hpo hpp
    rw [teardown_conns hbr.ne, if_neg (not_or.mpr ⟨hpo, hpp⟩)]
    refine ⟨rfl, fun srv id => ?_⟩
    rw [teardown_pools_eq_some h hbr]
    exact ⟨fun hp => hp.1, fun hp => ⟨hp, hpo, hpp⟩⟩

/-- The visitor of the example is closed. -/
theorem bridge_close_cascade_example :
    ∃ s, Runs.checkedRun (NServer.step .wire) (Orderly .wire) exampleEvents (new 8080) = some s ∧
      ((s.handleClose ⟨[1], []⟩ 1).conns 1).state = .disconnected ∧
      ((s.handleClose ⟨[1], []⟩ 1).conns 2).state = .disconnected ∧
      (s.handleClose ⟨[1], []⟩ 1).bridge exampleRef = none := by
  obtain ⟨s, hs⟩ := Option.isSome_iff_exists.mp (by decide +kernel :
    (Runs.checkedRun (NServer.step .wire) (Orderly .wire) exampleEvents (new 8080)).isSome)
  have hbridge : (Runs.checkedRun (NServer.step .wire) (Orderly .wire) exampleEvents
      (new 8080)).bind (·.bridge exampleRef) = some ⟨1, 2⟩ := by
    decide +kernel
  rw [hs, Option.bind_some] at hbridge
  have hinv := (Runs.ReachableBy.of_checkedRun .refl hs).invariant (NServer.Inv none)
    (new_inv 8080) fun s ev s' hs hord he => hs.step .wire hord he
  obtain ⟨s', -, hclose, -, hends, -, hbr, -⟩ :=
    bridge_close_cascade s hinv.bridgesOpen exampleRef ⟨1, 2⟩ hbridge 1 2 (.inl rfl)
  refine ⟨s, hs, ?_⟩
  rw [hclose ⟨[1], []⟩ (by simp)]
  exact ⟨(hends 1 (.inl rfl)).1, (hends 2 (.inr rfl)).1, by rw [hbr, if_pos rfl]⟩

end NcxTunnel.NServer
