import NcxTunnel.NClient

/-!
# The registry of control channels

`cc_map_` of the client while the server gives its channels their ids.  The callback
is `emplace(new_id, move(cc_map_[old_id])); erase(old_id)`: it makes no entry and
destroys no channel as long as the old id is a key and the new one is not.
-/

namespace NcxTunnel

section Index

variable {κ α : Type*} {m : κ → Option (Option α)} {index : α → Option κ}

/-- The map holds what the index says, each object under one key, and nothing else. -/
structure Indexes (m : κ → Option (Option α)) (index : α → Option κ) : Prop where
  not_null : ∀ k, m k ≠ some none
  filed : ∀ k o, m k = some (some o) ↔ index o = some k

theorem Indexes.exists_of_isSome (h : Indexes m index) {k : κ} (hk : (m k).isSome) :
    ∃ o, m k = some (some o) ∧ index o = some k := by
  obtain ⟨v, hv⟩ := Option.isSome_iff_exists.mp hk
  cases v with
  | none => exact absurd hv (h.not_null k)
  | some o => exact ⟨o, hv, (h.filed k o).mp hv⟩

variable [DecidableEq κ] [DecidableEq α]

/-- A new object under a free key. -/
theorem Indexes.insert (h : Indexes m index) {k : κ} {o : α} (hk : m k = none)
    (ho : index o = none) :
    Indexes (Function.update m k (some (some o))) (Function.update index o (some k)) := by
  refine ⟨fun k' => ?_, fun k' p => ?_⟩
  · by_cases hkk : k' = k
    · simp [hkk]
    · rw [Function.update_of_ne hkk]
      exact h.not_null k'
  · have hkey := h.filed k' p
    by_cases hkk : k' = k <;> by_cases hpo : p = o
    · simp [hkk, hpo]
    · rw [hkk, hk] at hkey
      simp_all [Function.update_of_ne, eq_comm]
    · rw [hpo, ho] at hkey
      simp_all [Function.update_of_ne, eq_comm]
    · rw [Function.update_of_ne hkk, Function.update_of_ne hpo]
      exact hkey

/-- An object moves from its key to a free one. -/
theorem Indexes.rename (h : Indexes m index) {old new : κ} {o : α} (hold : index o = some old)
    (hnew : m new = none) :
    Indexes (Function.update (Function.update m new (some (some o))) old none)
      (Function.update index o (some new)) := by
  have hfiled : m old = some (some o) := (h.filed old o).mpr hold
  have hne : new ≠ old := by
    rintro rfl
    rw [hnew] at hfiled
    cases hfiled
  -- first out of the map, then in again under the new key
  have hout : Indexes (Function.update m old none) (Function.update index o none) := by
    refine ⟨fun k => ?_, fun k p => ?_⟩
    · by_cases hk : k = old
      · simp [hk]
      · rw [Function.update_of_ne hk]
        exact h.not_null k
    · have hkey := h.filed k p
      by_cases hk : k = old <;> by_cases hpo : p = o
      · simp [hk, hpo]
      · rw [hk, hfiled] at hkey
        simp_all [Function.update_of_ne, eq_comm]
      · rw [hpo, hold] at hkey
        simp_all [Function.update_of_ne, eq_comm]
      · rw [Function.update_of_ne hk, Function.update_of_ne hpo]
        exact hkey
  have hfree : Function.update m old none new = none := by rw [Function.update_of_ne hne, hnew]
  have hin := hout.insert hfree (Function.update_self o none index)
  rwa [Function.update_idem, Function.update_comm hne.symm] at hin

omit [DecidableEq κ] [DecidableEq α] in
theorem Indexes.encard_keys (h : Indexes m index) :
    {k | (m k).isSome}.encard = {o | (index o).isSome}.encard := by
  have hinj : Set.InjOn m {k | (m k).isSome} := by
    intro k hk k' hk' he
    obtain ⟨o, hm, hix⟩ := h.exists_of_isSome hk
    rw [(h.filed k' o).mp (he ▸ hm), Option.some.injEq] at hix
    exact hix.symm
  have hown : Function.Injective fun o : α => some (some o) :=
    (Option.some_injective _).comp (Option.some_injective _)
  rw [← hinj.encard_image, ← hown.encard_image {o | (index o).isSome}]
  congr 1
  ext v
  constructor
  · rintro ⟨k, hk, rfl⟩
    obtain ⟨o, hm, hix⟩ := h.exists_of_isSome hk
    refine ⟨o, ?_, hm.symm⟩
    rw [Set.mem_ofPred_eq, hix, Option.isSome_some]
  · rintro ⟨o, ho, rfl⟩
    obtain ⟨k, hk⟩ := Option.isSome_iff_exists.mp ho
    have hm := (h.filed k o).mpr hk
    exact ⟨k, by rw [Set.mem_ofPred_eq, hm, Option.isSome_some], hm⟩

end Index

/-! ## What a read event does to a channel -/

/-- The arguments stay, and the id is the last nonce handed to the callback. -/
theorem CControlChannel.handleDataIn_id (pb : Protobuf) (c : CControlChannel) (chunk : Bytes) :
    (c.handleDataIn pb chunk).2.id = (c.registers pb chunk).getD c.id ∧
      (c.handleDataIn pb chunk).2.args = c.args := by
  rcases ha : attemptBytes (c.inputBuffer ++ chunk) with ⟨_ | p, buf⟩
  · cases hon : c.onMessage <;>
      simp [handleDataIn, handleMessage, registers, greeting, hon, waitControlChannelHello,
        waitServerCmd, ha]
  · cases hon : c.onMessage with
    | unset => simp [handleDataIn, handleMessage, registers, greeting, hon]
    | waitControlChannelHello =>
      cases htype : (pb.parseHello p).2.helloType <;>
        simp [handleDataIn, handleMessage, registers, greeting, hon, waitControlChannelHello, ha,
          htype, handleControlChannelHello]
    | waitServerCmd =>
      cases hcmd : (pb.parseControlChannelCmd p).2.controlChannelCmd <;>
        simp [handleDataIn, handleMessage, registers, greeting, hon, waitServerCmd, ha, hcmd,
          handleCmdCreateDatachannel]

namespace NClient

def ids (s : NClient) (o : Obj) : Option Bytes := (s.controls o).map (·.channel.id)

/-- One channel for each service, and `cc_map_` files each under its id. -/
structure Registered (args : List (Bytes × CControlChannelArgs)) (s : NClient) : Prop where
  channels : ∀ o, (s.controls o).map (·.channel.args) = args[o]?.map Prod.snd
  indexed : Indexes s.ccMap s.ids
  known : ∀ o c, s.controls o = some c →
    c.channel.id ∈ args.map Prod.fst ∨ c.channel.id ∈ c.received

/-- A nonce is neither a UUID that the client has drawn nor one received before. -/
def FreshNonce (pb : Protobuf) (uuids : List Bytes) (s : NClient) : Event → Prop
  | .connect _ _ => True
  | .readable o chunk _ => ∀ c ∈ s.controls o, c.connected →
      ∀ nonce ∈ c.channel.registers pb chunk, nonce ∉ uuids ∧
        ∀ p < uuids.length, ∀ c' ∈ s.controls p, nonce ∉ c'.received

instance (pb : Protobuf) (uuids : List Bytes) (s : NClient) (ev : Event) :
    Decidable (s.FreshNonce pb uuids ev) :=
  match ev with
  | .connect _ _ => inferInstanceAs (Decidable True)
  | .readable o chunk _ => inferInstanceAs (Decidable (∀ c ∈ s.controls o, c.connected →
      ∀ nonce ∈ c.channel.registers pb chunk, nonce ∉ uuids ∧
        ∀ p < uuids.length, ∀ c' ∈ s.controls p, nonce ∉ c'.received))

variable {args : List (Bytes × CControlChannelArgs)} {s : NClient}

theorem ids_setControl (s : NClient) (o : Obj) (c : ControlClient) :
    (s.setControl o (some c)).ids = Function.update s.ids o (some c.channel.id) := by
  funext p
  simp only [ids, setControl, Function.update_apply]
  split <;> rfl

theorem ids_eq_some {o : Obj} {id : Bytes} :
    s.ids o = some id ↔ ∃ c, s.controls o = some c ∧ c.channel.id = id := Option.map_eq_some_iff

theorem Registered.lt_length (h : s.Registered args) {o : Obj} {c : ControlClient}
    (hc : s.controls o = some c) : o < args.length := by
  have hargs := h.channels o
  rw [hc, Option.map_some] at hargs
  obtain ⟨a, ha, -⟩ := Option.map_eq_some_iff.mp hargs.symm
  exact (List.getElem?_eq_some_iff.mp ha).1

/-- The channels are numbered like the services. -/
theorem Registered.ids_isSome (h : s.Registered args) :
    {o | (s.ids o).isSome} = (Finset.range args.length : Set ℕ) := by
  ext o
  have hargs := congrArg Option.isSome (h.channels o)
  rw [Option.isSome_map, Option.isSome_map] at hargs
  rw [Finset.coe_range, Set.mem_Iio, Set.mem_ofPred_eq, ids, Option.isSome_map, hargs]
  simp

/-- A channel is changed, with its arguments as they were, and the map follows. -/
theorem Registered.setControl (h : s.Registered args) {o : Obj} {c c' : ControlClient}
    (hc : s.controls o = some c) (hargs : c'.channel.args = c.channel.args)
    (hknown : c'.channel.id ∈ args.map Prod.fst ∨ c'.channel.id ∈ c'.received)
    {m : CControlChannelMap} (hm : Indexes m (Function.update s.ids o (some c'.channel.id))) :
    Registered args { s.setControl o (some c') with ccMap := m } := by
  refine ⟨fun p => ?_, ?_, fun p c'' hp => ?_⟩
  · rw [setControl_controls]
    split
    · rename_i hpo
      rw [hpo, ← h.channels o, hc, Option.map_some, Option.map_some, hargs]
    · exact h.channels p
  · change Indexes m (s.setControl o (some c')).ids
    rwa [ids_setControl]
  · rw [setControl_controls] at hp
    split at hp
    · cases hp
      exact hknown
    · exact h.known p c'' hp

theorem Registered.keepId (h : s.Registered args) {o : Obj} {c c' : ControlClient}
    (hc : s.controls o = some c) (hargs : c'.channel.args = c.channel.args)
    (hid : c'.channel.id = c.channel.id) (hreceived : c'.received = c.received) :
    Registered args (s.setControl o (some c')) := by
  have hsame : Function.update s.ids o (some c'.channel.id) = s.ids := by
    rw [hid, Function.update_eq_self_iff]
    exact (ids_eq_some.mpr ⟨c, hc, rfl⟩).symm
  refine h.setControl hc hargs ?_ ?_
  · rw [hid, hreceived]
    exact h.known o c hc
  · rw [hsame]
    exact h.indexed

/-- A fresh nonce is not a key: every key is the id of a channel. -/
theorem Registered.not_key (h : s.Registered args) {nonce : Bytes}
    (huuid : nonce ∉ args.map Prod.fst)
    (hnew : ∀ p < (args.map Prod.fst).length, ∀ c ∈ s.controls p, nonce ∉ c.received) :
    s.ccMap nonce = none := by
  by_contra hkey
  obtain ⟨p, -, hid⟩ := h.indexed.exists_of_isSome (Option.isSome_iff_ne_none.mpr hkey)
  obtain ⟨c, hc, rfl⟩ := ids_eq_some.mp hid
  rcases h.known p c hc with hmem | hmem
  · exact huuid hmem
  · exact hnew p (by simpa using h.lt_length hc) c hc hmem

theorem addChannel_registered (h : s.Registered args) {id : Bytes} {a : CControlChannelArgs}
    (hfree : s.ccMap id = none) :
    ∃ s', s.addChannel args.length id a = .ok s' ∧ s'.Registered (args ++ [(id, a)]) ∧
      ∀ key, (s'.ccMap key).isSome → key = id ∨ (s.ccMap key).isSome := by
  have hnone : s.controls args.length = none := by
    cases hc : s.controls args.length with
    | none => rfl
    | some c => exact absurd (h.lt_length hc) (Nat.lt_irrefl _)
  refine ⟨_, by simp only [addChannel, hfree]; rfl, ⟨fun p => ?_, ?_, fun p c hp => ?_⟩,
    fun key hkey => ?_⟩
  · rw [setControl_controls]
    split
    · rename_i hp
      rw [hp, List.getElem?_concat_length]
      rfl
    · rename_i hp
      rw [h.channels p]
      by_cases hlt : p < args.length
      · rw [List.getElem?_append_left hlt]
      · have hge : args.length < p := Nat.lt_of_le_of_ne (Nat.le_of_not_lt hlt) (Ne.symm hp)
        rw [List.getElem?_eq_none (Nat.le_of_lt hge), List.getElem?_eq_none]
        rw [List.length_append]
        exact hge
  · change Indexes _ (s.setControl _ _).ids
    rw [ids_setControl]
    refine h.indexed.insert hfree ?_
    rw [ids, hnone, Option.map_none]
  · rw [setControl_controls] at hp
    rw [List.map_append]
    split at hp
    · cases hp
      exact .inl (List.mem_append_right _ List.mem_cons_self)
    · exact (h.known p c hp).imp_left (List.mem_append_left _)
  · by_cases hk : key = id
    · exact .inl hk
    · dsimp only at hkey
      rw [Function.update_of_ne hk] at hkey
      exact .inr hkey

/-- The loop of `parse_args`, with the channels made so far. -/
theorem parseArgs_registered {rest : List (Bytes × CControlChannelArgs)}
    (h : s.Registered args) (hkeys : ∀ key, (s.ccMap key).isSome → key ∈ args.map Prod.fst)
    (hids : ((args ++ rest).map Prod.fst).Nodup) :
    ∃ s', parseArgs args.length rest s = .ok s' ∧ s'.Registered (args ++ rest) := by
  induction rest generalizing args s with
  | nil => exact ⟨s, rfl, by rwa [List.append_nil]⟩
  | cons a rest ih =>
    have hfree : s.ccMap a.1 = none := by
      by_contra hkey
      have hmem := hkeys a.1 (Option.isSome_iff_ne_none.mpr hkey)
      rw [List.map_append, List.map_cons] at hids
      exact (List.disjoint_of_nodup_append hids) hmem List.mem_cons_self
    obtain ⟨s₁, he, hreg, hkeys₁⟩ := addChannel_registered h (a := a.2) hfree
    have hkeys' : ∀ key, (s₁.ccMap key).isSome → key ∈ (args ++ [a]).map Prod.fst := by
      intro key hkey
      rw [List.map_append]
      rcases hkeys₁ key hkey with rfl | hkey
      · exact List.mem_append_right _ List.mem_cons_self
      · exact List.mem_append_left _ (hkeys key hkey)
    rw [List.append_cons] at hids ⊢
    rw [parseArgs, he]
    have hrest := ih hreg hkeys' hids
    rwa [List.length_append] at hrest

theorem handleDataIn_registered {pb : Protobuf} (h : s.Registered args) {o : Obj}
    {c : ControlClient} (hc : s.controls o = some c) {chunk : Bytes} {e : ReadEnd}
    (hfresh : ∀ nonce ∈ c.channel.registers pb chunk, s.ccMap nonce = none) :
    ∃ s', s.handleDataIn pb o c chunk e = .ok s' ∧ s'.Registered args := by
  obtain ⟨hid, hargs⟩ := c.channel.handleDataIn_id pb chunk
  cases hreg : c.channel.registers pb chunk with
  | none =>
    rw [hreg, Option.getD_none] at hid
    refine ⟨_, by simp only [handleDataIn, hreg]; rfl, ?_⟩
    exact h.keepId hc hargs hid rfl
  | some nonce =>
    rw [hreg, Option.getD_some] at hid
    have hold : s.ids o = some c.channel.id := ids_eq_some.mpr ⟨c, hc, rfl⟩
    have hmap := registerControlChannel_eq ((h.indexed.filed _ _).mpr hold) (hfresh nonce hreg)
    refine ⟨_, by simp only [handleDataIn, hreg, hmap]; rfl, h.setControl hc hargs (.inr ?_) ?_⟩
    · dsimp only
      rw [hid]
      exact List.mem_append_right _ List.mem_cons_self
    · dsimp only
      rw [hid]
      exact h.indexed.rename hold (hfresh nonce hreg)

theorem step_registered {pb : Protobuf} (h : s.Registered args) {ev : Event}
    (hfresh : s.FreshNonce pb (args.map Prod.fst) ev) :
    ∃ s', step pb s ev = .ok s' ∧ s'.Registered args := by
  cases ev with
  | connect o writeFails =>
    cases hc : s.controls o with
    | none => exact ⟨s, by simp only [step, hc], h⟩
    | some c =>
      by_cases hunset : c.channel.onMessage = .unset
      · refine ⟨_, by simp only [step, hc, if_pos hunset]; rfl, ?_⟩
        exact h.keepId hc rfl rfl rfl
      · exact ⟨s, by simp only [step, hc, if_neg hunset], h⟩
  | readable o chunk e =>
    cases hc : s.controls o with
    | none => exact ⟨s, by simp only [step, hc], h⟩
    | some c =>
      by_cases hconn : c.connected = true
      · obtain ⟨s', hs', hreg⟩ := handleDataIn_registered h hc (e := e) fun nonce hn =>
          h.not_key (hfresh c hc hconn nonce hn).1 (hfresh c hc hconn nonce hn).2
        exact ⟨s', by simp only [step, hc, if_pos hconn, hs'], hreg⟩
      · exact ⟨s, by simp only [step, hc, if_neg hconn], h⟩

/-- With UUIDs and nonces all distinct, in every state after `parse_args`: each
service has its channel, the keys of `cc_map_` are the ids of the channels, one
for each, no entry is null, and no step destroys a channel that is in use. -/
theorem registry_bijective (pb : Protobuf) (args : List (Bytes × CControlChannelArgs))
    (hids : (args.map Prod.fst).Nodup) :
    ∃ s₀, new args = .ok s₀ ∧
      ∀ s, Runs.ReachableBy (step pb) (FreshNonce pb (args.map Prod.fst)) s₀ s →
        (∀ o, (s.controls o).map (·.channel.args) = args[o]?.map Prod.snd) ∧
        (∀ key, s.ccMap key ≠ some none) ∧
        (∀ key o, s.ccMap key = some (some o) ↔
          ∃ c, s.controls o = some c ∧ c.channel.id = key) ∧
        {key | (s.ccMap key).isSome}.encard = args.length ∧
        ∀ ev, s.FreshNonce pb (args.map Prod.fst) ev → ∃ s', step pb s ev = .ok s' := by
  have hempty : Registered [] ⟨fun _ => none, fun _ => none⟩ := by
    refine ⟨fun o => rfl, ⟨fun key h => ?_, fun key o => ?_⟩, fun o c hc => ?_⟩
    · cases h
    · exact ⟨fun h => absurd h (by simp), fun h => absurd h (by simp [ids])⟩
    · cases hc
  obtain ⟨s₀, hnew, hreg₀⟩ := parseArgs_registered hempty (fun key h => absurd h (by simp)) hids
  refine ⟨s₀, hnew, fun s hs => ?_⟩
  have hreg : s.Registered args := hs.invariant_of_exists (Registered args) hreg₀
    fun s ev h hpre => step_registered h hpre
  refine ⟨hreg.channels, hreg.indexed.not_null, fun key o => ?_, ?_, fun ev hev => ?_⟩
  · exact (hreg.indexed.filed key o).trans ids_eq_some
  · rw [hreg.indexed.encard_keys, hreg.ids_isSome, Set.encard_coe_eq_coe_finsetCard,
      Finset.card_range]
  · obtain ⟨s', hs', -⟩ := step_registered hreg hev
    exact ⟨s', hs'⟩

def exampleArgs : List (Bytes × CControlChannelArgs) := [([0x61], ⟨[], 80⟩), ([0x62], ⟨[], 81⟩)]

/-- The hello of the second arrives first. -/
def exampleHellos : List Event :=
  [.connect 0 false, .connect 1 false,
    .readable 1 (headerInstaller (Hello.serializeAsString
      ⟨some .controlChannelHello, some [0x79], none⟩)) .again,
    .readable 0 (headerInstaller (Hello.serializeAsString
      ⟨some .controlChannelHello, some [0x78], none⟩)) .again]

theorem registry_bijective_example :
    ∃ s₀ s, new exampleArgs = .ok s₀ ∧
      Runs.ReachableBy (step .wire) (FreshNonce .wire (exampleArgs.map Prod.fst)) s₀ s ∧
      s.ccMap [0x78] = some (some 0) ∧ s.ccMap [0x79] = some (some 1) ∧
      {key | (s.ccMap key).isSome}.encard = 2 := by
  obtain ⟨s₀, hnew, hall⟩ := registry_bijective .wire exampleArgs (by decide)
  have hview : ((new exampleArgs).toOption.bind (Runs.checkedRun (step .wire)
      (FreshNonce .wire (exampleArgs.map Prod.fst)) exampleHellos)).map
        (fun s => (s.ccMap [0x78], s.ccMap [0x79])) = some (some (some 0), some (some 1)) := by
    decide +kernel
  rw [hnew] at hview
  obtain ⟨s, hs, hkeys⟩ := Option.map_eq_some_iff.mp hview
  rw [Prod.mk.injEq] at hkeys
  have hreach := Runs.ReachableBy.refl.of_checkedRun hs
  exact ⟨s₀, s, hnew, hreach, hkeys.1, hkeys.2, (hall s hreach).2.2.2.1⟩

end NClient

end NcxTunnel
