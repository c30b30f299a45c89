import Mathlib

/-!
# JSON values

The values of a JSON library that tells integers with a sign from those without
one and keeps an object as a map ordered by key.  Strings are bytes.  The library
itself, a printer and a parser, is a structure with the laws its users rely on.
-/

namespace NcxTunnel

inductive Json where
  | null
  | boolean (b : Bool)
  | numberInteger (n : Int64)
  | numberUnsigned (n : UInt64)
  /-- the bits of a `double` -/
  | numberFloat (bits : UInt64)
  | string (s : List UInt8)
  | array (xs : List Json)
  | object (ms : List (List UInt8 × Json))
deriving Repr

namespace Json

/-- The exceptions of the library, with their texts. -/
inductive ErrorKind where
  | parseError
  | invalidIterator
  | typeError
  | outOfRange
  | otherError
deriving Repr, DecidableEq

structure Error where
  kind : ErrorKind
  what : List UInt8
deriving Repr, DecidableEq

/-! ## Kinds and members -/

def isString : Json → Bool
  | string _ => true
  | _ => false

/-- Of either kind. -/
def isNumberInteger : Json → Bool
  | numberInteger _ => true
  | numberUnsigned _ => true
  | _ => false

def isArray : Json → Bool
  | array _ => true
  | _ => false

def member? (key : List UInt8) : List (List UInt8 × Json) → Option Json
  | [] => none
  | m :: ms => if key = m.1 then some m.2 else member? key ms

/-- A value that is no object has no members. -/
def find? (j : Json) (key : List UInt8) : Option Json :=
  match j with
  | object ms => member? key ms
  | _ => none

def contains (j : Json) (key : List UInt8) : Bool := (j.find? key).isSome

/-- The value of an integer. -/
def integer? : Json → Option ℤ
  | numberInteger n => some n.toInt
  | numberUnsigned n => some n.toNat
  | _ => none

def string? : Json → Option (List UInt8)
  | string s => some s
  | _ => none

/-- Keys are compared byte by byte, without sign. -/
def KeyLt (a b : List UInt8) : Prop := a.map UInt8.toNat < b.map UInt8.toNat

instance (a b : List UInt8) : Decidable (KeyLt a b) := inferInstanceAs (Decidable (_ < _))

/-- Assignment to a member of an ordered map. -/
def setMember (key : List UInt8) (v : Json) : List (List UInt8 × Json) → List (List UInt8 × Json)
  | [] => [(key, v)]
  | m :: ms =>
      if KeyLt key m.1 then (key, v) :: m :: ms
      else if key = m.1 then (key, v) :: ms
      else m :: setMember key v ms

/-- A fresh value to whose members these are assigned one after the other. -/
def ofAssignments (ms : List (List UInt8 × Json)) : Json :=
  object (ms.foldl (fun acc m => setMember m.1 m.2 acc) [])

theorem member?_setMember (key k : List UInt8) (v : Json) (ms : List (List UInt8 × Json)) :
    member? k (setMember key v ms) = if k = key then some v else member? k ms := by
  induction ms with
  | nil => rfl
  | cons m ms ih =>
    rw [setMember]
    by_cases hlt : KeyLt key m.1
    · rw [if_pos hlt, member?]
    · rw [if_neg hlt]
      by_cases heq : key = m.1
      · rw [if_pos heq, member?, member?, ← heq]
        split <;> rfl
      · rw [if_neg heq, member?, member?, ih]
        by_cases hk : k = m.1
        · rw [if_pos hk, if_neg (hk ▸ Ne.symm heq), if_pos hk]
        · rw [if_neg hk, if_neg hk]

/-- Members in order, each key once. -/
def KeysSorted (ms : List (List UInt8 × Json)) : Prop := (ms.map Prod.fst).Pairwise KeyLt

instance (ms : List (List UInt8 × Json)) : Decidable (KeysSorted ms) :=
  inferInstanceAs (Decidable (List.Pairwise _ _))

theorem keyLt_trichotomy (a b : List UInt8) : KeyLt a b ∨ a = b ∨ KeyLt b a := by
  rcases lt_trichotomy (a.map UInt8.toNat) (b.map UInt8.toNat) with h | h | h
  · exact .inl h
  · exact .inr (.inl (List.map_injective_iff.mpr (fun _ _ => UInt8.toNat_inj.mp) h))
  · exact .inr (.inr h)

theorem mem_setMember {key : List UInt8} {v : Json} {ms : List (List UInt8 × Json)}
    {m : List UInt8 × Json} (h : m ∈ setMember key v ms) : m = (key, v) ∨ m ∈ ms := by
  induction ms with
  | nil => exact .inl (List.mem_singleton.mp h)
  | cons m' ms ih =>
    rw [setMember] at h
    split_ifs at h with hlt heq
    · exact List.mem_cons.mp h
    · rcases List.mem_cons.mp h with h | h
      · exact .inl h
      · exact .inr (List.mem_cons_of_mem _ h)
    · rcases List.mem_cons.mp h with h | h
      · exact .inr (h ▸ List.mem_cons_self)
      · exact (ih h).imp_right (List.mem_cons_of_mem _)

theorem KeysSorted.setMember {ms : List (List UInt8 × Json)} (h : KeysSorted ms)
    (key : List UInt8) (v : Json) : KeysSorted (setMember key v ms) := by
  induction ms with
  | nil => exact List.pairwise_singleton _ _
  | cons m ms ih =>
    obtain ⟨hhead, htail⟩ := List.pairwise_cons.mp h
    rw [Json.setMember]
    split_ifs with hlt heq
    · refine List.pairwise_cons.mpr ⟨fun k hk => ?_, h⟩
      rcases List.mem_cons.mp hk with rfl | hk
      · exact hlt
      · exact lt_trans hlt (hhead k hk)
    · rw [← heq] at hhead
      exact List.pairwise_cons.mpr ⟨hhead, htail⟩
    · have hgt : KeyLt m.1 key := by
        rcases keyLt_trichotomy key m.1 with h | h | h
        · exact absurd h hlt
        · exact absurd h heq
        · exact h
      refine List.pairwise_cons.mpr ⟨fun k hk => ?_, ih htail⟩
      obtain ⟨m', hm', rfl⟩ := List.mem_map.mp hk
      rcases mem_setMember hm' with rfl | hm'
      · exact hgt
      · exact hhead _ (List.mem_map_of_mem hm')

/-! ## What holds of every value inside -/

mutual

/-- The condition holds of the value and of all values in it. -/
def all (p : Json → Bool) : Json → Bool
  | null => p null
  | boolean b => p (boolean b)
  | numberInteger n => p (numberInteger n)
  | numberUnsigned n => p (numberUnsigned n)
  | numberFloat x => p (numberFloat x)
  | string s => p (string s)
  | array xs => p (array xs) && allElements p xs
  | object ms => p (object ms) && allMembers p ms

def allElements (p : Json → Bool) : List Json → Bool
  | [] => true
  | j :: xs => all p j && allElements p xs

def allMembers (p : Json → Bool) : List (List UInt8 × Json) → Bool
  | [] => true
  | (_, j) :: ms => all p j && allMembers p ms

end

/-- The strings of the value itself are UTF-8. -/
def validNode : Json → Bool
  | string s => decide s.toByteArray.IsValidUTF8
  | object ms => ms.all fun m => decide m.1.toByteArray.IsValidUTF8
  | _ => true

/-- Nothing is lost in print: no fractions, and members in the order of the map. -/
def exactNode : Json → Bool
  | numberFloat _ => false
  | object ms => decide (KeysSorted ms)
  | _ => true

mutual

/-- What is read back: an integer without a sign has the other kind. -/
def normalize : Json → Json
  | null => null
  | boolean b => boolean b
  | numberInteger n => if 0 ≤ n.toInt then numberUnsigned n.toUInt64 else numberInteger n
  | numberUnsigned n => numberUnsigned n
  | numberFloat x => numberFloat x
  | string s => string s
  | array xs => array (normalizeElements xs)
  | object ms => object (normalizeMembers ms)

def normalizeElements : List Json → List Json
  | [] => []
  | j :: xs => normalize j :: normalizeElements xs

def normalizeMembers : List (List UInt8 × Json) → List (List UInt8 × Json)
  | [] => []
  | (key, j) :: ms => (key, normalize j) :: normalizeMembers ms

end

theorem normalizeElements_eq (xs : List Json) : normalizeElements xs = xs.map normalize := by
  induction xs with
  | nil => rfl
  | cons j xs ih => rw [normalizeElements, ih, List.map_cons]

theorem allElements_iff {p : Json → Bool} {xs : List Json} :
    allElements p xs = true ↔ ∀ j ∈ xs, j.all p = true := by
  induction xs with
  | nil => simp [allElements]
  | cons j xs ih => rw [allElements, Bool.and_eq_true, ih, List.forall_mem_cons]

theorem allMembers_iff {p : Json → Bool} {ms : List (List UInt8 × Json)} :
    allMembers p ms = true ↔ ∀ m ∈ ms, m.2.all p = true := by
  induction ms with
  | nil => simp [allMembers]
  | cons m ms ih => rw [allMembers, Bool.and_eq_true, ih, List.forall_mem_cons]

theorem normalizeMembers_keys (ms : List (List UInt8 × Json)) :
    (normalizeMembers ms).map Prod.fst = ms.map Prod.fst := by
  induction ms with
  | nil => rfl
  | cons m ms ih => rw [normalizeMembers, List.map_cons, List.map_cons, ih]

theorem find?_normalize (j : Json) (key : List UInt8) :
    j.normalize.find? key = (j.find? key).map normalize := by
  cases j with
  | object ms =>
    change member? key (normalizeMembers ms) = (member? key ms).map normalize
    induction ms with
    | nil => rfl
    | cons m ms ih =>
      rw [normalizeMembers, member?, member?, ih]
      split <;> rfl
  | numberInteger n =>
    rw [normalize]
    split <;> rfl
  | _ => rfl

mutual

/-- A condition on the nodes that reading back does not touch. -/
theorem all_normalize {p : Json → Bool} (hp : ∀ j, p j.normalize = p j) :
    ∀ j : Json, j.normalize.all p = j.all p
  | null => rfl
  | boolean b => rfl
  | numberInteger n => by
    have h := hp (numberInteger n)
    rw [normalize] at h ⊢
    by_cases hn : 0 ≤ n.toInt
    · rw [if_pos hn] at h ⊢
      exact h
    · rw [if_neg hn]
  | numberUnsigned n => rfl
  | numberFloat x => rfl
  | string s => rfl
  | array xs => by
    have h := hp (array xs)
    rw [normalize] at h ⊢
    rw [all, all, h, allElements_normalize hp xs]
  | object ms => by
    have h := hp (object ms)
    rw [normalize] at h ⊢
    rw [all, all, h, allMembers_normalize hp ms]

theorem allElements_normalize {p : Json → Bool} (hp : ∀ j, p j.normalize = p j) :
    ∀ xs, allElements p (normalizeElements xs) = allElements p xs
  | [] => rfl
  | j :: xs => by
    rw [normalizeElements, allElements, allElements, all_normalize hp j,
      allElements_normalize hp xs]

theorem allMembers_normalize {p : Json → Bool} (hp : ∀ j, p j.normalize = p j) :
    ∀ ms, allMembers p (normalizeMembers ms) = allMembers p ms
  | [] => rfl
  | (key, j) :: ms => by
    rw [normalizeMembers, allMembers, allMembers, all_normalize hp j, allMembers_normalize hp ms]

end

mutual

theorem normalize_normalize : ∀ j : Json, j.normalize.normalize = j.normalize
  | null => rfl
  | boolean b => rfl
  | numberInteger n => by
    rw [normalize]
    split
    · rfl
    · rename_i h
      rw [normalize, if_neg h]
  | numberUnsigned n => rfl
  | numberFloat x => rfl
  | string s => rfl
  | array xs => by rw [normalize, normalize, normalizeElements_normalize xs]
  | object ms => by rw [normalize, normalize, normalizeMembers_normalize ms]

theorem normalizeElements_normalize :
    ∀ xs, normalizeElements (normalizeElements xs) = normalizeElements xs
  | [] => rfl
  | j :: xs => by
    rw [normalizeElements, normalizeElements, normalize_normalize j,
      normalizeElements_normalize xs]

theorem normalizeMembers_normalize :
    ∀ ms, normalizeMembers (normalizeMembers ms) = normalizeMembers ms
  | [] => rfl
  | (key, j) :: ms => by
    rw [normalizeMembers, normalizeMembers, normalize_normalize j, normalizeMembers_normalize ms]

end

theorem validNode_normalize (j : Json) : validNode j.normalize = validNode j := by
  cases j with
  | object ms =>
    have hkeys : ∀ ms : List (List UInt8 × Json),
        (ms.all fun m => decide m.1.toByteArray.IsValidUTF8) =
          (ms.map Prod.fst).all fun k => decide k.toByteArray.IsValidUTF8 := by
      intro ms
      rw [List.all_map]
      rfl
    rw [normalize, validNode, validNode, hkeys, hkeys, normalizeMembers_keys]
  | numberInteger n =>
    rw [normalize]
    split <;> rfl
  | _ => rfl

theorem exactNode_normalize (j : Json) : exactNode j.normalize = exactNode j := by
  cases j with
  | object ms =>
    rw [normalize]
    refine decide_eq_decide.mpr ?_
    rw [KeysSorted, KeysSorted, normalizeMembers_keys]
  | numberInteger n =>
    rw [normalize]
    split <;> rfl
  | _ => rfl

theorem mem_foldl_setMember {ms acc : List (List UInt8 × Json)} {m : List UInt8 × Json}
    (h : m ∈ ms.foldl (fun acc m => setMember m.1 m.2 acc) acc) : m ∈ ms ∨ m ∈ acc := by
  induction ms generalizing acc with
  | nil => exact .inr h
  | cons m' ms ih =>
    rcases ih h with hm | hm
    · exact .inl (List.mem_cons_of_mem _ hm)
    · rcases mem_setMember hm with rfl | hm
      · exact .inl List.mem_cons_self
      · exact .inr hm

theorem member?_foldl_setMember {ms acc : List (List UInt8 × Json)} {key : List UInt8}
    (h : key ∉ ms.map Prod.fst) :
    member? key (ms.foldl (fun acc m => setMember m.1 m.2 acc) acc) = member? key acc := by
  induction ms generalizing acc with
  | nil => rfl
  | cons m ms ih =>
    rw [List.map_cons, List.mem_cons, not_or] at h
    rw [List.foldl_cons, ih h.2, member?_setMember, if_neg h.1]

/-- With distinct keys every assignment is found again. -/
theorem find?_ofAssignments {ms : List (List UInt8 × Json)} (hkeys : (ms.map Prod.fst).Nodup)
    {key : List UInt8} {v : Json} (h : (key, v) ∈ ms) :
    (ofAssignments ms).find? key = some v := by
  obtain ⟨before, after, rfl⟩ := List.append_of_mem h
  change member? key (List.foldl _ [] (before ++ (key, v) :: after)) = some v
  have hlast : key ∉ after.map Prod.fst := by
    rw [List.map_append, List.map_cons, List.nodup_append, List.nodup_cons] at hkeys
    exact hkeys.2.1.1
  rw [List.foldl_append, List.foldl_cons, member?_foldl_setMember hlast, member?_setMember,
    if_pos rfl]

theorem keysSorted_foldl_setMember {ms acc : List (List UInt8 × Json)} (h : KeysSorted acc) :
    KeysSorted (ms.foldl (fun acc m => setMember m.1 m.2 acc) acc) := by
  induction ms generalizing acc with
  | nil => exact h
  | cons m ms ih => exact ih (h.setMember m.1 m.2)

theorem all_ofAssignments {p : Json → Bool} {ms : List (List UInt8 × Json)}
    (hnode : p (ofAssignments ms) = true) (h : ∀ m ∈ ms, m.2.all p = true) :
    (ofAssignments ms).all p = true := by
  refine Bool.and_eq_true_iff.mpr ⟨hnode, allMembers_iff.mpr fun m hm => ?_⟩
  rcases mem_foldl_setMember hm with hm | hm
  · exact h m hm
  · cases hm

theorem exact_ofAssignments {ms : List (List UInt8 × Json)}
    (h : ∀ m ∈ ms, m.2.all exactNode = true) : (ofAssignments ms).all exactNode = true :=
  all_ofAssignments (decide_eq_true (keysSorted_foldl_setMember List.Pairwise.nil)) h

theorem valid_ofAssignments {ms : List (List UInt8 × Json)}
    (hkeys : ∀ m ∈ ms, m.1.toByteArray.IsValidUTF8) (h : ∀ m ∈ ms, m.2.all validNode = true) :
    (ofAssignments ms).all validNode = true := by
  refine all_ofAssignments (List.all_eq_true.mpr fun m hm => decide_eq_true ?_) h
  rcases mem_foldl_setMember hm with hm | hm
  · exact hkeys m hm
  · cases hm

/-- What holds of all values in an object holds of its members. -/
theorem all_of_find? {p : Json → Bool} {j v : Json} {key : List UInt8} (h : j.all p = true)
    (hv : j.find? key = some v) : v.all p = true := by
  cases j with
  | object ms =>
    have hall := allMembers_iff.mp (Bool.and_eq_true_iff.mp h).2
    change member? key ms = some v at hv
    clear h
    induction ms with
    | nil => cases hv
    | cons m ms ih =>
      rw [List.forall_mem_cons] at hall
      rw [member?] at hv
      split at hv
      · cases hv
        exact hall.1
      · exact ih hall.2 hv
  | _ => cases hv

/-- The kind of an integer changes, its value does not. -/
theorem integer?_normalize (j : Json) : j.normalize.integer? = j.integer? := by
  cases j with
  | numberInteger n =>
    rw [normalize]
    split_ifs with hn
    · have hn' : 0 ≤ n := Int64.le_iff_toInt_le.mpr hn
      rw [integer?, integer?, Int64.toNat_toUInt64_of_le hn', ← Int64.toInt_eq_toNatClampNeg hn']
    · rfl
  | _ => rfl

theorem string?_normalize (j : Json) : j.normalize.string? = j.string? := by
  cases j with
  | numberInteger n =>
    rw [normalize]
    split <;> rfl
  | _ => rfl

/-- A printer and a parser.  Printing throws if a string is not UTF-8; what is
printed otherwise can be read back. -/
structure Library where
  dump : Json → Except Error (List UInt8)
  parse : List UInt8 → Except Error Json
  dump_throws : ∀ j : Json, j.all validNode = false → ∃ e, dump j = .error e
  parse_dump : ∀ j : Json, j.all validNode = true → j.all exactNode = true →
    ∃ text, dump j = .ok text ∧ parse text = .ok j.normalize

end Json

end NcxTunnel
