import NcxTunnel.Json

/-!
# JSON texts

Values printed without white space, and a parser for such texts.  Fractions are
left out: a number with one is no text here.  Reading back what has been printed
gives the value, which makes printer and parser a library.
-/

namespace NcxTunnel.JsonText
open Json

def digit (n : ℕ) : UInt8 := UInt8.ofNat (48 + n)

def isDigit (c : UInt8) : Bool := decide (48 ≤ c.toNat ∧ c.toNat ≤ 57)

/-- At most `fuel + 1` digits, high ones first. -/
def decimal : ℕ → ℕ → List UInt8
  | 0, n => [digit n]
  | fuel + 1, n => if n < 10 then [digit n] else decimal fuel (n / 10) ++ [digit (n % 10)]

def decimalFuel : ℕ := 19

def value (ds : List UInt8) : ℕ := ds.foldl (fun acc d => 10 * acc + (d.toNat - 48)) 0

theorem toNat_digit {n : ℕ} (h : n < 10) : (digit n).toNat = 48 + n := by
  rw [digit, UInt8.toNat_ofNat']
  omega

theorem isDigit_digit {n : ℕ} (h : n < 10) : isDigit (digit n) = true := by
  rw [isDigit, toNat_digit h, decide_eq_true_iff]
  omega

theorem value_append (ds : List UInt8) (d : UInt8) :
    value (ds ++ [d]) = 10 * value ds + (d.toNat - 48) := by
  rw [value, List.foldl_append]
  rfl

/-- The digits stand for the number, and there is a leading zero only for zero. -/
structure Denotes (ds : List UInt8) (n : ℕ) : Prop where
  value_eq : value ds = n
  digits : ∀ d ∈ ds, isDigit d = true
  cons : ∃ d rest, ds = d :: rest ∧ (d = 48 → rest = [])

theorem denotes_digit {n : ℕ} (h : n < 10) : Denotes [digit n] n := by
  refine ⟨by simp [value, toNat_digit h], fun d hd => ?_, digit n, [], rfl, fun _ => rfl⟩
  rw [List.mem_singleton.mp hd]
  exact isDigit_digit h

theorem decimal_denotes {fuel n : ℕ} (h : n < 10 ^ (fuel + 1)) : Denotes (decimal fuel n) n := by
  induction fuel generalizing n with
  | zero => exact denotes_digit (by simpa using h)
  | succ fuel ih =>
    rw [decimal]
    split_ifs with hn
    · exact denotes_digit hn
    · have hdiv : n / 10 < 10 ^ (fuel + 1) := Nat.div_lt_of_lt_mul (by rwa [Nat.pow_succ'] at h)
      have hmod : n % 10 < 10 := Nat.mod_lt _ (by decide)
      obtain ⟨hvalue, hdigits, d, ds, hcons, hzero⟩ := ih hdiv
      refine ⟨?_, fun c hc => ?_, d, ds ++ [digit (n % 10)], by rw [hcons, List.cons_append],
        fun hd => ?_⟩
      · rw [value_append, hvalue, toNat_digit hmod]
        omega
      · rcases List.mem_append.mp hc with hc | hc
        · exact hdigits c hc
        · rw [List.mem_singleton.mp hc]
          exact isDigit_digit hmod
      -- a leading zero would be the only digit of `n / 10`, which is not zero
      · rw [hcons, hzero hd, hd] at hvalue
        simp [value] at hvalue
        omega

/-- A number goes on with these. -/
def continuesNumber (c : UInt8) : Bool :=
  isDigit c || decide (c = 0x2E ∨ c = 0x65 ∨ c = 0x45)

def NumberEnds (rest : List UInt8) : Prop := rest.head?.any continuesNumber = false

/-- The digits in front, unless there are none, a needless zero or a fraction. -/
def readDigits (text : List UInt8) : Option (ℕ × List UInt8) :=
  let ds := text.takeWhile isDigit
  let rest := text.dropWhile isDigit
  if ds = [] ∨ ds.head? = some 48 ∧ ds.length ≠ 1 ∨ rest.head?.any continuesNumber then none
  else some (value ds, rest)

theorem readDigits_decimal {n : ℕ} (h : n < 2 ^ 64) {rest : List UInt8} (hrest : NumberEnds rest) :
    readDigits (decimal decimalFuel n ++ rest) = some (n, rest) := by
  have hfuel : n < 10 ^ (decimalFuel + 1) := Nat.lt_trans h (by decide)
  obtain ⟨hvalue, hdigits, d, ds, hcons, hzero⟩ := decimal_denotes hfuel
  have hstop : rest.takeWhile isDigit = [] ∧ rest.dropWhile isDigit = rest := by
    cases rest with
    | nil => exact ⟨rfl, rfl⟩
    | cons c rest =>
      have hc : isDigit c = false := (Bool.or_eq_false_iff.mp hrest).1
      simp [hc]
  have htake : (decimal decimalFuel n ++ rest).takeWhile isDigit = decimal decimalFuel n := by
    rw [List.takeWhile_append_of_pos hdigits, hstop.1, List.append_nil]
  have hdrop : (decimal decimalFuel n ++ rest).dropWhile isDigit = rest := by
    rw [List.dropWhile_append_of_pos hdigits, hstop.2]
  rw [readDigits, htake, hdrop, hvalue, if_neg]
  rintro (hnil | ⟨hhead, hlen⟩ | hgoes)
  · rw [hcons] at hnil
    cases hnil
  · rw [hcons, List.head?_cons, Option.some.injEq] at hhead
    rw [hcons, hzero hhead] at hlen
    exact hlen rfl
  · rw [hrest] at hgoes
    cases hgoes

/-- Negative numbers have 64 bits with their sign, the others without one. -/
def readNumber (text : List UInt8) : Option (Json × List UInt8) :=
  match text with
  | [] => none
  | c :: rest =>
      if c = 0x2D then do
        let (n, rest) ← readDigits rest
        if n ≤ 2 ^ 63 then some (numberInteger (Int64.ofInt (-n)), rest) else none
      else do
        let (n, rest) ← readDigits text
        if n < 2 ^ 64 then some (numberUnsigned (UInt64.ofNat n), rest) else none

def integerText (n : ℤ) : List UInt8 :=
  if 0 ≤ n then decimal decimalFuel n.toNat else 0x2D :: decimal decimalFuel (-n).toNat

theorem isDigit_ne_minus {c : UInt8} (h : isDigit c = true) : c ≠ 0x2D := by
  rintro rfl
  exact absurd h (by decide)

theorem readNumber_unsigned (n : UInt64) {rest : List UInt8} (hrest : NumberEnds rest) :
    readNumber (decimal decimalFuel n.toNat ++ rest) = some (numberUnsigned n, rest) := by
  have hread := readDigits_decimal n.toNat_lt hrest
  obtain ⟨-, hdigits, d, ds, hcons, -⟩ :=
    decimal_denotes (Nat.lt_trans n.toNat_lt (by decide : 2 ^ 64 < 10 ^ (decimalFuel + 1)))
  have hd : d ≠ 0x2D := isDigit_ne_minus (hdigits d (hcons ▸ List.mem_cons_self))
  rw [hcons, List.cons_append] at hread ⊢
  simp only [readNumber, if_neg hd, hread, Option.bind_eq_bind, Option.bind_some,
    if_pos n.toNat_lt, UInt64.ofNat_toNat]

theorem readNumber_integer (n : Int64) {rest : List UInt8} (hrest : NumberEnds rest) :
    readNumber (integerText n.toInt ++ rest) = some (Json.normalize (numberInteger n), rest) := by
  have hlt := n.toInt_lt
  have hge := n.le_toInt
  rw [integerText, Json.normalize]
  split_ifs with hn
  · have hn' : 0 ≤ n := Int64.le_iff_toInt_le.mpr hn
    have htoNat : n.toUInt64.toNat = n.toInt.toNat := by
      rw [Int64.toNat_toUInt64_of_le hn', Int64.toInt_eq_toNatClampNeg hn', Int.toNat_natCast]
    rw [← htoNat, readNumber_unsigned _ hrest]
  · have hread := readDigits_decimal (show (-n.toInt).toNat < 2 ^ 64 by omega) hrest
    have hneg : -((-n.toInt).toNat : ℤ) = n.toInt := by omega
    simp only [List.cons_append, readNumber, if_true, hread, Option.bind_eq_bind, Option.bind_some]
    rw [if_pos (by omega), hneg, Int64.ofInt_toInt]

/-! ## Strings -/

/-- Characters with an escape of their own, and the letter of it. -/
def shortEscapes : List (UInt8 × UInt8) :=
  [(0x22, 0x22), (0x5C, 0x5C), (0x08, 0x62), (0x0C, 0x66), (0x0A, 0x6E), (0x0D, 0x72), (0x09, 0x74)]

def hexDigit (n : ℕ) : UInt8 := if n < 10 then UInt8.ofNat (48 + n) else UInt8.ofNat (87 + n)

def hexValue (c : UInt8) : Option ℕ :=
  if 48 ≤ c.toNat ∧ c.toNat ≤ 57 then some (c.toNat - 48)
  else if 97 ≤ c.toNat ∧ c.toNat ≤ 102 then some (c.toNat - 87)
  else if 65 ≤ c.toNat ∧ c.toNat ≤ 70 then some (c.toNat - 55)
  else none

def escape (c : UInt8) : List UInt8 :=
  match shortEscapes.find? fun p => p.1 = c with
  | some p => [0x5C, p.2]
  | none =>
      if c < 0x20 then [0x5C, 0x75, 48, 48, hexDigit (c.toNat / 16), hexDigit (c.toNat % 16)]
      else [c]

/-- The character an escape of two stands for. -/
def unescape (e : UInt8) : Option UInt8 :=
  if e = 0x2F then some 0x2F
  else (shortEscapes.find? fun p => p.2 = e).map Prod.fst

/-- One character.  Of the escapes by number those of one byte are known. -/
def readChar : List UInt8 → Option (UInt8 × List UInt8)
  | [] => none
  | c :: rest =>
      if c = 0x5C then
        match rest with
        | [] => none
        | e :: rest =>
            if e = 0x75 then
              match rest with
              | a :: b :: x :: y :: rest => do
                  let x ← hexValue x
                  let y ← hexValue y
                  if a = 48 ∧ b = 48 ∧ x < 8 then some (UInt8.ofNat (16 * x + y), rest) else none
              | _ => none
            else (unescape e).map (·, rest)
      else if c < 0x20 then none
      else some (c, rest)

/-- The characters up to the quotation mark. -/
def readChars : ℕ → List UInt8 → Option (List UInt8 × List UInt8)
  | 0, _ => none
  | fuel + 1, text =>
      if text.head? = some 0x22 then some ([], text.drop 1)
      else do
        let (c, rest) ← readChar text
        let (s, rest) ← readChars fuel rest
        return (c :: s, rest)

def readString (text : List UInt8) : Option (List UInt8 × List UInt8) :=
  match text with
  | [] => none
  | c :: rest => if c = 0x22 then readChars text.length rest else none

def quoted (s : List UInt8) : List UInt8 := 0x22 :: (s.flatMap escape ++ [0x22])

theorem escape_cases (c : UInt8) :
    (∃ e, escape c = [0x5C, e] ∧ e ≠ 0x75 ∧ unescape e = some c) ∨
    (∃ x y, escape c = [0x5C, 0x75, 48, 48, hexDigit x, hexDigit y] ∧
      hexValue (hexDigit x) = some x ∧ hexValue (hexDigit y) = some y ∧ x < 8 ∧
      UInt8.ofNat (16 * x + y) = c) ∨
    (escape c = [c] ∧ c ≠ 0x5C ∧ c ≠ 0x22 ∧ ¬c < 0x20) := by
  rw [escape]
  cases hfind : shortEscapes.find? fun p => p.1 = c with
  | some p =>
    have hmem := List.mem_of_find?_eq_some hfind
    have hp : p.1 = c := by simpa using List.find?_some hfind
    have hall : shortEscapes.all fun p => p.2 ≠ 0x75 ∧ unescape p.2 = some p.1 := by decide
    have hesc : p.2 ≠ 0x75 ∧ unescape p.2 = some p.1 := by
      simpa using List.all_eq_true.mp hall p hmem
    exact .inl ⟨p.2, rfl, hesc.1, hp ▸ hesc.2⟩
  | none =>
    by_cases hlo : c < 0x20
    · have hlt : c.toNat < 32 := UInt8.lt_iff_toNat_lt.mp hlo
      have hhex : ∀ n < 16, hexValue (hexDigit n) = some n := by decide +kernel
      refine .inr (.inl ⟨c.toNat / 16, c.toNat % 16, if_pos hlo, hhex _ (by omega),
        hhex _ (by omega), by omega, ?_⟩)
      rw [Nat.div_add_mod, UInt8.ofNat_toNat]
    · refine .inr (.inr ⟨if_neg hlo, ?_, ?_, hlo⟩)
      · rintro rfl
        exact absurd hfind (by decide)
      · rintro rfl
        exact absurd hfind (by decide)

theorem readChar_escape (c : UInt8) (rest : List UInt8) :
    readChar (escape c ++ rest) = some (c, rest) ∧ (escape c ++ rest).head? ≠ some 0x22 := by
  rcases escape_cases c with ⟨e, he, hu, hun⟩ | ⟨x, y, he, hx, hy, hlt, hc⟩ | ⟨he, hb, hq, hlo⟩
  · rw [he]
    exact ⟨by simp [readChar, hu, hun], by simp⟩
  · rw [he]
    refine ⟨?_, by simp⟩
    simp only [List.cons_append, readChar, if_true, hx, hy, Option.bind_eq_bind, Option.bind_some,
      List.nil_append, true_and, if_pos hlt, hc]
  · rw [he]
    exact ⟨by simp [readChar, hb, hlo], by simpa using hq⟩

theorem readChars_escaped (s : List UInt8) {fuel : ℕ} (h : s.length < fuel) (rest : List UInt8) :
    readChars fuel (s.flatMap escape ++ 0x22 :: rest) = some (s, rest) := by
  induction s generalizing fuel with
  | nil =>
    cases fuel with
    | zero => cases h
    | succ fuel => simp [readChars]
  | cons c s ih =>
    cases fuel with
    | zero => cases h
    | succ fuel =>
      obtain ⟨hread, hhead⟩ := readChar_escape c (s.flatMap escape ++ 0x22 :: rest)
      rw [List.flatMap_cons, List.append_assoc, readChars, if_neg hhead, hread]
      simp [ih (Nat.lt_of_succ_lt_succ h)]

theorem length_le_flatMap_escape (s : List UInt8) : s.length ≤ (s.flatMap escape).length := by
  induction s with
  | nil => exact Nat.le_refl _
  | cons c s ih =>
    have hpos : 0 < (escape c).length := by
      have hread := (readChar_escape c []).1
      cases he : escape c with
      | nil =>
        rw [he] at hread
        cases hread
      | cons x xs => simp
    rw [List.flatMap_cons, List.length_append, List.length_cons]
    omega

theorem readString_quoted (s rest : List UInt8) :
    readString (quoted s ++ rest) = some (s, rest) := by
  have hlen := length_le_flatMap_escape s
  have hfuel : s.length < (quoted s ++ rest).length := by
    simp only [quoted, List.length_append, List.length_cons, List.length_nil]
    omega
  have hread := readChars_escaped s hfuel rest
  rw [quoted, List.cons_append, List.append_assoc] at hread ⊢
  simpa [readString] using hread

/-! ## Values -/

def literal (word : List UInt8) (j : Json) (text : List UInt8) : Option (Json × List UInt8) :=
  if text.take word.length = word then some (j, text.drop word.length) else none

def nullWord : List UInt8 := [0x6E, 0x75, 0x6C, 0x6C]
def trueWord : List UInt8 := [0x74, 0x72, 0x75, 0x65]
def falseWord : List UInt8 := [0x66, 0x61, 0x6C, 0x73, 0x65]

mutual

/-- A fraction is printed like a number that is not finite. -/
def print : Json → List UInt8
  | null => nullWord
  | boolean b => if b then trueWord else falseWord
  | numberInteger n => integerText n.toInt
  | numberUnsigned n => decimal decimalFuel n.toNat
  | numberFloat _ => nullWord
  | string s => quoted s
  | array xs => 0x5B :: printElements xs
  | object ms => 0x7B :: printMembers ms

/-- With the closing bracket. -/
def printElements : List Json → List UInt8
  | [] => [0x5D]
  | j :: xs => print j ++ printMoreElements xs

def printMoreElements : List Json → List UInt8
  | [] => [0x5D]
  | j :: xs => 0x2C :: (print j ++ printMoreElements xs)

def printMembers : List (List UInt8 × Json) → List UInt8
  | [] => [0x7D]
  | (key, j) :: ms => quoted key ++ (0x3A :: (print j ++ printMoreMembers ms))

def printMoreMembers : List (List UInt8 × Json) → List UInt8
  | [] => [0x7D]
  | (key, j) :: ms => 0x2C :: (quoted key ++ (0x3A :: (print j ++ printMoreMembers ms)))

end

mutual

def readValue : ℕ → List UInt8 → Option (Json × List UInt8)
  | 0, _ => none
  | fuel + 1, text =>
      match text with
      | [] => none
      | c :: rest =>
          if c = 0x22 then (readString text).map fun (s, rest) => (string s, rest)
          else if c = 0x5B then (readElements fuel rest).map fun (xs, rest) => (array xs, rest)
          else if c = 0x7B then (readMembers fuel rest).map fun (ms, rest) => (object ms, rest)
          else if c = 0x6E then literal nullWord null text
          else if c = 0x74 then literal trueWord (boolean true) text
          else if c = 0x66 then literal falseWord (boolean false) text
          else readNumber text

def readElements : ℕ → List UInt8 → Option (List Json × List UInt8)
  | 0, _ => none
  | fuel + 1, text =>
      if text.head? = some 0x5D then some ([], text.drop 1)
      else do
        let (j, rest) ← readValue fuel text
        let (xs, rest) ← readMoreElements fuel rest
        return (j :: xs, rest)

def readMoreElements : ℕ → List UInt8 → Option (List Json × List UInt8)
  | 0, _ => none
  | fuel + 1, text =>
      if text.head? = some 0x5D then some ([], text.drop 1)
      else if text.head? = some 0x2C then do
        let (j, rest) ← readValue fuel (text.drop 1)
        let (xs, rest) ← readMoreElements fuel rest
        return (j :: xs, rest)
      else none

def readMembers : ℕ → List UInt8 → Option (List (List UInt8 × Json) × List UInt8)
  | 0, _ => none
  | fuel + 1, text =>
      if text.head? = some 0x7D then some ([], text.drop 1)
      else do
        let (m, rest) ← readMember fuel text
        let (ms, rest) ← readMoreMembers fuel rest
        return (m :: ms, rest)

def readMoreMembers : ℕ → List UInt8 → Option (List (List UInt8 × Json) × List UInt8)
  | 0, _ => none
  | fuel + 1, text =>
      if text.head? = some 0x7D then some ([], text.drop 1)
      else if text.head? = some 0x2C then do
        let (m, rest) ← readMember fuel (text.drop 1)
        let (ms, rest) ← readMoreMembers fuel rest
        return (m :: ms, rest)
      else none

def readMember : ℕ → List UInt8 → Option ((List UInt8 × Json) × List UInt8)
  | 0, _ => none
  | fuel + 1, text => do
      let (key, rest) ← readString text
      if rest.head? = some 0x3A then do
        let (j, rest) ← readValue fuel (rest.drop 1)
        return ((key, j), rest)
      else none

end

/-! ## Reading back -/

/-- Numbers are told by their first character. -/
theorem readValue_number {fuel : ℕ} {c : UInt8} {text : List UInt8}
    (hc : isDigit c = true ∨ c = 0x2D) : readValue (fuel + 1) (c :: text) = readNumber (c :: text) := by
  have hne : ∀ x, isDigit x = false → x ≠ 0x2D → c ≠ x := by
    rintro x hx hminus rfl
    rcases hc with hc | hc
    · rw [hx] at hc
      cases hc
    · exact hminus hc
  rw [readValue, if_neg (hne _ (by decide) (by decide)), if_neg (hne _ (by decide) (by decide)),
    if_neg (hne _ (by decide) (by decide)), if_neg (hne _ (by decide) (by decide)),
    if_neg (hne _ (by decide) (by decide)), if_neg (hne _ (by decide) (by decide))]

theorem decimal_cons {n : ℕ} (h : n < 2 ^ 64) :
    ∃ c t, decimal decimalFuel n = c :: t ∧ isDigit c = true := by
  obtain ⟨-, hdigits, c, t, hcons, -⟩ :=
    decimal_denotes (Nat.lt_trans h (by decide : 2 ^ 64 < 10 ^ (decimalFuel + 1)))
  exact ⟨c, t, hcons, hdigits c (hcons ▸ List.mem_cons_self)⟩

theorem integerText_cons (n : Int64) :
    ∃ c t, integerText n.toInt = c :: t ∧ (isDigit c = true ∨ c = 0x2D) := by
  have hlt := n.toInt_lt
  rw [integerText]
  split_ifs
  · obtain ⟨c, t, hcons, hc⟩ := decimal_cons (show n.toInt.toNat < 2 ^ 64 by omega)
    exact ⟨c, t, hcons, .inl hc⟩
  · exact ⟨_, _, rfl, .inr rfl⟩

/-- No value begins like the end of an array. -/
theorem print_cons (j : Json) : ∃ c t, print j = c :: t ∧ c ≠ 0x5D := by
  have hnumber : ∀ {c : UInt8}, isDigit c = true ∨ c = 0x2D → c ≠ 0x5D := by
    rintro c (hc | hc) rfl
    · exact absurd hc (by decide)
    · exact absurd hc (by decide)
  cases j with
  | null => exact ⟨_, _, rfl, by decide⟩
  | boolean b => cases b <;> exact ⟨_, _, rfl, by decide⟩
  | numberInteger n =>
    obtain ⟨c, t, hcons, hc⟩ := integerText_cons n
    exact ⟨c, t, hcons, hnumber hc⟩
  | numberUnsigned n =>
    obtain ⟨c, t, hcons, hc⟩ := decimal_cons n.toNat_lt
    exact ⟨c, t, hcons, hnumber (.inl hc)⟩
  | numberFloat x => exact ⟨_, _, rfl, by decide⟩
  | string s => exact ⟨_, _, rfl, by decide⟩
  | array xs => exact ⟨_, _, rfl, by decide⟩
  | object ms => exact ⟨_, _, rfl, by decide⟩

theorem numberEnds_printMoreElements (xs : List Json) (rest : List UInt8) :
    NumberEnds (printMoreElements xs ++ rest) := by
  cases xs with
  | nil => exact (by decide : continuesNumber 0x5D = false)
  | cons j xs => exact (by decide : continuesNumber 0x2C = false)

theorem numberEnds_printMoreMembers (ms : List (List UInt8 × Json)) (rest : List UInt8) :
    NumberEnds (printMoreMembers ms ++ rest) := by
  cases ms with
  | nil => exact (by decide : continuesNumber 0x7D = false)
  | cons m ms => exact (by decide : continuesNumber 0x2C = false)

theorem printMoreElements_pos (xs : List Json) : 0 < (printMoreElements xs).length := by
  cases xs <;> simp [printMoreElements]

theorem printMoreMembers_pos (ms : List (List UInt8 × Json)) : 0 < (printMoreMembers ms).length := by
  cases ms <;> simp [printMoreMembers]

theorem readMember_print {fuel : ℕ} {j j' : Json} {rest : List UInt8} (key : List UInt8)
    (hj : readValue fuel (print j ++ rest) = some (j', rest)) :
    readMember (fuel + 1) (quoted key ++ (0x3A :: (print j ++ rest))) =
      some ((key, j'), rest) := by
  rw [readMember, readString_quoted]
  simp [hj]

mutual

/-- A value in print is read back, with whatever follows left over. -/
theorem readValue_print : ∀ (j : Json) (fuel : ℕ), (print j).length < fuel →
    j.all exactNode = true → ∀ rest : List UInt8, NumberEnds rest →
      readValue fuel (print j ++ rest) = some (j.normalize, rest)
  | j, 0, hfuel, _, _, _ => absurd hfuel (Nat.not_lt_zero _)
  | null, fuel + 1, _, _, rest, _ => by
    simp [print, readValue, nullWord, literal, Json.normalize]
  | boolean b, fuel + 1, _, _, rest, _ => by
    cases b <;> simp [print, readValue, trueWord, falseWord, literal, Json.normalize]
  | numberInteger n, fuel + 1, _, _, rest, hrest => by
    obtain ⟨c, t, hcons, hc⟩ := integerText_cons n
    have hread := readNumber_integer n hrest
    rw [print]
    rw [hcons, List.cons_append] at hread ⊢
    rw [readValue_number hc, hread]
  | numberUnsigned n, fuel + 1, _, _, rest, hrest => by
    obtain ⟨c, t, hcons, hc⟩ := decimal_cons n.toNat_lt
    have hread := readNumber_unsigned n hrest
    rw [print]
    rw [hcons, List.cons_append] at hread ⊢
    rw [readValue_number (.inl hc), hread, Json.normalize]
  | numberFloat x, fuel + 1, _, hexact, rest, _ => absurd hexact (by simp [all, exactNode])
  | string s, fuel + 1, _, _, rest, _ => by
    have hread := readString_quoted s rest
    rw [print]
    rw [quoted, List.cons_append] at hread ⊢
    rw [readValue, if_pos rfl, hread, Json.normalize, Option.map_some]
  | array xs, fuel + 1, hfuel, hexact, rest, _ => by
    rw [print, List.length_cons] at hfuel
    rw [all, Bool.and_eq_true] at hexact
    have hread := readElements_print xs fuel (Nat.lt_of_succ_lt_succ hfuel) hexact.2 rest
    rw [print, List.cons_append, readValue, if_neg (by decide), if_pos rfl, hread, Json.normalize,
      Option.map_some]
  | object ms, fuel + 1, hfuel, hexact, rest, _ => by
    rw [print, List.length_cons] at hfuel
    rw [all, Bool.and_eq_true] at hexact
    have hread := readMembers_print ms fuel (Nat.lt_of_succ_lt_succ hfuel) hexact.2 rest
    rw [print, List.cons_append, readValue, if_neg (by decide), if_neg (by decide), if_pos rfl,
      hread, Json.normalize, Option.map_some]

theorem readElements_print : ∀ (xs : List Json) (fuel : ℕ), (printElements xs).length < fuel →
    allElements exactNode xs = true → ∀ rest : List UInt8,
      readElements fuel (printElements xs ++ rest) = some (normalizeElements xs, rest)
  | xs, 0, hfuel, _, _ => absurd hfuel (Nat.not_lt_zero _)
  | [], fuel + 1, _, _, rest => by simp [printElements, readElements, normalizeElements]
  | j :: xs, fuel + 1, hfuel, hexact, rest => by
    obtain ⟨c, t, hcons, hc⟩ := print_cons j
    have hpos : 0 < (print j).length := by rw [hcons]; exact Nat.succ_pos _
    have hpos' := printMoreElements_pos xs
    rw [printElements, List.length_append] at hfuel
    rw [allElements, Bool.and_eq_true] at hexact
    have hj := readValue_print j fuel (by omega) hexact.1 _ (numberEnds_printMoreElements xs rest)
    have hxs := readMoreElements_print xs fuel (by omega) hexact.2 rest
    have hhead : (print j ++ (printMoreElements xs ++ rest)).head? ≠ some 0x5D := by
      rw [hcons]
      simpa using hc
    rw [printElements, List.append_assoc, readElements, if_neg hhead, hj]
    simp [hxs, normalizeElements]

theorem readMoreElements_print : ∀ (xs : List Json) (fuel : ℕ),
    (printMoreElements xs).length < fuel → allElements exactNode xs = true →
      ∀ rest : List UInt8,
        readMoreElements fuel (printMoreElements xs ++ rest) = some (normalizeElements xs, rest)
  | xs, 0, hfuel, _, _ => absurd hfuel (Nat.not_lt_zero _)
  | [], fuel + 1, _, _, rest => by simp [printMoreElements, readMoreElements, normalizeElements]
  | j :: xs, fuel + 1, hfuel, hexact, rest => by
    have hpos := printMoreElements_pos xs
    rw [printMoreElements, List.length_cons, List.length_append] at hfuel
    rw [allElements, Bool.and_eq_true] at hexact
    have hj := readValue_print j fuel (by omega) hexact.1 _ (numberEnds_printMoreElements xs rest)
    have hxs := readMoreElements_print xs fuel (by omega) hexact.2 rest
    rw [printMoreElements, List.cons_append, List.append_assoc, readMoreElements, List.head?_cons,
      if_neg (by decide), if_pos rfl, List.drop_one, List.tail_cons, hj]
    simp [hxs, normalizeElements]

theorem readMembers_print : ∀ (ms : List (List UInt8 × Json)) (fuel : ℕ),
    (printMembers ms).length < fuel → allMembers exactNode ms = true → ∀ rest : List UInt8,
      readMembers fuel (printMembers ms ++ rest) = some (normalizeMembers ms, rest)
  | ms, 0, hfuel, _, _ => absurd hfuel (Nat.not_lt_zero _)
  | [], fuel + 1, _, _, rest => by simp [printMembers, readMembers, normalizeMembers]
  | (key, j) :: ms, fuel + 1, hfuel, hexact, rest => by
    have hpos := printMoreMembers_pos ms
    rw [printMembers, List.length_append, List.length_cons, List.length_append] at hfuel
    rw [allMembers, Bool.and_eq_true] at hexact
    obtain ⟨f, rfl⟩ : ∃ f, fuel = f + 1 := ⟨fuel - 1, by omega⟩
    have hj := readValue_print j f (by omega) hexact.1 _ (numberEnds_printMoreMembers ms rest)
    have hms := readMoreMembers_print ms (f + 1) (by omega) hexact.2 rest
    have hhead : (quoted key ++ (0x3A :: (print j ++ (printMoreMembers ms ++ rest)))).head? ≠
        some 0x7D := by
      simp [quoted]
    rw [printMembers, List.append_assoc, List.cons_append, List.append_assoc, readMembers,
      if_neg hhead, readMember_print key hj]
    simp [hms, normalizeMembers]

theorem readMoreMembers_print : ∀ (ms : List (List UInt8 × Json)) (fuel : ℕ),
    (printMoreMembers ms).length < fuel → allMembers exactNode ms = true → ∀ rest : List UInt8,
      readMoreMembers fuel (printMoreMembers ms ++ rest) = some (normalizeMembers ms, rest)
  | ms, 0, hfuel, _, _ => absurd hfuel (Nat.not_lt_zero _)
  | [], fuel + 1, _, _, rest => by simp [printMoreMembers, readMoreMembers, normalizeMembers]
  | (key, j) :: ms, fuel + 1, hfuel, hexact, rest => by
    have hpos := printMoreMembers_pos ms
    rw [printMoreMembers, List.length_cons, List.length_append, List.length_cons,
      List.length_append] at hfuel
    rw [allMembers, Bool.and_eq_true] at hexact
    obtain ⟨f, rfl⟩ : ∃ f, fuel = f + 1 := ⟨fuel - 1, by omega⟩
    have hj := readValue_print j f (by omega) hexact.1 _ (numberEnds_printMoreMembers ms rest)
    have hms := readMoreMembers_print ms (f + 1) (by omega) hexact.2 rest
    rw [printMoreMembers, List.cons_append, List.append_assoc, List.cons_append,
      List.append_assoc, readMoreMembers, List.head?_cons, if_neg (by decide), if_pos rfl,
      List.drop_one, List.tail_cons, readMember_print key hj]
    simp [hms, normalizeMembers]

end

def invalidUtf8 : Error := ⟨.typeError, []⟩

def textError : Error := ⟨.parseError, []⟩

def dump (j : Json) : Except Error (List UInt8) :=
  if j.all validNode then .ok (print j) else .error invalidUtf8

def parse (text : List UInt8) : Except Error Json :=
  match readValue (text.length + 1) text with
  | some (j, []) => if j.all validNode then .ok j else .error textError
  | _ => .error textError

theorem parse_print {j : Json} (hvalid : j.all validNode = true) (hexact : j.all exactNode = true) :
    parse (print j) = .ok j.normalize := by
  have hread := readValue_print j ((print j).length + 1) (Nat.lt_succ_self _) hexact [] rfl
  rw [List.append_nil] at hread
  rw [← all_normalize validNode_normalize] at hvalid
  simp only [parse, hread, hvalid, if_true]

def library : Library where
  dump := dump
  parse := parse
  dump_throws j hj := ⟨invalidUtf8, by simp [dump, hj]⟩
  parse_dump j hvalid hexact := ⟨print j, by simp [dump, hvalid], parse_print hvalid hexact⟩

theorem library_parse_print {j : Json} (hvalid : j.all validNode = true)
    (hexact : j.all exactNode = true) : library.parse (print j) = .ok j.normalize :=
  parse_print hvalid hexact

end NcxTunnel.JsonText
