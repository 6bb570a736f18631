import GmshopEdge.Lib.Digits
import GmshopEdge.Lib.Record

/-!
# JSON texts

Texts of UTF-16 code units, and the JSON grammar over them: a parser with fuel for the nesting, and a
printer that quotes what has to be quoted.

    parse (print v) = some v  (parse_print)

A number is its sign, its digits and the power of ten they stand at.
-/

/-- A string of UTF-16 code units. -/
abbrev Utf16 := List UInt16

namespace Utf16

def unit (c : Char) : UInt16 := UInt16.ofNat c.toNat

/-- The units of a text without characters outside the basic plane. -/
def ascii (s : String) : Utf16 := s.toList.map unit

def isDigit (u : UInt16) : Bool := 0x30 ≤ u && u ≤ 0x39

def digits (n : Nat) : Utf16 := (Nat.toDigits 10 n).map unit

def number (us : Utf16) : Nat := Digits.value (us.map fun u => Char.ofNat u.toNat)

variable {c : Char} {n : Nat}

theorem char_unit (h : c.isDigit = true) : Char.ofNat (unit c).toNat = c := by
  have hrange := Digits.digit_range h
  have hval : (unit c).toNat = c.toNat := by
    show c.toNat % 2 ^ 16 = c.toNat
    omega
  rw [hval, Char.ofNat_toNat]

theorem number_digits (n : Nat) : number (digits n) = n := by
  rw [number, digits, List.map_map]
  have hid : (Nat.toDigits 10 n).map ((fun u : UInt16 => Char.ofNat u.toNat) ∘ unit) = Nat.toDigits 10 n := by
    conv_rhs => rw [← List.map_id (Nat.toDigits 10 n)]
    exact List.map_congr_left fun c hc => char_unit (Digits.isDigits_toDigits n c hc)
  rw [hid]
  exact Nat.ofDigitChars_ten_toDigits

theorem isDigit_unit (h : c.isDigit = true) : isDigit (unit c) = true := by
  have hrange := Digits.digit_range h
  have hval : (unit c).toNat = c.toNat := by
    show c.toNat % 2 ^ 16 = c.toNat
    omega
  simp only [isDigit, Bool.and_eq_true, decide_eq_true_eq, UInt16.le_iff_toNat_le, hval]
  exact hrange

theorem isDigit_of_mem_digits {u : UInt16} (h : u ∈ digits n) : isDigit u = true := by
  obtain ⟨c, hc, rfl⟩ := List.mem_map.mp h
  exact isDigit_unit (Digits.isDigits_toDigits n c hc)

theorem digits_ne_nil (n : Nat) : digits n ≠ [] := by
  intro h
  exact Nat.toDigits_ne_nil (List.map_eq_nil_iff.mp h)

theorem head_digits (hn : n ≠ 0) : ∃ u us, digits n = u :: us ∧ u ≠ unit '0' := by
  obtain ⟨c, cs, hcs, hne, hd⟩ := Digits.head_toDigits hn
  refine ⟨unit c, cs.map unit, by rw [digits, hcs, List.map_cons], ?_⟩
  intro h
  have hchar := congrArg (fun u : UInt16 => Char.ofNat u.toNat) h
  simp only [char_unit hd, char_unit (c := '0') (by decide)] at hchar
  exact hne hchar

end Utf16

namespace Json

open List Utf16 Option

/-! ## Strings -/

def hexDigit (n : Nat) : UInt16 := UInt16.ofNat (if n < 10 then 0x30 + n else 0x57 + n)

/-- The value of a hexadecimal digit of either case. -/
def hexValue (u : UInt16) : Option Nat :=
  if isDigit u then some (u.toNat - 0x30)
  else if 0x61 ≤ u ∧ u ≤ 0x66 then some (u.toNat - 0x57)
  else if 0x41 ≤ u ∧ u ≤ 0x46 then some (u.toNat - 0x37)
  else none

def hexUnit (a b c d : UInt16) : Option UInt16 := do
  let a ← hexValue a
  let b ← hexValue b
  let c ← hexValue c
  let d ← hexValue d
  return UInt16.ofNat (((a * 16 + b) * 16 + c) * 16 + d)

/-- The escapes of one letter, with what they stand for. -/
def escapes : List (UInt16 × UInt16) :=
  [(unit '"', unit '"'), (unit '\\', unit '\\'), (unit '/', unit '/'), (unit 'b', 0x08), (unit 'f', 0x0C),
    (unit 'n', 0x0A), (unit 'r', 0x0D), (unit 't', 0x09)]

def parseString : Utf16 → Option (Utf16 × Utf16)
  | [] => none
  | u :: rest =>
    if u = unit '"' then some ([], rest)
    else if u = unit '\\' then
      match rest with
      | e :: a :: b :: c :: d :: tail =>
        if e = unit 'u' then
          match hexUnit a b c d with
          | none => none
          | some v => (parseString tail).map fun p => (v :: p.1, p.2)
        else match escapes.lookup e with
          | none => none
          | some v => (parseString (a :: b :: c :: d :: tail)).map fun p => (v :: p.1, p.2)
      | e :: tail =>
        match escapes.lookup e with
        | none => none
        | some v => (parseString tail).map fun p => (v :: p.1, p.2)
      | [] => none
    else if u < 0x20 then none
    else (parseString rest).map fun p => (u :: p.1, p.2)

def isHighSurrogate (u : UInt16) : Bool := 0xD800 ≤ u && u < 0xDC00

def isLowSurrogate (u : UInt16) : Bool := 0xDC00 ≤ u && u < 0xE000

/-- `\u` with the four digits of a unit. -/
def hexEscape (u : UInt16) : Utf16 :=
  [unit '\\', unit 'u', hexDigit (u.toNat / 4096), hexDigit (u.toNat / 256 % 16),
    hexDigit (u.toNat / 16 % 16), hexDigit (u.toNat % 16)]

/-- A unit that is not half of a pair, as a string quotes it. -/
def quoteUnit (u : UInt16) : Utf16 :=
  if u = unit '"' then [unit '\\', unit '"']
  else if u = unit '\\' then [unit '\\', unit '\\']
  else if u = 0x08 then [unit '\\', unit 'b']
  else if u = 0x0C then [unit '\\', unit 'f']
  else if u = 0x0A then [unit '\\', unit 'n']
  else if u = 0x0D then [unit '\\', unit 'r']
  else if u = 0x09 then [unit '\\', unit 't']
  else if u < 0x20 || isHighSurrogate u || isLowSurrogate u then hexEscape u
  else [u]

/-- `QuoteJSONString` without the quotes around it. -/
def quoteUnits : Utf16 → Utf16
  | [] => []
  | [u] => quoteUnit u
  | u :: v :: rest =>
    if isHighSurrogate u && isLowSurrogate v then u :: v :: quoteUnits rest
    else quoteUnit u ++ quoteUnits (v :: rest)

def quote (us : Utf16) : Utf16 := unit '"' :: quoteUnits us ++ [unit '"']

theorem hexValue_hexDigit : ∀ n, n < 16 → hexValue (hexDigit n) = some n := by decide

variable {u : UInt16}

theorem parseString_cons (hquote : u ≠ unit '"') (hslash : u ≠ unit '\\') (hcontrol : ¬ u < 0x20) (rest : Utf16) :
    parseString (u :: rest) = (parseString rest).map fun p => (u :: p.1, p.2) := by
  rw [parseString.eq_def]
  simp only [if_neg hquote, if_neg hslash, if_neg hcontrol]

theorem parseString_escape {e v : UInt16} (hu : e ≠ unit 'u') (he : escapes.lookup e = some v) (rest : Utf16) :
    parseString (unit '\\' :: e :: rest) = (parseString rest).map fun p => (v :: p.1, p.2) := by
  have hquote : unit '\\' ≠ unit '"' := by decide
  rw [parseString.eq_def]
  simp only [if_neg hquote, if_true]
  split
  · next heq =>
    obtain ⟨rfl, rfl⟩ := heq
    rw [if_neg hu, he]
  · next heq =>
    obtain ⟨rfl, rfl⟩ := heq
    rw [he]
  · next heq => cases heq

theorem parseString_hexEscape (u : UInt16) (rest : Utf16) :
    parseString (hexEscape u ++ rest) = (parseString rest).map fun p => (u :: p.1, p.2) := by
  have hlt : u.toNat < 65536 := u.toNat_lt
  have hunit : hexUnit (hexDigit (u.toNat / 4096)) (hexDigit (u.toNat / 256 % 16))
      (hexDigit (u.toNat / 16 % 16)) (hexDigit (u.toNat % 16)) = some u := by
    rw [hexUnit, hexValue_hexDigit _ (by omega), hexValue_hexDigit _ (by omega),
      hexValue_hexDigit _ (by omega), hexValue_hexDigit _ (by omega)]
    simp only [bind, Option.bind, pure, Option.some.injEq]
    rw [show ((u.toNat / 4096 * 16 + u.toNat / 256 % 16) * 16 + u.toNat / 16 % 16) * 16 + u.toNat % 16 =
      u.toNat by omega, UInt16.ofNat_toNat]
  have hquote : unit '\\' ≠ unit '"' := by decide
  rw [hexEscape, parseString.eq_def]
  simp only [cons_append, nil_append, if_neg hquote, if_true, hunit]

theorem parseString_quoteUnit (u : UInt16) (rest : Utf16) :
    parseString (quoteUnit u ++ rest) = (parseString rest).map fun p => (u :: p.1, p.2) := by
  unfold quoteUnit
  by_cases hquote : u = unit '"'
  · rw [if_pos hquote, hquote]
    exact parseString_escape (by decide) (by decide) rest
  rw [if_neg hquote]
  by_cases hslash : u = unit '\\'
  · rw [if_pos hslash, hslash]
    exact parseString_escape (by decide) (by decide) rest
  rw [if_neg hslash]
  split
  · next h => rw [h]; exact parseString_escape (by decide) (by decide) rest
  split
  · next h => rw [h]; exact parseString_escape (by decide) (by decide) rest
  split
  · next h => rw [h]; exact parseString_escape (by decide) (by decide) rest
  split
  · next h => rw [h]; exact parseString_escape (by decide) (by decide) rest
  split
  · next h => rw [h]; exact parseString_escape (by decide) (by decide) rest
  split
  · exact parseString_hexEscape u rest
  · next hplain =>
    have hcontrol : ¬ u < 0x20 := by
      intro h
      simp [h] at hplain
    exact parseString_cons hquote hslash hcontrol rest

theorem parseString_surrogate (h : isHighSurrogate u = true ∨ isLowSurrogate u = true) (rest : Utf16) :
    parseString (u :: rest) = (parseString rest).map fun p => (u :: p.1, p.2) := by
  have hlow : 0xD800 ≤ u.toNat := by
    simp only [isHighSurrogate, isLowSurrogate, Bool.and_eq_true, decide_eq_true_eq,
      UInt16.le_iff_toNat_le, UInt16.lt_iff_toNat_lt] at h
    have h1 : (0xD800 : UInt16).toNat = 0xD800 := rfl
    have h2 : (0xDC00 : UInt16).toNat = 0xDC00 := rfl
    omega
  refine parseString_cons ?_ ?_ ?_ rest
  · rintro rfl
    exact absurd hlow (by decide)
  · rintro rfl
    exact absurd hlow (by decide)
  · intro h
    rw [UInt16.lt_iff_toNat_lt] at h
    have h1 : (0x20 : UInt16).toNat = 0x20 := rfl
    omega

theorem parseString_quoteUnits (us rest : Utf16) :
    parseString (quoteUnits us ++ unit '"' :: rest) = some (us, rest) := by
  fun_induction quoteUnits us with
  | case1 =>
    rw [nil_append, parseString.eq_def]
    simp
  | case2 u =>
    rw [parseString_quoteUnit, parseString.eq_def]
    simp
  | case3 u v us hpair ih =>
    rw [Bool.and_eq_true] at hpair
    rw [cons_append, cons_append, parseString_surrogate (.inl hpair.1),
      parseString_surrogate (.inr hpair.2), ih]
    rfl
  | case4 u v us hpair ih =>
    rw [append_assoc, parseString_quoteUnit, ih]
    rfl

/-! ## Numbers -/

/-- `mantissa * 10 ^ exponent`, with its sign. -/
structure Number where
  negative : Bool
  mantissa : Nat
  exponent : Int

/-- The digits a text begins with, and the rest. -/
def spanDigits (us : Utf16) : Utf16 × Utf16 := (us.takeWhile isDigit, us.dropWhile isDigit)

def parseSign (us : Utf16) : Bool × Utf16 :=
  match us with
  | u :: rest => if u = unit '-' then (true, rest) else (false, us)
  | [] => (false, [])

/-- A zero, or digits that do not begin with one. -/
def parseInteger (us : Utf16) : Option (Utf16 × Utf16) :=
  match us with
  | [] => none
  | u :: rest =>
    if u = unit '0' then some ([u], rest)
    else if isDigit u then some (spanDigits us)
    else none

/-- The digits behind a point, if there is one. -/
def parseFraction (us : Utf16) : Option (Utf16 × Utf16) :=
  match us with
  | u :: rest =>
    if u = unit '.' then
      if (spanDigits rest).1 = [] then none else some (spanDigits rest)
    else some ([], us)
  | [] => some ([], [])

def parseExponentDigits (negative : Bool) (us : Utf16) : Option (Int × Utf16) :=
  if (spanDigits us).1 = [] then none
  else
    let n : Int := number (spanDigits us).1
    some (if negative then -n else n, (spanDigits us).2)

def parseExponent (us : Utf16) : Option (Int × Utf16) :=
  match us with
  | u :: rest =>
    if u = unit 'e' ∨ u = unit 'E' then
      match rest with
      | v :: tail =>
        if v = unit '-' then parseExponentDigits true tail
        else if v = unit '+' then parseExponentDigits false tail
        else parseExponentDigits false rest
      | [] => none
    else some (0, us)
  | [] => some (0, [])

def parseNumber (us : Utf16) : Option (Number × Utf16) := do
  let (negative, us) := parseSign us
  let (whole, us) ← parseInteger us
  let (fraction, us) ← parseFraction us
  let (exponent, us) ← parseExponent us
  return (⟨negative, number (whole ++ fraction), exponent - fraction.length⟩, us)

def Number.print (n : Number) : Utf16 :=
  (if n.negative then [unit '-'] else []) ++ digits n.mantissa ++ (if n.exponent = 0 then [] else
      unit 'e' :: ((if n.exponent < 0 then [unit '-'] else []) ++ digits n.exponent.natAbs))

/-- What ends a number: nothing that could go on with it. -/
def Stops (rest : Utf16) : Prop :=
  ∀ u ∈ rest.head?, isDigit u = false ∧ u ≠ unit '.' ∧ u ≠ unit 'e' ∧ u ≠ unit 'E'

theorem stops_cons (rest : Utf16) (h : isDigit u = false ∧ u ≠ unit '.' ∧ u ≠ unit 'e' ∧ u ≠ unit 'E') :
    Stops (u :: rest) := by
  intro v hv
  obtain rfl : u = v := by simpa using hv
  exact h

theorem stops_nil : Stops [] := by
  intro u hu
  cases hu

variable {rest : Utf16}

theorem spanDigits_append {ds : Utf16} (hds : ∀ u ∈ ds, isDigit u = true)
    (hrest : ∀ u ∈ rest.head?, isDigit u = false) : spanDigits (ds ++ rest) = (ds, rest) := by
  unfold spanDigits
  rw [takeWhile_append_of_pos hds, dropWhile_append_of_pos hds]
  cases rest with
  | nil => simp
  | cons u rest =>
    have hu := hrest u rfl
    rw [takeWhile_cons_of_neg (by simp [hu]), dropWhile_cons_of_neg (by simp [hu]), append_nil]

theorem parseSign_digits {n : Nat} (rest : Utf16) : parseSign (digits n ++ rest) = (false, digits n ++ rest) := by
  obtain ⟨u, us, hus⟩ := exists_cons_of_ne_nil (digits_ne_nil n)
  have hu : isDigit u = true := isDigit_of_mem_digits (n := n) (by rw [hus]; exact mem_cons_self)
  have hne : u ≠ unit '-' := by
    rintro rfl
    exact absurd hu (by decide)
  rw [hus, cons_append, parseSign, if_neg hne]

theorem parseInteger_digits (n : Nat) (hrest : ∀ u ∈ rest.head?, isDigit u = false) :
    parseInteger (digits n ++ rest) = some (digits n, rest) := by
  by_cases hn : n = 0
  · subst hn
    rfl
  · obtain ⟨u, us, hus, hne⟩ := head_digits hn
    have hdigits : ∀ u ∈ digits n, isDigit u = true := fun u hu => isDigit_of_mem_digits hu
    have hspan := spanDigits_append hdigits hrest
    rw [hus] at hdigits hspan ⊢
    rw [cons_append] at hspan ⊢
    rw [parseInteger, if_neg hne, if_pos (hdigits u mem_cons_self), hspan]

theorem parseFraction_stops (h : ∀ u ∈ rest.head?, u ≠ unit '.') : parseFraction rest = some ([], rest) := by
  cases rest with
  | nil => rfl
  | cons u rest => rw [parseFraction, if_neg (h u rfl)]

theorem parseExponent_stops (h : Stops rest) : parseExponent rest = some (0, rest) := by
  cases rest with
  | nil => rfl
  | cons u rest =>
    have hu := h u rfl
    have hnot : ¬ (u = unit 'e' ∨ u = unit 'E') := by simp [hu.2.2.1, hu.2.2.2]
    simp only [parseExponent, if_neg hnot]

theorem parseExponentDigits_digits (negative : Bool) (n : Nat) (h : Stops rest) :
    parseExponentDigits negative (digits n ++ rest) = some (if negative then -(n : Int) else n, rest) := by
  have hspan := spanDigits_append (fun u (hu : u ∈ digits n) => isDigit_of_mem_digits hu) fun u hu => (h u hu).1
  rw [parseExponentDigits, hspan, if_neg (digits_ne_nil n), number_digits]

theorem parseExponent_print (n : Int) (h : Stops rest) :
    parseExponent (unit 'e' :: ((if n < 0 then [unit '-'] else []) ++ digits n.natAbs) ++ rest) = some (n, rest) := by
  rw [cons_append]
  unfold parseExponent
  dsimp only
  rw [if_pos (.inl rfl)]
  by_cases hneg : n < 0
  · rw [if_pos hneg]
    simp only [cons_append, nil_append, if_true, parseExponentDigits_digits true _ h,
      some.injEq, Prod.mk.injEq, and_true]
    omega
  · rw [if_neg hneg, nil_append]
    obtain ⟨u, us, hus⟩ := exists_cons_of_ne_nil (digits_ne_nil n.natAbs)
    have hu : isDigit u = true :=
      isDigit_of_mem_digits (n := n.natAbs) (by rw [hus]; exact mem_cons_self)
    have hminus : u ≠ unit '-' := by
      rintro rfl
      exact absurd hu (by decide)
    have hplus : u ≠ unit '+' := by
      rintro rfl
      exact absurd hu (by decide)
    have hdigits := parseExponentDigits_digits false n.natAbs h
    rw [hus, cons_append] at hdigits ⊢
    simp only [if_neg hminus, if_neg hplus, hdigits, Bool.false_eq_true, if_false, some.injEq,
      Prod.mk.injEq, and_true]
    omega

theorem parseNumber_print (n : Number) (h : Stops rest) : parseNumber (n.print ++ rest) = some (n, rest) := by
  obtain ⟨negative, mantissa, exponent⟩ := n
  -- what stands behind the digits
  obtain ⟨tail, htail⟩ : ∃ tail, tail = (if exponent = 0 then [] else
      unit 'e' :: ((if exponent < 0 then [unit '-'] else []) ++ digits exponent.natAbs)) ++ rest := ⟨_, rfl⟩
  have hhead : ∀ u ∈ tail.head?, isDigit u = false ∧ u ≠ unit '.' := by
    intro u hu
    rw [htail] at hu
    by_cases hzero : exponent = 0
    · rw [if_pos hzero, nil_append] at hu
      exact ⟨(h u hu).1, (h u hu).2.1⟩
    · rw [if_neg hzero] at hu
      obtain rfl : unit 'e' = u := by simpa using hu
      decide
  have hexponent : parseExponent tail = some (exponent, rest) := by
    rw [htail]
    by_cases hzero : exponent = 0
    · rw [if_pos hzero, nil_append, hzero]
      exact parseExponent_stops h
    · rw [if_neg hzero]
      exact parseExponent_print exponent h
  have hsign : parseSign ((if negative then [unit '-'] else []) ++ (digits mantissa ++ tail)) =
      (negative, digits mantissa ++ tail) := by
    cases negative with
    | true => simp [parseSign]
    | false => exact parseSign_digits tail
  have hprint : (Number.mk negative mantissa exponent).print ++ rest =
      (if negative then [unit '-'] else []) ++ (digits mantissa ++ tail) := by
    rw [htail, Number.print]
    simp only [append_assoc]
  rw [hprint, parseNumber, hsign]
  simp only [parseInteger_digits mantissa fun u hu => (hhead u hu).1,
    parseFraction_stops fun u hu => (hhead u hu).2, hexponent, bind, Option.bind, pure,
    append_nil, number_digits, length_nil, Nat.cast_zero, Int.sub_zero]

/-! ## Values -/

/-- A JSON text's value: objects with their members as written. -/
inductive Value where
  | null
  | bool (b : Bool)
  | num (n : Number)
  | str (s : Utf16)
  | arr (elements : List Value)
  | obj (members : List (Utf16 × Value))

def isSpace (u : UInt16) : Bool := u == 0x20 || u == 0x09 || u == 0x0A || u == 0x0D

def skipSpace (us : Utf16) : Utf16 := us.dropWhile isSpace

def dropWord (word : Utf16) (v : Value) (us : Utf16) : Option (Value × Utf16) :=
  if word.isPrefixOf us then some (v, us.drop word.length) else none

mutual

/-- A value and what follows it; the fuel bounds the nesting. -/
def parseValue : Nat → Utf16 → Option (Value × Utf16)
  | 0, _ => none
  | n + 1, us =>
    match skipSpace us with
    | [] => none
    | u :: rest =>
      if u = unit '{' then
        if (skipSpace rest).head? = some (unit '}') then some (.obj [], (skipSpace rest).tail)
        else (parseMembers n rest).map fun p => (.obj p.1, p.2)
      else if u = unit '[' then
        if (skipSpace rest).head? = some (unit ']') then some (.arr [], (skipSpace rest).tail)
        else (parseElements n rest).map fun p => (.arr p.1, p.2)
      else if u = unit '"' then (parseString rest).map fun p => (.str p.1, p.2)
      else if u = unit 't' then dropWord (ascii "rue") (.bool true) rest
      else if u = unit 'f' then dropWord (ascii "alse") (.bool false) rest
      else if u = unit 'n' then dropWord (ascii "ull") .null rest
      else (parseNumber (u :: rest)).map fun p => (.num p.1, p.2)

/-- The elements of an array up to its closing bracket. -/
def parseElements : Nat → Utf16 → Option (List Value × Utf16)
  | 0, _ => none
  | n + 1, us =>
    match parseValue n us with
    | none => none
    | some (v, us) =>
      match skipSpace us with
      | [] => none
      | u :: rest =>
        if u = unit ',' then (parseElements n rest).map fun p => (v :: p.1, p.2)
        else if u = unit ']' then some ([v], rest)
        else none

/-- The members of an object up to its closing brace. -/
def parseMembers : Nat → Utf16 → Option (List (Utf16 × Value) × Utf16)
  | 0, _ => none
  | n + 1, us =>
    match skipSpace us with
    | [] => none
    | q :: rest =>
      if q = unit '"' then
        match parseString rest with
        | none => none
        | some (k, us) =>
          match skipSpace us with
          | [] => none
          | c :: rest =>
            if c = unit ':' then
              match parseValue n rest with
              | none => none
              | some (v, us) =>
                match skipSpace us with
                | [] => none
                | u :: rest =>
                  if u = unit ',' then (parseMembers n rest).map fun p => ((k, v) :: p.1, p.2)
                  else if u = unit '}' then some ([(k, v)], rest)
                  else none
            else none
      else none

end

/-- `JSON.parse`. -/
def parse (us : Utf16) : Option Value :=
  match parseValue us.length us with
  | some (v, rest) => if skipSpace rest = [] then some v else none
  | none => none

mutual

/-- `JSON.stringify` of a value whose numbers are integers. -/
def print : Value → Utf16
  | .null => ascii "null"
  | .bool b => if b then ascii "true" else ascii "false"
  | .num n => n.print
  | .str s => quote s
  | .arr vs => unit '[' :: (printElements vs ++ [unit ']'])
  | .obj ms => unit '{' :: (printMembers ms ++ [unit '}'])

def printElements : List Value → Utf16
  | [] => []
  | [v] => print v
  | v :: vs => print v ++ unit ',' :: printElements vs

def printMembers : List (Utf16 × Value) → Utf16
  | [] => []
  | [(k, v)] => quote k ++ unit ':' :: print v
  | (k, v) :: ms => quote k ++ unit ':' :: (print v ++ unit ',' :: printMembers ms)

end

/-! ## Round trip -/

variable {u : UInt16}

theorem skipSpace_cons (h : isSpace u = false) (rest : Utf16) : skipSpace (u :: rest) = u :: rest :=
  dropWhile_cons_of_neg (by simp [h])

theorem head_printNumber (n : Number) : ∃ u us, n.print = u :: us ∧ (isDigit u = true ∨ u = unit '-') := by
  unfold Number.print
  cases n.negative with
  | true => exact ⟨_, _, rfl, .inr rfl⟩
  | false =>
    obtain ⟨u, us, hus⟩ := exists_cons_of_ne_nil (digits_ne_nil n.mantissa)
    have hu : isDigit u = true :=
      isDigit_of_mem_digits (n := n.mantissa) (by rw [hus]; exact mem_cons_self)
    rw [if_neg Bool.false_ne_true, nil_append, hus, cons_append]
    exact ⟨u, _, rfl, .inl hu⟩

theorem ne_of_numeric (h : isDigit u = true ∨ u = unit '-') {v : UInt16} (hv : isDigit v = false ∧ v ≠ unit '-') :
    u ≠ v := by
  rintro rfl
  rcases h with h | h
  · rw [hv.1] at h
    cases h
  · exact hv.2 h

theorem head_print (v : Value) : ∃ u us, print v = u :: us ∧ isSpace u = false ∧ u ≠ unit ']' := by
  cases v with
  | null => exact ⟨_, _, rfl, by decide, by decide⟩
  | bool b => cases b <;> exact ⟨_, _, rfl, by decide, by decide⟩
  | num n =>
    obtain ⟨u, us, hus, hu⟩ := head_printNumber n
    refine ⟨u, us, hus, ?_, ne_of_numeric hu (by decide)⟩
    have hspace : u ≠ 0x20 ∧ u ≠ 0x09 ∧ u ≠ 0x0A ∧ u ≠ 0x0D :=
      ⟨ne_of_numeric hu (by decide), ne_of_numeric hu (by decide), ne_of_numeric hu (by decide),
        ne_of_numeric hu (by decide)⟩
    simp [isSpace, hspace]
  | str s => exact ⟨_, _, rfl, by decide, by decide⟩
  | arr vs => exact ⟨_, _, rfl, by decide, by decide⟩
  | obj ms => exact ⟨_, _, rfl, by decide, by decide⟩

theorem head_printElements {vs : List Value} (h : vs ≠ []) :
    ∃ u us, printElements vs = u :: us ∧ isSpace u = false ∧ u ≠ unit ']' := by
  cases vs with
  | nil => exact absurd rfl h
  | cons v vs =>
    obtain ⟨u, us, hus, hu⟩ := head_print v
    cases vs with
    | nil => exact ⟨u, us, hus, hu⟩
    | cons w ws => exact ⟨u, us ++ unit ',' :: printElements (w :: ws), by simp [printElements, hus], hu⟩

theorem head_printMembers {ms : List (Utf16 × Value)} (h : ms ≠ []) : ∃ us, printMembers ms = unit '"' :: us := by
  cases ms with
  | nil => exact absurd rfl h
  | cons m ms =>
    obtain ⟨k, v⟩ := m
    cases ms with
    | nil => exact ⟨_, rfl⟩
    | cons m' ms => exact ⟨_, rfl⟩

theorem parseString_quote (s rest : Utf16) : parseString (quoteUnits s ++ [unit '"'] ++ rest) = some (s, rest) := by
  rw [append_assoc]
  exact parseString_quoteUnits s rest

theorem stops_close (hu : u = unit ',' ∨ u = unit ']' ∨ u = unit '}') (rest : Utf16) :
    Stops (u :: rest) := by
  rcases hu with rfl | rfl | rfl <;> exact stops_cons rest (by decide)

theorem printElements_cons (v w : Value) (ws : List Value) :
    printElements (v :: w :: ws) = print v ++ unit ',' :: printElements (w :: ws) := rfl

theorem printMembers_cons (k : Utf16) (v : Value) (m : Utf16 × Value) (ms : List (Utf16 × Value)) :
    printMembers ((k, v) :: m :: ms) = quote k ++ unit ':' :: (print v ++ unit ',' :: printMembers (m :: ms)) := rfl

mutual

theorem parseValue_print (v : Value) {n : Nat} (rest : Utf16) (hn : (print v).length ≤ n)
    (hrest : Stops rest) : parseValue n (print v ++ rest) = some (v, rest) := by
  obtain ⟨u, us, hus, hspace, -⟩ := head_print v
  obtain ⟨n, rfl⟩ : ∃ m, n = m + 1 := ⟨n - 1, by rw [hus, length_cons] at hn; omega⟩
  cases v with
  | null => rfl
  | bool b => cases b <;> rfl
  | num number =>
    obtain ⟨u, us, hus, hu⟩ := head_printNumber number
    have hnumber := parseNumber_print number hrest
    have hblank : skipSpace (u :: (us ++ rest)) = u :: (us ++ rest) := by
      refine skipSpace_cons ?_ _
      obtain ⟨u', us', hus', hspace', -⟩ := head_print (.num number)
      obtain ⟨rfl, -⟩ := cons.inj (hus.symm.trans hus')
      exact hspace'
    rw [print, hus, cons_append] at *
    rw [parseValue, hblank]
    simp only [if_neg (ne_of_numeric hu (v := unit '{') (by decide)),
      if_neg (ne_of_numeric hu (v := unit '[') (by decide)),
      if_neg (ne_of_numeric hu (v := unit '"') (by decide)),
      if_neg (ne_of_numeric hu (v := unit 't') (by decide)),
      if_neg (ne_of_numeric hu (v := unit 'f') (by decide)),
      if_neg (ne_of_numeric hu (v := unit 'n') (by decide)), hnumber, map_some]
  | str s =>
    rw [print, quote, cons_append, cons_append, parseValue, skipSpace_cons (by decide)]
    have hstring := parseString_quote s rest
    have h1 : unit '"' ≠ unit '{' := by decide
    have h2 : unit '"' ≠ unit '[' := by decide
    simp only [if_neg h1, if_neg h2, if_true, hstring, map_some]
  | arr vs =>
    rw [print, cons_append, parseValue, skipSpace_cons (by decide)]
    have h1 : unit '[' ≠ unit '{' := by decide
    simp only [if_neg h1, if_true, append_assoc, singleton_append]
    by_cases hvs : vs = []
    · subst hvs
      rfl
    · obtain ⟨u, us, hus, hblank, hclose⟩ := head_printElements hvs
      have hlen : (printElements vs).length + 1 ≤ n := by
        rw [print, length_cons, length_append, length_singleton] at hn
        omega
      have helements := parseElements_print vs hvs rest hlen
      rw [hus, cons_append] at helements ⊢
      rw [skipSpace_cons hblank, if_neg (by simpa using hclose), helements]
      rfl
  | obj ms =>
    rw [print, cons_append, parseValue, skipSpace_cons (by decide)]
    simp only [if_true, append_assoc, singleton_append]
    by_cases hms : ms = []
    · subst hms
      rfl
    · obtain ⟨us, hus⟩ := head_printMembers hms
      have hlen : (printMembers ms).length + 1 ≤ n := by
        rw [print, length_cons, length_append, length_singleton] at hn
        omega
      have hmembers := parseMembers_print ms hms rest hlen
      rw [hus, cons_append] at hmembers ⊢
      have hclose : (some (unit '"')) ≠ some (unit '}') := by decide
      rw [skipSpace_cons (by decide), head?_cons, if_neg hclose, hmembers]
      rfl

theorem parseElements_print (vs : List Value) (hvs : vs ≠ []) {n : Nat} (rest : Utf16)
    (hn : (printElements vs).length + 1 ≤ n) :
    parseElements n (printElements vs ++ unit ']' :: rest) = some (vs, rest) := by
  obtain ⟨n, rfl⟩ : ∃ m, n = m + 1 := ⟨n - 1, by omega⟩
  cases vs with
  | nil => exact absurd rfl hvs
  | cons v vs =>
    cases vs with
    | nil =>
      have hv := parseValue_print v (n := n) (unit ']' :: rest) (by simpa [printElements] using hn)
        (stops_close (.inr (.inl rfl)) _)
      rw [printElements, parseElements, hv]
      rfl
    | cons w ws =>
      rw [printElements_cons, length_append, length_cons] at hn
      have hv := parseValue_print v (n := n) (unit ',' :: (printElements (w :: ws) ++ unit ']' :: rest))
        (by omega) (stops_close (.inl rfl) _)
      have htail := parseElements_print (w :: ws) (cons_ne_nil _ _) (n := n) rest (by omega)
      rw [printElements_cons, append_assoc, cons_append, parseElements, hv]
      simp only [skipSpace_cons (show isSpace (unit ',') = false by decide), if_true, htail, map_some]

theorem parseMembers_print (ms : List (Utf16 × Value)) (hms : ms ≠ []) {n : Nat} (rest : Utf16)
    (hn : (printMembers ms).length + 1 ≤ n) :
    parseMembers n (printMembers ms ++ unit '}' :: rest) = some (ms, rest) := by
  obtain ⟨n, rfl⟩ : ∃ m, n = m + 1 := ⟨n - 1, by omega⟩
  cases ms with
  | nil => exact absurd rfl hms
  | cons m ms =>
    obtain ⟨k, v⟩ := m
    have hquote : isSpace (unit '"') = false := by decide
    have hcolon : isSpace (unit ':') = false := by decide
    cases ms with
    | nil =>
      rw [printMembers, length_append, length_cons] at hn
      have hv := parseValue_print v (n := n) (unit '}' :: rest) (by omega) (stops_close (.inr (.inr rfl)) _)
      have hk := parseString_quote k (unit ':' :: (print v ++ unit '}' :: rest))
      simp only [append_assoc, cons_append, nil_append] at hk
      rw [printMembers, quote]
      simp only [cons_append, append_assoc, nil_append]
      rw [parseMembers, skipSpace_cons hquote]
      simp only [if_true, hk, skipSpace_cons hcolon, hv]
      rfl
    | cons m' ms =>
      rw [printMembers_cons, length_append, length_cons, length_append, length_cons] at hn
      have hv := parseValue_print v (n := n) (unit ',' :: (printMembers (m' :: ms) ++ unit '}' :: rest))
        (by omega) (stops_close (.inl rfl) _)
      have hk := parseString_quote k
        (unit ':' :: (print v ++ unit ',' :: (printMembers (m' :: ms) ++ unit '}' :: rest)))
      have htail := parseMembers_print (m' :: ms) (cons_ne_nil _ _) (n := n) rest (by omega)
      simp only [append_assoc, cons_append, nil_append] at hk
      rw [printMembers_cons, quote]
      simp only [cons_append, append_assoc, nil_append]
      rw [parseMembers, skipSpace_cons hquote]
      simp only [if_true, hk, skipSpace_cons hcolon, hv,
        skipSpace_cons (show isSpace (unit ',') = false by decide), htail, map_some]

end

theorem parse_print (v : Value) : parse (print v) = some v := by
  have hv := parseValue_print v [] (Nat.le_refl (print v).length) stops_nil
  rw [append_nil] at hv
  rw [parse, hv]
  rfl

/-! ## Objects -/

/-- The own properties of an object or an array; a repeated name takes the last value. -/
def Value.properties : Value → Option (Record Utf16 Value)
  | .obj ms => some (Record.ofEntries ms)
  | .arr vs => some (Record.ofEntries (vs.zipIdx.map fun e => (digits e.2, e.1)))
  | _ => none

/-- `value[name]`, where it is an own property. -/
def Value.get (v : Value) (name : String) : Option Value := v.properties.bind (·.get (ascii name))

def Value.str? : Value → Option Utf16
  | .str s => some s
  | _ => none

def Value.num? : Value → Option Number
  | .num n => some n
  | _ => none

end Json
