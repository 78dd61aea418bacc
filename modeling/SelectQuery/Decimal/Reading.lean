/-!
# Reading numbers off the front of a text

* `Decimal.takeSign`, `Decimal.takeDigits`: an optional sign, and the digits 0 to 9, in front;
* `Decimal.integerSlice`: the longest front part of the form sign and digits;
* `Decimal.floatSlice`: the longest front part of the form sign, digits with a point somewhere, and
  an exponent;
* `Decimal.intOfSlice`, `Decimal.floatOfSlice`: the numbers that such parts denote;
* `Decimal.float?`: the number that a whole text spells, if it spells one.
-/

namespace SelectQuery.Decimal

/-- A sign in front, and what follows it. -/
def takeSign : List Char → List Char × List Char
  | '+' :: rest => (['+'], rest)
  | '-' :: rest => (['-'], rest)
  | cs => ([], cs)

theorem takeSign_sign {sign : Char} (hsign : sign = '+' ∨ sign = '-') (rest : List Char) :
    takeSign (sign :: rest) = ([sign], rest) := by
  rcases hsign with rfl | rfl <;> rfl

theorem takeSign_eq_or (cs : List Char) : takeSign cs = ([], cs) ∨
    ∃ sign rest, (sign = '+' ∨ sign = '-') ∧ cs = sign :: rest ∧ takeSign cs = ([sign], rest) := by
  fun_cases takeSign cs with
  | case1 rest => exact .inr ⟨'+', rest, .inl rfl, rfl, rfl⟩
  | case2 rest => exact .inr ⟨'-', rest, .inr rfl, rfl, rfl⟩
  | case3 => exact .inl rfl

/-- The digits in front, and what follows them. -/
def takeDigits (cs : List Char) : List Char × List Char :=
  (cs.takeWhile Char.isDigit, cs.dropWhile Char.isDigit)

theorem takeWhile_dropWhile_append {p : Char → Bool} {front rest : List Char}
    (h : ∀ c ∈ front, p c = true) (hrest : ∀ c ∈ rest.head?, p c = false) :
    ((front ++ rest).takeWhile p, (front ++ rest).dropWhile p) = (front, rest) := by
  have hnone : rest.takeWhile p = [] ∧ rest.dropWhile p = rest := by
    cases rest with
    | nil => exact ⟨rfl, rfl⟩
    | cons c rest => simp [hrest c rfl]
  rw [List.takeWhile_append_of_pos h, List.dropWhile_append_of_pos h, hnone.1, hnone.2,
    List.append_nil]

theorem takeDigits_append {digits rest : List Char} (h : ∀ c ∈ digits, c.isDigit = true)
    (hrest : ∀ c ∈ rest.head?, c.isDigit = false) :
    takeDigits (digits ++ rest) = (digits, rest) := takeWhile_dropWhile_append h hrest

/-- The longest front part made of an optional sign and at least one digit. -/
def integerSlice (cs : List Char) : Option (List Char) :=
  let (sign, unsigned) := takeSign cs
  let (digits, _) := takeDigits unsigned
  if digits.isEmpty then none else some (sign ++ digits)

/-- A point with the digits behind it, and what follows them; nothing where no point stands. -/
def takeFraction : List Char → List Char × List Char
  | '.' :: rest =>
    let (digits, rest) := takeDigits rest
    ('.' :: digits, rest)
  | cs => ([], cs)

theorem takeFraction_eq_or (cs : List Char) : takeFraction cs = ([], cs) ∨
    ∃ rest, cs = '.' :: rest ∧
      takeFraction cs = ('.' :: (takeDigits rest).1, (takeDigits rest).2) := by
  unfold takeFraction
  split
  next rest => exact .inr ⟨rest, rfl, rfl⟩
  next => exact .inl rfl

/-- An exponent: `e`, an optional sign and at least one digit; nothing where none stands. -/
def takeExponent : List Char → List Char
  | [] => []
  | e :: rest =>
    if e = 'e' || e = 'E' then
      let (sign, unsigned) := takeSign rest
      let (digits, _) := takeDigits unsigned
      if digits.isEmpty then [] else e :: (sign ++ digits)
    else []

/-- The longest front part made of an optional sign, at least one digit with at most one point
among or around the digits, and an optional exponent. -/
def floatSlice (cs : List Char) : Option (List Char) :=
  let (sign, unsigned) := takeSign cs
  let (whole, rest) := takeDigits unsigned
  let (fraction, rest) := takeFraction rest
  if whole.isEmpty && fraction.length ≤ 1 then none
  else some (sign ++ whole ++ fraction ++ takeExponent rest)

/-- The value of a digit. -/
def digitValue (c : Char) : Nat := c.toNat - '0'.toNat

/-- The number that digits denote. -/
def natOfDigits (digits : List Char) : Nat := digits.foldl (fun n c => 10 * n + digitValue c) 0

theorem natOfDigits_toDigits (n : Nat) : natOfDigits (Nat.toDigits 10 n) = n :=
  Nat.ofDigitChars_ten_toDigits

/-- The number that an optional sign and digits denote. -/
def intOfSlice (slice : List Char) : Int :=
  let (sign, digits) := takeSign slice
  if sign = ['-'] then -(natOfDigits digits : Int) else natOfDigits digits

/-- The number that the digits of an exponent denote. Digits past the value 65536 no longer count:
every number that large an exponent could matter for is out of range. -/
def exponentOfDigits (digits : List Char) : Nat :=
  digits.foldl (fun n c => if n < 65536 then 10 * n + digitValue c else n) 0

/-- The exponent that a part `e`, sign and digits denotes; nothing denotes zero. -/
def exponentOfSlice (slice : List Char) : Int :=
  let (sign, digits) := takeSign (slice.drop 1)
  if sign = ['-'] then -(exponentOfDigits digits : Int) else exponentOfDigits digits

/-- The binary64 number nearest to `significand * 10 ^ exponent`, even at a tie. -/
def nearestFloat (significand : Nat) (exponent : Int) : Float :=
  let place := (Nat.toDigits 10 significand).length + exponent
  if significand = 0 || place < -400 then 0
  else if 400 < place then 1 / 0
  else Float.ofScientific significand (exponent < 0) exponent.natAbs

/-- The binary64 number nearest to what an optional sign, digits with a point and an exponent
denote. -/
def floatOfSlice (slice : List Char) : Float :=
  let (sign, unsigned) := takeSign slice
  let (whole, rest) := takeDigits unsigned
  let (fraction, rest) := takeFraction rest
  let digits := fraction.drop 1
  let size := nearestFloat (natOfDigits (whole ++ digits))
    (exponentOfSlice (takeExponent rest) - digits.length)
  if sign = ['-'] then -size else size

/-! ## Whole texts -/

/-- Whether a text is made of digits, one at least, and one point at most. -/
def isMantissa (cs : List Char) : Bool :=
  let digits := cs.erase '.'
  !digits.isEmpty && digits.all Char.isDigit

/-- Whether a text is `e`, an optional sign and at least one digit; or nothing. -/
def isExponent : List Char → Bool
  | [] => true
  | e :: rest =>
    let (_, digits) := takeSign rest
    (e = 'e' || e = 'E') && !digits.isEmpty && digits.all Char.isDigit

/-- Whether a text is a mantissa with an exponent behind it, which the first `e` tells apart. -/
def isMagnitude (cs : List Char) : Bool :=
  let (mantissa, exponent) := cs.span fun c => c != 'e' && c != 'E'
  isMantissa mantissa && isExponent exponent

/-- What a word for no finite number stands for. The case of its letters is free. -/
def nonFinite? (cs : List Char) : Option Float :=
  let word := String.ofList (cs.map Char.toLower)
  if word = "inf" || word = "infinity" then some (1 / 0)
  else if word = "nan" then some (0 / 0)
  else none

/-- The binary64 number that a whole text spells: an optional sign, and a mantissa with an exponent
or a word for no finite number. -/
def float? (cs : List Char) : Option Float :=
  let (sign, unsigned) := takeSign cs
  if isMagnitude unsigned then some (floatOfSlice cs)
  else (nonFinite? unsigned).map fun size => if sign = ['-'] then -size else size

end SelectQuery.Decimal
