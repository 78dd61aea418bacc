/-!
# JSON tokens

* `Json.Piece`, `Json.Spelling`: a string as it was written, with code units kept apart from
  characters, since a code unit need not be half of a pair;
* `Json.Numeral`: a number as it was written;
* `Json.Token`, `Json.tokens?`: the tokens of a text; one walk over its characters.
-/

namespace SelectQuery.Json

/-- A piece of a string: a character, or a code unit written as four hexadecimal digits. -/
inductive Piece where
  | char (c : Char)
  | code (n : Nat)
  deriving DecidableEq, Repr

/-- A string as it was written. -/
abbrev Spelling := List Piece

/-- A number as it was written: digits before and behind the point, and an exponent. -/
structure Numeral where
  negative : Bool
  whole : List Char
  fraction : Option (List Char)
  /-- Whether the exponent is negative, and its digits. -/
  exponent : Option (Bool × List Char)
  deriving DecidableEq, Repr

/-- The words and signs that a text is made of. -/
inductive Token where
  | openArray
  | closeArray
  | openObject
  | closeObject
  | comma
  | colon
  | null
  | bool (b : Bool)
  | number (n : Numeral)
  | string (s : Spelling)
  deriving DecidableEq, Repr

/-! ## Numerals -/

/-- The exponent at the end of a numeral. -/
def exponentOf? : List Char → Option (Option (Bool × List Char))
  | [] => some none
  | e :: rest =>
    let (negative, digits) :=
      match rest with
      | '-' :: digits => (true, digits)
      | '+' :: digits => (false, digits)
      | digits => (false, digits)
    if (e = 'e' || e = 'E') && !digits.isEmpty && digits.all Char.isDigit then
      some (some (negative, digits))
    else none

/-- The fraction and the exponent at the end of a numeral. -/
def fractionOf? : List Char → Option (Option (List Char) × Option (Bool × List Char))
  | '.' :: rest =>
    let digits := rest.takeWhile Char.isDigit
    if digits.isEmpty then none
    else (exponentOf? (rest.dropWhile Char.isDigit)).map fun exponent => (some digits, exponent)
  | rest => (exponentOf? rest).map fun exponent => (none, exponent)

/-- The numeral that characters spell. Only zero itself starts with the digit 0. -/
def numeralOf? (cs : List Char) : Option Numeral :=
  let (negative, unsigned) :=
    match cs with
    | '-' :: rest => (true, rest)
    | _ => (false, cs)
  let whole := unsigned.takeWhile Char.isDigit
  if whole.isEmpty || (whole.head? = some '0' && whole.length ≠ 1) then none
  else (fractionOf? (unsigned.dropWhile Char.isDigit)).map fun (fraction, exponent) =>
    ⟨negative, whole, fraction, exponent⟩

/-! ## The walk -/

/-- Where the walk stands. What was read of an unfinished token is kept with its last piece
first. -/
inductive Place where
  | between
  | word (letters : List Char)
  | numeral (cs : List Char)
  | string (pieces : Spelling)
  /-- Behind a backslash in a string. -/
  | escape (pieces : Spelling)
  /-- In the hexadecimal digits of a code unit. -/
  | code (pieces : Spelling) (digits count : Nat)
  deriving DecidableEq, Repr

/-- The token that a word is. -/
def wordToken? (letters : List Char) : Option Token :=
  let word := String.ofList letters.reverse
  if word = "null" then some .null
  else if word = "true" then some (.bool true)
  else if word = "false" then some (.bool false)
  else none

/-- The characters that numerals are made of. -/
def isNumeralChar (c : Char) : Bool := c.isDigit || ['-', '+', '.', 'e', 'E'].contains c

/-- The token, if any, and the place that a character between tokens leads to. -/
def step? (c : Char) : Option (List Token × Place) :=
  match c with
  | ' ' | '\n' | '\t' | '\r' => some ([], .between)
  | '[' => some ([.openArray], .between)
  | ']' => some ([.closeArray], .between)
  | '\x7b' => some ([.openObject], .between)
  | '\x7d' => some ([.closeObject], .between)
  | ',' => some ([.comma], .between)
  | ':' => some ([.colon], .between)
  | '"' => some ([], .string [])
  | _ =>
    if c.isDigit || c = '-' then some ([], .numeral [c])
    else if c.isLower then some ([], .word [c])
    else none

/-- The character that a letter behind a backslash stands for. -/
def escaped? : Char → Option Char
  | '"' => some '"'
  | '\\' => some '\\'
  | '/' => some '/'
  | 'b' => some '\x08'
  | 'f' => some '\x0c'
  | 'n' => some '\n'
  | 'r' => some '\r'
  | 't' => some '\t'
  | _ => none

/-- The value of a hexadecimal digit. -/
def hexValue? (c : Char) : Option Nat :=
  let n := c.toNat
  if c.isDigit then some (n - '0'.toNat)
  else if 'a' ≤ c && c ≤ 'f' then some (n - 'a'.toNat + 10)
  else if 'A' ≤ c && c ≤ 'F' then some (n - 'A'.toNat + 10)
  else none

/-- The tokens that are left to read at a place of the text. -/
def tokensFrom? : Place → List Char → Option (List Token)
  | .between, [] => some []
  | .between, c :: rest => do
    let (found, next) ← step? c
    return found ++ (← tokensFrom? next rest)
  | .word letters, [] => (wordToken? letters).map ([·])
  | .word letters, c :: rest =>
    if c.isLower then tokensFrom? (.word (c :: letters)) rest
    else do
      let word ← wordToken? letters
      let (found, next) ← step? c
      return word :: found ++ (← tokensFrom? next rest)
  | .numeral cs, [] => (numeralOf? cs.reverse).map (fun n => [.number n])
  | .numeral cs, c :: rest =>
    if isNumeralChar c then tokensFrom? (.numeral (c :: cs)) rest
    else do
      let numeral ← numeralOf? cs.reverse
      let (found, next) ← step? c
      return .number numeral :: found ++ (← tokensFrom? next rest)
  | .string _, [] => none
  | .string pieces, c :: rest =>
    if c = '"' then (tokensFrom? .between rest).map (.string pieces.reverse :: ·)
    else if c = '\\' then tokensFrom? (.escape pieces) rest
    else if c.toNat < 0x20 then none
    else tokensFrom? (.string (.char c :: pieces)) rest
  | .escape _, [] => none
  | .escape pieces, c :: rest =>
    if c = 'u' then tokensFrom? (.code pieces 0 0) rest
    else do
      let char ← escaped? c
      tokensFrom? (.string (.char char :: pieces)) rest
  | .code _ _ _, [] => none
  | .code pieces digits count, c :: rest => do
    let digit ← hexValue? c
    let digits := 16 * digits + digit
    if count = 3 then tokensFrom? (.string (.code digits :: pieces)) rest
    else tokensFrom? (.code pieces digits (count + 1)) rest

/-- The tokens of a text. -/
def tokens? (text : String) : Option (List Token) := tokensFrom? .between text.toList

end SelectQuery.Json
