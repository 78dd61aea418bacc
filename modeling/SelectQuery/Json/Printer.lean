import SelectQuery.Decimal.Writing
import SelectQuery.Json.Basic

/-!
# Writing JSON

Texts have no blanks between tokens. In strings only the quote, the backslash and the control
characters below 32 are escaped. A number that is no integer has a point or an exponent.

* `Json.realStyle`, `Json.Number.text`: numbers;
* `Json.quote`: strings;
* `Json.text`: values.
-/

namespace SelectQuery.Json

/-- Whole numbers end in `.0`; places from 16 on and below -5 have an exponent. -/
def realStyle : Decimal.Style := ⟨some 16, some (-5), true, .even⟩

/-- The text of a number. -/
def Number.text : Number → String
  | integer n => toString n
  | real x => Decimal.write realStyle x

/-- The text of a character inside a string. -/
def escapeChar (c : Char) : List Char :=
  match c with
  | '"' => ['\\', '"']
  | '\\' => ['\\', '\\']
  | '\x08' => ['\\', 'b']
  | '\x0c' => ['\\', 'f']
  | '\n' => ['\\', 'n']
  | '\r' => ['\\', 'r']
  | '\t' => ['\\', 't']
  | _ =>
    if c.toNat < 0x20 then
      ['\\', 'u', '0', '0', Nat.digitChar (c.toNat / 16), Nat.digitChar (c.toNat % 16)]
    else [c]

/-- A string between quotes. -/
def quote (s : String) : String := String.ofList ('"' :: (s.toList.flatMap escapeChar ++ ['"']))

mutual

/-- The text of a value. -/
def text : Json → String
  | null => "null"
  | bool b => if b then "true" else "false"
  | number n => n.text
  | string s => quote s
  | array items => "[" ++ ",".intercalate (itemTexts items) ++ "]"
  | object members => "\x7b" ++ ",".intercalate (memberTexts members) ++ "\x7d"
termination_by structural value => value

/-- The texts of a list of values. -/
def itemTexts : List Json → List String
  | [] => []
  | item :: rest => text item :: itemTexts rest
termination_by structural items => items

/-- The texts of the members of an object. -/
def memberTexts : List (String × Json) → List String
  | [] => []
  | member :: rest => memberText member :: memberTexts rest
termination_by structural members => members

/-- The text of a member: its name, a colon and its value. -/
def memberText : String × Json → String
  | (name, value) => quote name ++ ":" ++ text value
termination_by structural member => member

end

end SelectQuery.Json
