import SelectQuery.Decimal.Reading
import SelectQuery.Json.Raw

/-!
# JSON values

* `Json.Number`: integers of 64 bits with or without sign, and binary64 numbers;
* `Json`: values; the members of an object are sorted by name, each name once;
* `Json.Spelling.text?`: the text of a string, whose code units must form characters;
* `Json.Number.ofNumeral?`: the number that a numeral denotes;
* `Json.ofRaw?`, `Json.parse?`: the value of a tree and of a text.
-/

namespace SelectQuery

namespace Json

/-- A number: an integer that fits 64 bits with or without a sign, or a binary64 number. -/
inductive Number where
  | integer (n : Int)
  | real (x : Float)

end Json

/-- A JSON value. -/
inductive Json where
  | null
  | bool (b : Bool)
  | number (n : Json.Number)
  | string (s : String)
  | array (items : List Json)
  | object (members : List (String × Json))

namespace Json

/-! ## Strings -/

/-- The text of a string. A code unit of a surrogate pair counts only together with the other one
of its pair. -/
def Spelling.text? : Spelling → Option (List Char)
  | [] => some []
  | .char c :: rest => (text? rest).map (c :: ·)
  | .code n :: rest =>
    if 0xD800 ≤ n && n < 0xDC00 then
      match rest with
      | .code m :: rest =>
        if 0xDC00 ≤ m && m < 0xE000 then
          (text? rest).map (Char.ofNat (0x10000 + (n - 0xD800) * 0x400 + (m - 0xDC00)) :: ·)
        else none
      | _ => none
    else if 0xDC00 ≤ n && n < 0xE000 then none
    else (text? rest).map (Char.ofNat n :: ·)

/-! ## Numbers -/

namespace Number

/-- Digits taken into a significand for as long as it stays below 2⁶⁴, with their count. -/
def takeDigits (significand : Nat) : List Char → Nat × Nat
  | [] => (significand, 0)
  | c :: rest =>
    let next := 10 * significand + Decimal.digitValue c
    if next < Nat.pow 2 64 then
      let (last, count) := takeDigits next rest
      (last, count + 1)
    else (significand, 0)

/-- The exponent that digits denote, unless it passes 31 bits. -/
def exponent? (digits : List Char) : Option Nat :=
  digits.foldlM (fun n c =>
    let next := 10 * n + Decimal.digitValue c
    if next < Nat.pow 2 31 then some next else none) 0

/-- A power of ten as a binary64 number. -/
def tenTo (n : Nat) : Float := Float.ofScientific 1 false n

/-- A significand times a power of ten, by one multiplication or one or two divisions of binary64
numbers; none if the result is out of range. -/
def scaled? (significand : Nat) (exponent : Int) : Option Float :=
  let x := (UInt64.ofNat significand).toFloat
  if significand = 0 then some 0
  else if 308 < exponent then none
  else if 0 ≤ exponent then
    let y := x * tenTo exponent.toNat
    if y.isInf then none else some y
  else if -308 ≤ exponent then some (x / tenTo exponent.natAbs)
  else if -616 ≤ exponent then some (x / tenTo 308 / tenTo (exponent.natAbs - 308))
  else some 0

/-- The size of a numeral with a fraction, an exponent or more digits than fit. -/
def realSize? (n : Numeral) : Option Float :=
  let (whole, taken) := takeDigits 0 n.whole
  let dropped := n.whole.length - taken
  let (significand, places) := takeDigits whole (n.fraction.getD [])
  let exponent := (dropped : Int) - places
  match n.exponent with
  | none => scaled? significand exponent
  | some (negative, digits) =>
    match exponent? digits with
    | some e => scaled? significand (if negative then exponent - e else exponent + e)
    | none => if significand = 0 || negative then some 0 else none

/-- The number that a numeral denotes. Integers that fit are exact; minus zero and all else are
binary64 numbers; none stands for a number out of range. -/
def ofNumeral? (n : Numeral) : Option Number :=
  let (whole, taken) := takeDigits 0 n.whole
  let isWhole := n.fraction.isNone && n.exponent.isNone && taken = n.whole.length
  if isWhole && !n.negative then some (integer whole)
  else if isWhole && 0 < whole && whole ≤ Nat.pow 2 63 then some (integer (-(whole : Int)))
  else (realSize? n).map fun x => real (if n.negative then -x else x)

end Number

/-! ## Values -/

/-- A member put at its place among members sorted by name; an older one of that name goes. -/
def insertMember (name : String) (value : Json) :
    List (String × Json) → List (String × Json)
  | [] => [(name, value)]
  | (n, v) :: rest =>
    if name < n then (name, value) :: (n, v) :: rest
    else if name = n then (name, value) :: rest
    else (n, v) :: insertMember name value rest

mutual

/-- The value of a tree with fewer than `depth` lists and objects inside each other. -/
def ofRaw? (depth : Nat) : Raw → Option Json
  | .null => some null
  | .bool b => some (bool b)
  | .number n => (Number.ofNumeral? n).map number
  | .string s => s.text?.map fun cs => string (String.ofList cs)
  | .array items =>
    if depth ≤ 1 then none else (ofRawItems? (depth - 1) items).map array
  | .object members =>
    if depth ≤ 1 then none else (ofRawMembers? (depth - 1) [] members).map object
termination_by structural raw => raw

/-- The values of a list of trees. -/
def ofRawItems? (depth : Nat) : List Raw → Option (List Json)
  | [] => some []
  | item :: rest => do return (← ofRaw? depth item) :: (← ofRawItems? depth rest)
termination_by structural items => items

/-- Members put among those read before them. -/
def ofRawMembers? (depth : Nat) (sorted : List (String × Json)) :
    List (Spelling × Raw) → Option (List (String × Json))
  | [] => some sorted
  | member :: rest => do
    let (name, value) ← ofRawMember? depth member
    ofRawMembers? depth (insertMember name value sorted) rest
termination_by structural members => members

/-- The name and the value of a member. -/
def ofRawMember? (depth : Nat) : Spelling × Raw → Option (String × Json)
  | (name, value) => do return (String.ofList (← name.text?), ← ofRaw? depth value)
termination_by structural member => member

end

/-- The value that a text spells. At most 127 lists and objects may stand inside each other. -/
def parse? (text : String) : Option Json := (Raw.parse? text).bind (ofRaw? 128)

end Json

end SelectQuery
