import SelectQuery.Calendar
import SelectQuery.Json.Printer
import SelectQuery.Value.Basic

/-!
# Values made from other data

* `Value.ofOption`: an absent value is NULL;
* `Value.ofSingle`: single precision numbers are widened;
* `Value.ofUuid`, `Value.ofDate`, `Value.ofDateTime`, `Value.ofInstant`: texts;
* `Value.ofJson`: JSON values; an object is its text.
-/

namespace SelectQuery.Value

/-- An absent value is NULL. -/
def ofOption : Option Value → Value
  | none => null
  | some value => value

/-- A number of single precision. -/
def ofSingle (x : Float32) : Value := float x.toFloat

/-- The 32 hexadecimal digits of a number of 128 bits in groups of 8, 4, 4, 4 and 12. -/
def uuidText (n : BitVec 128) : String :=
  let digits := (List.range 32).map fun i => Nat.digitChar (n.toNat / Nat.pow 16 (31 - i) % 16)
  let group (start count : Nat) : String := String.ofList ((digits.drop start).take count)
  "-".intercalate [group 0 8, group 8 4, group 12 4, group 16 4, group 20 12]

/-- A universally unique identifier. -/
def ofUuid (n : BitVec 128) : Value := text (uuidText n)

/-- A day. -/
def ofDate (d : Date) : Value := text d.text

/-- A day and a time. -/
def ofDateTime (d : DateTime) : Value := text d.text

/-- A local time with its distance from UTC. -/
def ofInstant (i : Instant) : Value := text i.text

/-- A JSON number: integers of 64 bits with sign are exact. -/
def ofJsonNumber : Json.Number → Value
  | .integer n =>
    if -(Int.pow 2 63) ≤ n && n < Int.pow 2 63 then int (Int64.ofInt n)
    else float (UInt64.ofNat n.toNat).toFloat
  | .real x => float x

mutual

/-- A JSON value: an array is a list, and an object its text. -/
def ofJson : Json → Value
  | .null => null
  | .bool b => bool b
  | .number n => ofJsonNumber n
  | .string s => text s
  | .array items => list (ofJsonItems items)
  | .object members => text (Json.text (.object members))
termination_by structural value => value

/-- A list of JSON values. -/
def ofJsonItems : List Json → List Value
  | [] => []
  | item :: rest => ofJson item :: ofJsonItems rest
termination_by structural items => items

end

end SelectQuery.Value
