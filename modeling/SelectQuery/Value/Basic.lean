import SelectQuery.Decimal.Reading
import SelectQuery.Decimal.Writing
import SelectQuery.Text.Blank
import SelectQuery.Text.Cut

/-!
# Values and their casts

A cast keeps the nesting of lists, NULL and raw expressions, and turns every other value into one
of the type asked for. A text is read from its front as far as it looks like a number.

* `Value`: what a condition template can be filled with;
* `ValueType`: the types a value can be cast to;
* `leadingInt`, `leadingFloat`: the number at the front of a text, zero if there is none;
* `truthOfText`: the truth value of a text;
* `Value.cast`: the cast.
-/

namespace SelectQuery

/-- A value that can be written as an SQL literal. -/
inductive Value where
  | null
  | bool (b : Bool)
  | int (i : Int64)
  | float (x : Float)
  | text (s : String)
  /-- Several values, for `IN (?)`. -/
  | list (items : List Value)
  /-- SQL text that is inserted as it stands. -/
  | expr (sql : String)

/-- The types a value can be cast to. -/
inductive ValueType where
  | int
  | float
  | text
  | bool
  deriving DecidableEq, Repr

/-! ## Texts as numbers and truth values -/

/-- The integer at the front of a text, behind blanks; beyond 64 bits the nearest end of their
range, and zero where no integer stands. -/
def leadingInt (text : String) : Int64 :=
  match Decimal.integerSlice (Text.stripStart text.toList) with
  | some slice => Int64.ofIntClamp (Decimal.intOfSlice slice)
  | none => 0

/-- The number at the front of a text, behind blanks; zero where no number stands. What is cut off
is read as a text of its own, and would count as zero too if it were no number. -/
def leadingFloat (text : String) : Float :=
  match Decimal.floatSlice (Text.stripStart text.toList) with
  | some slice => (Decimal.float? slice).getD 0
  | none => 0

/-- A text is false if it is empty, `0` or `false` in any case of letters. -/
def truthOfText (text : String) : Bool :=
  !(text = "" || text = "0" || Text.lower text = "false")

/-! ## Casts -/

namespace Value

mutual

/-- A value turned into one of type `type`. -/
def cast (type : ValueType) : Value → Value
  | null => null
  | expr sql => expr sql
  | list items => list (castAll type items)
  | bool b =>
    match type with
    | .int => int (if b then 1 else 0)
    | .float => float (if b then 1 else 0)
    | .text => text (if b then "1" else "0")
    | .bool => bool b
  | int i =>
    match type with
    | .int => int i
    | .float => float i.toFloat
    | .text => text (toString i.toInt)
    | .bool => bool (i != 0)
  | float x =>
    match type with
    | .int => int x.toInt64
    | .float => float x
    | .text => text (Decimal.text x)
    | .bool => bool (x != 0)
  | text s =>
    match type with
    | .int => int (leadingInt s)
    | .float => float (leadingFloat s)
    | .text => text s
    | .bool => bool (truthOfText s)
termination_by structural value => value

/-- Every item of a list turned into one of type `type`. -/
def castAll (type : ValueType) : List Value → List Value
  | [] => []
  | item :: rest => cast type item :: castAll type rest
termination_by structural items => items

end

theorem castAll_eq_map (type : ValueType) (items : List Value) :
    castAll type items = items.map (cast type) := by
  induction items with
  | nil => rfl
  | cons item rest ih => simp [castAll, ih]

end Value

end SelectQuery
