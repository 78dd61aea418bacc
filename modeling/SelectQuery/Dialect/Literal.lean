import SelectQuery.Dialect.Basic
import SelectQuery.Value.Basic

/-!
# Literals and templates

* `Dialect.quoteText`: a text as a string literal;
* `Dialect.quoteValue`: a value as a literal, a list as its items with commas between them;
* `Dialect.quoteInto`: a template with a literal for every question mark.
-/

namespace SelectQuery

/-- The characters that stand for `c` inside a string literal. -/
def TextStyle.escape (style : TextStyle) (c : Char) : List Char :=
  match style with
  | .doubledQuote => if c = '\'' then ['\'', '\''] else [c]
  | .backslash =>
    match c with
    | '\\' => ['\\', '\\']
    | '\'' => ['\\', '\'']
    | '"' => ['\\', '"']
    | '\x00' => ['\\', '0']
    | '\n' => ['\\', 'n']
    | '\r' => ['\\', 'r']
    | '\x1a' => ['\\', 'Z']
    | _ => [c]

namespace Dialect

/-- A text as a string literal. -/
def quoteText (d : Dialect) (text : String) : String :=
  String.ofList ('\'' :: (text.toList.flatMap d.textStyle.escape ++ ['\'']))

@[simp] theorem toList_quoteText (d : Dialect) (text : String) :
    (d.quoteText text).toList = '\'' :: (text.toList.flatMap d.textStyle.escape ++ ['\'']) := by
  simp [quoteText]

mutual

/-- A value as a literal. A number that is not finite is a string literal. -/
def quoteValue (d : Dialect) : Value → String
  | .null => "NULL"
  | .bool b => d.boolLiteral b
  | .int i => toString i.toInt
  | .float x => if x.isFinite then Decimal.text x else d.quoteText (Decimal.text x)
  | .text s => d.quoteText s
  | .list items => ", ".intercalate (quoteValues d items)
  | .expr sql => sql
termination_by structural value => value

/-- The literals of several values. -/
def quoteValues (d : Dialect) : List Value → List String
  | [] => []
  | item :: rest => quoteValue d item :: quoteValues d rest
termination_by structural items => items

end

theorem quoteValues_eq_map (d : Dialect) (items : List Value) :
    d.quoteValues items = items.map d.quoteValue := by
  induction items with
  | nil => rfl
  | cons item rest ih => simp [quoteValues, ih]

/-- A template with `sql` in place of every question mark. -/
def fill (template : String) (sql : String) : String :=
  String.ofList (template.toList.flatMap fun c => if c = '?' then sql.toList else [c])

/-- A template with the literal of a value, cast to `type` if one is given, in place of every
question mark. -/
def quoteInto (d : Dialect) (template : String) (value : Value) (type : Option ValueType) :
    String :=
  fill template (d.quoteValue (match type with
    | some type => value.cast type
    | none => value))

end Dialect

end SelectQuery
