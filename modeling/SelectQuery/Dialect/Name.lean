import SelectQuery.Dialect.Basic
import SelectQuery.Identifier.Parser

/-!
# Names of columns and tables

* `Dialect.quoteIdentifier`: the text of an identifier;
* `Dialect.quoteAlias`: a correlation name or alias, which is always one segment;
* `ColumnRef`, `Dialect.quoteColumnAs`: a column with its alias;
* `Dialect.quoteTableAs`: a table with its schema and its alias.

An alias that repeats the name it would stand behind is left out.
-/

namespace SelectQuery

/-- A column as it is written in a select list. -/
inductive ColumnRef where
  /-- An identifier with any number of segments. -/
  | name (text : String)
  /-- An identifier behind the correlation name of a table. -/
  | qualified (correlation column : String)
  /-- SQL text. -/
  | raw (sql : String)
  deriving DecidableEq, Repr

namespace Dialect

/-- The identifier that a text spells in this dialect. -/
def readIdentifier (d : Dialect) (text : String) : Except Error Identifier :=
  Identifier.parse d.quoteSymbol text

/-- The text of an identifier in this dialect. -/
def writeIdentifier (d : Dialect) (ident : Identifier) : String :=
  ident.write d.quoteSymbol d.autoQuote

/-- The text of the identifier that a text spells. -/
def quoteIdentifier (d : Dialect) (text : String) : Except Error String :=
  (d.readIdentifier text).map d.writeIdentifier

/-- A correlation name or alias, whatever characters it has, as one segment. -/
def quoteAlias (d : Dialect) (name : String) : String :=
  if d.autoQuote then quoteName d.quoteSymbol name else name

/-- The words that give the name `aliasName` to something, unless there is no such name or it is
`known` already. -/
def asClause (d : Dialect) (known : Option String) : Option String → String
  | none => ""
  | some aliasName =>
    if aliasName = "" || known = some aliasName then "" else " AS " ++ d.quoteAlias aliasName

/-- The text of a column, and the name by which it is known without an alias. -/
def quoteColumn (d : Dialect) : ColumnRef → Except Error (String × Option String)
  | .raw sql => .ok (sql, none)
  | .name text => do
    let ident ← d.readIdentifier text
    return (d.writeIdentifier ident, ident.lastName?)
  | .qualified correlation column => do
    let front ← d.readIdentifier correlation
    let back ← d.readIdentifier column
    return (d.writeIdentifier ⟨front.segments ++ back.segments⟩, back.lastName?)

/-- A column with its alias. -/
def quoteColumnAs (d : Dialect) (column : ColumnRef) (aliasName : Option String) :
    Except Error String := do
  let (sql, known) ← d.quoteColumn column
  return sql ++ d.asClause known aliasName

/-- A table with its schema and its alias. -/
def quoteTableAs (d : Dialect) (schema : Option String) (table : String)
    (aliasName : Option String) : Except Error String := do
  let front ←
    match schema with
    | none => pure ""
    | some schema => do
      let quoted ← d.quoteIdentifier schema
      pure (quoted ++ ".")
  let name ← d.quoteIdentifier table
  return front ++ name ++ d.asClause (some table) aliasName

end Dialect

end SelectQuery
