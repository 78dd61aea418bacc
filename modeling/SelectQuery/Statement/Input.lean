import SelectQuery.Statement.Suffix
import SelectQuery.Text.Cut

/-!
# Tables, columns and terms as they are asked for

* `TableInput`: a table, with `TableInput.ofName`, `TableInput.aliased`, `TableInput.inSchema`;
* `ResolvedTable`, `TableInput.resolve?`: the table after an alias and a schema were read off its
  text;
* `ColumnInput`: a column, with `ColumnInput.ofText`, `ColumnInput.aliased`;
* `TermInput`: a term of GROUP BY or ORDER BY.
-/

namespace SelectQuery

/-! ## Tables -/

/-- A table that is asked for; it may be none at all. -/
structure TableInput where
  source : Option (Source Statement) := none
  correlation : Option String := none
  schema : Option String := none

namespace TableInput

/-- A table given as text, which may hold a schema and an alias. -/
def ofName (text : String) : TableInput := { source := some (.name text) }

/-- SQL text in place of a table. -/
def ofExpr (sql : String) : TableInput := { source := some (.expr sql) }

/-- A statement in place of a table. -/
def ofStatement (s : Statement) : TableInput := { source := some (.select s) }

/-- The same table under a correlation name, in place of any other. -/
def aliased (correlation : String) (table : TableInput) : TableInput :=
  { table with correlation := some correlation }

/-- The same table in a schema, in place of any other. -/
def inSchema (schema : String) (table : TableInput) : TableInput :=
  { table with schema := some schema }

/-- Whether nothing is asked for. -/
def isEmpty (table : TableInput) : Bool :=
  match table.source with
  | none => true
  | some (.name text) => Text.isBlankText text
  | some (.expr sql) => Text.isBlankText sql
  | some (.select _) => false

end TableInput

/-- A table with its correlation name and schema, where they were given or written in its text. -/
structure ResolvedTable where
  source : Source Statement
  correlation : Option String
  schema : Option String

namespace ResolvedTable

/-- The name that the correlation name of a table is made from if none is given. -/
def baseName (table : ResolvedTable) : String :=
  match table.source with
  | .name name => name
  | .expr _ | .select _ => "t"

/-- How an error shows the table. -/
def displayName (table : ResolvedTable) : String :=
  match table.source with
  | .name name => name
  | .expr sql => sql
  | .select _ => "(subquery)"

end ResolvedTable

namespace TableInput

/-- The name and the correlation name in a text. A correlation name that was given keeps the text
whole. -/
def resolveAlias (text : List Char) (correlation : Option String) : List Char × Option String :=
  match correlation with
  | some correlation => (text, some correlation)
  | none =>
    match splitAlias? text with
    | some (name, aliasName) => (name, some (String.ofList aliasName))
    | none => (text, none)

/-- The name and the schema in a text. A schema that was given keeps the text whole. -/
def resolveSchema (text : List Char) (schema : Option String) : List Char × Option String :=
  match schema with
  | some schema => (text, some schema)
  | none =>
    match Text.cutFirst '.' text with
    | some (schema, name) => (name, some (String.ofList schema))
    | none => (text, none)

/-- A name that is not the empty text. -/
def nonempty (name : Option String) : Option String := name.filter (· ≠ "")

/-- The table that is asked for, if any. -/
def resolve? (table : TableInput) : Option ResolvedTable :=
  if table.isEmpty then none
  else
    match table.source with
    | none => none
    | some (.name text) =>
      let (named, correlation) := resolveAlias (Text.strip text.toList) table.correlation
      let (name, schema) := resolveSchema named table.schema
      some ⟨.name (String.ofList name), nonempty correlation, nonempty schema⟩
    | some source => some ⟨source, nonempty table.correlation, nonempty table.schema⟩

end TableInput

/-! ## Columns and terms -/

/-- What a column is asked to show. -/
inductive ColumnSource where
  /-- Text, which may hold a qualifier and an alias, or be an expression. -/
  | text (text : String)
  | raw (sql : String)
  | select (s : Statement)

/-- A column that is asked for. -/
structure ColumnInput where
  source : ColumnSource
  aliasName : Option String := none

namespace ColumnInput

/-- A column given as text; the empty text asks for nothing. -/
def ofText (text : String) : ColumnInput := { source := .text text }

/-- A column given as SQL text. -/
def ofExpr (sql : String) : ColumnInput := { source := .raw sql }

/-- A column computed by a statement. -/
def ofStatement (s : Statement) : ColumnInput := { source := .select s }

/-- The same column under an alias, in place of any other. -/
def aliased (aliasName : String) (column : ColumnInput) : ColumnInput :=
  { column with aliasName := some aliasName }

/-- A column that may be absent. -/
def ofOption : Option ColumnInput → ColumnInput
  | some column => column
  | none => ofText ""

end ColumnInput

/-- A term of GROUP BY or ORDER BY that is asked for. -/
inductive TermInput where
  | text (text : String)
  | raw (sql : String)
  deriving DecidableEq, Repr

end SelectQuery
