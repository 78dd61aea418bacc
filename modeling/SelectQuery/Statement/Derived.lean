import SelectQuery.Statement.Classify

/-!
# INSERT, UPDATE and DELETE made from a SELECT

The dialect that shapes the text may be another one than that of the statement; nested parts of the
statement are always written in its own.

* `InsertMode`, `Dialect.insertFrom`: the rows of the statement inserted into a table;
* `Assignment`, `Statement.assignments`: the select list as assignments;
* `Dialect.updateFrom`: a table updated with those assignments;
* `Statement.physicalTable`, `Dialect.deleteFrom`: the rows of one of its tables deleted.
-/

namespace SelectQuery

/-- What an insert does with rows that break a unique constraint. -/
inductive InsertMode where
  | plain
  /-- They are skipped. -/
  | ignore
  deriving DecidableEq, Repr

/-- A new value for a column of the target table. -/
structure Assignment where
  target : String
  value : String
  deriving DecidableEq, Repr

namespace Statement

/-! ## What the statement contributes -/

/-- FROM without its keyword. -/
def fromText (s : Statement) : Rendered := s.dialect.renderTables s.outcomes.tables

/-- The FROM clause, if there are tables. -/
def fromClause (s : Statement) : Rendered :=
  if s.tables.isEmpty then .ok "" else s.fromText.map (" FROM " ++ ·)

/-- The name that a column of the select list assigns to. -/
def assignmentTarget (column : Column) : Except Error String :=
  match column.aliasName, column.content with
  | some aliasName, _ => .ok aliasName
  | none, .ident name =>
    if name = "*" then .error (.validation "cannot assign from a wildcard column") else .ok name
  | none, .raw sql =>
    .error (.validation s!"expression column '{sql}' needs an alias to be used as an assignment")

/-- The value that a column of the select list assigns. -/
def assignmentValue (d : Dialect) (column : Column) : Rendered :=
  match column.content, column.correlation with
  | .raw sql, _ => .ok sql
  | .ident name, some correlation => d.quoteColumnAs (.qualified correlation name) none
  | .ident name, none => d.quoteIdentifier name

/-- The assignment that a column of the select list makes. -/
def assignment (d : Dialect) (column : Column) : Except Error Assignment := do
  let target ← assignmentTarget column
  let value ← assignmentValue d column
  return ⟨target, value⟩

/-- The select list as assignments, of which there must be one. -/
def assignments (s : Statement) : Except Error (List Assignment) :=
  if s.columns.isEmpty then
    .error (.validation "update from select requires at least one column")
  else s.columns.mapM (assignment s.dialect)

/-- The schema and the name of the database table with a correlation name. -/
def physicalTable (s : Statement) (correlation : String) :
    Except Error (Option String × String) :=
  match s.table? correlation with
  | none => .error (.unknownCorrelation correlation)
  | some table =>
    match table.source with
    | .name name => .ok (table.schema, name)
    | .expr _ | .select _ => .error (.validation s!"'{correlation}' is not a physical table")

/-- The statement with the row identifiers of one table as its whole select list. -/
def selectRowIds (s : Statement) (correlation : String) : Statement :=
  let first := s.tables.head?.map (·.correlation)
  { s with
    distinct := false
    columns := (classifyText (correlation ++ ".ctid") none first).toList }

end Statement

namespace Dialect

/-! ## INSERT -/

/-- The rows of a statement inserted into a table by the words `head`. -/
def insertWith (d : Dialect) (head : String) (s : Statement) (table : String)
    (fields : List String) : Rendered := do
  let target ← d.quoteIdentifier table
  let names ← fields.mapM d.quoteIdentifier
  let list := if fields.isEmpty then "" else " (" ++ ", ".intercalate names ++ ")"
  return head ++ " " ++ target ++ list ++ " " ++ (← s.assemble)

/-- The rows of a statement inserted into a table. -/
def insertFrom (d : Dialect) (s : Statement) (table : String) (fields : List String)
    (mode : InsertMode) : Rendered :=
  match mode, d.ignoreStyle with
  | .plain, _ => d.insertWith "INSERT INTO" s table fields
  | .ignore, .unsupported => .error (.unsupported d.name "INSERT ... IGNORE")
  | .ignore, .ignoreWord => d.insertWith "INSERT IGNORE INTO" s table fields
  | .ignore, .conflictClause => do
    return (← d.insertWith "INSERT INTO" s table fields) ++ " ON CONFLICT DO NOTHING"

/-! ## UPDATE -/

/-- The name under which an UPDATE introduces its target. -/
def targetName (table : String) (aliasName : Option String) : String :=
  (TableInput.nonempty aliasName).getD table

/-- Tables joined behind the target of an UPDATE; the first one by an inner join. -/
def joinedTables (d : Dialect) (tables : List (TableRef Rendered)) : Rendered := do
  let texts ← tables.mapM fun table => do
    return " " ++ (table.join.getD .inner).keyword ++ " " ++ (← d.renderTable table) ++
      onClause table.condition
  return String.join texts

/-- A table updated with the select list of a statement. -/
def updateFrom (d : Dialect) (s : Statement) (table : String) (aliasName : Option String) :
    Rendered :=
  match d.updateStyle with
  | .fromClause => do
    let assignments ← s.assignments
    let target ← d.quoteTableAs none table (some (targetName table aliasName))
    let set := assignments.map fun a => d.quoteAlias a.target ++ " = " ++ a.value
    let source ← s.fromClause
    return "UPDATE " ++ target ++ " SET " ++ ", ".intercalate set ++ source ++
      whereClause s.predicates
  | .joins => do
    let assignments ← s.assignments
    let target ← d.quoteTableAs none table (some (targetName table aliasName))
    let source ← s.dialect.joinedTables s.outcomes.tables
    let qualifier := d.quoteAlias (targetName table aliasName)
    let set := assignments.map fun a =>
      qualifier ++ "." ++ d.quoteAlias a.target ++ " = " ++ a.value
    return "UPDATE " ++ target ++ source ++ " SET " ++ ", ".intercalate set ++
      whereClause s.predicates

/-! ## DELETE -/

/-- The rows deleted that a statement selects from the table with a correlation name. -/
def deleteFrom (d : Dialect) (s : Statement) (correlation : String) : Rendered :=
  match d.deleteStyle with
  | .rowIds => do
    let (schema, table) ← s.physicalTable correlation
    let target ← d.quoteTableAs schema table none
    let rows ← (s.selectRowIds correlation).assemble
    return "DELETE FROM " ++ target ++ " WHERE ctid IN (" ++ rows ++ ")"
  | .fromClause =>
    if s.hasTable correlation then do
      let source ← s.fromText
      return "DELETE " ++ d.quoteAlias correlation ++ " FROM " ++ source ++
        whereClause s.predicates
    else .error (.unknownCorrelation correlation)

end Dialect

namespace Statement

/-- The rows of the statement inserted into a table. -/
def insertSql (s : Statement) (table : String) (fields : List String) (mode : InsertMode) :
    Rendered := s.dialect.insertFrom s table fields mode

/-- A table updated with the select list of the statement. -/
def updateSql (s : Statement) (table : String) (aliasName : Option String) : Rendered :=
  s.dialect.updateFrom s table aliasName

/-- The rows deleted that the statement selects from the table with a correlation name. -/
def deleteSql (s : Statement) (correlation : String) : Rendered :=
  s.dialect.deleteFrom s correlation

end Statement

end SelectQuery
