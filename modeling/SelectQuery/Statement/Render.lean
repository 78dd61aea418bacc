import SelectQuery.Decimal.Reading
import SelectQuery.Dialect.Name
import SelectQuery.Statement.Basic

/-!
# Statements as SQL text

The clauses are written over the outcomes of the nested statements, so the text of a statement
depends on a nested one through its outcome alone.

* `Rendered`: a text, or the error that kept it from being written;
* `isExpression`, `isUnsigned`: the ORDER BY terms that are written as they stand;
* `Dialect.renderColumn`, `Dialect.renderTables`, … : the clauses;
* `Clauses.render`: a statement whose nested statements are outcomes already;
* `Statement.outcomes`, `Statement.assemble`: the outcomes of the nested statements, and the text.
-/

namespace SelectQuery

/-- A text, or the error that kept it from being written. -/
abbrev Rendered := Except Error String

/-! ## Terms that are written as they stand -/

/-- A text with both parentheses is taken for an expression. -/
def isExpression (cs : List Char) : Bool := cs.contains '(' && cs.contains ')'

/-- Whether a text is a whole number below 2⁶⁴: digits, with or without a plus sign in front. -/
def isUnsigned (cs : List Char) : Bool :=
  let digits :=
    match cs with
    | '+' :: rest => rest
    | _ => cs
  !digits.isEmpty && digits.all Char.isDigit && Decimal.natOfDigits digits < Nat.pow 2 64

namespace Dialect

/-! ## Clauses -/

/-- An entry of the select list. The identifier `*` has no alias. -/
def renderColumn (d : Dialect) (column : Column) : Rendered :=
  match column.content with
  | .raw sql => d.quoteColumnAs (.raw sql) column.aliasName
  | .ident name =>
    let ref :=
      match column.correlation with
      | some correlation => ColumnRef.qualified correlation name
      | none => .name name
    d.quoteColumnAs ref (if name = "*" then none else column.aliasName)

/-- The select list; all columns if it is empty. -/
def renderColumns (d : Dialect) (columns : List Column) : Rendered :=
  if columns.isEmpty then .ok "*"
  else do return ", ".intercalate (← columns.mapM d.renderColumn)

/-- A table with its correlation name. -/
def renderTable (d : Dialect) (table : TableRef Rendered) : Rendered :=
  match table.source with
  | .name name => d.quoteTableAs table.schema name (some table.correlation)
  | .expr sql => .ok (sql ++ " AS " ++ d.quoteAlias table.correlation)
  | .select outcome => do
    return "(" ++ (← outcome) ++ ") AS " ++ d.quoteAlias table.correlation

/-- The words before a joined table. -/
def joinWords (join : Option JoinKind) : String :=
  match join with
  | some kind => kind.keyword
  | none => ""

/-- The condition of a joined table. -/
def onClause (condition : Option String) : String :=
  match condition with
  | some condition => " ON " ++ condition
  | none => ""

/-- A table behind another one. -/
def renderJoined (d : Dialect) (table : TableRef Rendered) : Rendered := do
  return " " ++ joinWords table.join ++ " " ++ (← d.renderTable table) ++ onClause table.condition

/-- The tables of FROM. The first one is written without join and condition. -/
def renderTables (d : Dialect) : List (TableRef Rendered) → Rendered
  | [] => .ok ""
  | first :: rest => do
    return (← d.renderTable first) ++ String.join (← rest.mapM d.renderJoined)

/-- The conditions of WHERE; the connector of the first one is not written. -/
def renderPredicates : List Predicate → String
  | [] => ""
  | first :: rest =>
    first.text ++ String.join (rest.map fun p => " " ++ p.connector.keyword ++ " " ++ p.text)

/-- An entry of GROUP BY. -/
def renderGroup (d : Dialect) : GroupTerm → Rendered
  | .ident name => d.quoteIdentifier name
  | .raw sql => .ok sql

/-- An entry of ORDER BY. -/
def renderOrder (d : Dialect) : OrderTerm → Rendered
  | .raw sql => .ok sql
  | .term value direction => do
    let text ←
      if isUnsigned value.toList || isExpression value.toList then pure value
      else d.quoteIdentifier value
    return text ++ " " ++ direction.keyword

/-- The ORDER BY clause, if there are entries. -/
def orderClause (d : Dialect) (orders : List OrderTerm) : Rendered :=
  if orders.isEmpty then .ok ""
  else do return " ORDER BY " ++ ", ".intercalate (← orders.mapM d.renderOrder)

/-- The GROUP BY clause, if there are entries. -/
def groupClause (d : Dialect) (groups : List GroupTerm) : Rendered :=
  if groups.isEmpty then .ok ""
  else do return " GROUP BY " ++ ", ".intercalate (← groups.mapM d.renderGroup)

/-- The WHERE clause, if there are conditions. -/
def whereClause (predicates : List Predicate) : String :=
  if predicates.isEmpty then "" else " WHERE " ++ renderPredicates predicates

/-- The HAVING clause, if there are conditions. -/
def havingClause (havings : List String) : String :=
  if havings.isEmpty then "" else " HAVING " ++ " ".intercalate havings

end Dialect

/-- The text of a union member. -/
def UnionTarget.render : UnionTarget Rendered → Rendered
  | .select outcome => outcome
  | .raw sql => .ok sql

/-- A union member behind something else. -/
def UnionMember.render (member : UnionMember Rendered) : Rendered := do
  return " " ++ member.kind.keyword ++ " " ++ (← member.target.render)

namespace Clauses

/-- The clauses from FROM to HAVING, which are written only if there is a table. -/
def renderBody (d : Dialect) (c : Clauses Rendered) : Rendered :=
  if c.tables.isEmpty then .ok ""
  else do
    let tables ← d.renderTables c.tables
    let groups ← d.groupClause c.groups
    return " FROM " ++ tables ++ Dialect.whereClause c.predicates ++ groups ++
      Dialect.havingClause c.havings

/-- The words between SELECT and the select list. -/
def modifiers (d : Dialect) (c : Clauses Rendered) : String :=
  (if c.straightJoin && d.straightJoin then " STRAIGHT_JOIN" else "") ++
    (if c.distinct then " DISTINCT" else "")

/-- The SELECT itself, its ORDER BY and the members of its union. -/
def renderBase (d : Dialect) (c : Clauses Rendered) : Rendered := do
  let columns ← d.renderColumns c.columns
  let body ← c.renderBody d
  let order ← d.orderClause c.orders
  let members ← c.unions.mapM UnionMember.render
  return "SELECT" ++ c.modifiers d ++ " " ++ columns ++ body ++ order ++ String.join members

/-- The members of a union that has no SELECT of its own, and the ORDER BY for all of it. -/
def renderMembers (d : Dialect) (c : Clauses Rendered) : List (UnionMember Rendered) → Rendered
  | [] => .ok ""
  | first :: rest => do
    let head ← first.target.render
    let members ← rest.mapM UnionMember.render
    let order ← d.orderClause c.orders
    return head ++ String.join members ++ order

/-- The row window and the lock, behind everything else. -/
def finish (d : Dialect) (c : Clauses Rendered) (sql : String) : String :=
  let limited := sql ++ d.limitClause c.limitCount c.limitOffset
  if c.forUpdate then d.forUpdate limited else limited

/-- The text of a statement. Without a table, the members of a union are all there is to it. -/
def render (d : Dialect) (c : Clauses Rendered) : Rendered := do
  let sql ←
    if c.tables.isEmpty && !c.unions.isEmpty then c.renderMembers d c.unions else c.renderBase d
  return c.finish d sql

end Clauses

/-! ## Nested statements -/

namespace Statement

mutual

/-- The text of a statement. -/
def assemble : Statement → Rendered
  | ⟨clauses, dialect⟩ => (assembleClauses clauses).render dialect
termination_by structural s => s

/-- Clauses with the outcome of every statement in them. -/
def assembleClauses : Clauses Statement → Clauses Rendered
  | c => { c with unions := assembleMembers c.unions, tables := assembleTables c.tables }
termination_by structural c => c

/-- Tables with the outcome of every statement in them. -/
def assembleTables : List (TableRef Statement) → List (TableRef Rendered)
  | [] => []
  | table :: rest => assembleTable table :: assembleTables rest
termination_by structural tables => tables

/-- A table with the outcome of its statement. -/
def assembleTable : TableRef Statement → TableRef Rendered
  | table => { table with source := assembleSource table.source }
termination_by structural table => table

/-- A source with the outcome of its statement. -/
def assembleSource : Source Statement → Source Rendered
  | .name name => .name name
  | .expr sql => .expr sql
  | .select s => .select (assemble s)
termination_by structural source => source

/-- Union members with the outcome of every statement in them. -/
def assembleMembers : List (UnionMember Statement) → List (UnionMember Rendered)
  | [] => []
  | member :: rest => assembleMember member :: assembleMembers rest
termination_by structural members => members

/-- A union member with the outcome of its statement. -/
def assembleMember : UnionMember Statement → UnionMember Rendered
  | member => { member with target := assembleTarget member.target }
termination_by structural member => member

/-- A union target with the outcome of its statement. -/
def assembleTarget : UnionTarget Statement → UnionTarget Rendered
  | .select s => .select (assemble s)
  | .raw sql => .raw sql
termination_by structural target => target

end

/-- The clauses of a statement with the outcomes of its nested statements. -/
def outcomes (s : Statement) : Clauses Rendered := s.toClauses.map assemble

theorem assembleSource_eq_map (source : Source Statement) :
    assembleSource source = source.map assemble := by cases source <;> rfl

theorem assembleTarget_eq_map (target : UnionTarget Statement) :
    assembleTarget target = target.map assemble := by cases target <;> rfl

theorem assembleTables_eq_map (tables : List (TableRef Statement)) :
    assembleTables tables = tables.map (TableRef.map assemble) := by
  induction tables with
  | nil => rfl
  | cons table rest ih =>
    simp [assembleTables, assembleTable, ih, TableRef.map, assembleSource_eq_map]

theorem assembleMembers_eq_map (members : List (UnionMember Statement)) :
    assembleMembers members = members.map (UnionMember.map assemble) := by
  induction members with
  | nil => rfl
  | cons member rest ih =>
    simp [assembleMembers, assembleMember, ih, UnionMember.map, assembleTarget_eq_map]

theorem assembleClauses_eq_map (c : Clauses Statement) : assembleClauses c = c.map assemble := by
  simp [assembleClauses, Clauses.map, assembleTables_eq_map, assembleMembers_eq_map]

/-- The text of a statement is that of its clauses over the outcomes of its nested statements. -/
theorem assemble_eq_render (s : Statement) : s.assemble = s.outcomes.render s.dialect := by
  cases s
  simp [assemble, outcomes, assembleClauses_eq_map]

end Statement

end SelectQuery
