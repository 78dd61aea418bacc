import SelectQuery.Dialect.Literal
import SelectQuery.Statement.Classify
import SelectQuery.Statement.LeftJoin
import SelectQuery.Statement.Part

/-!
# Changing statements

An edit changes a statement and may fail on the way; what it wrote before the failure would stay.

* `Edit`: edits;
* tables: `JoinKind.parse`, `Statement.freeCorrelation`, `Statement.newTable`, `Edit.addTable`,
  `Edit.selectFrom`, `Edit.joinAs`;
* columns, conditions and terms: `Edit.addColumns`, `Edit.addWhere`, `Edit.addHaving`,
  `Edit.groupBy`, `Edit.orderBy`, `Edit.orderRandomly`;
* windows and flags: `Edit.limit`, `Edit.limitPage`, `Edit.distinct`, `Edit.forUpdate`,
  `Edit.straightJoin`;
* whole parts: `Edit.union`, `Edit.reset`, `Edit.resetNamed`, `Edit.resetAll`, `Edit.setPart`,
  `Edit.pruneLeftJoins`.
-/

namespace SelectQuery

/-- A change of a statement. After an error the statement is what had been made of it by then. -/
abbrev Edit := EStateM Error Statement

/-- A condition of WHERE or HAVING as it is asked for: SQL text, or a template with a value. -/
structure Condition where
  template : String
  value : Option (Value × Option ValueType) := none

/-- The text of a condition. A template without a value is taken as it stands. -/
def Condition.text (d : Dialect) (condition : Condition) : String :=
  match condition.value with
  | none => condition.template
  | some (value, type) => d.quoteInto condition.template value type

/-! ## Tables -/

/-- The kind that a text names, or an error that shows the text as it was given. -/
def JoinKind.parse (text : String) : Except Error JoinKind :=
  match ofText? text with
  | some kind => .ok kind
  | none => .error (.invalidJoinType text)

namespace Statement

/-- A name with a number behind it. -/
def numbered (base : String) (k : Nat) : String := base ++ "_" ++ toString k

/-- A correlation name that no table has: the name itself, or the name with the least number from 2
on that makes it free. One of the first numbers, as many as there are tables, does. -/
def freeCorrelation (s : Statement) (base : String) : String :=
  if s.hasTable base then
    (((List.range' 2 s.tables.length).map (numbered base)).find? (!s.hasTable ·)).getD base
  else base

/-- The correlation name of a new table. A name that was asked for must be free. -/
def newCorrelation (s : Statement) (table : ResolvedTable) : Except Error String :=
  match table.correlation with
  | none => .ok (s.freeCorrelation table.baseName)
  | some correlation =>
    if s.hasTable correlation then .error (.duplicateCorrelation correlation) else .ok correlation

/-- How a new table is joined. The first table is not; an inner join without a condition is a cross
join; an outer join needs a condition. -/
def newJoin (s : Statement) (kind : JoinKind) (condition : String) (table : ResolvedTable) :
    Except Error (Option JoinKind) :=
  if s.tables.isEmpty then .ok none
  else if condition = "" then
    if kind = .inner then .ok (some .cross)
    else if kind.requiresCondition then
      .error (.missingJoinCondition kind table.displayName)
    else .ok (some kind)
  else .ok (some kind)

/-- The condition that a join keeps. -/
def keptCondition (join : Option JoinKind) (condition : String) : Option String :=
  if join.any (·.acceptsCondition) && condition ≠ "" then some condition else none

/-- The entry of FROM for a new table. -/
def newTable (s : Statement) (kind : JoinKind) (table : TableInput) (condition : String) :
    Except Error (TableRef Statement) :=
  match table.resolve? with
  | none => .error (.missingJoinTarget (kind.keyword ++ " requires a table"))
  | some resolved => do
    let condition := Text.trim condition
    let join ← s.newJoin kind condition resolved
    let correlation ← s.newCorrelation resolved
    return {
      correlation, join
      schema := resolved.schema
      source := resolved.source
      condition := keptCondition join condition }

end Statement

namespace Edit

/-- The outcome of a computation that changes nothing. -/
def check {α : Type} : Except Error α → Edit α
  | .ok a => pure a
  | .error e => throw e

/-- More entries for the select list. -/
def appendColumns (columns : List Column) : Edit Unit :=
  modify fun s => { s with columns := s.columns ++ columns }

/-- One more table, joined as `kind`, and columns of it. -/
def addTable (kind : JoinKind) (table : TableInput) (condition : String)
    (columns : List ColumnInput) : Edit Unit := do
  let s ← get
  let entry ← check (s.newTable kind table condition)
  let added ← check (classifyAll columns (some entry.correlation))
  modify fun s => { s with tables := s.tables ++ [entry] }
  appendColumns added

/-- The first table and columns of it; a later table is joined without a condition. Without a table
the columns belong to none. -/
def selectFrom (table : TableInput) (columns : List ColumnInput) : Edit Unit :=
  if table.isEmpty then do
    let added ← check (classifyAll columns none)
    appendColumns added
  else addTable .inner table "" columns

/-- One more table, joined as a text says. -/
def joinAs (kind : String) (table : TableInput) (condition : String)
    (columns : List ColumnInput) : Edit Unit := do
  let kind ← check (JoinKind.parse kind)
  addTable kind table condition columns

/-! ## Columns, conditions and terms -/

/-- The table that columns belong to: the one that is named, or else the first one. -/
def columnTarget (s : Statement) : Option String → Except Error (Option String)
  | none => .ok (s.tables.head?.map (·.correlation))
  | some correlation =>
    if s.hasTable correlation then .ok (some correlation)
    else .error (.unknownCorrelation correlation)

/-- Columns of a table. -/
def addColumns (columns : List ColumnInput) (correlation : Option String) : Edit Unit := do
  let s ← get
  let target ← check (columnTarget s correlation)
  let added ← check (classifyAll columns target)
  appendColumns added

/-- A text in parentheses. -/
def parenthesized (text : String) : String := "(" ++ text ++ ")"

/-- One more condition of WHERE; a blank one is none. -/
def addWhere (connector : Connector) (condition : Condition) : Edit Unit :=
  modify fun s =>
    let text := condition.text s.dialect
    if Text.isBlankText text then s
    else { s with predicates := s.predicates ++ [⟨connector, parenthesized text⟩] }

/-- One more condition of HAVING; a blank one is none. All but the first carry their connector. -/
def addHaving (connector : Connector) (condition : Condition) : Edit Unit :=
  modify fun s =>
    let text := condition.text s.dialect
    if Text.isBlankText text then s
    else
      let entry := if s.havings.isEmpty then parenthesized text
        else connector.keyword ++ " " ++ parenthesized text
      { s with havings := s.havings ++ [entry] }

/-- More terms of GROUP BY. -/
def groupBy (terms : List TermInput) : Edit Unit :=
  modify fun s => { s with groups := s.groups ++ terms.filterMap groupTerm? }

/-- More terms of ORDER BY. -/
def orderBy (terms : List TermInput) : Edit Unit :=
  modify fun s => { s with orders := s.orders ++ terms.filterMap orderTerm? }

/-- Rows in random order. With a field, the random number is a column of that name as well. -/
def orderRandomly (field : Option String) : Edit Unit := do
  let d := (← get).dialect
  match TableInput.nonempty field with
  | none => orderBy [.raw d.randomFunction]
  | some field => do
    addColumns [(ColumnInput.ofExpr d.randomFunction).aliased field] none
    orderBy [.raw (d.quoteAlias field)]

/-! ## Windows and flags -/

/-- A count that is not zero. -/
def nonzero (n : UInt64) : Option UInt64 := if n = 0 then none else some n

/-- At most `count` rows after the first `offset` ones; zero sets no bound. -/
def limit (count offset : UInt64) : Edit Unit :=
  modify fun s => { s with limitCount := nonzero count, limitOffset := nonzero offset }

/-- The page with a number, of pages with `rows` rows; both are at least 1. An offset past 64 bits
is the largest number of 64 bits. -/
def limitPage (page rows : UInt64) : Edit Unit :=
  let page := max page 1
  let rows := max rows 1
  limit rows (UInt64.ofNatClamp (rows.toNat * (page.toNat - 1)))

/-- Whether equal rows are shown once. -/
def distinct (flag : Bool) : Edit Unit := modify fun s => { s with distinct := flag }

/-- Whether rows are locked. -/
def forUpdate (flag : Bool) : Edit Unit := modify fun s => { s with forUpdate := flag }

/-- Whether tables are joined in the order given, in dialects that have words for it. -/
def straightJoin (flag : Bool) : Edit Unit := modify fun s => { s with straightJoin := flag }

/-! ## Unions -/

/-- A statement that takes over all clauses of another one but its union. -/
def absorb (s base : Statement) : Statement :=
  { base with unions := s.unions, dialect := s.dialect }

/-- More members of the union. -/
def appendMembers (members : List (UnionTarget Statement)) (kind : UnionKind) : Edit Unit :=
  modify fun s => { s with unions := s.unions ++ members.map fun target => ⟨target, kind⟩ }

/-- More members of the union. A statement that has neither tables nor columns takes over the first
member, if that is a statement, in place of adding it. -/
def union (members : List (UnionTarget Statement)) (kind : UnionKind) : Edit Unit := do
  let s ← get
  match members with
  | [] => throw .unionWithNoMembers
  | .select base :: rest =>
    if s.tables.isEmpty && s.columns.isEmpty then do
      set (absorb s base)
      appendMembers rest kind
    else appendMembers members kind
  | members => appendMembers members kind

/-! ## Whole parts -/

/-- Clauses changed by a function on clauses. -/
def modifyClauses (f : Clauses Statement → Clauses Statement) : Edit Unit :=
  modify fun s => { s with toClauses := f s.toClauses }

/-- One part emptied. -/
def reset (part : Part) : Edit Unit := modifyClauses (·.reset part)

/-- The part with a name emptied. -/
def resetNamed (name : String) : Edit Unit := do
  let part ← check (Part.parse name)
  reset part

/-- Every part emptied. -/
def resetAll : Edit Unit := modifyClauses (·.resetAll)

/-- The first name that stands in the list a second time. -/
def firstRepeated? (seen : List String) : List String → Option String
  | [] => none
  | name :: rest => if seen.contains name then some name else firstRepeated? (name :: seen) rest

/-- A table behind others: joined somehow, and with a condition only where the join has one. -/
def normalizeJoined (table : TableRef Statement) : TableRef Statement :=
  let join := table.join.getD .cross
  { table with
    join := some join
    condition := if join.acceptsCondition then table.condition else none }

/-- Tables as FROM holds them: the first has neither join nor condition. -/
def normalizeTables : List (TableRef Statement) → List (TableRef Statement)
  | [] => []
  | first :: rest => { first with join := none, condition := none } :: rest.map normalizeJoined

/-- New contents for the part that they belong to. Correlation names in FROM must differ. -/
def setPart : PartValue → Edit Unit
  | .straightJoin flag => straightJoin flag
  | .distinct flag => distinct flag
  | .columns columns => modify fun s => { s with columns }
  | .union members => modify fun s => { s with unions := members }
  | .tables tables =>
    match firstRepeated? [] (tables.map (·.correlation)) with
    | some name => throw (.duplicateCorrelation name)
    | none => modify fun s => { s with tables := normalizeTables tables }
  | .predicates predicates => modify fun s => { s with predicates }
  | .groups groups => modify fun s => { s with groups }
  | .havings havings => modify fun s => { s with havings }
  | .orders orders => modify fun s => { s with orders }
  | .limitCount count => modify fun s => { s with limitCount := count.bind nonzero }
  | .limitOffset offset => modify fun s => { s with limitOffset := offset.bind nonzero }
  | .forUpdate flag => forUpdate flag

/-- The left joins that nothing uses dropped; their correlation names in the order in which they
were dropped. -/
def pruneLeftJoins : Edit (List String) := do
  let s ← get
  modifyClauses (·.pruneLeftJoins s.dialect.quoteSymbol)
  return s.unusedLeftJoins s.dialect.quoteSymbol

end Edit

end SelectQuery
