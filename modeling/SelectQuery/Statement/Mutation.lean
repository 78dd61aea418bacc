import SelectQuery.Event
import SelectQuery.Statement.Edit

/-!
# Mutations as data

* `Mutation`: one change of a statement with its arguments;
* `Mutation.edit`: what it does, and the events it tells of;
* `Statement.apply`, `Statement.applyAll`: a statement after one mutation, or several, whether they
  fail or not.
-/

namespace SelectQuery

/-- One change of a statement with its arguments. -/
inductive Mutation where
  | selectFrom (table : TableInput) (columns : List ColumnInput)
  | join (kind : JoinKind) (table : TableInput) (condition : String) (columns : List ColumnInput)
  | joinAs (kind : String) (table : TableInput) (condition : String) (columns : List ColumnInput)
  | addColumns (columns : List ColumnInput) (correlation : Option String)
  | addWhere (connector : Connector) (condition : Condition)
  | addHaving (connector : Connector) (condition : Condition)
  | groupBy (terms : List TermInput)
  | orderBy (terms : List TermInput)
  | orderRandomly (field : Option String)
  | limit (count offset : UInt64)
  | limitPage (page rows : UInt64)
  | distinct (flag : Bool)
  | forUpdate (flag : Bool)
  | straightJoin (flag : Bool)
  | union (members : List (UnionTarget Statement)) (kind : UnionKind)
  | reset (part : Part)
  | resetNamed (name : String)
  | resetAll
  | setPart (value : PartValue)
  | pruneLeftJoins

/-- What a mutation does, and the events it tells of. -/
def Mutation.edit : Mutation → Edit (List Event)
  | selectFrom table columns => do Edit.selectFrom table columns; return []
  | join kind table condition columns => do Edit.addTable kind table condition columns; return []
  | joinAs kind table condition columns => do Edit.joinAs kind table condition columns; return []
  | addColumns columns correlation => do Edit.addColumns columns correlation; return []
  | addWhere connector condition => do Edit.addWhere connector condition; return []
  | addHaving connector condition => do Edit.addHaving connector condition; return []
  | groupBy terms => do Edit.groupBy terms; return []
  | orderBy terms => do Edit.orderBy terms; return []
  | orderRandomly field => do Edit.orderRandomly field; return []
  | limit count offset => do Edit.limit count offset; return []
  | limitPage page rows => do Edit.limitPage page rows; return []
  | distinct flag => do Edit.distinct flag; return []
  | forUpdate flag => do Edit.forUpdate flag; return []
  | straightJoin flag => do Edit.straightJoin flag; return []
  | union members kind => do Edit.union members kind; return []
  | reset part => do Edit.reset part; return []
  | resetNamed name => do Edit.resetNamed name; return []
  | resetAll => do Edit.resetAll; return []
  | setPart value => do Edit.setPart value; return []
  | pruneLeftJoins => do return (← Edit.pruneLeftJoins).map Event.pruned

namespace Statement

/-- The outcome of a mutation, and the statement after it. -/
def apply (s : Statement) (mutation : Mutation) : Except Error (List Event) × Statement :=
  match mutation.edit s with
  | .ok events s => (.ok events, s)
  | .error e s => (.error e, s)

/-- A statement after several mutations, whose errors are passed over. -/
def applyAll (s : Statement) (mutations : List Mutation) : Statement :=
  mutations.foldl (fun s mutation => (s.apply mutation).2) s

end Statement

end SelectQuery
