import SelectQuery.JoinKind

/-!
# Errors

* `Error`: everything that building, rendering or running a statement can report;
* `Error.message`: the text shown for it;
* `Error.isMisuse`: the errors that blame the caller of the builder;
* `Error.isNotFound`: the error for a row that was asked for and is not there.
-/

namespace SelectQuery

/-- What building, rendering or running a statement can report. -/
inductive Error where
  /-- A join kind that is none of the six. -/
  | invalidJoinType (text : String)
  /-- A join or FROM without a table. -/
  | missingJoinTarget (text : String)
  /-- An outer join without an ON condition. -/
  | missingJoinCondition (join : JoinKind) (table : String)
  /-- A name that belongs to no part of a statement. -/
  | invalidPartName (text : String)
  /-- A union of no members. -/
  | unionWithNoMembers
  /-- A correlation name given to a second table. -/
  | duplicateCorrelation (name : String)
  /-- A correlation name that no table has. -/
  | unknownCorrelation (name : String)
  /-- A name that cannot be quoted safely. -/
  | invalidIdentifier (reason : String)
  /-- Something the dialect cannot express. -/
  | unsupported (dialect what : String)
  /-- A statement whose shape does not fit the operation. -/
  | validation (reason : String)
  /-- A query that the database refused or broke off. -/
  | query (reason : String)
  /-- A row that was asked for and is not there. -/
  | notFound (reason : String)
  /-- A column that cannot be read as the type asked for. -/
  | decode (column reason : String)
  /-- A connection that could not be had, or failed. -/
  | pool (reason : String)
  deriving DecidableEq, Repr

namespace Error

/-- The text shown for an error. -/
def message : Error → String
  | invalidJoinType text => s!"Invalid join type: {text}"
  | missingJoinTarget text => s!"Missing join target: {text}"
  | missingJoinCondition join table =>
    let keyword := join.keyword
    s!"Missing join condition for {keyword} on '{table}'"
  | invalidPartName text => s!"Invalid part name: {text}"
  | unionWithNoMembers => "union() requires at least one member"
  | duplicateCorrelation name => s!"Correlation name '{name}' is already defined"
  | unknownCorrelation name => s!"No table registered under correlation name '{name}'"
  | invalidIdentifier reason => s!"Invalid identifier: {reason}"
  | unsupported dialect what => s!"{dialect} does not support {what}"
  | validation reason => s!"Validation error: {reason}"
  | query reason => s!"Query error: {reason}"
  | notFound reason => s!"Not found: {reason}"
  | decode column reason => s!"Decode error on column '{column}': {reason}"
  | pool reason => s!"Pool error: {reason}"

/-- Whether the error blames the way a mutator was called, and neither the database nor the
dialect nor the shape of the finished statement. -/
def isMisuse : Error → Bool
  | invalidJoinType _ | missingJoinTarget _ | missingJoinCondition _ _ | invalidPartName _
  | unionWithNoMembers | duplicateCorrelation _ | unknownCorrelation _ | invalidIdentifier _ => true
  | unsupported _ _ | validation _ | query _ | notFound _ | decode _ _ | pool _ => false

/-- Whether a row was asked for and is not there. -/
def isNotFound : Error → Bool
  | notFound _ => true
  | _ => false

end Error

end SelectQuery
