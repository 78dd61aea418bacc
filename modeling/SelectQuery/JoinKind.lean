import SelectQuery.Text.Blank
import SelectQuery.Text.Cut

/-!
# Join kinds

How a table after the first one enters the FROM clause.

* `JoinKind`: the six kinds;
* `JoinKind.keyword`: the words written before the table;
* `JoinKind.requiresCondition`, `JoinKind.acceptsCondition`: the kinds that need an ON condition
  and those that may have one;
* `JoinKind.ofText?`: the kind that a text names, in any case of letters, with or without `join`
  after it and, for the outer kinds, `outer`.
-/

namespace SelectQuery

/-- How a table after the first one enters the FROM clause. -/
inductive JoinKind where
  | inner
  | left
  | right
  | full
  | cross
  | natural
  deriving DecidableEq, Repr

namespace JoinKind

/-- The words written before a table joined this way. -/
def keyword : JoinKind → String
  | inner => "INNER JOIN"
  | left => "LEFT JOIN"
  | right => "RIGHT JOIN"
  | full => "FULL JOIN"
  | cross => "CROSS JOIN"
  | natural => "NATURAL JOIN"

/-- The outer joins, which are refused without an ON condition. -/
def requiresCondition : JoinKind → Bool
  | left | right | full => true
  | inner | cross | natural => false

/-- The kinds whose ON condition is kept. -/
def acceptsCondition : JoinKind → Bool
  | inner | left | right | full => true
  | cross | natural => false

/-! ## By name -/

/-- The kind that lower-case words without `join` name. -/
def ofWords? : String → Option JoinKind
  | "inner" => some inner
  | "left" | "left outer" => some left
  | "right" | "right outer" => some right
  | "full" | "full outer" => some full
  | "cross" => some cross
  | "natural" => some natural
  | _ => none

/-- A text without one `join` at its end and the blanks before that; any other text unchanged. -/
def dropJoin (cs : List Char) : List Char :=
  let join := "join".toList
  if join.isSuffixOf cs then Text.stripEnd (cs.take (cs.length - join.length)) else cs

/-- The kind that a text names. -/
def ofText? (text : String) : Option JoinKind :=
  ofWords? (String.ofList (dropJoin (Text.lower (Text.trim text)).toList))

end JoinKind

end SelectQuery
