import SelectQuery.Error
import SelectQuery.Statement.Basic
import SelectQuery.Text.Blank
import SelectQuery.Text.Cut

/-!
# Parts of a statement by name

* `Part`, `Part.all`, `Part.name`, `Part.parse`: the twelve parts;
* `PartValue`, `PartValue.part`: the contents of a part;
* `Clauses.part`: what a part holds;
* `Clauses.reset`, `Clauses.resetAll`: clauses with one part, or all, emptied.
-/

namespace SelectQuery

/-- A part of a statement. -/
inductive Part where
  | straightJoin
  | distinct
  | columns
  | union
  | tables
  | predicates
  | groups
  | havings
  | orders
  | limitCount
  | limitOffset
  | forUpdate
  deriving DecidableEq, Repr

namespace Part

/-- Every part, in the order in which parts are listed. -/
def all : List Part :=
  [straightJoin, distinct, columns, union, tables, predicates, groups, havings, orders, limitCount,
    limitOffset, forUpdate]

/-- The name of a part. -/
def name : Part → String
  | straightJoin => "straightjoin"
  | distinct => "distinct"
  | columns => "columns"
  | union => "union"
  | tables => "from"
  | predicates => "where"
  | groups => "group"
  | havings => "having"
  | orders => "order"
  | limitCount => "limitcount"
  | limitOffset => "limitoffset"
  | forUpdate => "forupdate"

/-- The part with a name, written in any case of letters and with blanks around it. -/
def parse (text : String) : Except Error Part :=
  match all.find? (·.name = Text.lower (Text.trim text)) with
  | some part => .ok part
  | none => .error (.invalidPartName text)

theorem mem_all (part : Part) : part ∈ all := by cases part <;> decide

end Part

/-- The contents of a part. -/
inductive PartValue where
  | straightJoin (flag : Bool)
  | distinct (flag : Bool)
  | columns (columns : List Column)
  | union (members : List (UnionMember Statement))
  | tables (tables : List (TableRef Statement))
  | predicates (predicates : List Predicate)
  | groups (terms : List GroupTerm)
  | havings (conditions : List String)
  | orders (terms : List OrderTerm)
  | limitCount (count : Option UInt64)
  | limitOffset (offset : Option UInt64)
  | forUpdate (flag : Bool)

/-- The part whose contents these are. -/
def PartValue.part : PartValue → Part
  | straightJoin _ => .straightJoin
  | distinct _ => .distinct
  | columns _ => .columns
  | union _ => .union
  | tables _ => .tables
  | predicates _ => .predicates
  | groups _ => .groups
  | havings _ => .havings
  | orders _ => .orders
  | limitCount _ => .limitCount
  | limitOffset _ => .limitOffset
  | forUpdate _ => .forUpdate

namespace Clauses

/-- What a part holds. -/
def part (c : Clauses Statement) : Part → PartValue
  | .straightJoin => .straightJoin c.straightJoin
  | .distinct => .distinct c.distinct
  | .columns => .columns c.columns
  | .union => .union c.unions
  | .tables => .tables c.tables
  | .predicates => .predicates c.predicates
  | .groups => .groups c.groups
  | .havings => .havings c.havings
  | .orders => .orders c.orders
  | .limitCount => .limitCount c.limitCount
  | .limitOffset => .limitOffset c.limitOffset
  | .forUpdate => .forUpdate c.forUpdate

/-- Clauses with one part emptied. -/
def reset {σ : Type} (part : Part) (c : Clauses σ) : Clauses σ :=
  match part with
  | .straightJoin => { c with straightJoin := false }
  | .distinct => { c with distinct := false }
  | .columns => { c with columns := [] }
  | .union => { c with unions := [] }
  | .tables => { c with tables := [] }
  | .predicates => { c with predicates := [] }
  | .groups => { c with groups := [] }
  | .havings => { c with havings := [] }
  | .orders => { c with orders := [] }
  | .limitCount => { c with limitCount := none }
  | .limitOffset => { c with limitOffset := none }
  | .forUpdate => { c with forUpdate := false }

/-- Clauses with every part emptied, one after the other. -/
def resetAll {σ : Type} (c : Clauses σ) : Clauses σ :=
  Part.all.foldl (fun c part => c.reset part) c

@[simp] theorem part_part (c : Clauses Statement) (p : Part) : (c.part p).part = p := by
  cases p <;> rfl

end Clauses

end SelectQuery
