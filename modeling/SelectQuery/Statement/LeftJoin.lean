import SelectQuery.Statement.Basic
import SelectQuery.Text.Cut

/-!
# Unused left joins

A left join can be dropped when nothing uses its table. A table is used directly if a column belongs
to it, or if a raw column or a WHERE condition mentions it; and it is used by every other table
whose join condition mentions it. ORDER BY, GROUP BY and HAVING do not count.

* `references`: whether a text mentions a name as a qualifier;
* `LeftJoinUse`, `Clauses.leftJoinUses`: what uses each left join;
* `sweep`, `unusedJoins`: the joins to drop, in the order in which they are found;
* `Clauses.pruneLeftJoins`: the clauses without them.
-/

namespace SelectQuery

/-! ## Mentions in a text -/

/-- Whether a name may begin behind this character. -/
def beginsName (before : Option Char) : Bool :=
  match before with
  | none => true
  | some c => !(c.isAlphanum || c = '_')

/-- Whether `needle` stands somewhere in the text where a name may begin. Occurrences are looked
for from left to right without overlap: behind one, the next `skip` characters are passed over. -/
def occursAsName (needle : List Char) : Nat → Option Char → List Char → Bool
  | _, _, [] => false
  | skip + 1, _, c :: rest => occursAsName needle skip (some c) rest
  | 0, before, c :: rest =>
    if needle.isPrefixOf (c :: rest) then
      beginsName before || occursAsName needle (needle.length - 1) (some c) rest
    else occursAsName needle 0 (some c) rest

/-- Whether a text mentions a name as a qualifier: between quote symbols and with a dot behind, or
bare with a dot behind where a name may begin. -/
def references (symbol : Char) (name text : String) : Bool :=
  let name := name.toList
  let text := text.toList
  !name.isEmpty &&
    (Text.occursIn (symbol :: (name ++ [symbol, '.'])) text ||
      occursAsName (name ++ ['.']) 0 none text)

/-! ## Uses -/

/-- What uses a left join. -/
structure LeftJoinUse where
  correlation : String
  /-- Whether a column belongs to it, or a raw column or a WHERE condition mentions it. -/
  direct : Bool
  /-- The other tables whose join condition mentions it. -/
  dependents : List String
  deriving DecidableEq, Repr

namespace Clauses

variable {σ : Type}

/-- The names by which a text can mention a table. -/
def namesOf (table : TableRef σ) : List String := table.correlation :: table.tableName?.toList

/-- Whether a text mentions a table. -/
def mentions (symbol : Char) (table : TableRef σ) (text : String) : Bool :=
  (namesOf table).any fun name => references symbol name text

/-- Whether a column belongs to a table or mentions it. -/
def columnUses (symbol : Char) (table : TableRef σ) (column : Column) : Bool :=
  column.correlation = some table.correlation ||
    match column.content with
    | .raw sql => mentions symbol table sql
    | .ident _ => false

/-- Whether the select list or a WHERE condition uses a table. -/
def usesDirectly (symbol : Char) (c : Clauses σ) (table : TableRef σ) : Bool :=
  c.columns.any (columnUses symbol table) || c.predicates.any (mentions symbol table ·.text)

/-- Whether the join condition of `other` mentions `table`. -/
def dependsOn (symbol : Char) (table other : TableRef σ) : Bool :=
  other.correlation ≠ table.correlation && other.condition.any (mentions symbol table)

/-- What uses one left join. -/
def leftJoinUse (symbol : Char) (c : Clauses σ) (table : TableRef σ) : LeftJoinUse where
  correlation := table.correlation
  direct := c.usesDirectly symbol table
  dependents := (c.tables.filter (dependsOn symbol table)).map (·.correlation)

/-- What uses each left join, in the order of FROM. -/
def leftJoinUses (symbol : Char) (c : Clauses σ) : List LeftJoinUse :=
  (c.tables.filter (·.join = some .left)).map (c.leftJoinUse symbol)

end Clauses

/-! ## Dropping -/

/-- Whether a join that is still there can go when the joins in `gone` are dropped. -/
def LeftJoinUse.canGo (use : LeftJoinUse) (gone : List String) : Bool :=
  !use.direct && !gone.contains use.correlation && use.dependents.all gone.contains

/-- The dropped joins after one pass over the left joins. -/
def sweep (uses : List LeftJoinUse) (gone : List String) : List String :=
  uses.foldl (fun gone use => if use.canGo gone then gone ++ [use.correlation] else gone) gone

/-- The joins that nothing uses, in the order in which they are dropped. Each pass but the last one
drops a join, so as many passes as there are joins suffice. -/
def unusedJoins (uses : List LeftJoinUse) : List String := Nat.repeat (sweep uses) uses.length []

namespace Clauses

/-- The correlation names of the left joins that nothing uses. -/
def unusedLeftJoins {σ : Type} (symbol : Char) (c : Clauses σ) : List String :=
  unusedJoins (c.leftJoinUses symbol)

/-- The clauses without the left joins that nothing uses. -/
def pruneLeftJoins {σ : Type} (symbol : Char) (c : Clauses σ) : Clauses σ :=
  let gone := c.unusedLeftJoins symbol
  { c with tables := c.tables.filter fun table => !gone.contains table.correlation }

end Clauses

end SelectQuery
