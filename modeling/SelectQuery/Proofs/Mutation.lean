import SelectQuery.Statement.Mutation

/-!
# Runs of edits

An edit that can fail checks everything before it writes anything. So it comes to a new statement
or an error (`Edit.settle`), and the error leaves the statement alone.

* `Edit.get_bind_run`, `Edit.check_bind_run`: the steps that edits are made of;
* `Statement.joined`, `Statement.selecting`: a statement with one more table, or more columns;
* `Edit.addTable_run`, `Edit.selectFrom_run`, `Edit.addColumns_run`, … : the edits that can fail;
* `Statement.absorbed?`: the statement whose clauses a union takes over;
* `Statement.apply_settle`: a mutation whose edit settles.
-/

namespace SelectQuery

namespace Edit

variable {α β : Type} (s : Statement)

theorem get_bind_run (f : Statement → Edit β) : (get >>= f) s = f s s := rfl

theorem check_bind_run (r : Except Error α) (f : α → Edit β) :
    (check r >>= f) s = match r with
      | .ok a => f a s
      | .error e => .error e s := by
  cases r <;> rfl

/-- What a run comes to whose new statement may be an error. -/
def settle : Except Error Statement → EStateM.Result Error Statement Unit
  | .ok next => .ok () next
  | .error e => .error e s

theorem settle_bind (e : Edit Unit) (r : Except Error Statement) (f : Unit → Edit β) :
    e s = settle s r → (e >>= f) s = match r with
      | .ok next => f () next
      | .error e => .error e s := by
  intro h
  change EStateM.bind e f s = _
  rw [EStateM.bind, h]
  cases r <;> rfl

end Edit

namespace Statement

/-- The statement with more entries in its select list. -/
def withColumns (s : Statement) (columns : List Column) : Statement :=
  { s with columns := s.columns ++ columns }

/-- The statement with more entries in ORDER BY. -/
def withOrders (s : Statement) (terms : List TermInput) : Statement :=
  { s with orders := s.orders ++ terms.filterMap orderTerm? }

/-- The statement with one more table and columns of it. -/
def joined (s : Statement) (kind : JoinKind) (table : TableInput) (condition : String)
    (columns : List ColumnInput) : Except Error Statement := do
  let entry ← s.newTable kind table condition
  let added ← classifyAll columns (some entry.correlation)
  return { s with tables := s.tables ++ [entry], columns := s.columns ++ added }

/-- The statement with more columns of a table. -/
def selecting (s : Statement) (columns : List ColumnInput) (correlation : Option String) :
    Except Error Statement := do
  let target ← Edit.columnTarget s correlation
  return s.withColumns (← classifyAll columns target)

/-- The statement with more members in its union. -/
def withMembers (s : Statement) (members : List (UnionTarget Statement)) (kind : UnionKind) :
    Statement :=
  { s with unions := s.unions ++ members.map fun target => ⟨target, kind⟩ }

/-- The statement whose clauses a mutation takes over. -/
def absorbed? (s : Statement) : Mutation → Option Statement
  | .union (.select base :: _) _ =>
    if s.tables.isEmpty && s.columns.isEmpty then some base else none
  | _ => none

end Statement

namespace Edit

variable (s : Statement)

theorem addTable_run (kind : JoinKind) (table : TableInput) (condition : String)
    (columns : List ColumnInput) :
    addTable kind table condition columns s = settle s (s.joined kind table condition columns) := by
  unfold addTable Statement.joined
  rw [get_bind_run, check_bind_run]
  cases s.newTable kind table condition with
  | error e => rfl
  | ok entry =>
    dsimp only
    rw [check_bind_run]
    simp only [bind, Except.bind]
    cases classifyAll columns (some entry.correlation) <;> rfl

theorem addColumns_run (columns : List ColumnInput) (correlation : Option String) :
    addColumns columns correlation s = settle s (s.selecting columns correlation) := by
  unfold addColumns Statement.selecting
  rw [get_bind_run, check_bind_run]
  cases columnTarget s correlation with
  | error e => rfl
  | ok target =>
    dsimp only
    rw [check_bind_run]
    simp only [bind, Except.bind]
    cases classifyAll columns target <;> rfl

theorem selectFrom_run (table : TableInput) (columns : List ColumnInput) :
    selectFrom table columns s = settle s
      (if table.isEmpty then (classifyAll columns none).map s.withColumns
        else s.joined .inner table "" columns) := by
  unfold selectFrom
  split
  · rw [check_bind_run]
    cases classifyAll columns none <;> rfl
  · exact addTable_run s .inner table "" columns

theorem joinAs_run (kind : String) (table : TableInput) (condition : String)
    (columns : List ColumnInput) :
    joinAs kind table condition columns s = settle s
      (do s.joined (← JoinKind.parse kind) table condition columns) := by
  unfold joinAs
  rw [check_bind_run]
  cases JoinKind.parse kind with
  | error e => rfl
  | ok kind => exact addTable_run s kind table condition columns

theorem orderRandomly_run (field : Option String) :
    orderRandomly field s = settle s
      (match TableInput.nonempty field with
        | none => .ok (s.withOrders [.raw s.dialect.randomFunction])
        | some field => do
          let next ← s.selecting [(ColumnInput.ofExpr s.dialect.randomFunction).aliased field] none
          return next.withOrders [.raw (s.dialect.quoteAlias field)]) := by
  unfold orderRandomly
  rw [get_bind_run]
  cases TableInput.nonempty field with
  | none => rfl
  | some field =>
    dsimp only
    rw [settle_bind s _ _ _ (addColumns_run s _ none)]
    cases s.selecting [(ColumnInput.ofExpr s.dialect.randomFunction).aliased field] none <;> rfl

theorem union_run (first : UnionTarget Statement) (rest : List (UnionTarget Statement))
    (kind : UnionKind) :
    union (first :: rest) kind s = settle s (.ok
      (match s.absorbed? (.union (first :: rest) kind) with
        | some base => (absorb s base).withMembers rest kind
        | none => s.withMembers (first :: rest) kind)) := by
  unfold union
  rw [get_bind_run]
  cases first with
  | raw sql => rfl
  | select base =>
    simp only [Statement.absorbed?]
    split <;> rfl

theorem resetNamed_run (name : String) :
    resetNamed name s = settle s
      ((Part.parse name).map fun part => { s with toClauses := s.toClauses.reset part }) := by
  unfold resetNamed
  rw [check_bind_run]
  cases Part.parse name <;> rfl

theorem setPart_tables_run (tables : List (TableRef Statement)) :
    setPart (.tables tables) s = settle s
      (match firstRepeated? [] (tables.map (·.correlation)) with
        | some name => .error (.duplicateCorrelation name)
        | none => .ok { s with tables := normalizeTables tables }) := by
  simp only [setPart]
  cases firstRepeated? [] (tables.map (·.correlation)) <;> rfl

end Edit

/-- A mutation whose edit settles comes to the new statement, or to the error and the statement as
it was. -/
theorem Statement.apply_settle {s : Statement} {m : Mutation} {e : Edit Unit}
    {r : Except Error Statement} (hm : m.edit = do e; return []) :
    e s = Edit.settle s r → s.apply m = match r with
      | .ok next => (.ok [], next)
      | .error err => (.error err, s) := by
  intro he
  unfold apply
  rw [hm, Edit.settle_bind s e r _ he]
  cases r <;> rfl

end SelectQuery
