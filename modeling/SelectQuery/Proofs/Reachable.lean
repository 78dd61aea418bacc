import SelectQuery.Proofs.Mutation
import SelectQuery.Proofs.Outcome

/-!
# Reachable statements

* `TablesStep`: the six ways in which a mutation can leave FROM;
* `tablesStep_apply`: every mutation, whether it fails or not, goes one of them;
* `ReachableBy`, `Reachable`: the statements that mutations make of an empty one, when only some of
  them are allowed, or all;
* `ReachableBy.tables`: what holds of the empty FROM, and is kept by each of the six ways, holds
  of every reachable statement;
* `ReachableBy.applyAll`: a run that absorbs nothing.
-/

namespace SelectQuery

namespace Statement

/-! ## What a mutation does to FROM -/

/-- FROM after a mutation of `s`. -/
inductive TablesStep (s : Statement) (m : Mutation) : List (TableRef Statement) → Prop
  /-- Nothing happens to it. -/
  | same : TablesStep s m s.tables
  /-- One more table stands at its end. -/
  | joined {kind : JoinKind} {table : TableInput} {condition : String} {entry : TableRef Statement}
      (h : s.newTable kind table condition = .ok entry) : TablesStep s m (s.tables ++ [entry])
  /-- It is that of a statement which is taken over. -/
  | absorbed {base : Statement} (h : s.absorbed? m = some base) : TablesStep s m base.tables
  | emptied : TablesStep s m []
  /-- It is given as a whole. -/
  | replaced {tables : List (TableRef Statement)} (hm : m = .setPart (.tables tables))
      (h : Edit.firstRepeated? [] (tables.map (·.correlation)) = none) :
      TablesStep s m (Edit.normalizeTables tables)
  /-- The left joins that nothing uses are dropped. -/
  | pruned : TablesStep s m (s.toClauses.pruneLeftJoins s.dialect.quoteSymbol).tables

/-- Whether a mutation gives FROM as a whole. -/
def setsTables : Mutation → Bool
  | .setPart (.tables _) => true
  | _ => false

variable {s : Statement}

theorem tablesStep_settle {m : Mutation} {e : Edit Unit} {r : Except Error Statement}
    (hm : m.edit = do e; return []) (he : e s = Edit.settle s r)
    (hr : ∀ next, r = .ok next → TablesStep s m next.tables) :
    TablesStep s m (s.apply m).2.tables := by
  rw [apply_settle hm he]
  cases r with
  | error e => exact .same
  | ok next => exact hr next rfl

theorem tables_joined {kind : JoinKind} {table : TableInput} {condition : String}
    {columns : List ColumnInput} {next : Statement} {m : Mutation}
    (h : s.joined kind table condition columns = .ok next) : TablesStep s m next.tables := by
  obtain ⟨entry, hn, h⟩ := bind_eq_ok_iff.mp h
  obtain ⟨added, -, h⟩ := bind_eq_ok_iff.mp h
  rw [← pure_eq_ok_iff.mp h]
  exact .joined hn

theorem tables_selecting {columns : List ColumnInput} {correlation : Option String}
    {next : Statement} (h : s.selecting columns correlation = .ok next) :
    next.tables = s.tables := by
  obtain ⟨target, -, h⟩ := bind_eq_ok_iff.mp h
  obtain ⟨added, -, h⟩ := bind_eq_ok_iff.mp h
  rw [← pure_eq_ok_iff.mp h]
  rfl

theorem tables_reset (m : Mutation) (part : Part) :
    TablesStep s m (s.toClauses.reset part).tables := by
  cases part <;> first | exact .emptied | exact .same

/-- **Every mutation leaves FROM in one of six ways**, whether it fails or not. -/
theorem tablesStep_apply (s : Statement) (m : Mutation) : TablesStep s m (s.apply m).2.tables := by
  cases m with
  | selectFrom table columns =>
    refine tablesStep_settle rfl (Edit.selectFrom_run s table columns) fun next h => ?_
    split at h
    · obtain ⟨added, -, rfl⟩ := map_eq_ok_iff.mp h
      exact .same
    · exact tables_joined h
  | join kind table condition columns =>
    exact tablesStep_settle rfl (Edit.addTable_run s kind table condition columns)
      fun next h => tables_joined h
  | joinAs kind table condition columns =>
    refine tablesStep_settle rfl (Edit.joinAs_run s kind table condition columns) fun next h => ?_
    obtain ⟨kind, -, h⟩ := bind_eq_ok_iff.mp h
    exact tables_joined h
  | addColumns columns correlation =>
    refine tablesStep_settle rfl (Edit.addColumns_run s columns correlation) fun next h => ?_
    rw [tables_selecting h]
    exact .same
  | orderRandomly field =>
    refine tablesStep_settle rfl (Edit.orderRandomly_run s field) fun next h => ?_
    split at h
    · cases h
      exact .same
    · obtain ⟨mid, hmid, h⟩ := bind_eq_ok_iff.mp h
      rw [← pure_eq_ok_iff.mp h]
      change TablesStep s _ mid.tables
      rw [tables_selecting hmid]
      exact .same
  | addWhere connector condition =>
    change TablesStep s _ (ite _ _ _ : Statement).tables
    split <;> exact .same
  | addHaving connector condition =>
    change TablesStep s _ (ite _ _ _ : Statement).tables
    split <;> exact .same
  | union members kind =>
    cases members with
    | nil => exact .same
    | cons first rest =>
      refine tablesStep_settle rfl (Edit.union_run s first rest kind) fun next h => ?_
      cases h
      cases hbase : s.absorbed? (.union (first :: rest) kind) with
      | some base =>
        change TablesStep s _ base.tables
        exact .absorbed hbase
      | none => exact .same
  | resetNamed name =>
    refine tablesStep_settle rfl (Edit.resetNamed_run s name) fun next h => ?_
    obtain ⟨part, -, rfl⟩ := map_eq_ok_iff.mp h
    exact tables_reset _ part
  | reset part => exact tables_reset _ part
  | resetAll => exact .emptied
  | setPart value =>
    cases value with
    | tables tables =>
      refine tablesStep_settle rfl (Edit.setPart_tables_run s tables) fun next h => ?_
      split at h
      · cases h
      next hnone =>
        cases h
        exact .replaced rfl hnone
    | _ => exact .same
  | pruneLeftJoins => exact .pruned
  | groupBy _ => exact .same
  | orderBy _ => exact .same
  | limit _ _ => exact .same
  | limitPage _ _ => exact .same
  | distinct _ => exact .same
  | forUpdate _ => exact .same
  | straightJoin _ => exact .same

/-! ## Reachable statements -/

/-- The statements that mutations make of an empty one, whether they fail or not, when only the
mutations in `allowed` are used. A statement that is taken over is of that kind too. -/
inductive ReachableBy (allowed : Mutation → Prop) : Statement → Prop
  | empty (d : Dialect) : ReachableBy allowed (ofDialect d)
  | apply {s : Statement} {m : Mutation} (hs : ReachableBy allowed s) (hm : allowed m)
      (hbase : ∀ base, s.absorbed? m = some base → ReachableBy allowed base) :
      ReachableBy allowed (s.apply m).2

/-- The statements that mutations make of an empty one. -/
def Reachable : Statement → Prop := ReachableBy fun _ => True

theorem ReachableBy.mono {p q : Mutation → Prop} (hpq : ∀ m, p m → q m) {s : Statement}
    (h : ReachableBy p s) : ReachableBy q s := by
  induction h with
  | empty d => exact .empty d
  | apply hs hm hbase ih ihbase => exact .apply ih (hpq _ hm) ihbase

theorem ReachableBy.reachable {allowed : Mutation → Prop} {s : Statement}
    (h : ReachableBy allowed s) : Reachable s := h.mono fun _ _ => trivial

/-- **The invariant rule for FROM**: what holds of the empty FROM, and is kept by every step, holds
of every reachable statement. -/
theorem ReachableBy.tables {allowed : Mutation → Prop} {P : List (TableRef Statement) → Prop}
    (hnil : P [])
    (hstep : ∀ (s : Statement) (m : Mutation) (tables : List (TableRef Statement)), allowed m →
      P s.tables → (∀ base, s.absorbed? m = some base → P base.tables) → TablesStep s m tables →
      P tables)
    {s : Statement} (h : ReachableBy allowed s) : P s.tables := by
  induction h with
  | empty d => exact hnil
  | @apply s m hs hm hbase ih ihbase => exact hstep s m _ hm ih ihbase (tablesStep_apply s m)

theorem ReachableBy.applyAll {allowed : Mutation → Prop} {s : Statement}
    (hs : ReachableBy allowed s) (ms : List Mutation)
    (hms : ∀ m ∈ ms, allowed m ∧ ∀ t : Statement, t.absorbed? m = none) :
    ReachableBy allowed (s.applyAll ms) := by
  induction ms generalizing s with
  | nil => exact hs
  | cons m ms ih =>
    obtain ⟨hm, hrest⟩ := List.forall_mem_cons.mp hms
    have hnone : ∀ base, s.absorbed? m = some base → ReachableBy allowed base := by
      intro base hbase
      rw [hm.2 s] at hbase
      cases hbase
    exact ih (.apply hs hm.1 hnone) hrest

end Statement

end SelectQuery
