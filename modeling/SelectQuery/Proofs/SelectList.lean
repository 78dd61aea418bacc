import SelectQuery.Proofs.Frame
import SelectQuery.Proofs.Identifier
import SelectQuery.Proofs.Reachable

/-!
# The select list of a reachable statement

* `ColumnsStep`, `columnsStep_apply`: what a mutation can do to the select list;
* `ReachableBy.forall_columns`: what holds of every column that was asked for holds of every column
  of a reachable statement, when the select list is never given as a whole;
* `Column.IsWildcard`: a column whose identifier ends in a wildcard;
* `eq_wildcard_of_undotted`: without dots, it is the identifier `*`.
-/

namespace SelectQuery

namespace Statement

/-! ## What a mutation does to the select list -/

/-- The select list after a mutation of `s`. -/
inductive ColumnsStep (s : Statement) (m : Mutation) : List Column → Prop
  /-- Nothing happens to it. -/
  | same : ColumnsStep s m s.columns
  /-- Columns that are asked for stand at its end. -/
  | added {inputs : List ColumnInput} {target : Option String} {columns : List Column}
      (h : classifyAll inputs target = .ok columns) : ColumnsStep s m (s.columns ++ columns)
  /-- It is that of a statement which is taken over. -/
  | absorbed {base : Statement} (h : s.absorbed? m = some base) : ColumnsStep s m base.columns
  | emptied : ColumnsStep s m []
  /-- It is given as a whole. -/
  | replaced {columns : List Column} (hm : m = .setPart (.columns columns)) :
      ColumnsStep s m columns

/-- Whether a mutation gives the select list as a whole. -/
def setsColumns : Mutation → Bool
  | .setPart (.columns _) => true
  | _ => false

variable {s : Statement}

theorem columnsStep_settle {m : Mutation} {e : Edit Unit} {r : Except Error Statement}
    (hm : m.edit = do e; return []) (he : e s = Edit.settle s r)
    (hr : ∀ next, r = .ok next → ColumnsStep s m next.columns) :
    ColumnsStep s m (s.apply m).2.columns := by
  rw [apply_settle hm he]
  cases r with
  | error e => exact .same
  | ok next => exact hr next rfl

theorem columns_joined {kind : JoinKind} {table : TableInput} {condition : String}
    {columns : List ColumnInput} {next : Statement} {m : Mutation}
    (h : s.joined kind table condition columns = .ok next) : ColumnsStep s m next.columns := by
  obtain ⟨entry, -, h⟩ := bind_eq_ok_iff.mp h
  obtain ⟨added, hadded, h⟩ := bind_eq_ok_iff.mp h
  rw [← pure_eq_ok_iff.mp h]
  exact .added hadded

theorem columns_selecting {columns : List ColumnInput} {correlation : Option String}
    {next : Statement} {m : Mutation} (h : s.selecting columns correlation = .ok next) :
    ColumnsStep s m next.columns := by
  obtain ⟨target, -, h⟩ := bind_eq_ok_iff.mp h
  obtain ⟨added, hadded, h⟩ := bind_eq_ok_iff.mp h
  rw [← pure_eq_ok_iff.mp h]
  exact .added hadded

theorem columns_reset (m : Mutation) (part : Part) :
    ColumnsStep s m (s.toClauses.reset part).columns := by
  cases part <;> first | exact .emptied | exact .same

theorem columns_eq_of_not_mem_writes {m : Mutation} (h : .columns ∉ m.writes) :
    (s.apply m).2.columns = s.columns :=
  PartValue.columns.inj ((s.agreeOn_apply m).part .columns h)

/-- **Every mutation leaves the select list in one of five ways**, whether it fails or not. -/
theorem columnsStep_apply (s : Statement) (m : Mutation) :
    ColumnsStep s m (s.apply m).2.columns := by
  by_cases hwrites : .columns ∈ m.writes
  swap
  · rw [columns_eq_of_not_mem_writes hwrites]
    exact .same
  cases m with
  | selectFrom table columns =>
    refine columnsStep_settle rfl (Edit.selectFrom_run s table columns) fun next h => ?_
    split at h
    · obtain ⟨added, hadded, rfl⟩ := map_eq_ok_iff.mp h
      exact .added hadded
    · exact columns_joined h
  | join kind table condition columns =>
    exact columnsStep_settle rfl (Edit.addTable_run s kind table condition columns)
      fun next h => columns_joined h
  | joinAs kind table condition columns =>
    refine columnsStep_settle rfl (Edit.joinAs_run s kind table condition columns)
      fun next h => ?_
    obtain ⟨kind, -, h⟩ := bind_eq_ok_iff.mp h
    exact columns_joined h
  | addColumns columns correlation =>
    exact columnsStep_settle rfl (Edit.addColumns_run s columns correlation)
      fun next h => columns_selecting h
  | orderRandomly field =>
    refine columnsStep_settle rfl (Edit.orderRandomly_run s field) fun next h => ?_
    split at h
    · cases h
      exact .same
    · obtain ⟨mid, hmid, h⟩ := bind_eq_ok_iff.mp h
      rw [← pure_eq_ok_iff.mp h]
      change ColumnsStep s _ mid.columns
      exact columns_selecting hmid
  | union members kind =>
    cases members with
    | nil => exact .same
    | cons first rest =>
      refine columnsStep_settle rfl (Edit.union_run s first rest kind) fun next h => ?_
      cases h
      cases hbase : s.absorbed? (.union (first :: rest) kind) with
      | some base =>
        change ColumnsStep s _ base.columns
        exact .absorbed hbase
      | none => exact .same
  | reset part => exact columns_reset _ part
  | resetNamed name =>
    refine columnsStep_settle rfl (Edit.resetNamed_run s name) fun next h => ?_
    obtain ⟨part, -, rfl⟩ := map_eq_ok_iff.mp h
    exact columns_reset _ part
  | resetAll => exact .emptied
  | setPart value =>
    cases value with
    | columns columns => exact .replaced rfl
    | _ => simp [Mutation.writes, PartValue.part] at hwrites
  | _ => simp [Mutation.writes] at hwrites

/-! ## Reachable statements -/

theorem forall_mem_of_classifyAll {P : Column → Prop}
    (hP : ∀ input target column, classify input target = .ok (some column) → P column)
    {inputs : List ColumnInput} {target : Option String} {columns : List Column}
    (h : classifyAll inputs target = .ok columns) : ∀ column ∈ columns, P column := by
  induction inputs generalizing columns with
  | nil =>
    cases h
    exact List.forall_mem_nil _
  | cons input rest ih =>
    obtain ⟨first, hfirst, h⟩ := bind_eq_ok_iff.mp h
    obtain ⟨more, hmore, h⟩ := bind_eq_ok_iff.mp h
    rw [← pure_eq_ok_iff.mp h, List.forall_mem_append]
    refine ⟨fun column hmem => ?_, ih hmore⟩
    rw [Option.mem_toList.mp hmem] at hfirst
    exact hP input target column hfirst

/-- **The invariant rule for the select list**: what holds of every column that was asked for holds
of every column of a reachable statement, if the select list was never given as a whole. -/
theorem ReachableBy.forall_columns {allowed : Mutation → Prop} {P : Column → Prop}
    (hallowed : ∀ m, allowed m → setsColumns m = false)
    (hP : ∀ input target column, classify input target = .ok (some column) → P column)
    {s : Statement} (h : ReachableBy allowed s) : ∀ column ∈ s.columns, P column := by
  induction h with
  | empty d => exact List.forall_mem_nil _
  | @apply s m hs hm hbase ih ihbase =>
    have hstep := columnsStep_apply s m
    generalize (s.apply m).2.columns = columns at hstep
    cases hstep with
    | same => exact ih
    | added h => exact List.forall_mem_append.mpr ⟨ih, forall_mem_of_classifyAll hP h⟩
    | absorbed h => exact ihbase _ h
    | emptied => exact List.forall_mem_nil _
    | replaced hset =>
      have hfalse := hallowed m hm
      rw [hset] at hfalse
      cases hfalse

end Statement

/-! ## Names of columns -/

/-- A column whose identifier, if it is one, is one name without dots. -/
def Column.Undotted (column : Column) : Prop :=
  ∀ name, column.content = .ident name → '.' ∉ name.toList

/-- A column of all columns: the identifier that its text spells ends in a wildcard. -/
def Column.IsWildcard (d : Dialect) (column : Column) : Prop :=
  ∃ name ident, column.content = .ident name ∧ d.readIdentifier name = .ok ident ∧
    ident.segments.getLast? = some .wildcard

theorem undotted_classifyBody (body : List Char) (aliasName correlation : Option String) :
    (classifyBody body aliasName correlation).Undotted := by
  intro name hname
  unfold classifyBody at hname
  split at hname
  · cases hname
  · split at hname
    next qualifier last hcut =>
      cases hname
      simpa using Text.not_mem_of_cutLast hcut
    next hcut =>
      cases hname
      simpa using Text.cutLast_eq_none_iff.mp hcut

/-- **The last dot of a text is where its qualifier ends**, so no name has one. -/
theorem undotted_of_classify {input : ColumnInput} {target : Option String} {column : Column}
    (h : classify input target = .ok (some column)) : column.Undotted := by
  have hraw (sql : String) (aliasName : Option String) :
      (Column.expression target sql aliasName).Undotted := fun name hname => nomatch hname
  unfold classify at h
  split at h
  next s hsource =>
    obtain ⟨sql, -, h⟩ := bind_eq_ok_iff.mp h
    rw [← Option.some.inj (pure_eq_ok_iff.mp h)]
    exact hraw _ _
  next sql hsource =>
    split at h
    · cases h
    · rw [← Option.some.inj (Except.ok.inj h)]
      exact hraw _ _
  next text hsource =>
    unfold classifyText at h
    dsimp only at h
    split at h
    · cases h
    · rw [← Option.some.inj (Except.ok.inj h)]
      exact undotted_classifyBody _ _ _

theorem eq_wildcard_of_undotted {d : Dialect} {column : Column} (h : column.Undotted)
    (hwildcard : column.IsWildcard d) : column.content = .ident "*" := by
  obtain ⟨name, ident, hname, hread, hlast⟩ := hwildcard
  have htext := Identifier.write_of_parse hread
  have hspelled : Identifier.spelled d.quoteSymbol ident.segments = name.toList := by
    rw [← Identifier.toList_write_false, htext]
  cases hsegments : ident.segments with
  | nil => exact absurd hsegments (Identifier.segments_ne_nil hread)
  | cons segment rest =>
    rw [hsegments] at hspelled hlast
    cases rest with
    | nil =>
      cases hlast
      rw [Identifier.spelled_singleton] at hspelled
      rw [hname, String.toList_inj.mp hspelled.symm]
      rfl
    | cons next more =>
      rw [Identifier.spelled_cons (List.cons_ne_nil _ _)] at hspelled
      refine absurd ?_ (h name hname)
      rw [← hspelled]
      exact List.mem_append_right _ List.mem_cons_self

end SelectQuery
