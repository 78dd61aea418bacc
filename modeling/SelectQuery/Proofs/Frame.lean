import SelectQuery.Proofs.Outcome
import SelectQuery.Proofs.Part

/-!
# What a mutation leaves alone

* `Mutation.writes`: the parts that a mutation may change;
* **`Statement.agreeOn_apply`**: the others, and the dialect, stay as they were;
* `Statement.record`: the mutations of a run with their outcomes.
-/

namespace SelectQuery

/-- The parts that a mutation may change. -/
def Mutation.writes : Mutation → List Part
  | selectFrom _ _ | join _ _ _ _ | joinAs _ _ _ _ => [.tables, .columns]
  | addColumns _ _ => [.columns]
  | addWhere _ _ => [.predicates]
  | addHaving _ _ => [.havings]
  | groupBy _ => [.groups]
  | orderBy _ => [.orders]
  | orderRandomly _ => [.columns, .orders]
  | limit _ _ | limitPage _ _ => [.limitCount, .limitOffset]
  | distinct _ => [.distinct]
  | forUpdate _ => [.forUpdate]
  | straightJoin _ => [.straightJoin]
  | union (.select _ :: _) _ => Part.all
  | union _ _ => [.union]
  | reset part => [part]
  | resetNamed name =>
    match Part.parse name with
    | .ok part => [part]
    | .error _ => []
  | resetAll => Part.all
  | setPart value => [value.part]
  | pruneLeftJoins => [.tables]

namespace Statement

variable {s next : Statement} {parts : List Part}

theorem agreeOn_put_of_mem {v : PartValue} (h : v.part ∈ parts) :
    AgreeOn (· ∉ parts) (s.put v) s := agreeOn_put fun hnot => hnot h

theorem agreeOn_put_put {v w : PartValue} :
    AgreeOn (· ∉ [v.part, w.part]) ((s.put v).put w) s :=
  (agreeOn_put_of_mem (by simp)).trans (agreeOn_put_of_mem (by simp))

theorem agreeOn_not_mem_all (h : next.dialect = s.dialect) : AgreeOn (· ∉ Part.all) next s :=
  ⟨h, fun p hp => absurd (Part.mem_all p) hp⟩

theorem agreeOn_settle {m : Mutation} {e : Edit Unit} {r : Except Error Statement}
    (hm : m.edit = do e; return []) (he : e s = Edit.settle s r)
    (hr : ∀ next, r = .ok next → AgreeOn (· ∉ parts) next s) :
    AgreeOn (· ∉ parts) (s.apply m).2 s := by
  rw [apply_settle hm he]
  cases r with
  | error e => exact .refl _ s
  | ok next => exact hr next rfl

theorem agreeOn_joined {kind : JoinKind} {table : TableInput} {condition : String}
    {columns : List ColumnInput} (h : s.joined kind table condition columns = .ok next) :
    AgreeOn (· ∉ [.tables, .columns]) next s := by
  obtain ⟨entry, -, h⟩ := bind_eq_ok_iff.mp h
  obtain ⟨added, -, h⟩ := bind_eq_ok_iff.mp h
  rw [← pure_eq_ok_iff.mp h]
  exact agreeOn_put_put (v := .tables (s.tables ++ [entry])) (w := .columns (s.columns ++ added))

theorem agreeOn_selecting {columns : List ColumnInput} {correlation : Option String}
    (h : s.selecting columns correlation = .ok next) : AgreeOn (· ∉ [.columns]) next s := by
  obtain ⟨target, -, h⟩ := bind_eq_ok_iff.mp h
  obtain ⟨added, -, h⟩ := bind_eq_ok_iff.mp h
  rw [← pure_eq_ok_iff.mp h]
  exact agreeOn_put_of_mem (v := .columns (s.columns ++ added)) (.head _)

theorem agreeOn_reset (s : Statement) (p : Part) :
    AgreeOn (· ∉ [p]) { s with toClauses := s.toClauses.reset p } s := by
  rw [reset_eq_put]
  exact agreeOn_put_of_mem (by simp)

theorem apply_limit (s : Statement) (count offset : UInt64) :
    s.apply (.limit count offset) = (.ok [],
      (s.put (.limitCount (Edit.nonzero count))).put (.limitOffset (Edit.nonzero offset))) := rfl

theorem agreeOn_limit (s : Statement) (count offset : UInt64) :
    AgreeOn (· ∉ [.limitCount, .limitOffset]) (s.apply (.limit count offset)).2 s := by
  rw [apply_limit]
  exact agreeOn_put_put (v := .limitCount _) (w := .limitOffset _)

/-- **A mutation leaves the dialect alone, and all parts that it does not write**, whether it fails
or not. -/
theorem agreeOn_apply (s : Statement) (m : Mutation) :
    AgreeOn (· ∉ m.writes) (s.apply m).2 s := by
  cases m with
  | selectFrom table columns =>
    refine agreeOn_settle rfl (Edit.selectFrom_run s table columns) fun next h => ?_
    split at h
    · obtain ⟨added, -, rfl⟩ := map_eq_ok_iff.mp h
      exact agreeOn_put_of_mem (v := .columns (s.columns ++ added)) (.tail _ (.head _))
    · exact agreeOn_joined h
  | join kind table condition columns =>
    exact agreeOn_settle rfl (Edit.addTable_run s kind table condition columns)
      fun next h => agreeOn_joined h
  | joinAs kind table condition columns =>
    refine agreeOn_settle rfl (Edit.joinAs_run s kind table condition columns) fun next h => ?_
    obtain ⟨kind, -, h⟩ := bind_eq_ok_iff.mp h
    exact agreeOn_joined h
  | addColumns columns correlation =>
    exact agreeOn_settle rfl (Edit.addColumns_run s columns correlation)
      fun next h => agreeOn_selecting h
  | orderRandomly field =>
    refine agreeOn_settle rfl (Edit.orderRandomly_run s field) fun next h => ?_
    split at h
    · cases h
      exact agreeOn_put_of_mem (v := .orders _) (.tail _ (.head _))
    next field _ =>
      obtain ⟨mid, hmid, h⟩ := bind_eq_ok_iff.mp h
      rw [← pure_eq_ok_iff.mp h]
      have hcolumns : AgreeOn (· ∉ [.columns, .orders]) mid s := by
        refine (agreeOn_selecting hmid).mono fun p hp hmem => hp ?_
        rw [List.mem_singleton.mp hmem]
        exact .head _
      exact (agreeOn_put_of_mem (v := .orders _) (.tail _ (.head _))).trans hcolumns
  | addWhere connector condition =>
    change AgreeOn _ (ite _ _ _ : Statement) s
    split
    · exact .refl _ s
    · exact agreeOn_put_of_mem (v := .predicates _) (.head _)
  | addHaving connector condition =>
    change AgreeOn _ (ite _ _ _ : Statement) s
    split
    · exact .refl _ s
    · exact agreeOn_put_of_mem (v := .havings _) (.head _)
  | groupBy terms => exact agreeOn_put_of_mem (v := .groups _) (.head _)
  | orderBy terms => exact agreeOn_put_of_mem (v := .orders _) (.head _)
  | limit count offset => exact agreeOn_limit s count offset
  | limitPage page rows => exact agreeOn_limit s _ _
  | distinct flag => exact agreeOn_put_of_mem (v := .distinct flag) (.head _)
  | forUpdate flag => exact agreeOn_put_of_mem (v := .forUpdate flag) (.head _)
  | straightJoin flag => exact agreeOn_put_of_mem (v := .straightJoin flag) (.head _)
  | union members kind =>
    cases members with
    | nil => exact .refl _ s
    | cons first rest =>
      refine agreeOn_settle rfl (Edit.union_run s first rest kind) fun next h => ?_
      cases h
      cases first with
      | raw sql => exact agreeOn_put_of_mem (v := .union _) (.head _)
      | select base =>
        refine agreeOn_not_mem_all ?_
        split <;> rfl
  | reset part => exact agreeOn_reset s part
  | resetNamed name =>
    refine agreeOn_settle rfl (Edit.resetNamed_run s name) fun next h => ?_
    obtain ⟨part, hpart, rfl⟩ := map_eq_ok_iff.mp h
    rw [Mutation.writes, hpart]
    exact agreeOn_reset s part
  | resetAll => exact agreeOn_not_mem_all rfl
  | setPart value =>
    refine agreeOn_settle rfl (Edit.setPart_run s value) fun next h => ?_
    obtain ⟨stored, hstored, rfl⟩ := map_eq_ok_iff.mp h
    exact agreeOn_put_of_mem (by simp [Mutation.writes, PartValue.part_of_normalized hstored])
  | pruneLeftJoins => exact agreeOn_put_of_mem (v := .tables _) (.head _)

/-! ## Runs -/

/-- The mutations of a run, each with its outcome. -/
def record : Statement → List Mutation → List (Mutation × Except Error (List Event))
  | _, [] => []
  | s, m :: rest => (m, (s.apply m).1) :: record (s.apply m).2 rest

end Statement

end SelectQuery
