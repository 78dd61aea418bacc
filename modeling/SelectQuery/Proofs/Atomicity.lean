import SelectQuery.Proofs.Mutation

/-!
# Mutations that fail

A mutation makes all its checks before its first change. So one that fails has changed nothing, and
in a run it counts for nothing.

* `Statement.Settled`: a success, or an error with the statement as it was;
* `Statement.settled_apply`: every mutation comes to one or the other;
* `Statement.apply_unchanged_of_error`: a mutation that fails leaves the statement as it was;
* `Statement.applyAll_succeeding`: a run comes to what its successful mutations come to alone.
-/

namespace SelectQuery.Statement

variable {s : Statement}

/-- A success, or an error with the statement as it was. -/
inductive Settled (s : Statement) : Except Error (List Event) × Statement → Prop
  | changed (events : List Event) (next : Statement) : Settled s (.ok events, next)
  | refused (e : Error) : Settled s (.error e, s)

theorem settled_of_settle {m : Mutation} {e : Edit Unit} {r : Except Error Statement}
    (hm : m.edit = do e; return []) (he : e s = Edit.settle s r) : Settled s (s.apply m) := by
  rw [apply_settle hm he]
  cases r with
  | ok next => exact .changed [] next
  | error err => exact .refused err

/-- **Every mutation succeeds or leaves the statement as it was.** -/
theorem settled_apply (s : Statement) (m : Mutation) : Settled s (s.apply m) := by
  cases m with
  -- the mutations that make checks
  | selectFrom table columns => exact settled_of_settle rfl (Edit.selectFrom_run s table columns)
  | join kind table condition columns =>
    exact settled_of_settle rfl (Edit.addTable_run s kind table condition columns)
  | joinAs kind table condition columns =>
    exact settled_of_settle rfl (Edit.joinAs_run s kind table condition columns)
  | addColumns columns correlation =>
    exact settled_of_settle rfl (Edit.addColumns_run s columns correlation)
  | orderRandomly field => exact settled_of_settle rfl (Edit.orderRandomly_run s field)
  | union members kind =>
    cases members with
    | nil => exact .refused .unionWithNoMembers
    | cons first rest => exact settled_of_settle rfl (Edit.union_run s first rest kind)
  | resetNamed name => exact settled_of_settle rfl (Edit.resetNamed_run s name)
  | setPart value =>
    cases value with
    | tables tables => exact settled_of_settle rfl (Edit.setPart_tables_run s tables)
    | _ => exact .changed _ _
  -- the mutations that make none
  | addWhere _ _ => exact .changed _ _
  | addHaving _ _ => exact .changed _ _
  | groupBy _ => exact .changed _ _
  | orderBy _ => exact .changed _ _
  | limit _ _ => exact .changed _ _
  | limitPage _ _ => exact .changed _ _
  | distinct _ => exact .changed _ _
  | forUpdate _ => exact .changed _ _
  | straightJoin _ => exact .changed _ _
  | reset _ => exact .changed _ _
  | resetAll => exact .changed _ _
  | pruneLeftJoins => exact .changed _ _

theorem Settled.eq_of_error {outcome : Except Error (List Event) × Statement} {e : Error}
    (h : Settled s outcome) (he : outcome.1 = .error e) : outcome.2 = s := by
  cases h with
  | changed events next => cases he
  | refused e => rfl

/-- **A mutation that fails leaves the statement as it was**, with all its parts and its dialect. -/
theorem apply_unchanged_of_error (s : Statement) (m : Mutation) {e : Error}
    (h : (s.apply m).1 = .error e) :
    (s.apply m).2 = s ∧ ∀ part, (s.apply m).2.part part = s.part part := by
  have heq := (settled_apply s m).eq_of_error h
  exact ⟨heq, fun part => by rw [heq]⟩

/-- The second column of a new table is a statement whose qualifier cannot be read. -/
theorem apply_unchanged_of_nested_error :
    let s := (ofDialect (Config.dialect {})).applyAll
      [.selectFrom (.ofName "orders AS o") [.ofText "id"]]
    let nested := (ofDialect (Config.dialect {})).applyAll
      [.selectFrom (.ofName "notes") [.ofText "a..b"]]
    let m := Mutation.join .left (.ofName "refunds AS r") "r.order_id = o.id"
      [.ofText "amount", .ofStatement nested]
    let e := Error.invalidIdentifier "trailing '.' in identifier 'a.'"
    (s.apply m).1 = .error e ∧
      (s.apply m).2 = s ∧ ∀ part, (s.apply m).2.part part = s.part part := by
  intro s nested m e
  have herror : (s.apply m).1 = .error e := by rfl
  exact ⟨herror, apply_unchanged_of_error s m herror⟩

/-! ## Runs -/

/-- The mutations of a run that succeed in it. -/
def succeeding (s : Statement) : List Mutation → List Mutation
  | [] => []
  | m :: rest =>
    match s.apply m with
    | (.ok _, next) => m :: succeeding next rest
    | (.error _, next) => succeeding next rest

/-- **A run comes to what its successful mutations come to alone.** -/
theorem applyAll_succeeding (s : Statement) (ms : List Mutation) :
    s.applyAll (s.succeeding ms) = s.applyAll ms := by
  induction ms generalizing s with
  | nil => rfl
  | cons m rest ih =>
    have hm := settled_apply s m
    change _ = (s.apply m).2.applyAll rest
    unfold succeeding
    generalize houtcome : s.apply m = outcome at hm
    cases hm with
    | changed events next =>
      change (s.apply m).2.applyAll (next.succeeding rest) = _
      rw [houtcome]
      exact ih next
    | refused e => exact ih s

end SelectQuery.Statement
