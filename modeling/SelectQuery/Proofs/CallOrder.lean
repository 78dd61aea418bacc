import SelectQuery.Proofs.Frame

/-!
# Calls in another order

Most mutations read and write the clauses of one collection alone. So a run, seen through a
collection, is the run of its calls of that collection, and only their order counts.

* `Collection`, `Part.collection`, `Mutation.collection?`: the collections, their parts and calls;
* `agreeIn_apply_of_ne`: a call leaves the parts of the other collections alone;
* `sameIn_apply`: statements that agree on a collection still do after a call of it, which has the
  same outcome in both;
* `recordIn_eq`: a run seen through a collection;
* **`applyAll_eq_of_collections`**: runs with the same calls in each collection, in the same order,
  come to the same statement, with the same outcomes.
-/

namespace SelectQuery

/-! ## Collections -/

/-- Clauses that are written by the same calls. -/
inductive Collection where
  /-- FROM and the select list. -/
  | sources
  | predicates
  | havings
  | groups
  | orders
  | window
  | distinct
  | forUpdate
  | straightJoin
  | unions
  deriving DecidableEq, Repr

/-- The collection that a part belongs to. -/
def Part.collection : Part → Collection
  | tables | columns => .sources
  | predicates => .predicates
  | havings => .havings
  | groups => .groups
  | orders => .orders
  | limitCount | limitOffset => .window
  | distinct => .distinct
  | forUpdate => .forUpdate
  | straightJoin => .straightJoin
  | union => .unions

/-- The collection that a mutation belongs to. A union that begins with a statement may take over
all clauses of it, and a random order with a name adds a column: these belong to none. -/
def Mutation.collection? : Mutation → Option Collection
  | selectFrom _ _ | join _ _ _ _ | joinAs _ _ _ _ | addColumns _ _ => some .sources
  | addWhere _ _ => some .predicates
  | addHaving _ _ => some .havings
  | groupBy _ => some .groups
  | orderBy _ => some .orders
  | limit _ _ | limitPage _ _ => some .window
  | distinct _ => some .distinct
  | forUpdate _ => some .forUpdate
  | straightJoin _ => some .straightJoin
  | union (.select _ :: _) _ => none
  | union _ _ => some .unions
  | orderRandomly _ | reset _ | resetNamed _ | resetAll | setPart _ | pruneLeftJoins => none

theorem Mutation.collection_of_mem_writes {m : Mutation} {c : Collection}
    (hm : m.collection? = some c) {p : Part} (hp : p ∈ m.writes) : p.collection = c := by
  cases m with
  | union members kind =>
    have hunion : c = .unions ∧ p = .union := by
      rcases members with _ | ⟨_ | sql, rest⟩
      · exact ⟨(Option.some.inj hm).symm, List.mem_singleton.mp hp⟩
      · cases hm
      · exact ⟨(Option.some.inj hm).symm, List.mem_singleton.mp hp⟩
    rw [hunion.1, hunion.2]
    rfl
  | orderRandomly _ | reset _ | resetNamed _ | resetAll | setPart _ | pruneLeftJoins => cases hm
  | _ =>
    cases hm
    simp only [writes, List.mem_cons, List.not_mem_nil, or_false] at hp
    rcases hp with rfl | rfl <;> rfl

namespace Statement

variable {s t : Statement} {c : Collection} {m : Mutation}

/-- Two statements of one dialect with the same clauses in a collection. -/
def AgreeIn (c : Collection) : Statement → Statement → Prop := AgreeOn (·.collection = c)

/-! ## One call -/

theorem agreeIn_apply_of_ne {other : Collection} (hm : m.collection? = some other)
    (hne : other ≠ c) : AgreeIn c (s.apply m).2 s := by
  refine (agreeOn_apply s m).mono fun p hp hmem => hne ?_
  rw [← Mutation.collection_of_mem_writes hm hmem, hp]

/-- Outcomes of a call in two statements that agree on a collection. -/
inductive Alike (c : Collection) : Except Error Statement → Except Error Statement → Prop
  | ok {s t : Statement} (h : AgreeIn c s t) : Alike c (.ok s) (.ok t)
  | error (e : Error) : Alike c (.error e) (.error e)

/-- The same outcome of a call in two statements, which agree on a collection behind it. -/
def SameIn (c : Collection) (a b : Except Error (List Event) × Statement) : Prop :=
  a.1 = b.1 ∧ AgreeIn c a.2 b.2

theorem sameIn_settle {e : Edit Unit} {r q : Except Error Statement}
    (hm : m.edit = do e; return []) (hs : e s = Edit.settle s r) (ht : e t = Edit.settle t q)
    (h : AgreeIn c s t) (hr : Alike c r q) : SameIn c (s.apply m) (t.apply m) := by
  rw [apply_settle hm hs, apply_settle hm ht]
  cases hr with
  | ok hnext => exact ⟨rfl, hnext⟩
  | error e => exact ⟨rfl, h⟩

theorem hasTable_congr (h : s.tables = t.tables) : s.hasTable = t.hasTable := by
  funext name
  rw [hasTable, hasTable, h]

theorem newTable_congr (h : s.tables = t.tables) (kind : JoinKind) (table : TableInput)
    (condition : String) : s.newTable kind table condition = t.newTable kind table condition := by
  have hjoin : s.newJoin = t.newJoin := by
    funext kind condition table
    rw [newJoin, newJoin, h]
  have hfree : s.freeCorrelation = t.freeCorrelation := by
    funext base
    rw [freeCorrelation, freeCorrelation, hasTable_congr h, h]
  have hcorrelation : s.newCorrelation = t.newCorrelation := by
    funext table
    rw [newCorrelation, newCorrelation, hasTable_congr h, hfree]
  rw [newTable, newTable, hjoin, hcorrelation]

theorem columnTarget_congr (h : s.tables = t.tables) (correlation : Option String) :
    Edit.columnTarget s correlation = Edit.columnTarget t correlation := by
  cases correlation with
  | none => rw [Edit.columnTarget, Edit.columnTarget, h]
  | some name => rw [Edit.columnTarget, Edit.columnTarget, hasTable_congr h]

theorem sameIn_limit (h : AgreeIn c s t) (count offset : UInt64) :
    SameIn c (s.apply (.limit count offset)) (t.apply (.limit count offset)) := by
  rw [apply_limit, apply_limit]
  exact ⟨rfl, (h.put (.limitCount _)).put (.limitOffset _)⟩

theorem agreeIn_unless (h : AgreeIn c s t) (skipped : Prop) [Decidable skipped] (v : PartValue) :
    AgreeIn c (if skipped then s else s.put v) (if skipped then t else t.put v) := by
  split
  · exact h
  · exact h.put v

section Sources

variable (h : AgreeIn .sources s t)

include h

theorem agreeIn_withColumns (columns : List Column) :
    AgreeIn .sources (s.withColumns columns) (t.withColumns columns) := by
  have hcolumns : s.columns = t.columns := PartValue.columns.inj (h.part .columns rfl)
  change AgreeIn _ (s.put (.columns (s.columns ++ columns)))
    (t.put (.columns (t.columns ++ columns)))
  rw [hcolumns]
  exact h.put _

theorem alike_joined (kind : JoinKind) (table : TableInput) (condition : String)
    (columns : List ColumnInput) :
    Alike .sources (s.joined kind table condition columns)
      (t.joined kind table condition columns) := by
  have htables : s.tables = t.tables := PartValue.tables.inj (h.part .tables rfl)
  unfold joined
  rw [newTable_congr htables]
  cases t.newTable kind table condition with
  | error e => exact .error e
  | ok entry =>
    simp only [bind, Except.bind]
    cases classifyAll columns (some entry.correlation) with
    | error e => exact .error e
    | ok added =>
      refine .ok ?_
      change AgreeOn _ ((s.withColumns added).put (.tables (s.tables ++ [entry])))
        ((t.withColumns added).put (.tables (t.tables ++ [entry])))
      rw [htables]
      exact (agreeIn_withColumns h added).put _

theorem alike_selecting (columns : List ColumnInput) (correlation : Option String) :
    Alike .sources (s.selecting columns correlation) (t.selecting columns correlation) := by
  have htables : s.tables = t.tables := PartValue.tables.inj (h.part .tables rfl)
  unfold selecting
  rw [columnTarget_congr htables]
  cases Edit.columnTarget t correlation with
  | error e => exact .error e
  | ok target =>
    simp only [bind, Except.bind]
    cases classifyAll columns target with
    | error e => exact .error e
    | ok added => exact .ok (agreeIn_withColumns h added)

end Sources

/-- **A call reads the clauses of its collection alone**: where two statements agree on them, it has
the same outcome, and they agree behind it. -/
theorem sameIn_apply (hm : m.collection? = some c) (h : AgreeIn c s t) :
    SameIn c (s.apply m) (t.apply m) := by
  cases m with
  | selectFrom table columns =>
    cases hm
    refine sameIn_settle rfl (Edit.selectFrom_run s table columns)
      (Edit.selectFrom_run t table columns) h ?_
    split
    · cases classifyAll columns none with
      | error e => exact .error e
      | ok added => exact .ok (agreeIn_withColumns h added)
    · exact alike_joined h .inner table "" columns
  | join kind table condition columns =>
    cases hm
    exact sameIn_settle rfl (Edit.addTable_run s kind table condition columns)
      (Edit.addTable_run t kind table condition columns) h (alike_joined h _ _ _ _)
  | joinAs kind table condition columns =>
    cases hm
    refine sameIn_settle rfl (Edit.joinAs_run s kind table condition columns)
      (Edit.joinAs_run t kind table condition columns) h ?_
    cases JoinKind.parse kind with
    | error e => exact .error e
    | ok kind => exact alike_joined h kind table condition columns
  | addColumns columns correlation =>
    cases hm
    exact sameIn_settle rfl (Edit.addColumns_run s columns correlation)
      (Edit.addColumns_run t columns correlation) h (alike_selecting h columns correlation)
  | addWhere connector condition =>
    cases hm
    have hsame : s.predicates = t.predicates := PartValue.predicates.inj (h.part .predicates rfl)
    refine ⟨rfl, ?_⟩
    change AgreeIn _ (if Text.isBlankText (condition.text s.dialect) then s
        else s.put (.predicates (s.predicates ++ [_])))
      (if Text.isBlankText (condition.text t.dialect) then t
        else t.put (.predicates (t.predicates ++ [_])))
    rw [h.dialect, hsame]
    exact agreeIn_unless h _ _
  | addHaving connector condition =>
    cases hm
    have hsame : s.havings = t.havings := PartValue.havings.inj (h.part .havings rfl)
    refine ⟨rfl, ?_⟩
    change AgreeIn _ (if Text.isBlankText (condition.text s.dialect) then s
        else s.put (.havings (s.havings ++ [_])))
      (if Text.isBlankText (condition.text t.dialect) then t
        else t.put (.havings (t.havings ++ [_])))
    rw [h.dialect, hsame]
    exact agreeIn_unless h _ _
  | groupBy terms =>
    cases hm
    have hsame : s.groups = t.groups := PartValue.groups.inj (h.part .groups rfl)
    refine ⟨rfl, ?_⟩
    change AgreeIn _ (s.put (.groups (s.groups ++ _))) (t.put (.groups (t.groups ++ _)))
    rw [hsame]
    exact h.put _
  | orderBy terms =>
    cases hm
    have hsame : s.orders = t.orders := PartValue.orders.inj (h.part .orders rfl)
    refine ⟨rfl, ?_⟩
    change AgreeIn _ (s.put (.orders (s.orders ++ _))) (t.put (.orders (t.orders ++ _)))
    rw [hsame]
    exact h.put _
  | limit count offset => exact sameIn_limit h count offset
  | limitPage page rows => exact sameIn_limit h _ _
  | distinct flag => exact ⟨rfl, h.put (.distinct flag)⟩
  | forUpdate flag => exact ⟨rfl, h.put (.forUpdate flag)⟩
  | straightJoin flag => exact ⟨rfl, h.put (.straightJoin flag)⟩
  | union members kind =>
    rcases members with _ | ⟨base | sql, rest⟩
    · exact ⟨rfl, h⟩
    · cases hm
    · cases hm
      have hsame : s.unions = t.unions := PartValue.union.inj (h.part .union rfl)
      refine ⟨rfl, ?_⟩
      change AgreeIn _ (s.put (.union (s.unions ++ _))) (t.put (.union (t.unions ++ _)))
      rw [hsame]
      exact h.put _
  | orderRandomly _ | reset _ | resetNamed _ | resetAll | setPart _ | pruneLeftJoins => cases hm

/-! ## Runs -/

/-- The calls of a run that belong to a collection. -/
def callsIn (c : Collection) (ms : List Mutation) : List Mutation :=
  ms.filter (·.collection? = some c)

/-- The record of the calls that belong to a collection. -/
def recordIn (c : Collection) (s : Statement) (ms : List Mutation) :
    List (Mutation × Except Error (List Event)) :=
  (s.record ms).filter (·.1.collection? = some c)

/-- **A run, seen through a collection, is the run of its calls of that collection.** -/
theorem recordIn_eq (h : AgreeIn c s t) {ms : List Mutation}
    (hms : ∀ m ∈ ms, m.collection? ≠ none) :
    s.recordIn c ms = t.record (callsIn c ms) ∧
      AgreeIn c (s.applyAll ms) (t.applyAll (callsIn c ms)) := by
  induction ms generalizing s t with
  | nil => exact ⟨rfl, h⟩
  | cons m rest ih =>
    obtain ⟨hm, hrest⟩ := List.forall_mem_cons.mp hms
    by_cases hc : m.collection? = some c
    · obtain ⟨houtcome, hnext⟩ := sameIn_apply hc h
      obtain ⟨hrecord, hagree⟩ := ih hnext hrest
      have hcalls : callsIn c (m :: rest) = m :: callsIn c rest :=
        List.filter_cons_of_pos (by simpa using hc)
      rw [hcalls]
      refine ⟨?_, hagree⟩
      calc s.recordIn c (m :: rest)
        _ = (m, (s.apply m).1) :: (s.apply m).2.recordIn c rest :=
          List.filter_cons_of_pos (by simpa using hc)
        _ = t.record (m :: callsIn c rest) := by rw [houtcome, hrecord, record]
    · obtain ⟨other, hother⟩ := Option.ne_none_iff_exists'.mp hm
      have hne : other ≠ c := by
        rintro rfl
        exact hc hother
      have hnext : AgreeIn c (s.apply m).2 t := (agreeIn_apply_of_ne hother hne).trans h
      obtain ⟨hrecord, hagree⟩ := ih hnext hrest
      have hcalls : callsIn c (m :: rest) = callsIn c rest :=
        List.filter_cons_of_neg (by simpa using hc)
      rw [hcalls]
      refine ⟨?_, hagree⟩
      calc s.recordIn c (m :: rest)
        _ = (s.apply m).2.recordIn c rest := List.filter_cons_of_neg (by simpa using hc)
        _ = t.record (callsIn c rest) := hrecord

/-- **Only the order within each collection counts.** Two runs with the same calls in each
collection, in the same order, come to the same statement, and each call has the same outcome in
both. -/
theorem applyAll_eq_of_collections (s : Statement) {ms more : List Mutation}
    (hms : ∀ m ∈ ms, m.collection? ≠ none) (hmore : ∀ m ∈ more, m.collection? ≠ none)
    (h : ∀ c, callsIn c ms = callsIn c more) :
    s.applyAll ms = s.applyAll more ∧ ∀ c, s.recordIn c ms = s.recordIn c more := by
  have hseen : ∀ c, s.recordIn c ms = s.recordIn c more ∧
      AgreeIn c (s.applyAll ms) (s.applyAll more) := by
    intro c
    obtain ⟨hrecord, hagree⟩ := recordIn_eq (.refl _ s) hms
    obtain ⟨hrecord', hagree'⟩ := recordIn_eq (.refl _ s) hmore
    rw [h c] at hrecord hagree
    exact ⟨hrecord.trans hrecord'.symm, hagree.trans hagree'.symm⟩
  have hpart : ∀ p, (s.applyAll ms).part p = (s.applyAll more).part p :=
    fun p => (hseen p.collection).2.part p rfl
  exact ⟨eq_of_part (hseen .sources).2.dialect hpart, fun c => (hseen c).1⟩

/-- One of the calls fails, in both runs. -/
theorem applyAll_eq_of_interleaved :
    let s := ofDialect (Config.dialect {})
    let base : Mutation := .selectFrom (.ofName "orders AS o") [.ofText "id"]
    let again : Mutation := .join .left (.ofName "refunds AS o") "o.id = 1" [.ofText "amount"]
    let paid : Mutation := .addWhere .and ⟨"o.paid = ?", some (.bool true, none)⟩
    let pending : Mutation := .addWhere .or ⟨"o.open", none⟩
    let rows : Mutation := .limit 10 20
    let more : Mutation := .union [.raw "SELECT 1"] .all
    let first := [base, again, paid, pending, rows, more]
    let second := [more, paid, base, rows, pending, again]
    (∀ m ∈ first, m.collection? ≠ none) ∧ (∀ m ∈ second, m.collection? ≠ none) ∧
      (∀ c, callsIn c first = callsIn c second) ∧ s.applyAll first = s.applyAll second ∧
      s.recordIn .sources second =
        [(base, .ok []), (again, .error (.duplicateCorrelation "o"))] := by
  intro s base again paid pending rows more first second
  have hfirst : ∀ m ∈ first, m.collection? ≠ none := by
    simp [first, base, again, paid, pending, rows, more, Mutation.collection?]
  have hsecond : ∀ m ∈ second, m.collection? ≠ none := by
    simp [second, base, again, paid, pending, rows, more, Mutation.collection?]
  have hcalls : ∀ c, callsIn c first = callsIn c second := by
    intro c
    cases c <;> rfl
  obtain ⟨heq, hrecord⟩ := applyAll_eq_of_collections s hfirst hsecond hcalls
  have hsources : s.recordIn .sources first =
      [(base, .ok []), (again, .error (.duplicateCorrelation "o"))] := by rfl
  exact ⟨hfirst, hsecond, hcalls, heq, (hrecord .sources).symm.trans hsources⟩

end Statement

end SelectQuery
