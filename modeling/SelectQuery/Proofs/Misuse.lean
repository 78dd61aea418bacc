import SelectQuery.Proofs.Execution
import SelectQuery.Proofs.Mutation
import SelectQuery.Proofs.Unwritten

/-!
# Errors that blame the caller

A text fails only at a name that cannot be quoted, and a mutation only at what it was given: both
blame the caller. What is derived from a statement can be refused besides, by the dialect or for the
shape of the statement, and this alone is not counted as misuse.

* `Error.Blames`, `Error.OfDatabase`: the errors that are counted as misuse, and those of a client;
* `Statement.failsWith_apply`: a mutation fails by misuse;
* `Operation`, `Statement.perform`: what can be asked of a statement without a client;
* `Refused`: operations that are refused;
* **`Statement.not_misuse_iff_refused`**: they are those that fail other than by misuse.
-/

namespace SelectQuery

namespace Error

/-- An error that blames the caller. -/
def Blames (e : Error) : Prop := e.isMisuse = true

theorem OfName.blames {e : Error} (h : OfName e) : Blames e := by
  obtain ⟨reason, rfl⟩ := h
  rfl

/-- An error that a client reports: the database failed, or the connection to it. -/
inductive OfDatabase : Error → Prop
  | query (reason : String) : OfDatabase (.query reason)
  | pool (reason : String) : OfDatabase (.pool reason)

theorem OfDatabase.isMisuse_eq_false {e : Error} (h : OfDatabase e) : e.isMisuse = false := by
  cases h <;> rfl

end Error

theorem FailsWith.blames {α : Type} {r : Except Error α} (h : FailsWith Error.OfName r) :
    FailsWith Error.Blames r := h.mono fun _ => Error.OfName.blames

namespace Statement

/-! ## Mutations -/

theorem failsWith_classifyAll (columns : List ColumnInput) (target : Option String) :
    FailsWith Error.OfName (classifyAll columns target) := by
  induction columns with
  | nil => exact failsWith_ok _
  | cons column rest ih =>
    have hcolumn : FailsWith Error.OfName (classify column target) := by
      unfold classify
      cases column.source with
      | select s => exact s.failsWith_assemble.bind fun _ => failsWith_ok _
      | raw sql => exact failsWith_ok _
      | text text => exact failsWith_ok _
    exact hcolumn.bind fun _ => ih.bind fun _ => failsWith_ok _

theorem failsWith_newTable (s : Statement) (kind : JoinKind) (table : TableInput)
    (condition : String) : FailsWith Error.Blames (s.newTable kind table condition) := by
  have hjoin (condition : String) (resolved : ResolvedTable) :
      FailsWith Error.Blames (s.newJoin kind condition resolved) := by
    unfold newJoin
    split_ifs
    · exact failsWith_ok _
    · exact failsWith_ok _
    · exact failsWith_error rfl
    · exact failsWith_ok _
    · exact failsWith_ok _
  have hcorrelation (resolved : ResolvedTable) :
      FailsWith Error.Blames (s.newCorrelation resolved) := by
    unfold newCorrelation
    split
    · exact failsWith_ok _
    · split
      · exact failsWith_error rfl
      · exact failsWith_ok _
  unfold newTable
  split
  · exact failsWith_error rfl
  · exact (hjoin _ _).bind fun _ => (hcorrelation _).bind fun _ => failsWith_ok _

theorem failsWith_joined (s : Statement) (kind : JoinKind) (table : TableInput)
    (condition : String) (columns : List ColumnInput) :
    FailsWith Error.Blames (s.joined kind table condition columns) := by
  refine (s.failsWith_newTable kind table condition).bind fun entry => ?_
  have hadded := failsWith_classifyAll columns (some entry.correlation)
  exact hadded.blames.bind fun _ => failsWith_ok _

theorem failsWith_selecting (s : Statement) (columns : List ColumnInput)
    (correlation : Option String) : FailsWith Error.Blames (s.selecting columns correlation) := by
  have htarget : FailsWith Error.Blames (Edit.columnTarget s correlation) := by
    cases correlation with
    | none => exact failsWith_ok _
    | some name =>
      simp only [Edit.columnTarget]
      split
      · exact failsWith_ok _
      · exact failsWith_error rfl
  refine htarget.bind fun target => ?_
  have hadded := failsWith_classifyAll columns target
  exact hadded.blames.bind fun _ => failsWith_ok _

theorem failsWith_of_settle {s : Statement} {m : Mutation} {e : Edit Unit}
    {r : Except Error Statement} (hm : m.edit = do e; return []) (he : e s = Edit.settle s r)
    (hr : FailsWith Error.Blames r) : FailsWith Error.Blames (s.apply m).1 := by
  rw [apply_settle hm he]
  cases r with
  | ok next => exact failsWith_ok _
  | error e => exact failsWith_error (hr e rfl)

theorem failsWith_partParse (name : String) : FailsWith Error.Blames (Part.parse name) := by
  unfold Part.parse
  split
  · exact failsWith_ok _
  · exact failsWith_error rfl

/-- **A mutation fails by misuse.** -/
theorem failsWith_apply (s : Statement) (m : Mutation) : FailsWith Error.Blames (s.apply m).1 := by
  cases m with
  -- the mutations that make checks
  | selectFrom table columns =>
    refine failsWith_of_settle rfl (Edit.selectFrom_run s table columns) ?_
    split
    · exact (failsWith_classifyAll columns none).blames.map _
    · exact s.failsWith_joined .inner table "" columns
  | join kind table condition columns =>
    exact failsWith_of_settle rfl (Edit.addTable_run s kind table condition columns)
      (s.failsWith_joined kind table condition columns)
  | joinAs kind table condition columns =>
    refine failsWith_of_settle rfl (Edit.joinAs_run s kind table condition columns) ?_
    have hkind : FailsWith Error.Blames (JoinKind.parse kind) := by
      unfold JoinKind.parse
      split
      · exact failsWith_ok _
      · exact failsWith_error rfl
    exact hkind.bind fun kind => s.failsWith_joined kind table condition columns
  | addColumns columns correlation =>
    exact failsWith_of_settle rfl (Edit.addColumns_run s columns correlation)
      (s.failsWith_selecting columns correlation)
  | orderRandomly field =>
    refine failsWith_of_settle rfl (Edit.orderRandomly_run s field) ?_
    split
    · exact failsWith_ok _
    · exact (s.failsWith_selecting _ none).bind fun _ => failsWith_ok _
  | union members kind =>
    cases members with
    | nil => exact failsWith_error rfl
    | cons first rest =>
      exact failsWith_of_settle rfl (Edit.union_run s first rest kind) (failsWith_ok _)
  | resetNamed name =>
    exact failsWith_of_settle rfl (Edit.resetNamed_run s name) ((failsWith_partParse name).map _)
  | setPart value =>
    cases value with
    | tables tables =>
      refine failsWith_of_settle rfl (Edit.setPart_tables_run s tables) ?_
      split
      · exact failsWith_error rfl
      · exact failsWith_ok _
    | _ => exact failsWith_ok _
  -- the mutations that make none
  | _ => exact failsWith_ok _

end Statement

/-! ## What is derived from a statement -/

/-- A column that has nothing to assign to, and what is said about it. -/
inductive Unassignable : Column → Error → Prop
  | wildcard (correlation : Option String) :
      Unassignable ⟨correlation, .ident "*", none⟩
        (.validation "cannot assign from a wildcard column")
  | expression (correlation : Option String) (sql : String) :
      Unassignable ⟨correlation, .raw sql, none⟩
        (.validation s!"expression column '{sql}' needs an alias to be used as an assignment")

namespace Statement

theorem assignmentTarget_eq_error_iff {column : Column} {e : Error} :
    assignmentTarget column = .error e ↔ Unassignable column e := by
  obtain ⟨correlation, content, aliasName⟩ := column
  constructor
  · intro h
    unfold assignmentTarget at h
    split at h
    · cases h
    next name halias hcontent =>
      obtain rfl : aliasName = none := halias
      obtain rfl : content = .ident name := hcontent
      split at h
      next hname =>
        obtain rfl := hname
        cases h
        exact .wildcard correlation
      next => cases h
    next sql halias hcontent =>
      obtain rfl : aliasName = none := halias
      obtain rfl : content = .raw sql := hcontent
      cases h
      exact .expression correlation sql
  · rintro (_ | _) <;> rfl

theorem failsWith_assignmentValue (d : Dialect) (column : Column) :
    FailsWith Error.OfName (assignmentValue d column) := by
  unfold assignmentValue
  split
  · exact failsWith_ok _
  · exact d.failsWith_quoteColumnAs _ none
  · exact d.failsWith_quoteIdentifier _

theorem assignment_eq_error_iff (d : Dialect) {column : Column} {e : Error} (he : ¬e.Blames) :
    assignment d column = .error e ↔ Unassignable column e := by
  have hvalue (target : String) : FailsWith Error.Blames (do
      let value ← assignmentValue d column
      return Assignment.mk target value) :=
    (failsWith_assignmentValue d column).blames.bind fun _ => failsWith_ok _
  exact (bind_eq_error_iff_of_failsWith hvalue he).trans assignmentTarget_eq_error_iff

/-- What can be asked of a statement without a client. -/
inductive Operation where
  | mutate (mutation : Mutation)
  | partNamed (name : String)
  | assemble
  | insert (table : String) (fields : List String) (mode : InsertMode)
  | update (table : String) (aliasName : Option String)
  | delete (correlation : String)

/-- How an operation ends. -/
def perform (s : Statement) : Operation → Except Error Unit
  | .mutate mutation => (s.apply mutation).1.map fun _ => ()
  | .partNamed name => (Part.parse name).map fun _ => ()
  | .assemble => s.assemble.map fun _ => ()
  | .insert table fields mode => (s.insertSql table fields mode).map fun _ => ()
  | .update table aliasName => (s.updateSql table aliasName).map fun _ => ()
  | .delete correlation => (s.deleteSql correlation).map fun _ => ()

/-- Select lists from which no table can be updated: there is no column, or the first one that has
nothing to assign to is there. -/
inductive Unassigned (d : Dialect) (columns : List Column) : Error → Prop
  | empty (hnone : columns = []) :
      Unassigned d columns (.validation "update from select requires at least one column")
  | column {front back : List Column} {column : Column} {e : Error}
      (hsplit : columns = front ++ column :: back)
      (hfront : ∀ c ∈ front, ∃ a, assignment d c = .ok a) (hcolumn : Unassignable column e) :
      Unassigned d columns e

/-- Operations that are refused: the dialect has no words for an insert that skips rows, or the
statement is not of the shape that an UPDATE or a DELETE needs. -/
inductive Refused (s : Statement) : Operation → Error → Prop
  | ignore (table : String) (fields : List String) (hstyle : s.dialect.ignoreStyle = .unsupported) :
      Refused s (.insert table fields .ignore)
        (.unsupported s.dialect.name "INSERT ... IGNORE")
  | unassigned (table : String) (aliasName : Option String) {e : Error}
      (hcolumns : Unassigned s.dialect s.columns e) : Refused s (.update table aliasName) e
  | unnamed {correlation : String} {table : TableRef Statement}
      (hstyle : s.dialect.deleteStyle = .rowIds) (htable : s.table? correlation = some table)
      (hname : table.tableName? = none) :
      Refused s (.delete correlation) (.validation s!"'{correlation}' is not a physical table")

theorem assignments_eq_error_iff (s : Statement) {e : Error} (he : ¬e.Blames) :
    s.assignments = .error e ↔ Unassigned s.dialect s.columns e := by
  unfold assignments
  split
  next hempty =>
    have hnone : s.columns = [] := List.isEmpty_iff.mp hempty
    constructor
    · intro h
      cases h
      exact .empty hnone
    · rintro (_ | ⟨hsplit, -, -⟩)
      · rfl
      · simp [hnone] at hsplit
  next hempty =>
    rw [mapM_eq_error_iff]
    constructor
    · rintro ⟨front, column, back, hsplit, hfront, herror⟩
      exact .column hsplit hfront ((assignment_eq_error_iff s.dialect he).mp herror)
    · rintro (hnone | ⟨hsplit, hfront, hcolumn⟩)
      · simp [hnone] at hempty
      · exact ⟨_, _, _, hsplit, hfront, (assignment_eq_error_iff s.dialect he).mpr hcolumn⟩

theorem physicalTable_eq_error_iff (s : Statement) {correlation : String} {e : Error}
    (he : ¬e.Blames) :
    s.physicalTable correlation = .error e ↔
      (∃ table, s.table? correlation = some table ∧ table.tableName? = none) ∧
        e = .validation s!"'{correlation}' is not a physical table" := by
  unfold physicalTable
  cases s.table? correlation with
  | none =>
    refine ⟨fun h => ?_, fun ⟨⟨_, h, _⟩, _⟩ => nomatch h⟩
    cases h
    exact absurd rfl he
  | some table =>
    obtain ⟨_, _, _, source, _⟩ := table
    cases source <;> simp [TableRef.tableName?, eq_comm]

theorem failsWith_insertWith (d : Dialect) (head : String) (s : Statement) (table : String)
    (fields : List String) : FailsWith Error.OfName (d.insertWith head s table fields) := by
  refine (d.failsWith_quoteIdentifier table).bind fun _ => ?_
  refine (failsWith_mapM fun field _ => d.failsWith_quoteIdentifier field).bind fun _ => ?_
  exact s.failsWith_assemble.bind fun _ => failsWith_ok _

/-! ## Refusals -/

variable {s : Statement} {e : Error}

theorem Refused.not_blames {op : Operation} (h : Refused s op e) : ¬e.Blames := by
  unfold Error.Blames
  cases h with
  | unassigned _ _ hcolumns =>
    rcases hcolumns with _ | ⟨_, _, _ | _⟩ <;> exact Bool.false_ne_true
  | _ => exact Bool.false_ne_true

theorem insertSql_eq_error_iff (he : ¬e.Blames) {table : String} {fields : List String}
    {mode : InsertMode} :
    s.insertSql table fields mode = .error e ↔ Refused s (.insert table fields mode) e := by
  have hwith (head : String) : s.dialect.insertWith head s table fields ≠ .error e :=
    fun h => he (failsWith_insertWith _ head s table fields e h).blames
  unfold insertSql Dialect.insertFrom
  constructor
  · intro h
    split at h
    · exact absurd h (hwith _)
    next hstyle =>
      cases h
      exact .ignore table fields hstyle
    · exact absurd h (hwith _)
    next =>
      rcases bind_eq_error_iff.mp h with h | ⟨_, -, h⟩
      · exact absurd h (hwith _)
      · cases h
  · rintro ⟨_, _, hstyle⟩
    rw [hstyle]

theorem updateFrom_eq_error_iff (he : ¬e.Blames) {d : Dialect} {table : String}
    {aliasName : Option String} :
    d.updateFrom s table aliasName = .error e ↔ Unassigned s.dialect s.columns e := by
  have htarget := (d.failsWith_quoteTableAs none table
    (some (Dialect.targetName table aliasName))).blames
  rw [← s.assignments_eq_error_iff he]
  unfold Dialect.updateFrom
  split
  next =>
    refine bind_eq_error_iff_of_failsWith (fun _ => ?_) he
    refine htarget.bind fun _ => ?_
    exact s.failsWith_fromClause.blames.bind fun _ => failsWith_ok _
  next =>
    refine bind_eq_error_iff_of_failsWith (fun _ => ?_) he
    refine htarget.bind fun _ => ?_
    have hjoined := Dialect.failsWith_joinedTables (d := s.dialect)
      (List.forall_mem_append.mp s.failsWith_outcomes).1
    exact hjoined.blames.bind fun _ => failsWith_ok _

theorem updateSql_eq_error_iff (he : ¬e.Blames) {table : String} {aliasName : Option String} :
    s.updateSql table aliasName = .error e ↔ Refused s (.update table aliasName) e := by
  refine (updateFrom_eq_error_iff he).trans ⟨.unassigned table aliasName, fun h => ?_⟩
  cases h with
  | unassigned _ _ hcolumns => exact hcolumns

theorem deleteSql_eq_error_iff (he : ¬e.Blames) {correlation : String} :
    s.deleteSql correlation = .error e ↔ Refused s (.delete correlation) e := by
  unfold deleteSql Dialect.deleteFrom
  split
  next hstyle =>
    refine (bind_eq_error_iff_of_failsWith (fun table => ?_) he).trans ?_
    · refine FailsWith.blames ?_
      refine (s.dialect.failsWith_quoteTableAs table.1 table.2 none).bind fun _ => ?_
      exact (s.selectRowIds correlation).failsWith_assemble.bind fun _ => failsWith_ok _
    · rw [s.physicalTable_eq_error_iff he]
      constructor
      · rintro ⟨⟨table, htable, hname⟩, rfl⟩
        exact .unnamed hstyle htable hname
      · intro h
        cases h with
        | unnamed _ htable hname => exact ⟨⟨_, htable, hname⟩, rfl⟩
  next hstyle =>
    constructor
    · intro h
      split at h
      · have hfrom := s.failsWith_fromText.blames
        exact absurd (hfrom.bind (fun _ => failsWith_ok _) e h) he
      · cases h
        exact absurd rfl he
    · intro h
      cases h with
      | unnamed hrows _ _ => simp [hstyle] at hrows

theorem perform_eq_error_iff (he : ¬e.Blames) {op : Operation} :
    s.perform op = .error e ↔ Refused s op e := by
  have hnever {r : Except Error Unit} (hr : FailsWith Error.Blames r) : r ≠ .error e :=
    fun h => he (hr e h)
  cases op with
  | mutate mutation =>
    have hfails := (s.failsWith_apply mutation).map fun _ => ()
    exact iff_of_false (hnever hfails) fun h => by cases h
  | partNamed name =>
    have hfails := (failsWith_partParse name).map fun _ => ()
    exact iff_of_false (hnever hfails) fun h => by cases h
  | assemble =>
    have hfails := s.failsWith_assemble.blames.map fun _ => ()
    exact iff_of_false (hnever hfails) fun h => by cases h
  | insert table fields mode => exact map_eq_error_iff.trans (insertSql_eq_error_iff he)
  | update table aliasName => exact map_eq_error_iff.trans (updateSql_eq_error_iff he)
  | delete correlation => exact map_eq_error_iff.trans (deleteSql_eq_error_iff he)

end Statement

/-! ## Clients -/

namespace Client

variable {π ρ : Type}

/-- A client that fails only where the database does, or the connection to it. -/
structure FailsByDatabase (client : Client π ρ) : Prop where
  query : ∀ sql params, FailsWith Error.OfDatabase (client.query sql params)
  execute : ∀ sql params, FailsWith Error.OfDatabase (client.execute sql params)

end Client

namespace Statement

variable {π ρ : Type}

/-- **What fails other than by misuse is refused**: the dialect has no words for it, or the
statement is not of the shape that it needs. Behind a text nothing is misuse: neither that the
database or the connection fails, nor that a single row is missing. -/
theorem not_misuse_iff_refused (s : Statement) (client : Client π ρ) (params : List π)
    (table : String) (fields : List String) (mode : InsertMode) (aliasName : Option String)
    (correlation : String) :
    let Clears {α : Type} (text : Rendered) (run : Run π α) :=
      ∀ sql, text = .ok sql → FailsWith (·.isMisuse = false) run.result
    (∀ op e, s.perform op = .error e ∧ e.isMisuse = false ↔ Refused s op e) ∧
      (client.FailsByDatabase →
        Clears s.assemble (s.fetchAll client params) ∧
        Clears s.assemble (s.fetchOne client params) ∧
        Clears s.assemble (s.fetchOption client params) ∧
        Clears (s.insertSql table fields mode) (s.insertInto client table fields mode params) ∧
        Clears (s.updateSql table aliasName) (s.updateTable client table aliasName params) ∧
        Clears (s.deleteSql correlation) (s.deleteFrom client correlation params)) := by
  intro Clears
  refine ⟨fun op e => ?_, fun hclient => ?_⟩
  · constructor
    · rintro ⟨h, he⟩
      exact (perform_eq_error_iff (by simp [Error.Blames, he])).mp h
    · intro h
      exact ⟨(perform_eq_error_iff h.not_blames).mpr h, by simpa [Error.Blames] using h.not_blames⟩
  · have hclears : ∀ e : Error, e.OfDatabase → e.isMisuse = false :=
      fun _ => Error.OfDatabase.isMisuse_eq_false
    have hquery := fun sql => (hclient.query sql params).mono hclears
    have hexecute := fun sql => (hclient.execute sql params).mono hclears
    have hsingle (rows : List ρ) : FailsWith (·.isMisuse = false) (Client.single rows) := by
      cases rows with
      | nil => exact failsWith_error rfl
      | cons row rest => exact failsWith_ok row
    refine ⟨fun _ => (s.runsOnce_fetchAll client params).failsWith hquery fun _ => failsWith_ok _,
      fun _ => (s.runsOnce_fetchOne client params).failsWith hquery hsingle,
      fun _ => (s.runsOnce_fetchOption client params).failsWith hquery fun _ => failsWith_ok _,
      fun _ => ?_, fun _ => ?_, fun _ => ?_⟩
    all_goals exact (runsOnce_change client params _).failsWith hexecute fun _ => failsWith_ok _

/-- An UPDATE from a statement without columns, and a client without a connection. -/
theorem not_misuse_of_no_columns :
    let s := (ofDialect (Config.dialect {})).applyAll [.selectFrom (.ofName "orders AS o") []]
    let client : Client Nat String :=
      ⟨fun _ _ => .error (.pool "timed out"), fun _ _ => .error (.pool "timed out")⟩
    let e := Error.validation "update from select requires at least one column"
    let sql := "SELECT * FROM \"orders\" AS \"o\""
    (s.perform (.update "t" none) = .error e ∧ e.isMisuse = false) ∧ s.assemble = .ok sql ∧
      FailsWith (·.isMisuse = false) (s.fetchOne client [7]).result := by
  intro s client e sql
  have hclient : client.FailsByDatabase :=
    ⟨fun _ _ => failsWith_error (.pool _), fun _ _ => failsWith_error (.pool _)⟩
  have hrefused : Refused s (.update "t" none) e := .unassigned "t" none (.empty rfl)
  have hsql : s.assemble = .ok sql := by decide +kernel
  obtain ⟨hiff, hruns⟩ := not_misuse_iff_refused s client [7] "t" [] .plain none "o"
  exact ⟨(hiff _ _).mpr hrefused, hsql, (hruns hclient).2.1 sql hsql⟩

/-- That there is no column to assign from is not counted as misuse. -/
theorem updating_without_columns_not_misuse :
    let s := (ofDialect (Config.dialect {})).applyAll [.selectFrom (.ofName "orders AS o") []]
    let e := Error.validation "update from select requires at least one column"
    s.updateSql "t" none = .error e ∧ e.isMisuse = false := by
  decide +kernel

end Statement

end SelectQuery
