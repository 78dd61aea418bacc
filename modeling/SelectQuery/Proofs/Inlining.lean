import SelectQuery.Proofs.Pruning
import SelectQuery.Statement.Derived

/-!
# Nested statements as text

A statement makes nothing of one nested in it but its text. So the text, in parentheses where it
stands for a table, can take its place at any depth.

* `Clauses.flat`: clauses with the text of every nested statement in its place;
* `Clauses.render_flat`, `Statement.assemble_eq_flat`: they are written in the same way;
* `Statement.Interchangeable`: statements of one dialect with the same such clauses, and what they
  have in common;
* `Statement.Inlines`: a statement with the text of one nested statement in its place;
* `Mutation.AddsColumns`, `Statement.exists_classifies`: the mutations that add columns;
* **`Statement.nested_transparent`**: what cannot tell a nested statement from its text.
-/

namespace SelectQuery

/-! ## Texts in the place of statements -/

/-- A source with the text of its statement in parentheses in its place. -/
def Source.flat : Source Rendered → Source Rendered
  | .select (.ok sql) => .expr ("(" ++ sql ++ ")")
  | source => source

/-- A table with the text of its statement in its place. -/
def TableRef.flat (table : TableRef Rendered) : TableRef Rendered :=
  { table with source := table.source.flat }

/-- A union target with the text of its statement in its place. -/
def UnionTarget.flat : UnionTarget Rendered → UnionTarget Rendered
  | .select (.ok sql) => .raw sql
  | target => target

/-- A union member with the text of its statement in its place. -/
def UnionMember.flat (member : UnionMember Rendered) : UnionMember Rendered :=
  { member with target := member.target.flat }

/-- Clauses with the text of every nested statement in its place. A statement that has no text
stays with its error. -/
def Clauses.flat (c : Clauses Rendered) : Clauses Rendered :=
  { c with unions := c.unions.map UnionMember.flat, tables := c.tables.map TableRef.flat }

namespace Dialect

variable (d : Dialect)

theorem renderTable_flat (table : TableRef Rendered) :
    d.renderTable table.flat = d.renderTable table := by
  obtain ⟨correlation, join, schema, source, condition⟩ := table
  cases source with
  | name name => rfl
  | expr sql => rfl
  | select outcome =>
    cases outcome with
    | error e => rfl
    | ok sql =>
      show Except.ok (_ ++ _ ++ _ ++ _ ++ _) = Except.ok (_ ++ _ ++ _ ++ _)
      simp [TableRef.flat, String.append_assoc]

theorem renderJoined_flat (table : TableRef Rendered) :
    d.renderJoined table.flat = d.renderJoined table := by
  unfold renderJoined
  rw [renderTable_flat]
  rfl

theorem renderTables_flat (tables : List (TableRef Rendered)) :
    d.renderTables (tables.map TableRef.flat) = d.renderTables tables := by
  cases tables with
  | nil => rfl
  | cons first rest =>
    have hrest : d.renderJoined ∘ TableRef.flat = d.renderJoined := funext d.renderJoined_flat
    simp only [List.map_cons, renderTables, renderTable_flat, List.mapM_map, hrest]

theorem joinedTables_flat (tables : List (TableRef Rendered)) :
    d.joinedTables (tables.map TableRef.flat) = d.joinedTables tables := by
  unfold joinedTables
  simp only [List.mapM_map, Function.comp_def, renderTable_flat]
  rfl

end Dialect

theorem UnionTarget.render_flat (target : UnionTarget Rendered) :
    target.flat.render = target.render := by
  rcases target with (_ | sql) | sql <;> rfl

theorem UnionMember.render_flat (member : UnionMember Rendered) :
    member.flat.render = member.render := by
  unfold render
  rw [flat, UnionTarget.render_flat]

namespace Clauses

variable (d : Dialect) (c : Clauses Rendered)

theorem renderMembers_flat (members : List (UnionMember Rendered)) :
    c.flat.renderMembers d (members.map UnionMember.flat) = c.renderMembers d members := by
  cases members with
  | nil => rfl
  | cons first rest =>
    have hrest : UnionMember.render ∘ UnionMember.flat = UnionMember.render :=
      funext UnionMember.render_flat
    simp only [List.map_cons, renderMembers, List.mapM_map, hrest]
    rw [UnionMember.flat, UnionTarget.render_flat]
    rfl

theorem renderBody_flat : c.flat.renderBody d = c.renderBody d := by
  unfold renderBody
  simp only [flat, List.isEmpty_map, Dialect.renderTables_flat]

theorem renderBase_flat : c.flat.renderBase d = c.renderBase d := by
  have hmembers : UnionMember.render ∘ UnionMember.flat = UnionMember.render :=
    funext UnionMember.render_flat
  unfold renderBase
  rw [renderBody_flat]
  simp only [flat, List.mapM_map, hmembers]
  rfl

/-- **Clauses are written in the same way with texts in the place of their nested statements.** -/
theorem render_flat : c.flat.render d = c.render d := by
  unfold render
  rw [renderBase_flat, show c.flat.unions = c.unions.map UnionMember.flat from rfl,
    renderMembers_flat]
  simp only [flat, List.isEmpty_map]
  rfl

end Clauses

/-! ## Left joins -/

namespace Clauses

variable {σ τ : Type}

/-- A change of what tables read from. It keeps their names, joins and conditions. -/
structure Keeps (f : TableRef σ → TableRef τ) : Prop where
  correlation : ∀ table, (f table).correlation = table.correlation
  join : ∀ table, (f table).join = table.join
  schema : ∀ table, (f table).schema = table.schema
  condition : ∀ table, (f table).condition = table.condition
  name : ∀ table, (f table).tableName? = table.tableName?

variable {f : TableRef σ → TableRef τ} {c : Clauses σ} {c' : Clauses τ} (hf : Keeps f)

include hf

theorem mentions_keeps (symbol : Char) (table : TableRef σ) :
    mentions symbol (f table) = mentions symbol table := by
  funext text
  rw [mentions, mentions, namesOf, namesOf, hf.correlation, hf.name]

theorem dependsOn_keeps (symbol : Char) (table other : TableRef σ) :
    dependsOn symbol (f table) (f other) = dependsOn symbol table other := by
  simp only [dependsOn, mentions_keeps hf, hf.correlation, hf.condition]

variable (hcolumns : c'.columns = c.columns) (hpredicates : c'.predicates = c.predicates)
  (htables : c'.tables = c.tables.map f) (symbol : Char)

include hcolumns hpredicates htables

theorem leftJoinUse_keeps (table : TableRef σ) :
    c'.leftJoinUse symbol (f table) = c.leftJoinUse symbol table := by
  have hcolumn : columnUses symbol (f table) = columnUses symbol table := by
    funext column
    simp only [columnUses, mentions_keeps hf, hf.correlation]
  have hdependent : dependsOn symbol (f table) ∘ f = dependsOn symbol table :=
    funext (dependsOn_keeps hf symbol table)
  have hname : (fun other : TableRef τ => other.correlation) ∘ f = (·.correlation) :=
    funext hf.correlation
  unfold leftJoinUse usesDirectly
  rw [hcolumns, hpredicates, htables, hcolumn, mentions_keeps hf, hf.correlation, List.filter_map,
    List.map_map, hdependent, hname]

/-- **Pruning does not see what tables read from**, but for names of the database. -/
theorem unusedLeftJoins_keeps : c'.unusedLeftJoins symbol = c.unusedLeftJoins symbol := by
  have hleft : (fun other : TableRef τ => decide (other.join = some .left)) ∘ f =
      fun table => decide (table.join = some .left) := by
    funext table
    simp [hf.join]
  have huse : c'.leftJoinUse symbol ∘ f = c.leftJoinUse symbol :=
    funext (leftJoinUse_keeps hf hcolumns hpredicates htables symbol)
  unfold unusedLeftJoins leftJoinUses
  rw [htables, List.filter_map, List.map_map, hleft, huse]

theorem tables_pruneLeftJoins_keeps :
    (c'.pruneLeftJoins symbol).tables = (c.pruneLeftJoins symbol).tables.map f := by
  have hkeep : (fun other : TableRef τ => !(c.unusedLeftJoins symbol).contains other.correlation) ∘
      f = fun table => !(c.unusedLeftJoins symbol).contains table.correlation := by
    funext table
    simp [hf.correlation]
  unfold pruneLeftJoins
  rw [unusedLeftJoins_keeps hf hcolumns hpredicates htables, htables]
  simp only [List.filter_map, hkeep]

end Clauses

/-! ## Interchangeable statements -/

namespace Statement

open Clauses

/-- A table with the text of its statement in its place. -/
def flatTable (table : TableRef Statement) : TableRef Rendered := (table.map assemble).flat

/-- A union member with the text of its statement in its place. -/
def flatMember (member : UnionMember Statement) : UnionMember Rendered :=
  (member.map assemble).flat

/-- The clauses of a statement with the text of every nested statement in its place. -/
def flat (s : Statement) : Clauses Rendered :=
  { s with unions := s.unions.map flatMember, tables := s.tables.map flatTable }

theorem keeps_flatTable : Keeps flatTable where
  correlation _ := rfl
  join _ := rfl
  schema _ := rfl
  condition _ := rfl
  name table := by
    obtain ⟨correlation, join, schema, source, condition⟩ := table
    cases source with
    | name name => rfl
    | expr sql => rfl
    | select s =>
      show TableRef.tableName? { source := (Source.select s.assemble).flat, .. } = none
      cases s.assemble <;> rfl

theorem flat_outcomes (s : Statement) : s.outcomes.flat = s.flat := by
  have htable : TableRef.flat ∘ TableRef.map assemble = flatTable := rfl
  have hmember : UnionMember.flat ∘ UnionMember.map assemble = flatMember := rfl
  simp only [outcomes, Clauses.map, Clauses.flat, flat, List.map_map, htable, hmember]

theorem assemble_eq_flat (s : Statement) : s.assemble = s.flat.render s.dialect := by
  rw [assemble_eq_render, ← flat_outcomes, render_flat]

theorem fromText_eq_flat (s : Statement) :
    s.fromText = s.dialect.renderTables s.flat.tables := by
  rw [← flat_outcomes, Clauses.flat, Dialect.renderTables_flat]
  rfl

theorem joinedTables_eq_flat (s : Statement) :
    s.dialect.joinedTables s.outcomes.tables = s.dialect.joinedTables s.flat.tables := by
  rw [← flat_outcomes, Clauses.flat, Dialect.joinedTables_flat]

theorem table?_flat (s : Statement) (correlation : String) :
    s.flat.tables.find? (·.correlation = correlation) = (s.table? correlation).map flatTable := by
  rw [flat, List.find?_map]
  rfl

theorem physicalTable_eq_flat (s : Statement) (correlation : String) :
    s.physicalTable correlation =
      match s.flat.tables.find? (·.correlation = correlation) with
      | none => .error (.unknownCorrelation correlation)
      | some table =>
        match table.tableName? with
        | some name => .ok (table.schema, name)
        | none => .error (.validation s!"'{correlation}' is not a physical table") := by
  rw [table?_flat, physicalTable]
  cases s.table? correlation with
  | none => rfl
  | some table =>
    simp only [Option.map_some, keeps_flatTable.name, keeps_flatTable.schema]
    obtain ⟨correlation, join, schema, source, condition⟩ := table
    cases source <;> rfl

theorem unusedLeftJoins_eq_flat (s : Statement) (symbol : Char) :
    s.unusedLeftJoins symbol = s.flat.unusedLeftJoins symbol :=
  (unusedLeftJoins_keeps keeps_flatTable rfl rfl rfl symbol).symm

theorem flat_pruneLeftJoins (s : Statement) (symbol : Char) :
    { s with toClauses := s.toClauses.pruneLeftJoins symbol : Statement }.flat =
      s.flat.pruneLeftJoins symbol := by
  have htables : (s.flat.pruneLeftJoins symbol).tables =
      (s.toClauses.pruneLeftJoins symbol).tables.map flatTable :=
    tables_pruneLeftJoins_keeps keeps_flatTable rfl rfl rfl symbol
  rw [flat, ← htables]
  rfl

/-- Statements of one dialect that are the same when nested statements give way to their texts. -/
structure Interchangeable (s t : Statement) : Prop where
  dialect : t.dialect = s.dialect
  flat : t.flat = s.flat

namespace Interchangeable

variable {s t : Statement} (h : Interchangeable s t)

include h

theorem columns : t.columns = s.columns := by
  show t.flat.columns = s.flat.columns
  rw [h.flat]

theorem predicates : t.predicates = s.predicates := by
  show t.flat.predicates = s.flat.predicates
  rw [h.flat]

theorem correlations : t.tables.map (·.correlation) = s.tables.map (·.correlation) := by
  have hname : ∀ u : Statement,
      u.tables.map (·.correlation) = u.flat.tables.map (·.correlation) := by
    intro u
    rw [Statement.flat, List.map_map]
    rfl
  rw [hname, hname, h.flat]

theorem assemble : t.assemble = s.assemble := by
  rw [assemble_eq_flat, assemble_eq_flat, h.flat, h.dialect]

theorem fromText : t.fromText = s.fromText := by
  rw [fromText_eq_flat, fromText_eq_flat, h.flat, h.dialect]

theorem fromClause : t.fromClause = s.fromClause := by
  have hempty : t.tables.isEmpty = s.tables.isEmpty := by
    rw [← List.isEmpty_map, h.correlations, List.isEmpty_map]
  rw [Statement.fromClause, Statement.fromClause, hempty, h.fromText]

theorem assignments : t.assignments = s.assignments := by
  rw [Statement.assignments, Statement.assignments, h.columns, h.dialect]

theorem hasTable (correlation : String) : t.hasTable correlation = s.hasTable correlation := by
  have hany : ∀ u : Statement,
      u.hasTable correlation = (u.tables.map (·.correlation)).any (· = correlation) := by
    intro u
    rw [List.any_map]
    rfl
  rw [hany, hany, h.correlations]

theorem physicalTable (correlation : String) :
    t.physicalTable correlation = s.physicalTable correlation := by
  rw [physicalTable_eq_flat, physicalTable_eq_flat, h.flat]

theorem selectRowIds (correlation : String) :
    Interchangeable (s.selectRowIds correlation) (t.selectRowIds correlation) := by
  have hfirst : t.tables.head?.map (·.correlation) = s.tables.head?.map (·.correlation) := by
    rw [← List.head?_map, ← List.head?_map, h.correlations]
  have hids : ∀ u : Statement, (u.selectRowIds correlation).flat =
      { u.flat with
        distinct := false
        columns := (classifyText (correlation ++ ".ctid") none
          (u.tables.head?.map (·.correlation))).toList } := fun u => rfl
  refine ⟨h.dialect, ?_⟩
  rw [hids, hids, hfirst, h.flat]

/-! ## What they have in common -/

theorem insertFrom (d : Dialect) (table : String) (fields : List String) (mode : InsertMode) :
    d.insertFrom t table fields mode = d.insertFrom s table fields mode := by
  have hwith : ∀ head, d.insertWith head t table fields = d.insertWith head s table fields := by
    intro head
    rw [Dialect.insertWith, Dialect.insertWith, h.assemble]
  unfold Dialect.insertFrom
  simp only [hwith]

theorem updateFrom (d : Dialect) (table : String) (aliasName : Option String) :
    d.updateFrom t table aliasName = d.updateFrom s table aliasName := by
  have hjoined := t.joinedTables_eq_flat
  rw [h.flat, h.dialect, ← joinedTables_eq_flat] at hjoined
  unfold Dialect.updateFrom
  rw [h.assignments, h.fromClause, h.dialect, hjoined, h.predicates]

theorem deleteFrom (d : Dialect) (correlation : String) :
    d.deleteFrom t correlation = d.deleteFrom s correlation := by
  unfold Dialect.deleteFrom
  rw [h.physicalTable, (h.selectRowIds correlation).assemble, h.hasTable, h.fromText,
    h.predicates]

theorem unusedLeftJoins (symbol : Char) :
    t.unusedLeftJoins symbol = s.unusedLeftJoins symbol := by
  rw [unusedLeftJoins_eq_flat, unusedLeftJoins_eq_flat, h.flat]

theorem pruned :
    Interchangeable (s.apply .pruneLeftJoins).2 (t.apply .pruneLeftJoins).2 := by
  refine ⟨h.dialect, ?_⟩
  rw [apply_pruneLeftJoins_eq, apply_pruneLeftJoins_eq]
  show Statement.flat _ = Statement.flat _
  rw [flat_pruneLeftJoins, flat_pruneLeftJoins, h.flat, h.dialect]

end Interchangeable

theorem interchangeable_of_table {s : Statement} {front back : List (TableRef Statement)}
    {table other : TableRef Statement} (htables : s.tables = front ++ table :: back)
    (h : flatTable other = flatTable table) :
    Interchangeable s { s with tables := front ++ other :: back } := by
  have heq : (front ++ other :: back).map flatTable = s.tables.map flatTable := by
    simp [htables, h]
  refine ⟨rfl, ?_⟩
  simp only [flat, heq]

theorem interchangeable_of_member {s : Statement} {front back : List (UnionMember Statement)}
    {member other : UnionMember Statement} (hunions : s.unions = front ++ member :: back)
    (h : flatMember other = flatMember member) :
    Interchangeable s { s with unions := front ++ other :: back } := by
  have heq : (front ++ other :: back).map flatMember = s.unions.map flatMember := by
    simp [hunions, h]
  refine ⟨rfl, ?_⟩
  simp only [flat, heq]

/-! ## One nested statement -/

/-- `t` is `s` with the text of `n` in the place of one `n` that is nested in it, at any depth: in
parentheses where it stands for a table, and as it is where it is a member of a union. -/
inductive Inlines (n : Statement) (text : String) : Statement → Statement → Prop
  | table {s : Statement} (front back : List (TableRef Statement)) (table : TableRef Statement)
      (htables : s.tables = front ++ table :: back) (hsource : table.source = .select n) :
      Inlines n text s
        { s with tables := front ++ { table with source := .expr ("(" ++ text ++ ")") } :: back }
  | member {s : Statement} (front back : List (UnionMember Statement))
      (member : UnionMember Statement) (hunions : s.unions = front ++ member :: back)
      (htarget : member.target = .select n) :
      Inlines n text s { s with unions := front ++ { member with target := .raw text } :: back }
  | inTable {s m m' : Statement} (front back : List (TableRef Statement))
      (table : TableRef Statement) (htables : s.tables = front ++ table :: back)
      (hsource : table.source = .select m) (hm : Inlines n text m m') :
      Inlines n text s
        { s with tables := front ++ { table with source := .select m' } :: back }
  | inMember {s m m' : Statement} (front back : List (UnionMember Statement))
      (member : UnionMember Statement) (hunions : s.unions = front ++ member :: back)
      (htarget : member.target = .select m) (hm : Inlines n text m m') :
      Inlines n text s
        { s with unions := front ++ { member with target := .select m' } :: back }

/-- **A nested statement and its text are interchangeable**, at any depth. -/
theorem Inlines.interchangeable {n s t : Statement} {text : String}
    (hn : n.assemble = .ok text) (h : Inlines n text s t) : Interchangeable s t := by
  induction h with
  | table front back table htables hsource =>
    refine interchangeable_of_table htables ?_
    simp only [flatTable, TableRef.map, TableRef.flat, hsource, Source.map, Source.flat, hn]
  | member front back member hunions htarget =>
    refine interchangeable_of_member hunions ?_
    simp only [flatMember, UnionMember.map, UnionMember.flat, htarget, UnionTarget.map,
      UnionTarget.flat, hn]
  | inTable front back table htables hsource hm ih =>
    refine interchangeable_of_table htables ?_
    simp only [flatTable, TableRef.map, hsource, Source.map, ih.assemble]
  | inMember front back member hunions htarget hm ih =>
    refine interchangeable_of_member hunions ?_
    simp only [flatMember, UnionMember.map, htarget, UnionTarget.map, ih.assemble]

/-- A statement `t` that acts as `s` when it is written, made into another statement, or pruned. -/
structure ActsAs (s t : Statement) : Prop where
  assemble : t.assemble = s.assemble
  insert : ∀ (d : Dialect) table fields mode,
    d.insertFrom t table fields mode = d.insertFrom s table fields mode
  update : ∀ (d : Dialect) table aliasName, d.updateFrom t table aliasName =
    d.updateFrom s table aliasName
  delete : ∀ (d : Dialect) correlation, d.deleteFrom t correlation = d.deleteFrom s correlation
  /-- The same left joins are dropped, in the same order. -/
  pruned : (t.apply .pruneLeftJoins).1 = (s.apply .pruneLeftJoins).1
  survivors : (t.apply .pruneLeftJoins).2.tables.map (·.correlation) =
    (s.apply .pruneLeftJoins).2.tables.map (·.correlation)
  assemble_pruned : (t.apply .pruneLeftJoins).2.assemble = (s.apply .pruneLeftJoins).2.assemble

theorem Interchangeable.actsAs {s t : Statement} (h : Interchangeable s t) : ActsAs s t := by
  have hnames := h.unusedLeftJoins s.dialect.quoteSymbol
  exact {
    assemble := h.assemble
    insert := h.insertFrom
    update := h.updateFrom
    delete := h.deleteFrom
    pruned := by rw [apply_pruneLeftJoins_eq, apply_pruneLeftJoins_eq, h.dialect, hnames]
    survivors := h.pruned.correlations
    assemble_pruned := h.pruned.assemble }

end Statement

/-! ## Statements as columns -/

theorem classifyAll_append (front back : List ColumnInput) (target : Option String) :
    classifyAll (front ++ back) target = do
      let first ← classifyAll front target
      return first ++ (← classifyAll back target) := by
  induction front with
  | nil =>
    show classifyAll back target = (classifyAll back target >>= fun rest => pure ([] ++ rest))
    cases classifyAll back target <;> rfl
  | cons column rest ih =>
    rw [List.cons_append, classifyAll, classifyAll, ih]
    cases classify column target with
    | error e => rfl
    | ok first =>
      cases classifyAll rest target with
      | error e => rfl
      | ok more =>
        cases classifyAll back target with
        | error e => rfl
        | ok last =>
          show Except.ok (_ ++ (_ ++ _)) = Except.ok (_ ++ _ ++ _)
          rw [List.append_assoc]

theorem classify_select {n : Statement} {text : String} (hn : n.assemble = .ok text)
    (aliasName target : Option String) :
    classify ⟨.select n, aliasName⟩ target =
      classify ⟨.raw ("(" ++ text ++ ")"), aliasName⟩ target := by
  have hne : "(" ++ text ++ ")" ≠ "" := by simp
  simp only [classify, hn, if_neg hne]
  rfl

theorem classify_select_error {n : Statement} {e : Error} (hn : n.assemble = .error e)
    (aliasName target : Option String) : classify ⟨.select n, aliasName⟩ target = .error e := by
  simp only [classify, hn]
  rfl

/-- The mutations that add columns. -/
inductive Mutation.AddsColumns : (List ColumnInput → Mutation) → Prop
  | selectFrom (table : TableInput) : AddsColumns (.selectFrom table)
  | join (kind : JoinKind) (table : TableInput) (condition : String) :
      AddsColumns (.join kind table condition)
  | joinAs (kind : String) (table : TableInput) (condition : String) :
      AddsColumns (.joinAs kind table condition)
  | addColumns (correlation : Option String) : AddsColumns fun columns =>
      .addColumns columns correlation

/-- What columns come to as the entries that they are classified as, whatever else they say; or an
error that has nothing to do with them. -/
def Classifies (r : List ColumnInput → Except Error Statement) : Prop :=
  (∃ e, ∀ columns, r columns = .error e) ∨
    ∃ target next, ∀ columns, r columns = (classifyAll columns target).map next

namespace Classifies

variable {r : List ColumnInput → Except Error Statement} {front back : List ColumnInput}
  {column other : ColumnInput}

theorem eq_of_classify_eq (hr : Classifies r)
    (h : ∀ target, classify column target = classify other target) :
    r (front ++ column :: back) = r (front ++ other :: back) := by
  obtain ⟨e, hr⟩ | ⟨target, next, hr⟩ := hr
  · rw [hr, hr]
  · rw [hr, hr, classifyAll_append, classifyAll_append, classifyAll, classifyAll, h target]

theorem eq_error (hr : Classifies r) {added : Statement} (hfront : r front = .ok added)
    {e : Error} (h : ∀ target, classify column target = .error e) :
    r (front ++ column :: back) = .error e := by
  obtain ⟨e, hr⟩ | ⟨target, next, hr⟩ := hr
  · rw [hr] at hfront
    cases hfront
  · rw [hr] at hfront ⊢
    obtain ⟨first, hfirst, -⟩ := map_eq_ok_iff.mp hfront
    rw [classifyAll_append, classifyAll, hfirst, h target]
    rfl

end Classifies

namespace Statement

variable (s : Statement)

theorem classifies_joined (kind : JoinKind) (table : TableInput) (condition : String) :
    Classifies (s.joined kind table condition) := by
  unfold joined
  cases s.newTable kind table condition with
  | error e => exact .inl ⟨e, fun _ => rfl⟩
  | ok entry =>
    refine .inr ⟨some entry.correlation, fun added =>
      { s with tables := s.tables ++ [entry], columns := s.columns ++ added }, fun columns => ?_⟩
    show (classifyAll columns (some entry.correlation) >>= _) = _
    cases classifyAll columns (some entry.correlation) <;> rfl

theorem classifies_selecting (correlation : Option String) :
    Classifies (s.selecting · correlation) := by
  unfold selecting
  cases Edit.columnTarget s correlation with
  | error e => exact .inl ⟨e, fun _ => rfl⟩
  | ok target =>
    refine .inr ⟨target, s.withColumns, fun columns => ?_⟩
    show (classifyAll columns target >>= _) = _
    cases classifyAll columns target <;> rfl

variable {m : List ColumnInput → Mutation}

theorem exists_classifies_of_settle {e : List ColumnInput → Edit Unit}
    {r : List ColumnInput → Except Error Statement} (hr : Classifies r)
    (hm : ∀ columns, (m columns).edit = do e columns; return [])
    (he : ∀ columns, e columns s = Edit.settle s (r columns)) :
    ∃ r, Classifies r ∧ ∀ columns, s.apply (m columns) = match r columns with
      | .ok next => (.ok [], next)
      | .error e => (.error e, s) :=
  ⟨r, hr, fun columns => apply_settle (hm columns) (he columns)⟩

/-- **What a mutation with columns comes to** depends on them through the entries of the select list
that they are classified as. -/
theorem exists_classifies (hm : Mutation.AddsColumns m) :
    ∃ r, Classifies r ∧ ∀ columns, s.apply (m columns) = match r columns with
      | .ok next => (.ok [], next)
      | .error e => (.error e, s) := by
  cases hm with
  | selectFrom table =>
    refine s.exists_classifies_of_settle ?_ (fun _ => rfl) (Edit.selectFrom_run s table)
    by_cases hempty : table.isEmpty
    · simp only [hempty, if_true]
      exact .inr ⟨none, s.withColumns, fun _ => rfl⟩
    · simp only [hempty]
      exact s.classifies_joined .inner table ""
  | join kind table condition =>
    exact s.exists_classifies_of_settle (s.classifies_joined kind table condition) (fun _ => rfl)
      (Edit.addTable_run s kind table condition)
  | joinAs kind table condition =>
    refine s.exists_classifies_of_settle ?_ (fun _ => rfl) (Edit.joinAs_run s kind table condition)
    cases JoinKind.parse kind with
    | error e => exact .inl ⟨e, fun _ => rfl⟩
    | ok kind => exact s.classifies_joined kind table condition
  | addColumns correlation =>
    exact s.exists_classifies_of_settle (s.classifies_selecting correlation) (fun _ => rfl)
      (Edit.addColumns_run s · correlation)

/-- **A nested statement is as good as its text.** At any depth of another statement, the two cannot
be told apart; as a column, they are the same column. A statement that has no text is refused as a
column with its own error. -/
theorem nested_transparent (n : Statement) :
    (∀ text, n.assemble = .ok text →
      (∀ s t, Inlines n text s t → ActsAs s t) ∧
      ∀ m, Mutation.AddsColumns m → ∀ (s : Statement) front back aliasName,
        s.apply (m (front ++ ⟨.select n, aliasName⟩ :: back)) =
          s.apply (m (front ++ ⟨.raw ("(" ++ text ++ ")"), aliasName⟩ :: back))) ∧
    ∀ e, n.assemble = .error e → ∀ m, Mutation.AddsColumns m →
      ∀ (s : Statement) front back aliasName events, (s.apply (m front)).1 = .ok events →
        s.apply (m (front ++ ⟨.select n, aliasName⟩ :: back)) = (.error e, s) := by
  refine ⟨fun text hn => ⟨fun s t h => (h.interchangeable hn).actsAs, ?_⟩, ?_⟩
  · intro m hm s front back aliasName
    obtain ⟨r, hr, happly⟩ := s.exists_classifies hm
    rw [happly, happly, hr.eq_of_classify_eq (classify_select hn aliasName)]
  · intro e hn m hm s front back aliasName events hfront
    obtain ⟨r, hr, happly⟩ := s.exists_classifies hm
    rw [happly] at hfront ⊢
    cases hadded : r front with
    | error e =>
      rw [hadded] at hfront
      cases hfront
    | ok added => rw [hr.eq_error hadded (classify_select_error hn aliasName)]

/-- A union member inside a left join gives way to its text. As a column it is taken as its text,
and a statement without a text is not taken. -/
theorem nested_transparent_in_left_join :
    let d := Config.dialect {}
    let n : Statement :=
      { dialect := d
        columns := [⟨some "n", .ident "id", none⟩]
        tables := [⟨"n", none, none, .name "notes", none⟩] }
    let text := "SELECT \"n\".\"id\" FROM \"notes\" AS \"n\""
    let orders : TableRef Statement := ⟨"o", none, none, .name "orders", none⟩
    let kinds (target : UnionTarget Statement) : Statement :=
      { dialect := Config.dialect ⟨.mysql, true⟩
        tables := [⟨"k", none, none, .name "kinds", none⟩]
        unions := [⟨target, .all⟩] }
    let outer (target : UnionTarget Statement) : Statement :=
      { dialect := d
        tables := [orders, ⟨"m", some .left, none, .select (kinds target), some "m.id = o.id"⟩] }
    let bad : Statement := { dialect := d, tables := [⟨"x", none, none, .name "a..b", none⟩] }
    let e := Error.invalidIdentifier "empty identifier segment in 'a..b'"
    let s := outer (.select n)
    n.assemble = .ok text ∧ Inlines n text s (outer (.raw text)) ∧ ActsAs s (outer (.raw text)) ∧
      s.apply (.addColumns [.ofText "o.id", (ColumnInput.ofStatement n).aliased "c"] none) =
        s.apply (.addColumns
          [.ofText "o.id", (ColumnInput.ofExpr ("(" ++ text ++ ")")).aliased "c"] none) ∧
      bad.assemble = .error e ∧ (s.apply (.addColumns [.ofText "o.id"] none)).1 = .ok [] ∧
      s.apply (.addColumns [.ofText "o.id", .ofStatement bad] none) = (.error e, s) := by
  intro d n text orders kinds outer bad e s
  have hn : n.assemble = .ok text := by decide +kernel
  have hbad : bad.assemble = .error e := by decide +kernel
  have hinner : Inlines n text (kinds (.select n)) (kinds (.raw text)) :=
    .member [] [] ⟨.select n, .all⟩ rfl rfl
  have hinlines : Inlines n text s (outer (.raw text)) :=
    .inTable [orders] [] ⟨"m", some .left, none, .select (kinds (.select n)), some "m.id = o.id"⟩
      rfl rfl hinner
  have hfront : (s.apply (.addColumns [.ofText "o.id"] none)).1 = .ok [] := by rfl
  obtain ⟨hacts, hcolumn⟩ := (nested_transparent n).1 text hn
  exact ⟨hn, hinlines, hacts s _ hinlines, hcolumn _ (.addColumns none) s [.ofText "o.id"] [] _,
    hbad, hfront, (nested_transparent bad).2 e hbad _ (.addColumns none) s [.ofText "o.id"] [] _ _
      hfront⟩

end Statement

end SelectQuery
