import SelectQuery.Proofs.Unwritten

/-!
# Statements that can be written

A statement can be written exactly if each name that is written in it can be read, and each
statement that is written in it can be written.

* `Clauses.names`: the names that clauses are written with;
* `Dialect.Accepts`: the texts that a dialect reads as an identifier;
* `Dialect.hasValue_renderColumn_iff`, `Dialect.hasValue_renderTables_iff`, … : columns, tables and
  terms;
* `Clauses.hasValue_render_iff`: clauses, given the outcomes of the nested statements;
* `Statement.NameWithin`: the names at any depth, each with the dialect of its statement;
* `Statement.hasValue_assemble_iff_within`, `Statement.writable_iff`: statements.
-/

namespace SelectQuery

/-! ## The names that are written -/

/-- The names in a column: the qualifier, and the name itself. -/
def Column.names (column : Column) : List String :=
  match column.content with
  | .ident name => column.correlation.toList ++ [name]
  | .raw _ => []

/-- The names in a table of the database: the schema, and the name itself. -/
def TableRef.names {σ : Type} (table : TableRef σ) : List String :=
  match table.source with
  | .name name => table.schema.toList ++ [name]
  | .expr _ | .select _ => []

/-- The name in an entry of GROUP BY. -/
def GroupTerm.names : GroupTerm → List String
  | .ident name => [name]
  | .raw _ => []

/-- The name in an entry of ORDER BY, unless it is a whole number or an expression. -/
def OrderTerm.names : OrderTerm → List String
  | .raw _ => []
  | .term value _ => if isUnsigned value.toList || isExpression value.toList then [] else [value]

namespace Clauses

variable {σ τ : Type}

/-- The names that clauses are written with. Without a table, the members of a union leave nothing
but ORDER BY; and GROUP BY is only written with a table. -/
def names (c : Clauses σ) : List String :=
  let orders := c.orders.flatMap OrderTerm.names
  if c.tables.isEmpty && !c.unions.isEmpty then orders
  else
    let groups := if c.tables.isEmpty then [] else c.groups.flatMap GroupTerm.names
    c.columns.flatMap Column.names ++ c.tables.flatMap TableRef.names ++ groups ++ orders

theorem names_map (f : σ → τ) (c : Clauses σ) : (c.map f).names = c.names := by
  have htable : ∀ table : TableRef σ, (table.map f).names = table.names := by
    rintro ⟨correlation, join, schema, source, condition⟩
    cases source <;> rfl
  simp [names, map, List.flatMap_map, htable]

end Clauses

/-! ## Names, columns and terms -/

namespace Dialect

variable (d : Dialect)

/-- A text that is read as an identifier. -/
def Accepts (text : String) : Prop := ∃ ident, Identifier.parse d.quoteSymbol text = .ok ident

theorem hasValue_quoteIdentifier_iff {text : String} :
    HasValue (d.quoteIdentifier text) ↔ d.Accepts text :=
  hasValue_map_iff

theorem hasValue_entries_iff {α : Type} {entries : List α} {names : α → List String}
    {write : α → Rendered} (empty : String) (join : List String → String)
    (hwrite : ∀ entry, HasValue (write entry) ↔ ∀ name ∈ names entry, d.Accepts name) :
    HasValue (if entries.isEmpty then .ok empty else do return join (← entries.mapM write)) ↔
      ∀ name ∈ entries.flatMap names, d.Accepts name := by
  rw [List.forall_mem_flatMap]
  split
  next hnone =>
    rw [List.isEmpty_iff.mp hnone]
    simp
  next =>
    rw [hasValue_bind_pure_iff, hasValue_mapM_iff]
    exact forall₂_congr fun entry _ => hwrite entry

theorem hasValue_renderColumn_iff {column : Column} :
    HasValue (d.renderColumn column) ↔ ∀ name ∈ column.names, d.Accepts name := by
  have hcolumn (ref : ColumnRef) (aliasName : Option String) :
      HasValue (d.quoteColumnAs ref aliasName) ↔ HasValue (d.quoteColumn ref) :=
    hasValue_bind_pure_iff
  obtain ⟨correlation, content, aliasName⟩ := column
  cases content with
  | raw sql => simp [renderColumn, hcolumn, quoteColumn, Column.names]
  | ident name =>
    have hname (front : List Segment) : HasValue (do
        let back ← d.readIdentifier name
        return (d.writeIdentifier ⟨front ++ back.segments⟩, back.lastName?)) ↔ d.Accepts name :=
      hasValue_bind_pure_iff
    cases correlation with
    | none =>
      simp only [renderColumn, hcolumn, Column.names, Option.toList_none, List.nil_append,
        List.forall_mem_singleton]
      exact hname []
    | some qualifier =>
      simp only [renderColumn, hcolumn, Column.names, Option.toList_some, List.forall_mem_append,
        List.forall_mem_singleton]
      exact hasValue_bind_iff fun ident => hname ident.segments

theorem hasValue_renderColumns_iff {columns : List Column} :
    HasValue (d.renderColumns columns) ↔ ∀ name ∈ columns.flatMap Column.names, d.Accepts name :=
  d.hasValue_entries_iff _ _ fun _ => d.hasValue_renderColumn_iff

theorem hasValue_groupClause_iff {groups : List GroupTerm} :
    HasValue (d.groupClause groups) ↔ ∀ name ∈ groups.flatMap GroupTerm.names, d.Accepts name := by
  refine d.hasValue_entries_iff _ _ fun term => ?_
  cases term with
  | ident name =>
    rw [GroupTerm.names, List.forall_mem_singleton]
    exact d.hasValue_quoteIdentifier_iff
  | raw sql => simp [renderGroup, GroupTerm.names]

theorem hasValue_orderClause_iff {orders : List OrderTerm} :
    HasValue (d.orderClause orders) ↔ ∀ name ∈ orders.flatMap OrderTerm.names, d.Accepts name := by
  refine d.hasValue_entries_iff _ _ fun term => ?_
  cases term with
  | raw sql => simp [renderOrder, OrderTerm.names]
  | term value direction =>
    simp only [renderOrder, OrderTerm.names]
    split
    · simp
    · rw [List.forall_mem_singleton, hasValue_bind_pure_iff]
      exact d.hasValue_quoteIdentifier_iff

/-! ## Tables -/

theorem hasValue_quoteTableAs_iff {schema : Option String} {table : String}
    {aliasName : Option String} :
    HasValue (d.quoteTableAs schema table aliasName) ↔
      ∀ name ∈ schema.toList ++ [table], d.Accepts name := by
  have hname (front : String) : HasValue (do
      let name ← d.quoteIdentifier table
      return front ++ name ++ d.asClause (some table) aliasName) ↔ d.Accepts table :=
    hasValue_bind_pure_iff.trans d.hasValue_quoteIdentifier_iff
  cases schema with
  | none =>
    rw [Option.toList_none, List.nil_append, List.forall_mem_singleton]
    exact hname ""
  | some schema =>
    rw [Option.toList_some, List.forall_mem_append, List.forall_mem_singleton,
      List.forall_mem_singleton, ← d.hasValue_quoteIdentifier_iff]
    exact hasValue_bind_iff fun quoted => hname (quoted ++ ".")

theorem hasValue_renderTable_iff {table : TableRef Rendered} :
    HasValue (d.renderTable table) ↔
      (∀ name ∈ table.names, d.Accepts name) ∧
        ∀ outcome ∈ table.source.nested, HasValue outcome := by
  obtain ⟨correlation, join, schema, source, condition⟩ := table
  cases source with
  | name name =>
    rw [Source.nested, and_iff_left (List.forall_mem_nil _)]
    exact d.hasValue_quoteTableAs_iff
  | expr sql => simp [renderTable, TableRef.names, Source.nested]
  | select outcome =>
    rw [TableRef.names, Source.nested, List.forall_mem_singleton,
      and_iff_right (List.forall_mem_nil _)]
    exact hasValue_bind_pure_iff

theorem hasValue_renderTables_iff {tables : List (TableRef Rendered)} :
    HasValue (d.renderTables tables) ↔
      (∀ name ∈ tables.flatMap TableRef.names, d.Accepts name) ∧
        ∀ outcome ∈ tables.flatMap (·.source.nested), HasValue outcome := by
  have hall : HasValue (d.renderTables tables) ↔
      ∀ table ∈ tables, HasValue (d.renderTable table) := by
    cases tables with
    | nil => simp [renderTables]
    | cons first rest =>
      have hrest : HasValue (rest.mapM d.renderJoined) ↔
          ∀ table ∈ rest, HasValue (d.renderTable table) := by
        rw [hasValue_mapM_iff]
        exact forall₂_congr fun table _ => hasValue_bind_pure_iff
      rw [List.forall_mem_cons, ← hrest]
      exact hasValue_bind_iff fun _ => hasValue_bind_pure_iff
  simp only [hall, hasValue_renderTable_iff, List.forall_mem_flatMap, ← forall_and]

end Dialect

/-! ## Clauses -/

namespace Clauses

variable {d : Dialect} {c : Clauses Rendered}

theorem hasValue_target_iff {target : UnionTarget Rendered} :
    HasValue target.render ↔ ∀ outcome ∈ target.nested, HasValue outcome := by
  cases target <;> simp [UnionTarget.render, UnionTarget.nested]

theorem hasValue_members_iff {members : List (UnionMember Rendered)} :
    HasValue (members.mapM UnionMember.render) ↔
      ∀ outcome ∈ members.flatMap (·.target.nested), HasValue outcome := by
  rw [hasValue_mapM_iff, List.forall_mem_flatMap]
  refine forall₂_congr fun member _ => ?_
  rw [← hasValue_target_iff]
  exact hasValue_bind_pure_iff

theorem hasValue_renderBody_iff :
    HasValue (c.renderBody d) ↔
      ((∀ name ∈ c.tables.flatMap TableRef.names, d.Accepts name) ∧
        ∀ outcome ∈ c.tables.flatMap (·.source.nested), HasValue outcome) ∧
      ∀ name ∈ if c.tables.isEmpty then [] else c.groups.flatMap GroupTerm.names,
        d.Accepts name := by
  unfold renderBody
  split
  next hnone => simp [List.isEmpty_iff.mp hnone]
  next =>
    rw [← d.hasValue_renderTables_iff, ← d.hasValue_groupClause_iff]
    exact hasValue_bind_iff fun _ => hasValue_bind_pure_iff

theorem hasValue_renderBase_iff :
    HasValue (c.renderBase d) ↔ HasValue (d.renderColumns c.columns) ∧ HasValue (c.renderBody d) ∧
      HasValue (d.orderClause c.orders) ∧ HasValue (c.unions.mapM UnionMember.render) :=
  hasValue_bind_iff fun _ => hasValue_bind_iff fun _ => hasValue_bind_iff fun _ =>
    hasValue_bind_pure_iff

theorem hasValue_renderMembers_iff (hne : c.unions ≠ []) :
    HasValue (c.renderMembers d c.unions) ↔
      HasValue (d.orderClause c.orders) ∧
        ∀ outcome ∈ c.unions.flatMap (·.target.nested), HasValue outcome := by
  cases hmembers : c.unions with
  | nil => exact absurd hmembers hne
  | cons first rest =>
    rw [List.flatMap_cons, List.forall_mem_append, ← hasValue_target_iff, ← hasValue_members_iff,
      and_comm, and_assoc]
    exact hasValue_bind_iff fun _ => hasValue_bind_iff fun _ => hasValue_bind_pure_iff

/-- **Clauses can be written** exactly if the names in them can be read and the nested statements
can be written. -/
theorem hasValue_render_iff :
    HasValue (c.render d) ↔ (∀ name ∈ c.names, d.Accepts name) ∧
      ∀ outcome ∈ c.nested, HasValue outcome := by
  unfold render names nested
  rw [List.forall_mem_append]
  split
  next hmembers =>
    simp only [Bool.and_eq_true, List.isEmpty_iff, Bool.not_eq_true', List.isEmpty_eq_false_iff]
      at hmembers
    rw [hasValue_bind_pure_iff, hasValue_renderMembers_iff hmembers.2, hmembers.1,
      d.hasValue_orderClause_iff, List.flatMap_nil, and_iff_right (List.forall_mem_nil _)]
  next =>
    rw [hasValue_bind_pure_iff, hasValue_renderBase_iff, d.hasValue_renderColumns_iff,
      hasValue_renderBody_iff, d.hasValue_orderClause_iff, hasValue_members_iff]
    simp only [List.forall_mem_append, and_assoc]
    tauto

theorem render_of_no_tables (htables : c.tables = [])
    (predicates : List Predicate) (groups : List GroupTerm) (havings : List String) :
    { c with predicates, groups, havings }.render d = c.render d := by
  cases c
  cases htables
  rfl

end Clauses

/-! ## Statements -/

namespace Statement

open Clauses

/-- A name that is written in a statement or, at any depth, in one nested in it; with the dialect of
the statement in which it is written. -/
inductive NameWithin : Statement → Dialect → String → Prop
  | here {s : Statement} {name : String} (h : name ∈ s.names) : NameWithin s s.dialect name
  | nested {s n : Statement} {d : Dialect} {name : String} (hn : n ∈ s.nested)
      (h : NameWithin n d name) : NameWithin s d name

theorem hasValue_assemble_iff (s : Statement) :
    HasValue s.assemble ↔ (∀ name ∈ s.names, s.dialect.Accepts name) ∧
      ∀ n ∈ s.nested, HasValue n.assemble := by
  have hnames : s.outcomes.names = s.names := names_map assemble s.toClauses
  rw [s.assemble_eq_render, hasValue_render_iff, hnames, nested_outcomes, List.forall_mem_map]

/-- **A statement can be written** exactly if the names in it can be read, however deep. -/
theorem hasValue_assemble_iff_within (s : Statement) :
    HasValue s.assemble ↔ ∀ d name, NameWithin s d name → d.Accepts name := by
  induction s using nested_induction with
  | step s ih =>
    rw [s.hasValue_assemble_iff]
    constructor
    · rintro ⟨hnames, hnested⟩ d name h
      cases h with
      | here h => exact hnames name h
      | nested hn h => exact (ih _ hn).mp (hnested _ hn) d name h
    · intro h
      refine ⟨fun name hname => h _ _ (.here hname), fun n hn => (ih n hn).mpr ?_⟩
      exact fun d name hname => h d name (.nested hn hname)

/-- **Which statements can be written**, by the names and statements in them and by the names at any
depth. Nothing but a name keeps a statement from being written; and without a table WHERE, GROUP BY
and HAVING are not written at all. -/
theorem writable_iff (s : Statement) :
    (HasValue s.assemble ↔ (∀ name ∈ s.names, s.dialect.Accepts name) ∧
      ∀ n ∈ s.nested, HasValue n.assemble) ∧
    (HasValue s.assemble ↔ ∀ d name, NameWithin s d name → d.Accepts name) ∧
    (∀ e, s.assemble = .error e → ∃ reason, e = .invalidIdentifier reason) ∧
    (s.tables = [] → ∀ predicates groups havings,
      { s with predicates, groups, havings : Statement }.assemble = s.assemble) := by
  refine ⟨s.hasValue_assemble_iff, s.hasValue_assemble_iff_within, s.failsWith_assemble, ?_⟩
  intro htables predicates groups havings
  have hnone : s.outcomes.tables = [] := List.map_eq_nil_iff.mpr htables
  rw [assemble_eq_render, assemble_eq_render]
  exact render_of_no_tables hnone predicates groups havings

/-- Members alone, and an entry of GROUP BY that no dialect reads. -/
theorem writable_iff_members :
    let s : Statement :=
      { dialect := Config.dialect {}
        unions := [⟨.raw "SELECT 1 AS n", .distinct⟩, ⟨.raw "SELECT 2", .all⟩]
        groups := [.ident "a..b"]
        orders := [.term "n" .descending, .term "1" .ascending] }
    let sql := "SELECT 1 AS n UNION ALL SELECT 2 ORDER BY \"n\" DESC, 1 ASC"
    s.tables = [] ∧ s.names = ["n"] ∧ s.dialect.Accepts "n" ∧ ¬ s.dialect.Accepts "a..b" ∧
      HasValue s.assemble ∧ { s with groups := [] : Statement }.assemble = .ok sql ∧
      s.assemble = .ok sql := by
  intro s sql
  have hnames : s.names = ["n"] := by decide
  have haccepts : s.dialect.Accepts "n" := ⟨⟨[.plain "n"]⟩, by rfl⟩
  have hrefuses : ¬ s.dialect.Accepts "a..b" := by
    rintro ⟨ident, h⟩
    cases h
  obtain ⟨hwritable, -, -, hsame⟩ := writable_iff s
  have hvalue := hwritable.mpr ⟨by simpa [hnames] using haccepts, fun _ h => nomatch h⟩
  have hsql : { s with groups := [] : Statement }.assemble = .ok sql := by decide +kernel
  exact ⟨rfl, hnames, haccepts, hrefuses, hvalue, hsql, (hsame rfl [] [] []).symm.trans hsql⟩

end Statement

end SelectQuery
