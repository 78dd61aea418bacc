import SelectQuery.Proofs.FromClause
import SelectQuery.Proofs.Identifier
import SelectQuery.Statement.Render

/-!
# Pruning a reachable statement

* `Pruned`: a statement with the left joins removed that nothing uses, whatever the order in which
  they are removed;
* `apply_pruneLeftJoins_eq`: what the mutation comes to;
* `reachable_pruned`: it comes to such a statement, and tells of each removed table once;
* `mem_prune_iff_of_qualifier`: when a left join stays which a column is qualified with.
-/

namespace SelectQuery

namespace Statement

open Relation Clauses

/-- A statement `next` that `s` becomes when the left joins with the names in `names` are removed,
the ones that may be removed one after the other in any order. -/
structure Pruned (s : Statement) (names : List String) (next : Statement) : Prop where
  reached : ReflTransGen (DropStep s.dialect.quoteSymbol) s.toClauses next.toClauses
  finished : ∀ c, ¬ DropStep s.dialect.quoteSymbol next.toClauses c
  /-- No order of removals goes on forever. -/
  terminates : WellFounded fun c' c : Clauses Statement => DropStep s.dialect.quoteSymbol c c'
  /-- Removals in any order can be continued to `next`. -/
  continued : ∀ c, ReflTransGen (DropStep s.dialect.quoteSymbol) s.toClauses c →
    ReflTransGen (DropStep s.dialect.quoteSymbol) c next.toClauses
  /-- Removals in any order that cannot be continued have come to `next`. -/
  unique : ∀ c, ReflTransGen (DropStep s.dialect.quoteSymbol) s.toClauses c →
    (∀ c', ¬ DropStep s.dialect.quoteSymbol c c') → c = next.toClauses
  tables : next.tables.Sublist s.tables
  others : next = { s with tables := next.tables }
  base : next.tables.head? = s.tables.head?
  kept : ∀ table ∈ s.tables, table.join ≠ some .left → table ∈ next.tables
  names : (names ++ next.tables.map (·.correlation)).Perm (s.tables.map (·.correlation))

theorem apply_pruneLeftJoins_eq (s : Statement) :
    s.apply .pruneLeftJoins =
      (.ok ((s.unusedLeftJoins s.dialect.quoteSymbol).map Event.pruned),
        { s with toClauses := s.toClauses.pruneLeftJoins s.dialect.quoteSymbol }) := rfl

/-- **Pruning removes what removing unused left joins one at a time removes**, in whatever order,
and tells of each removed table once. -/
theorem reachable_pruned {s : Statement} (h : Reachable s) :
    ∃ names next, s.apply .pruneLeftJoins = (.ok (names.map Event.pruned), next) ∧
      (∀ event ∈ names.map Event.pruned, event.level = .debug) ∧ Pruned s names next := by
  have hwell := ReachableBy.wellJoined h
  have hc := hwell.distinct
  refine ⟨_, _, s.apply_pruneLeftJoins_eq, by simp [Event.level], ?_⟩
  exact {
    reached := reflTransGen_pruneLeftJoins hc _
    finished := not_dropStep_pruneLeftJoins hc
    terminates := wellFounded_dropStep _
    continued := fun c hreach => reflTransGen_pruneLeftJoins_of_reflTransGen hc hreach
    unique := fun c hreach hend => eq_pruneLeftJoins hc hreach hend
    tables := List.filter_sublist
    others := rfl
    base := head?_pruneLeftJoins hc _ fun table hmem => by simp [(hwell.first table hmem).1]
    kept := fun table hmem hleft => mem_pruneLeftJoins_of_ne_left hc _ hmem hleft
    names := perm_unusedLeftJoins hc _ }

theorem reachable_pruned_chain :
    let s := (ofDialect (Config.dialect {})).applyAll
      [.selectFrom (.ofName "orders AS o") [.ofText "id"],
        .join .left (.ofName "refunds AS r") "r.order_id = o.id" [],
        .join .left (.ofName "notes AS n") "n.refund_id = r.id" []]
    Reachable s ∧ (s.unusedLeftJoins s.dialect.quoteSymbol) = ["n", "r"] ∧
      ∃ names next, s.apply .pruneLeftJoins = (.ok (names.map Event.pruned), next) ∧
        (∀ event ∈ names.map Event.pruned, event.level = .debug) ∧ Pruned s names next := by
  intro s
  have hs : Reachable s := (ReachableBy.empty _).applyAll _ (by simp [absorbed?])
  exact ⟨hs, by decide, reachable_pruned hs⟩

/-! ## Qualified columns -/

/-- **When a left join stays that a column is qualified with.** The qualifier may spell the
correlation name of the table in quotes, or behind a schema; only the bare spelling makes the table
stay by itself. -/
theorem mem_prune_iff_of_qualifier {s : Statement} (h : Reachable s) {table : TableRef Statement}
    (hmem : table ∈ s.tables) (hleft : table.join = some .left) {column : Column}
    (hcolumn : column ∈ s.columns) {qualifier : String}
    (hqualifier : column.correlation = some qualifier) {ident : Identifier}
    (hread : s.dialect.readIdentifier qualifier = .ok ident)
    (hlast : ident.lastName? = some table.correlation) :
    let next := (s.apply .pruneLeftJoins).2
    let Mentioned := fun text => ¬ Avoids s.dialect.quoteSymbol table text
    column ∈ next.columns ∧
      (qualifier = table.correlation ↔ ident.segments = [.plain table.correlation]) ∧
      (qualifier = table.correlation → table ∈ next.tables) ∧
      (table ∈ next.tables ↔
        (∃ column ∈ s.columns, column.correlation = some table.correlation) ∨
        (∃ column ∈ s.columns, ∃ sql, column.content = .raw sql ∧ Mentioned sql) ∨
        (∃ predicate ∈ s.predicates, Mentioned predicate.text) ∨
        ∃ other ∈ next.tables, other.correlation ≠ table.correlation ∧
          ∃ condition, other.condition = some condition ∧ Mentioned condition) := by
  intro next Mentioned
  have hc := (ReachableBy.wellJoined h).distinct
  have hstays := mem_pruneLeftJoins_iff hc s.dialect.quoteSymbol hmem hleft
  simp only [usesDirectly_iff, dependsOn_iff, or_assoc] at hstays
  refine ⟨hcolumn, ⟨?_, Identifier.eq_of_parse_plain hread⟩, ?_, hstays⟩
  · rintro rfl
    exact Identifier.segments_of_parse_self hread hlast
  · rintro rfl
    exact hstays.mpr (.inl ⟨column, hcolumn, hqualifier⟩)

theorem mem_prune_iff_of_bare_qualifier :
    let s := (ofDialect (Config.dialect {})).applyAll
      [.selectFrom (.ofName "orders AS o") [.ofText "id"],
        .join .left (.ofName "refunds AS r") "r.order_id = o.id" [.ofText "r.amount"]]
    let refunds : TableRef Statement :=
      ⟨"r", some .left, none, .name "refunds", some "r.order_id = o.id"⟩
    Reachable s ∧ refunds ∈ s.tables ∧ (⟨some "r", .ident "amount", none⟩ : Column) ∈ s.columns ∧
      s.dialect.readIdentifier "r" = .ok ⟨[.plain "r"]⟩ ∧
      refunds ∈ (s.apply .pruneLeftJoins).2.tables := by
  intro s refunds
  have hs : Reachable s := (ReachableBy.empty _).applyAll _ (by simp [absorbed?])
  have hmem : refunds ∈ s.tables := .tail _ (.head _)
  have hcolumn : (⟨some "r", .ident "amount", none⟩ : Column) ∈ s.columns := by decide
  have hread : s.dialect.readIdentifier "r" = .ok ⟨[.plain "r"]⟩ := by rfl
  obtain ⟨-, -, hstays, -⟩ := mem_prune_iff_of_qualifier hs hmem rfl hcolumn rfl hread rfl
  exact ⟨hs, hmem, hcolumn, hread, hstays rfl⟩

/-- A qualifier in quotes does not make its table stay; the column that has it does. -/
theorem pruned_of_quoted_qualifier :
    let s := (ofDialect (Config.dialect {})).applyAll
      [.selectFrom (.ofName "orders AS o") [.ofText "id"],
        .join .left (.ofName "refunds AS r") "r.order_id = o.id" [.ofText "\"r\".amount"]]
    let refunds : TableRef Statement :=
      ⟨"r", some .left, none, .name "refunds", some "r.order_id = o.id"⟩
    let next := (s.apply .pruneLeftJoins).2
    Reachable s ∧ refunds ∈ s.tables ∧
      (⟨some "\"r\"", .ident "amount", none⟩ : Column) ∈ s.columns ∧
      s.dialect.readIdentifier "\"r\"" = .ok ⟨[.quoted "r"]⟩ ∧
      refunds ∉ next.tables ∧
      next.assemble = .ok "SELECT \"o\".\"id\", \"r\".\"amount\" FROM \"orders\" AS \"o\"" := by
  intro s refunds next
  have hs : Reachable s := (ReachableBy.empty _).applyAll _ (by simp [absorbed?])
  have hnames : next.tables.map (·.correlation) = ["o"] := by decide
  refine ⟨hs, .tail _ (.head _), by decide, by rfl, fun hmem => ?_, by decide +kernel⟩
  have hname : "r" ∈ next.tables.map (·.correlation) := List.mem_map_of_mem hmem
  rw [hnames] at hname
  exact absurd hname (by decide)

end Statement

end SelectQuery
