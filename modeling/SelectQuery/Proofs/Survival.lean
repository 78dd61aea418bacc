import SelectQuery.Proofs.Pruning

/-!
# Left joins that stay

Pruning leaves the largest set of tables in which each left join is used, directly or by another
table of the set. So it can be told from the mentions in join conditions alone what stays.

* `Clauses.UsedDirectly`, `Clauses.Feeds`: the two ways in which a table is used;
* `Clauses.KeepOneAnother`: sets of tables in which each left join is used;
* `Clauses.keepOneAnother_pruneLeftJoins`, `Clauses.KeepOneAnother.mem_pruneLeftJoins`: what pruning
  leaves is such a set, and the largest one;
* `Clauses.pruneLeftJoins_pruneLeftJoins`, `Clauses.pruneLeftJoins_mono`: pruning again, and pruning
  with more uses;
* `Clauses.LeadsToUse`: tables from which a chain of mentions leads to a use;
* `Clauses.mem_pruneLeftJoins_iff_leadsToUse`: these stay, and no others if join conditions only
  look back;
* `Statement.prune_idempotent_and_monotone`, `Statement.mem_prune_iff_leadsToUse`: the same for
  reachable statements.
-/

namespace SelectQuery

namespace Clauses

variable {σ : Type} {symbol : Char} {c : Clauses σ}

/-! ## Uses -/

/-- A table is selected from, or a raw column or a WHERE condition mentions it. -/
inductive UsedDirectly (symbol : Char) (c : Clauses σ) (table : TableRef σ) : Prop
  | selected {column : Column} (hmem : column ∈ c.columns)
      (h : column.correlation = some table.correlation)
  | column {column : Column} {sql : String} (hmem : column ∈ c.columns)
      (hraw : column.content = .raw sql) (h : ¬ Avoids symbol table sql)
  | predicate {predicate : Predicate} (hmem : predicate ∈ c.predicates)
      (h : ¬ Avoids symbol table predicate.text)

theorem usedDirectly_iff {table : TableRef σ} :
    UsedDirectly symbol c table ↔ c.usesDirectly symbol table = true := by
  rw [usesDirectly_iff]
  constructor
  · rintro (⟨hmem, h⟩ | ⟨hmem, hraw, h⟩ | ⟨hmem, h⟩)
    · exact .inl ⟨_, hmem, h⟩
    · exact .inr (.inl ⟨_, hmem, _, hraw, h⟩)
    · exact .inr (.inr ⟨_, hmem, h⟩)
  · rintro (⟨_, hmem, h⟩ | ⟨_, hmem, _, hraw, h⟩ | ⟨_, hmem, h⟩)
    · exact .selected hmem h
    · exact .column hmem hraw h
    · exact .predicate hmem h

theorem UsedDirectly.mono {more : Clauses σ} {table : TableRef σ} (h : UsedDirectly symbol c table)
    (hcolumns : c.columns ⊆ more.columns) (hpredicates : c.predicates ⊆ more.predicates) :
    UsedDirectly symbol more table := by
  cases h with
  | selected hmem h => exact .selected (hcolumns hmem) h
  | column hmem hraw h => exact .column (hcolumns hmem) hraw h
  | predicate hmem h => exact .predicate (hpredicates hmem) h

/-- The join condition of `other` mentions `table`. -/
def Feeds (symbol : Char) (table other : TableRef σ) : Prop :=
  ∃ condition, other.condition = some condition ∧ ¬ Avoids symbol table condition

theorem feeds_iff {table other : TableRef σ} :
    Feeds symbol table other ↔ other.condition.any (mentions symbol table) = true := by
  unfold Feeds
  cases other.condition <;> simp [mentions_iff]

instance (table other : TableRef σ) : Decidable (Feeds symbol table other) :=
  decidable_of_iff _ feeds_iff.symm

theorem dependsOn_iff_feeds {table other : TableRef σ} :
    dependsOn symbol table other = true ↔
      other.correlation ≠ table.correlation ∧ Feeds symbol table other := dependsOn_iff

/-! ## The largest set in which left joins are used -/

/-- Tables of FROM among which each left join is used directly or by another one. -/
structure KeepOneAnother (symbol : Char) (c : Clauses σ) (kept : TableRef σ → Prop) : Prop where
  mem : ∀ table, kept table → table ∈ c.tables
  used : ∀ table, kept table → table.join = some .left → UsedDirectly symbol c table ∨
    ∃ other, kept other ∧ other.correlation ≠ table.correlation ∧ Feeds symbol table other

theorem mem_of_mem_pruneLeftJoins {table : TableRef σ}
    (h : table ∈ (c.pruneLeftJoins symbol).tables) : table ∈ c.tables :=
  (mem_without.mp h).1

variable (hc : (c.tables.map (·.correlation)).Nodup)

include hc

theorem keepOneAnother_pruneLeftJoins (symbol : Char) :
    KeepOneAnother symbol c (· ∈ (c.pruneLeftJoins symbol).tables) where
  mem := fun _ => mem_of_mem_pruneLeftJoins
  used := fun table hstays hleft => by
    have hused := (mem_pruneLeftJoins_iff hc symbol (mem_of_mem_pruneLeftJoins hstays) hleft).mp
      hstays
    simpa only [usedDirectly_iff, dependsOn_iff_feeds] using hused

/-- **Tables that keep one another stay.** -/
theorem KeepOneAnother.mem_pruneLeftJoins {kept : TableRef σ → Prop}
    (h : KeepOneAnother symbol c kept) {table : TableRef σ} (hkept : kept table) :
    table ∈ (c.pruneLeftJoins symbol).tables := by
  classical
  let others := (c.tables.map (·.correlation)).filter fun name =>
    ¬∃ table, kept table ∧ table.correlation = name
  -- with all the others gone, none of the kept ones can go
  have hstable : ∀ use ∈ c.leftJoinUses symbol, use.canGo others = false := by
    intro use hu
    obtain ⟨join, hjoin, rfl⟩ := List.mem_map.mp hu
    obtain ⟨hmem, hleft⟩ := List.mem_filter.mp hjoin
    by_contra hgo
    obtain ⟨hdirect, hthere, hdeps⟩ := LeftJoinUse.canGo_iff.mp (Bool.not_eq_false _ ▸ hgo)
    have hkept : kept join := by
      by_contra hnot
      refine hthere (List.mem_filter.mpr ⟨List.mem_map_of_mem hmem, decide_eq_true ?_⟩)
      rintro ⟨twin, htwin, hcorr⟩
      rw [eq_of_correlation_eq hc (h.mem twin htwin) hmem hcorr] at htwin
      exact hnot htwin
    rcases h.used join hkept (by simpa using hleft) with hused | ⟨other, hother, hne, hfeeds⟩
    · rw [leftJoinUse, usedDirectly_iff.mp hused] at hdirect
      cases hdirect
    · have hdep : other.correlation ∈ (c.leftJoinUse symbol join).dependents :=
        List.mem_map_of_mem (List.mem_filter.mpr
          ⟨h.mem other hother, dependsOn_iff_feeds.mpr ⟨hne, hfeeds⟩⟩)
      have hnone := of_decide_eq_true (List.mem_filter.mp (hdeps _ hdep)).2
      exact hnone ⟨other, hother, rfl⟩
  refine mem_without.mpr ⟨h.mem table hkept, fun hgone => ?_⟩
  have hother := (dropOrder_unusedJoins _).subset_of_stable hstable hgone
  exact of_decide_eq_true (List.mem_filter.mp hother).2 ⟨table, hkept, rfl⟩

/-! ## Pruning again, and with more uses -/

theorem unusedLeftJoins_pruneLeftJoins (symbol : Char) :
    (c.pruneLeftJoins symbol).unusedLeftJoins symbol = [] := by
  have hnext := nodup_without hc (c.unusedLeftJoins symbol)
  have hkeep := keepOneAnother_pruneLeftJoins hc symbol
  have hself : KeepOneAnother symbol (c.pruneLeftJoins symbol)
      (· ∈ (c.pruneLeftJoins symbol).tables) :=
    ⟨fun _ h => h, fun table hstays hleft => (hkeep.used table hstays hleft).imp_left
      fun hused => hused.mono (List.Subset.refl _) (List.Subset.refl _)⟩
  refine List.eq_nil_iff_forall_not_mem.mpr fun name hname => ?_
  obtain ⟨use, hu, hcorr, -⟩ := (dropOrder_unusedJoins _).exists_use hname
  obtain ⟨join, hjoin, rfl⟩ := List.mem_map.mp hu
  have hstays := hself.mem_pruneLeftJoins hnext (List.mem_filter.mp hjoin).1
  rw [← hcorr] at hname
  exact (mem_without.mp hstays).2 hname

theorem pruneLeftJoins_pruneLeftJoins (symbol : Char) :
    (c.pruneLeftJoins symbol).pruneLeftJoins symbol = c.pruneLeftJoins symbol := by
  change (c.pruneLeftJoins symbol).without ((c.pruneLeftJoins symbol).unusedLeftJoins symbol) = _
  rw [unusedLeftJoins_pruneLeftJoins hc, without_nil]

theorem pruneLeftJoins_mono (symbol : Char) {more : Clauses σ} (htables : more.tables = c.tables)
    (hcolumns : c.columns ⊆ more.columns) (hpredicates : c.predicates ⊆ more.predicates) :
    (c.pruneLeftJoins symbol).tables ⊆ (more.pruneLeftJoins symbol).tables := by
  have hkeep := keepOneAnother_pruneLeftJoins hc symbol
  have hmore : KeepOneAnother symbol more (· ∈ (c.pruneLeftJoins symbol).tables) :=
    ⟨fun table hstays => htables ▸ hkeep.mem table hstays,
      fun table hstays hleft => (hkeep.used table hstays hleft).imp_left
        fun hused => hused.mono hcolumns hpredicates⟩
  exact fun table hstays => hmore.mem_pruneLeftJoins (htables ▸ hc) hstays

/-! ## Chains -/

omit hc in
/-- A chain leads from a table to one that is used directly or is no left join: each table of the
chain but the first is one of FROM, and its join condition mentions the table before it. -/
def LeadsToUse (symbol : Char) (c : Clauses σ) (table : TableRef σ) : Prop :=
  ∃ last, Relation.ReflTransGen (fun t u => u ∈ c.tables ∧ Feeds symbol t u) table last ∧
    (UsedDirectly symbol c last ∨ last.join ≠ some .left)

theorem keepOneAnother_leadsToUse (symbol : Char) :
    KeepOneAnother symbol c fun table => table ∈ c.tables ∧ LeadsToUse symbol c table where
  mem := fun _ h => h.1
  used := by
    rintro table ⟨hmem, last, hchain, hlast⟩ hleft
    induction hchain using Relation.ReflTransGen.head_induction_on with
    | refl => exact .inl (hlast.resolve_right fun hjoin => hjoin hleft)
    | @head table next hstep hrest ih =>
      by_cases hself : next.correlation = table.correlation
      · -- a table that mentions itself does not lengthen the chain
        obtain rfl := eq_of_correlation_eq hc hstep.1 hmem hself
        exact ih hmem hleft
      · exact .inr ⟨next, ⟨hstep.1, last, hrest, hlast⟩, hself, hstep.2⟩

theorem leadsToUse_of_mem_pruneLeftJoins
    (hback : c.tables.Pairwise fun earlier later => ¬ Feeds symbol later earlier)
    {table : TableRef σ} (hstays : table ∈ (c.pruneLeftJoins symbol).tables) :
    LeadsToUse symbol c table := by
  -- from the last table of FROM to the first
  have hall : ∀ back front, c.tables = front ++ back → ∀ table ∈ back,
      table ∈ (c.pruneLeftJoins symbol).tables → LeadsToUse symbol c table := by
    intro back
    induction back with
    | nil => exact fun _ _ _ hmem => nomatch hmem
    | cons here back ih =>
      intro front hsplit table hmem hstays
      have hsplit' : c.tables = (front ++ [here]) ++ back := by simp [hsplit]
      rcases List.mem_cons.mp hmem with rfl | hmem
      · by_cases hleft : table.join = some .left
        · rcases (keepOneAnother_pruneLeftJoins hc symbol).used table hstays hleft with
            hused | ⟨other, hother, hne, hfeeds⟩
          · exact ⟨table, .refl, .inl hused⟩
          · have hmem := mem_of_mem_pruneLeftJoins hother
            rw [hsplit] at hback hmem
            rcases List.mem_append.mp hmem with hfront | hrest
            · exact absurd hfeeds
                ((List.pairwise_append.mp hback).2.2 other hfront table List.mem_cons_self)
            · rcases List.mem_cons.mp hrest with rfl | hrest
              · exact absurd rfl hne
              · obtain ⟨last, hchain, hlast⟩ := ih _ hsplit' other hrest hother
                have hstep := And.intro (mem_of_mem_pruneLeftJoins hother) hfeeds
                exact ⟨last, .head hstep hchain, hlast⟩
        · exact ⟨table, .refl, .inr hleft⟩
      · exact ih _ hsplit' table hmem hstays
  exact hall c.tables [] rfl table (mem_of_mem_pruneLeftJoins hstays) hstays

/-- **The tables that stay are those from which a chain leads to a use**, if join conditions only
look back. -/
theorem mem_pruneLeftJoins_iff_leadsToUse
    (hback : c.tables.Pairwise fun earlier later => ¬ Feeds symbol later earlier)
    {table : TableRef σ} (hmem : table ∈ c.tables) :
    table ∈ (c.pruneLeftJoins symbol).tables ↔ LeadsToUse symbol c table :=
  ⟨leadsToUse_of_mem_pruneLeftJoins hc hback,
    fun h => (keepOneAnother_leadsToUse hc symbol).mem_pruneLeftJoins hc ⟨hmem, h⟩⟩

theorem mem_pruneLeftJoins_of_feeds {table other : TableRef σ} (hmem : table ∈ c.tables)
    (hother : other ∈ (c.pruneLeftJoins symbol).tables) (hfeeds : Feeds symbol table other) :
    table ∈ (c.pruneLeftJoins symbol).tables := by
  by_cases hleft : table.join = some .left
  · by_cases hself : other.correlation = table.correlation
    · rwa [← eq_of_correlation_eq hc (mem_of_mem_pruneLeftJoins hother) hmem hself]
    · exact (mem_pruneLeftJoins_iff hc symbol hmem hleft).mpr
        (.inr ⟨other, hother, dependsOn_iff_feeds.mpr ⟨hself, hfeeds⟩⟩)
  · exact mem_pruneLeftJoins_of_ne_left hc symbol hmem hleft

omit hc in
theorem not_leadsToUse {group : List (TableRef σ)}
    (hunused : ∀ table ∈ group, table.join = some .left ∧ ¬ UsedDirectly symbol c table)
    (hclosed : ∀ table ∈ group, ∀ other ∈ c.tables, Feeds symbol table other → other ∈ group)
    {table : TableRef σ} (hmem : table ∈ group) : ¬ LeadsToUse symbol c table := by
  rintro ⟨last, hchain, hlast⟩
  have hin : last ∈ group := by
    clear hlast
    induction hchain with
    | refl => exact hmem
    | tail _ hstep ih => exact hclosed _ ih _ hstep.1 hstep.2
  obtain ⟨hleft, hnot⟩ := hunused last hin
  exact hlast.elim hnot fun hjoin => hjoin hleft

end Clauses

/-! ## Reachable statements -/

namespace Statement

open Clauses

/-- **Pruning twice, and pruning with more uses.** The second time nothing is dropped and nothing
told; and what stays also stays in the statement with more columns and conditions. -/
theorem prune_idempotent_and_monotone {s : Statement} (h : Reachable s) :
    let next := (s.apply .pruneLeftJoins).2
    next.apply .pruneLeftJoins = (.ok [], next) ∧
      ∀ more : Clauses Statement, more.tables = s.tables → s.columns ⊆ more.columns →
        s.predicates ⊆ more.predicates → ∀ table ∈ next.tables,
          table ∈ ({ s with toClauses := more }.apply .pruneLeftJoins).2.tables := by
  intro next
  have hc := (ReachableBy.wellJoined h).distinct
  constructor
  · have hnone : next.unusedLeftJoins next.dialect.quoteSymbol = [] :=
      unusedLeftJoins_pruneLeftJoins hc _
    have hsame : next.toClauses.pruneLeftJoins next.dialect.quoteSymbol = next.toClauses :=
      pruneLeftJoins_pruneLeftJoins hc _
    rw [apply_pruneLeftJoins_eq, hnone, hsame]
    rfl
  · intro more htables hcolumns hpredicates table hstays
    exact pruneLeftJoins_mono hc s.dialect.quoteSymbol htables hcolumns hpredicates hstays

theorem prune_idempotent_and_monotone_note :
    let s := (ofDialect (Config.dialect {})).applyAll
      [.selectFrom (.ofName "orders AS o") [.ofText "id"],
        .join .left (.ofName "refunds AS r") "r.order_id = o.id" [.ofText "amount"],
        .join .left (.ofName "notes AS n") "n.refund_id = r.id" []]
    let more := { s.toClauses with predicates := [⟨.and, "(n.text IS NULL)"⟩] }
    let next := (s.apply .pruneLeftJoins).2
    let nextMore := ({ s with toClauses := more }.apply .pruneLeftJoins).2
    Reachable s ∧ more.tables = s.tables ∧ s.columns ⊆ more.columns ∧
      s.predicates ⊆ more.predicates ∧ next.tables.map (·.correlation) = ["o", "r"] ∧
      nextMore.tables.map (·.correlation) = ["o", "r", "n"] ∧
      next.apply .pruneLeftJoins = (.ok [], next) ∧
      ∀ table ∈ next.tables, table ∈ nextMore.tables := by
  intro s more next nextMore
  have hs : Reachable s := (ReachableBy.empty _).applyAll _ (by simp [absorbed?])
  have htables : more.tables = s.tables := rfl
  have hcolumns : s.columns ⊆ more.columns := by decide
  have hpredicates : s.predicates ⊆ more.predicates := by decide
  obtain ⟨hagain, hmore⟩ := prune_idempotent_and_monotone hs
  exact ⟨hs, htables, hcolumns, hpredicates, by decide, by decide, hagain,
    hmore more htables hcolumns hpredicates⟩

/-- **Which left joins stay**, if no join condition mentions a table behind its own: those from
which a chain of mentions leads to a table that is used directly or is no left join. So left joins
that only feed each other all go, and what feeds a table that stays is one that stays. -/
theorem mem_prune_iff_leadsToUse {s : Statement} (h : Reachable s)
    (hback : s.tables.Pairwise fun earlier later => ¬ Feeds s.dialect.quoteSymbol later earlier) :
    let symbol := s.dialect.quoteSymbol
    let next := (s.apply .pruneLeftJoins).2
    (∀ table ∈ s.tables, table ∈ next.tables ↔ LeadsToUse symbol s.toClauses table) ∧
      (∀ group : List (TableRef Statement),
        (∀ table ∈ group, table.join = some .left ∧ ¬ UsedDirectly symbol s.toClauses table) →
        (∀ table ∈ group, ∀ other ∈ s.tables, Feeds symbol table other → other ∈ group) →
        ∀ table ∈ group, table ∉ next.tables) ∧
      ∀ table ∈ s.tables, ∀ other ∈ next.tables, Feeds symbol table other →
        table ∈ next.tables := by
  intro symbol next
  have hc := (ReachableBy.wellJoined h).distinct
  refine ⟨fun table hmem => mem_pruneLeftJoins_iff_leadsToUse hc hback hmem, ?_, ?_⟩
  · intro group hunused hclosed table hmem hstays
    exact not_leadsToUse hunused hclosed hmem (leadsToUse_of_mem_pruneLeftJoins hc hback hstays)
  · exact fun table hmem other hother hfeeds => mem_pruneLeftJoins_of_feeds hc hmem hother hfeeds

theorem mem_prune_iff_leadsToUse_branches :
    let s := (ofDialect (Config.dialect {})).applyAll
      [.selectFrom (.ofName "orders AS o") [.ofText "id"],
        .join .left (.ofName "a") "a.order_id = o.id" [],
        .join .left (.ofName "b") "a.x = b.y" [.ofText "name"],
        .join .left (.ofName "c") "c.a_id = a.id" [],
        .join .left (.ofName "d") "d.c_id = c.id" []]
    let symbol := s.dialect.quoteSymbol
    let next := (s.apply .pruneLeftJoins).2
    Reachable s ∧ (s.tables.Pairwise fun earlier later => ¬ Feeds symbol later earlier) ∧
      next.tables.map (·.correlation) = ["o", "a", "b"] ∧
      ∀ table ∈ s.tables, table ∈ next.tables ↔ LeadsToUse symbol s.toClauses table := by
  intro s symbol next
  have hs : Reachable s := (ReachableBy.empty _).applyAll _ (by simp [absorbed?])
  have hback : s.tables.Pairwise fun earlier later => ¬ Feeds symbol later earlier := by decide
  obtain ⟨hstays, -, -⟩ := mem_prune_iff_leadsToUse hs hback
  exact ⟨hs, hback, by decide, hstays⟩

end Statement

end SelectQuery
