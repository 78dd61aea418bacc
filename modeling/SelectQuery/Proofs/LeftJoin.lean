import Mathlib.Logic.Relation
import SelectQuery.Proofs.DropOrder

/-!
# Removing left joins one at a time

Left joins may be removed one at a time in any order, with everything judged anew from the tables
that remain. Pruning comes to what any such order comes to at its end.

* `Clauses.Unneeded`: the left joins that may be removed;
* `Clauses.DropStep`: one removal;
* `Clauses.without`: the clauses without some tables, and `Clauses.dropStep_without_iff`: a removal
  from them is one more join dropped;
* `Clauses.reflTransGen_pruneLeftJoins`, `Clauses.not_dropStep_pruneLeftJoins`: pruning is such an
  order, run to its end;
* `Clauses.eq_pruneLeftJoins`: every order that is run to its end comes to the same clauses;
* `Clauses.mem_pruneLeftJoins_iff`: which left joins stay.
-/

namespace SelectQuery

namespace Clauses

variable {σ : Type} {symbol : Char} {c : Clauses σ}

/-! ## One removal -/

/-- Neither the correlation name of a table nor its name in the database is a qualifier in a
text. -/
def Avoids (symbol : Char) (table : TableRef σ) (text : String) : Prop :=
  ∀ name, name = table.correlation ∨ table.source = .name name → references symbol name text = false

/-- A left join that may be removed, where `rest` are the clauses without it. -/
structure Unneeded (symbol : Char) (rest : Clauses σ) (table : TableRef σ) : Prop where
  left : table.join = some .left
  /-- No column belongs to it. -/
  columns : ∀ column ∈ rest.columns, column.correlation ≠ some table.correlation
  raws : ∀ column ∈ rest.columns, ∀ sql, column.content = .raw sql → Avoids symbol table sql
  predicates : ∀ predicate ∈ rest.predicates, Avoids symbol table predicate.text
  /-- No join condition of another table mentions it. -/
  conditions : ∀ other ∈ rest.tables, ∀ condition, other.condition = some condition →
    Avoids symbol table condition

/-- The clauses with one left join removed that may be. -/
inductive DropStep (symbol : Char) (c : Clauses σ) : Clauses σ → Prop
  | drop {front back : List (TableRef σ)} {table : TableRef σ}
      (htables : c.tables = front ++ table :: back)
      (h : Unneeded symbol { c with tables := front ++ back } table) :
      DropStep symbol c { c with tables := front ++ back }

theorem wellFounded_dropStep (symbol : Char) :
    WellFounded fun c' c : Clauses σ => DropStep symbol c c' := by
  refine Subrelation.wf ?_ (measure fun c : Clauses σ => c.tables.length).wf
  rintro c' c ⟨htables, -⟩
  change (_ ++ _ : List (TableRef σ)).length < c.tables.length
  rw [htables, List.length_append, List.length_append, List.length_cons]
  omega

/-! ## The uses of a join -/

theorem mentions_eq_false_iff {table : TableRef σ} {text : String} :
    mentions symbol table text = false ↔ Avoids symbol table text := by
  unfold mentions namesOf Avoids TableRef.tableName?
  cases table.source with
  | name physical => simp [@eq_comm _ physical]
  | expr sql => simp
  | select statement => simp

theorem mentions_iff {table : TableRef σ} {text : String} :
    mentions symbol table text = true ↔ ¬ Avoids symbol table text := by
  rw [← mentions_eq_false_iff, Bool.not_eq_false]

theorem columnUses_iff {table : TableRef σ} {column : Column} :
    columnUses symbol table column = true ↔
      column.correlation = some table.correlation ∨
        ∃ sql, column.content = .raw sql ∧ ¬ Avoids symbol table sql := by
  unfold columnUses
  cases column.content with
  | ident name => simp
  | raw sql => simp [mentions_iff]

theorem usesDirectly_iff {table : TableRef σ} :
    c.usesDirectly symbol table = true ↔
      (∃ column ∈ c.columns, column.correlation = some table.correlation) ∨
      (∃ column ∈ c.columns, ∃ sql, column.content = .raw sql ∧ ¬ Avoids symbol table sql) ∨
      ∃ predicate ∈ c.predicates, ¬ Avoids symbol table predicate.text := by
  simp only [usesDirectly, Bool.or_eq_true, List.any_eq_true, columnUses_iff, mentions_iff,
    and_or_left, exists_or, or_assoc]

theorem dependsOn_iff {table other : TableRef σ} :
    dependsOn symbol table other = true ↔ other.correlation ≠ table.correlation ∧
      ∃ condition, other.condition = some condition ∧ ¬ Avoids symbol table condition := by
  unfold dependsOn
  cases other.condition <;> simp [mentions_iff]

/-! ## Clauses without some tables -/

/-- The clauses without the tables that have the names in `gone`. -/
def without (c : Clauses σ) (gone : List String) : Clauses σ :=
  { c with tables := c.tables.filter fun table => !gone.contains table.correlation }

theorem without_nil (c : Clauses σ) : c.without [] = c := by
  simp [without]

theorem mem_without {gone : List String} {table : TableRef σ} :
    table ∈ (c.without gone).tables ↔ table ∈ c.tables ∧ table.correlation ∉ gone := by
  simp [without]

theorem without_append (c : Clauses σ) (gone more : List String) :
    c.without (gone ++ more) = (c.without gone).without more := by
  unfold without
  simp only [List.filter_filter, List.contains_eq_mem, List.mem_append, Bool.decide_or,
    Bool.not_or, Bool.and_comm]

theorem without_congr {gone more : List String} (h : ∀ name, name ∈ gone ↔ name ∈ more) :
    c.without gone = c.without more := by
  unfold without
  simp only [List.contains_eq_mem, h]

theorem nodup_without (h : (c.tables.map (·.correlation)).Nodup) (gone : List String) :
    ((c.without gone).tables.map (·.correlation)).Nodup :=
  h.sublist (List.filter_sublist.map _)

theorem without_singleton {front back : List (TableRef σ)} {table : TableRef σ}
    (htables : c.tables = front ++ table :: back) (h : (c.tables.map (·.correlation)).Nodup) :
    c.without [table.correlation] = { c with tables := front ++ back } := by
  rw [htables, List.map_append, List.map_cons, List.nodup_middle, List.nodup_cons] at h
  have hother : ∀ other ∈ front ++ back, other.correlation ≠ table.correlation := by
    intro other hmem heq
    refine h.1 ?_
    rw [← heq, ← List.map_append]
    exact List.mem_map_of_mem hmem
  have hkeep : (front ++ back).filter (fun t => !([table.correlation].contains t.correlation)) =
      front ++ back := by
    refine List.filter_eq_self.mpr fun other hmem => ?_
    simpa using hother other hmem
  unfold without
  rw [htables]
  rw [List.filter_append] at hkeep ⊢
  rw [List.filter_cons_of_neg (by simp), hkeep]

/-! ## Removals are drops -/

theorem unneeded_iff_canGo {table : TableRef σ} {gone : List String}
    (hnot : table.correlation ∉ gone) :
    Unneeded symbol (c.without (gone ++ [table.correlation])) table ↔
      table.join = some .left ∧ (c.leftJoinUse symbol table).canGo gone = true := by
  have hdirect : c.usesDirectly symbol table = false ↔
      (∀ column ∈ c.columns, column.correlation ≠ some table.correlation) ∧
      (∀ column ∈ c.columns, ∀ sql, column.content = .raw sql → Avoids symbol table sql) ∧
      ∀ predicate ∈ c.predicates, Avoids symbol table predicate.text := by
    rw [← Bool.not_eq_true, usesDirectly_iff]
    push Not
    rfl
  have hdep : (∀ name ∈ (c.leftJoinUse symbol table).dependents, name ∈ gone) ↔
      ∀ other ∈ (c.without (gone ++ [table.correlation])).tables, ∀ condition,
        other.condition = some condition → Avoids symbol table condition := by
    simp only [leftJoinUse, List.forall_mem_map, List.mem_filter, and_imp, mem_without,
      List.mem_append, List.mem_singleton, not_or]
    constructor
    · intro h other hmem hout hne condition hcond
      by_contra hmention
      exact hout (h other hmem (dependsOn_iff.mpr ⟨hne, condition, hcond, hmention⟩))
    · intro h other hmem hdep
      obtain ⟨hne, condition, hcond, hmention⟩ := dependsOn_iff.mp hdep
      by_contra hout
      exact hmention (h other hmem hout hne condition hcond)
  rw [LeftJoinUse.canGo_iff, hdep]
  constructor
  · intro h
    exact ⟨h.left, hdirect.mpr ⟨h.columns, h.raws, h.predicates⟩, hnot, h.conditions⟩
  · rintro ⟨hleft, hunused, -, hconditions⟩
    obtain ⟨hcolumns, hraws, hpredicates⟩ := hdirect.mp hunused
    exact ⟨hleft, hcolumns, hraws, hpredicates, hconditions⟩

variable (hc : (c.tables.map (·.correlation)).Nodup)

include hc

/-- **A removal is one more join dropped.** -/
theorem dropStep_without_iff {gone : List String} {c' : Clauses σ} :
    DropStep symbol (c.without gone) c' ↔
      ∃ use ∈ c.leftJoinUses symbol, use.canGo gone = true ∧
        c' = c.without (gone ++ [use.correlation]) := by
  constructor
  · intro h
    cases h with
    | @drop front back table htables h =>
      have hhere : table ∈ (c.without gone).tables := by
        rw [htables]
        exact List.mem_append_right _ List.mem_cons_self
      obtain ⟨hmem, hnot⟩ := mem_without.mp hhere
      have heq := without_singleton htables (nodup_without hc gone)
      rw [← without_append] at heq
      rw [← heq] at h ⊢
      obtain ⟨hleft, hgo⟩ := (unneeded_iff_canGo hnot).mp h
      refine ⟨c.leftJoinUse symbol table, ?_, hgo, rfl⟩
      exact List.mem_map_of_mem (List.mem_filter.mpr ⟨hmem, by simpa using hleft⟩)
  · rintro ⟨use, hu, hgo, rfl⟩
    obtain ⟨table, htable, rfl⟩ := List.mem_map.mp hu
    obtain ⟨hmem, hleft⟩ := List.mem_filter.mp htable
    obtain ⟨-, hnot, -⟩ := LeftJoinUse.canGo_iff.mp hgo
    obtain ⟨front, back, htables⟩ := List.append_of_mem (mem_without.mpr ⟨hmem, hnot⟩)
    have heq := without_singleton htables (nodup_without hc gone)
    have h := (unneeded_iff_canGo hnot).mpr ⟨by simpa using hleft, hgo⟩
    change DropStep symbol _ (c.without (gone ++ [table.correlation]))
    rw [without_append] at h ⊢
    rw [heq] at h ⊢
    exact .drop htables h

theorem reflTransGen_without {gone : List String} (h : DropOrder (c.leftJoinUses symbol) gone) :
    Relation.ReflTransGen (DropStep symbol) c (c.without gone) := by
  induction h with
  | nil =>
    rw [without_nil]
  | snoc h hu hgo ih => exact ih.tail ((dropStep_without_iff hc).mpr ⟨_, hu, hgo, rfl⟩)

theorem exists_dropOrder {c' : Clauses σ} (h : Relation.ReflTransGen (DropStep symbol) c c') :
    ∃ gone, DropOrder (c.leftJoinUses symbol) gone ∧ c' = c.without gone := by
  induction h with
  | refl => exact ⟨[], .nil, (without_nil c).symm⟩
  | tail h hstep ih =>
    obtain ⟨gone, horder, rfl⟩ := ih
    obtain ⟨use, hu, hgo, rfl⟩ := (dropStep_without_iff hc).mp hstep
    exact ⟨gone ++ [use.correlation], horder.snoc hu hgo, rfl⟩

/-! ## All orders come to the same -/

theorem reflTransGen_pruneLeftJoins (symbol : Char) :
    Relation.ReflTransGen (DropStep symbol) c (c.pruneLeftJoins symbol) :=
  reflTransGen_without hc (dropOrder_unusedJoins _)

theorem not_dropStep_pruneLeftJoins (c' : Clauses σ) :
    ¬ DropStep symbol (c.pruneLeftJoins symbol) c' := by
  intro h
  obtain ⟨use, hu, hgo, -⟩ := (dropStep_without_iff hc).mp h
  have := canGo_unusedJoins _ use hu
  rw [unusedLeftJoins, this] at hgo
  cases hgo

/-- **Every order of removals that is run to its end comes to the pruned clauses.** -/
theorem eq_pruneLeftJoins {c' : Clauses σ} (h : Relation.ReflTransGen (DropStep symbol) c c')
    (hend : ∀ c'', ¬ DropStep symbol c' c'') : c' = c.pruneLeftJoins symbol := by
  obtain ⟨gone, horder, rfl⟩ := exists_dropOrder hc h
  have hstable : ∀ use ∈ c.leftJoinUses symbol, use.canGo gone = false := by
    intro use hu
    by_contra hgo
    exact hend _ ((dropStep_without_iff hc).mpr ⟨use, hu, by simpa using hgo, rfl⟩)
  refine without_congr fun name => ⟨fun hname => ?_, fun hname => ?_⟩
  · exact horder.subset_of_stable (canGo_unusedJoins _) hname
  · exact (dropOrder_unusedJoins _).subset_of_stable hstable hname

/-- **Removals in any order can be continued to the pruned clauses.** -/
theorem reflTransGen_pruneLeftJoins_of_reflTransGen {c' : Clauses σ}
    (h : Relation.ReflTransGen (DropStep symbol) c c') :
    Relation.ReflTransGen (DropStep symbol) c' (c.pruneLeftJoins symbol) := by
  have hc' : (c'.tables.map (·.correlation)).Nodup := by
    obtain ⟨gone, -, rfl⟩ := exists_dropOrder hc h
    exact nodup_without hc gone
  have hrest := reflTransGen_pruneLeftJoins hc' symbol
  rwa [← eq_pruneLeftJoins hc (h.trans hrest) (not_dropStep_pruneLeftJoins hc')]

/-! ## What stays -/

theorem eq_of_correlation_eq {t u : TableRef σ} (ht : t ∈ c.tables) (hu : u ∈ c.tables)
    (h : t.correlation = u.correlation) : t = u :=
  List.inj_on_of_nodup_map hc ht hu h

theorem mem_pruneLeftJoins_of_ne_left (symbol : Char) {table : TableRef σ}
    (hmem : table ∈ c.tables) (hleft : table.join ≠ some .left) :
    table ∈ (c.pruneLeftJoins symbol).tables := by
  refine mem_without.mpr ⟨hmem, fun hgone => hleft ?_⟩
  obtain ⟨use, hu, hcorr, -⟩ := (dropOrder_unusedJoins _).exists_use hgone
  obtain ⟨other, hother, rfl⟩ := List.mem_map.mp hu
  obtain ⟨hother, hjoin⟩ := List.mem_filter.mp hother
  rw [← eq_of_correlation_eq hc hother hmem hcorr]
  simpa using hjoin

theorem head?_pruneLeftJoins (symbol : Char)
    (hfirst : ∀ table ∈ c.tables.head?, table.join ≠ some .left) :
    (c.pruneLeftJoins symbol).tables.head? = c.tables.head? := by
  change (c.tables.filter _).head? = _
  cases htables : c.tables with
  | nil => rfl
  | cons base rest =>
    have hbase : base ∈ c.tables := by
      rw [htables]
      exact List.mem_cons_self
    have hleft := hfirst base (by rw [htables]; rfl)
    have hstays := mem_pruneLeftJoins_of_ne_left hc symbol hbase hleft
    rw [List.filter_cons, if_pos (List.mem_filter.mp hstays).2]
    rfl

theorem perm_unusedLeftJoins (symbol : Char) :
    (c.unusedLeftJoins symbol ++ (c.pruneLeftJoins symbol).tables.map (·.correlation)).Perm
      (c.tables.map (·.correlation)) := by
  have horder := dropOrder_unusedJoins (c.leftJoinUses symbol)
  refine (List.perm_ext_iff_of_nodup ?_ hc).mpr fun name => ⟨fun hname => ?_, fun hname => ?_⟩
  · refine List.nodup_append.mpr ⟨horder.nodup, nodup_without hc _, ?_⟩
    rintro name hgone _ hstays rfl
    obtain ⟨table, htable, rfl⟩ := List.mem_map.mp hstays
    exact (mem_without.mp htable).2 hgone
  · rcases List.mem_append.mp hname with hgone | hstays
    · obtain ⟨use, hu, rfl, -⟩ := horder.exists_use hgone
      obtain ⟨table, htable, rfl⟩ := List.mem_map.mp hu
      exact List.mem_map_of_mem (List.mem_filter.mp htable).1
    · obtain ⟨table, htable, rfl⟩ := List.mem_map.mp hstays
      exact List.mem_map_of_mem (mem_without.mp htable).1
  · obtain ⟨table, htable, rfl⟩ := List.mem_map.mp hname
    by_cases hgone : table.correlation ∈ c.unusedLeftJoins symbol
    · exact List.mem_append_left _ hgone
    · exact List.mem_append_right _ (List.mem_map_of_mem (mem_without.mpr ⟨htable, hgone⟩))

/-- **A left join stays when it is used directly or by a table that stays.** -/
theorem mem_pruneLeftJoins_iff (symbol : Char) {table : TableRef σ} (hmem : table ∈ c.tables)
    (hleft : table.join = some .left) :
    table ∈ (c.pruneLeftJoins symbol).tables ↔
      c.usesDirectly symbol table = true ∨
        ∃ other ∈ (c.pruneLeftJoins symbol).tables, dependsOn symbol table other = true := by
  have hu : c.leftJoinUse symbol table ∈ c.leftJoinUses symbol :=
    List.mem_map_of_mem (List.mem_filter.mpr ⟨hmem, by simpa using hleft⟩)
  constructor
  · intro hstay
    by_contra hall
    push Not at hall
    obtain ⟨hdirect, hothers⟩ := hall
    have hgo : (c.leftJoinUse symbol table).canGo (c.unusedLeftJoins symbol) = true := by
      refine LeftJoinUse.canGo_iff.mpr ⟨Bool.eq_false_iff.mpr hdirect, (mem_without.mp hstay).2, ?_⟩
      intro name hname
      obtain ⟨other, hother, rfl⟩ := List.mem_map.mp hname
      obtain ⟨hother, hdep⟩ := List.mem_filter.mp hother
      by_contra hout
      exact hothers other (mem_without.mpr ⟨hother, hout⟩) hdep
    rw [unusedLeftJoins, canGo_unusedJoins _ _ hu] at hgo
    cases hgo
  · intro hused
    refine mem_without.mpr ⟨hmem, fun hgone => ?_⟩
    obtain ⟨use, hu', hcorr, hdirect, hdeps⟩ := (dropOrder_unusedJoins _).exists_use hgone
    obtain ⟨twin, htwin, rfl⟩ := List.mem_map.mp hu'
    cases eq_of_correlation_eq hc (List.mem_filter.mp htwin).1 hmem hcorr
    rcases hused with hdirect' | ⟨other, hother, hdep⟩
    · rw [leftJoinUse, hdirect'] at hdirect
      cases hdirect
    · obtain ⟨hother, hout⟩ := mem_without.mp hother
      exact hout (hdeps _ (List.mem_map_of_mem (List.mem_filter.mpr ⟨hother, hdep⟩)))

end Clauses

end SelectQuery
