import SelectQuery.Proofs.Correlation
import SelectQuery.Proofs.LeftJoin
import SelectQuery.Proofs.Reachable

/-!
# FROM of a reachable statement

* `WellJoined`: names differ, the first table has neither join nor condition, later ones are joined,
  and a condition stands only behind a join that has one;
* `Conditioned`: a later table has a condition that says something exactly when its join has one;
* `wellJoined_append`, `wellJoined_filter`, `wellJoined_normalizeTables`: what an edit of FROM
  keeps;
* `ReachableBy.wellJoined`, `ReachableBy.conditioned`: the two for every reachable statement, the
  second when FROM is never given as a whole.
-/

namespace SelectQuery.Statement

/-- The joins that have a condition. -/
def conditionJoins : List (Option JoinKind) :=
  [some .inner, some .left, some .right, some .full]

/-- FROM as a statement keeps it. -/
structure WellJoined (tables : List (TableRef Statement)) : Prop where
  distinct : (tables.map (·.correlation)).Nodup
  first : ∀ table ∈ tables.head?, table.join = none ∧ table.condition = none
  later : ∀ table ∈ tables.tail, table.join ≠ none
  conditions : ∀ table ∈ tables, table.condition ≠ none → table.join ∈ conditionJoins

/-- Later tables have a condition that is not blank exactly when their join has one. -/
def Conditioned (tables : List (TableRef Statement)) : Prop :=
  ∀ table ∈ tables.tail,
    (∃ condition, table.condition = some condition ∧ Text.isBlankText condition = false) ↔
      table.join ∈ conditionJoins

theorem mem_conditionJoins_iff {join : Option JoinKind} :
    join ∈ conditionJoins ↔ join.any (·.acceptsCondition) = true := by
  rcases join with _ | kind
  · decide
  · cases kind <;> decide

theorem eq_inner_or_requires_of_mem {kind : JoinKind} (h : some kind ∈ conditionJoins) :
    kind = .inner ∨ kind.requiresCondition = true := by
  cases kind <;> first | exact .inl rfl | exact .inr rfl | exact absurd h (by decide)

/-! ## New tables -/

theorem isBlankText_trim {text : String} (h : Text.isBlankText (Text.trim text) = true) :
    Text.trim text = "" := by
  have hall : ((Text.stripStart text.toList).reverse.dropWhile Text.isBlank).all Text.isBlank := by
    simpa [Text.isBlankText, Text.strip, Text.stripEnd] using h
  have hnil : (Text.stripStart text.toList).reverse.dropWhile Text.isBlank = [] := by
    by_contra hne
    have hhead := List.head_dropWhile_not Text.isBlank hne
    rw [List.all_eq_true.mp hall _ (List.head_mem hne)] at hhead
    cases hhead
  unfold Text.trim Text.strip Text.stripEnd
  rw [hnil]
  rfl

/-- The first table is not joined, a later one is, and a join that has a condition gets one. -/
theorem newJoin_eq_ok {s : Statement} {kind : JoinKind} {condition : String}
    {table : ResolvedTable} {join : Option JoinKind}
    (h : s.newJoin kind condition table = .ok join) :
    (join = none ↔ s.tables = []) ∧ (join ∈ conditionJoins → condition ≠ "") := by
  unfold newJoin at h
  split_ifs at h with hfirst hblank hinner hrequires
  · cases h
    simpa [conditionJoins] using hfirst
  · cases h
    simpa [conditionJoins] using hfirst
  · cases h
    refine ⟨by simpa using hfirst, fun hmem => ?_⟩
    rcases eq_inner_or_requires_of_mem hmem with hk | hk
    · exact absurd hk hinner
    · exact absurd hk hrequires
  · cases h
    simpa [hblank] using hfirst

variable {tables : List (TableRef Statement)}

theorem wellJoined_nil : WellJoined [] :=
  ⟨List.nodup_nil, fun _ h => (nomatch h), fun _ h => (nomatch h), fun _ h => (nomatch h)⟩

theorem conditioned_nil : Conditioned [] := fun _ h => nomatch h

theorem wellJoined_cons_iff {base : TableRef Statement} {rest : List (TableRef Statement)} :
    WellJoined (base :: rest) ↔
      ((base :: rest).map (·.correlation)).Nodup ∧ (base.join = none ∧ base.condition = none) ∧
        ∀ table ∈ rest, table.join ≠ none ∧
          (table.condition ≠ none → table.join ∈ conditionJoins) := by
  constructor
  · intro h
    refine ⟨h.distinct, h.first base rfl, fun table hmem => ⟨h.later table hmem, ?_⟩⟩
    exact h.conditions table (List.mem_cons_of_mem _ hmem)
  · rintro ⟨hdistinct, hfirst, hrest⟩
    refine ⟨hdistinct, ?_, fun table hmem => (hrest table hmem).1, ?_⟩
    · rintro _ ⟨⟩
      exact hfirst
    · refine List.forall_mem_cons.mpr ⟨fun hne => (hne hfirst.2).elim, ?_⟩
      exact fun table hmem => (hrest table hmem).2

theorem wellJoined_append {s : Statement} {kind : JoinKind} {table : TableInput}
    {condition : String} {entry : TableRef Statement} (hs : WellJoined s.tables)
    (h : s.newTable kind table condition = .ok entry) : WellJoined (s.tables ++ [entry]) := by
  obtain ⟨resolved, -, hjoin, hcorr, -, -, hcond⟩ := s.newTable_eq_ok h
  obtain ⟨hnone, -⟩ := newJoin_eq_ok hjoin
  have hfree := s.hasTable_eq_false_iff.mp (s.newCorrelation_free hcorr)
  have hkept : entry.condition ≠ none → entry.join ∈ conditionJoins := by
    rw [hcond, keptCondition, mem_conditionJoins_iff]
    split_ifs with hk
    · simp only [Bool.and_eq_true] at hk
      exact fun _ => hk.1
    · exact fun h => (h rfl).elim
  have hdistinct : ((s.tables ++ [entry]).map (·.correlation)).Nodup := by
    rw [List.map_append, List.map_singleton, ← List.concat_eq_append]
    exact List.Nodup.concat hfree hs.distinct
  cases htables : s.tables with
  | nil =>
    have hj := hnone.mpr htables
    have hc : entry.condition = none := by
      by_contra hne
      have := hkept hne
      rw [hj] at this
      exact absurd this (by decide)
    exact wellJoined_cons_iff.mpr ⟨List.nodup_singleton _, ⟨hj, hc⟩, fun _ h => nomatch h⟩
  | cons base rest =>
    rw [htables] at hs hdistinct
    obtain ⟨-, hfirst, hrest⟩ := wellJoined_cons_iff.mp hs
    have hj : entry.join ≠ none := by
      rw [ne_eq, hnone, htables]
      exact List.cons_ne_nil _ _
    refine wellJoined_cons_iff.mpr ⟨hdistinct, hfirst, List.forall_mem_append.mpr ⟨hrest, ?_⟩⟩
    exact List.forall_mem_singleton.mpr ⟨hj, hkept⟩

theorem conditioned_append {s : Statement} {kind : JoinKind} {table : TableInput}
    {condition : String} {entry : TableRef Statement} (hs : Conditioned s.tables)
    (h : s.newTable kind table condition = .ok entry) : Conditioned (s.tables ++ [entry]) := by
  obtain ⟨resolved, -, hjoin, -, -, -, hcond⟩ := s.newTable_eq_ok h
  obtain ⟨-, hneeds⟩ := newJoin_eq_ok hjoin
  have hentry : (∃ text, entry.condition = some text ∧ Text.isBlankText text = false) ↔
      entry.join ∈ conditionJoins := by
    rw [hcond, keptCondition]
    constructor
    · rintro ⟨text, htext, -⟩
      split_ifs at htext with hk
      simp only [Bool.and_eq_true] at hk
      exact mem_conditionJoins_iff.mpr hk.1
    · intro hmem
      have hne := hneeds hmem
      refine ⟨Text.trim condition, ?_, ?_⟩
      · rw [if_pos (by simpa [hne] using mem_conditionJoins_iff.mp hmem)]
      · by_contra hblank
        exact hne (isBlankText_trim (by simpa using hblank))
  unfold Conditioned at hs ⊢
  cases htables : s.tables with
  | nil => exact fun _ h => nomatch h
  | cons base rest =>
    rw [htables] at hs
    rw [List.cons_append, List.tail_cons, List.forall_mem_append]
    exact ⟨hs, by simpa using hentry⟩

/-! ## Fewer tables -/

theorem wellJoined_filter {keep : TableRef Statement → Bool} (h : WellJoined tables)
    (hkeep : ∀ table ∈ tables, table.join = none → keep table = true) :
    WellJoined (tables.filter keep) := by
  have hdistinct : ((tables.filter keep).map (·.correlation)).Nodup :=
    h.distinct.sublist (List.filter_sublist.map _)
  cases tables with
  | nil => exact wellJoined_nil
  | cons base rest =>
    obtain ⟨-, hfirst, hrest⟩ := wellJoined_cons_iff.mp h
    have hbase := hkeep base List.mem_cons_self hfirst.1
    rw [List.filter_cons_of_pos hbase] at hdistinct ⊢
    refine wellJoined_cons_iff.mpr ⟨hdistinct, hfirst, fun table hmem => ?_⟩
    exact hrest table (List.mem_filter.mp hmem).1

theorem conditioned_filter {keep : TableRef Statement → Bool} (h : Conditioned tables) :
    Conditioned (tables.filter keep) := by
  intro table hmem
  cases tables with
  | nil => cases hmem
  | cons base rest =>
    refine h table ?_
    rw [List.filter_cons] at hmem
    split at hmem
    · exact (List.mem_filter.mp hmem).1
    · exact (List.mem_filter.mp (List.mem_of_mem_tail hmem)).1

/-! ## Tables given as a whole -/

theorem nodup_of_firstRepeated? {seen names : List String}
    (h : Edit.firstRepeated? seen names = none) : names.Nodup ∧ ∀ name ∈ names, name ∉ seen := by
  induction names generalizing seen with
  | nil => exact ⟨List.nodup_nil, fun _ h => nomatch h⟩
  | cons name rest ih =>
    unfold Edit.firstRepeated? at h
    split_ifs at h with hseen
    obtain ⟨hrest, hout⟩ := ih h
    have hname : name ∉ rest := fun hmem => hout name hmem List.mem_cons_self
    refine ⟨List.nodup_cons.mpr ⟨hname, hrest⟩, List.forall_mem_cons.mpr ⟨by simpa using hseen, ?_⟩⟩
    exact fun other hmem hin => hout other hmem (List.mem_cons_of_mem _ hin)

theorem map_correlation_normalizeTables (tables : List (TableRef Statement)) :
    (Edit.normalizeTables tables).map (·.correlation) = tables.map (·.correlation) := by
  cases tables with
  | nil => rfl
  | cons base rest => simp [Edit.normalizeTables, Edit.normalizeJoined, Function.comp_def]

theorem wellJoined_normalizeTables (h : (tables.map (·.correlation)).Nodup) :
    WellJoined (Edit.normalizeTables tables) := by
  rw [← map_correlation_normalizeTables] at h
  cases tables with
  | nil => exact wellJoined_nil
  | cons base rest =>
    refine wellJoined_cons_iff.mpr ⟨h, ⟨rfl, rfl⟩, fun table hmem => ?_⟩
    obtain ⟨given, -, rfl⟩ := List.mem_map.mp hmem
    refine ⟨Option.some_ne_none _, fun hcond => mem_conditionJoins_iff.mpr ?_⟩
    by_contra haccepts
    exact hcond (if_neg haccepts)

/-! ## Every reachable statement -/

theorem wellJoined_pruned {s : Statement} (hs : WellJoined s.tables) (symbol : Char) :
    WellJoined (s.toClauses.pruneLeftJoins symbol).tables := by
  refine wellJoined_filter hs fun table hmem hjoin => ?_
  have hleft : table.join ≠ some .left := by simp [hjoin]
  have := Clauses.mem_pruneLeftJoins_of_ne_left hs.distinct symbol hmem hleft
  exact (List.mem_filter.mp this).2

theorem ReachableBy.wellJoined {allowed : Mutation → Prop} {s : Statement}
    (h : ReachableBy allowed s) : WellJoined s.tables := by
  refine h.tables wellJoined_nil fun s m tables _ hs hbase hstep => ?_
  cases hstep with
  | same => exact hs
  | joined h => exact wellJoined_append hs h
  | absorbed h => exact hbase _ h
  | emptied => exact wellJoined_nil
  | replaced _ h => exact wellJoined_normalizeTables (nodup_of_firstRepeated? h).1
  | pruned => exact wellJoined_pruned hs _

theorem ReachableBy.conditioned {s : Statement}
    (h : ReachableBy (fun m => setsTables m = false) s) : Conditioned s.tables := by
  refine h.tables conditioned_nil fun s m tables hm hs hbase hstep => ?_
  cases hstep with
  | same => exact hs
  | joined h => exact conditioned_append hs h
  | absorbed h => exact hbase _ h
  | emptied => exact conditioned_nil
  | replaced hset _ =>
    rw [hset] at hm
    cases hm
  | pruned => exact conditioned_filter hs

/-- **FROM of a reachable statement is well joined**, and its later tables have the conditions that
their joins have, unless FROM was given as a whole. -/
theorem reachable_wellJoined {s : Statement} (h : Reachable s) :
    WellJoined s.tables ∧
      (ReachableBy (fun m => setsTables m = false) s → Conditioned s.tables) :=
  ⟨h.wellJoined, ReachableBy.conditioned⟩

theorem reachable_wellJoined_left_join :
    let s := (ofDialect (Config.dialect {})).applyAll
      [.selectFrom (.ofName "orders AS o") [.ofText "id"],
        .join .left (.ofName "refunds AS r") " r.order_id = o.id " []]
    s.tables.map (·.correlation) = ["o", "r"] ∧ Reachable s ∧ WellJoined s.tables ∧
      ReachableBy (fun m => setsTables m = false) s ∧ Conditioned s.tables := by
  intro s
  have hs : ReachableBy (fun m => setsTables m = false) s :=
    (ReachableBy.empty _).applyAll _ (by simp [setsTables, absorbed?])
  obtain ⟨hwell, hcond⟩ := reachable_wellJoined hs.reachable
  exact ⟨by decide, hs.reachable, hwell, hs, hcond hs⟩

end SelectQuery.Statement
