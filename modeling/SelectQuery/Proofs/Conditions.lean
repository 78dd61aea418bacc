import SelectQuery.Proofs.Part

/-!
# Conditions of WHERE and of HAVING

WHERE keeps the connector of a condition beside its text, and leaves out the first one when it is
written. HAVING keeps texts, and each but the first has its connector in it. The same conditions are
written alike by both.

* `keptConditions`: the conditions of a run that are not blank;
* `Predicate.ofKept`, `havingEntries`: how WHERE and HAVING keep them;
* `SameConditions`: HAVING of one statement keeps the conditions that WHERE of another one does;
* `sameConditions_apply`, `sameConditions_applyAll`: so it is behind one more condition, and behind
  several;
* `writtenConditions`: how conditions are written;
* **`havings_written_as_predicates`**: HAVING and WHERE agree on every run.
-/

namespace SelectQuery

/-! ## Conditions that are kept -/

/-- The conditions of a run that are not blank, with their values filled in. -/
def keptConditions (d : Dialect) (asked : List (Connector × Condition)) :
    List (Connector × String) :=
  (asked.map fun (connector, condition) => (connector, condition.text d)).filter
    fun (_, text) => !Text.isBlankText text

/-- A condition as WHERE keeps it. -/
def Predicate.ofKept : Connector × String → Predicate
  | (connector, text) => ⟨connector, Edit.parenthesized text⟩

/-- Conditions as HAVING keeps them. -/
def havingEntries : List Predicate → List String
  | [] => []
  | first :: rest => first.text :: rest.map fun p => p.connector.keyword ++ " " ++ p.text

/-- Conditions as they are written: each in parentheses, and each but the first behind its
connector. -/
def writtenConditions : List (Connector × String) → String
  | [] => ""
  | (_, first) :: rest => "(" ++ first ++ ")" ++
    String.join (rest.map fun (connector, text) => " " ++ connector.keyword ++ " (" ++ text ++ ")")

theorem keptConditions_cons (d : Dialect) (connector : Connector) (condition : Condition)
    (asked : List (Connector × Condition)) :
    keptConditions d ((connector, condition) :: asked) =
      if Text.isBlankText (condition.text d) then keptConditions d asked
      else (connector, condition.text d) :: keptConditions d asked := by
  cases hblank : Text.isBlankText (condition.text d) <;> simp [keptConditions, hblank]

theorem havingEntries_append_singleton (predicates : List Predicate) (p : Predicate) :
    havingEntries (predicates ++ [p]) = havingEntries predicates ++
      [if (havingEntries predicates).isEmpty then p.text
        else p.connector.keyword ++ " " ++ p.text] := by
  cases predicates with
  | nil => rfl
  | cons first rest => simp [havingEntries]

/-! ## Runs -/

namespace Statement

/-- The run that adds conditions to WHERE. -/
def whereCalls (asked : List (Connector × Condition)) : List Mutation :=
  asked.map fun (connector, condition) => .addWhere connector condition

/-- The run that adds conditions to HAVING. -/
def havingCalls (asked : List (Connector × Condition)) : List Mutation :=
  asked.map fun (connector, condition) => .addHaving connector condition

/-- HAVING of `t` keeps the conditions that WHERE of `s` does. -/
structure SameConditions (s t : Statement) : Prop where
  dialect : s.dialect = t.dialect
  havings : t.havings = havingEntries s.predicates

variable {s t : Statement}

theorem apply_addWhere (s : Statement) (connector : Connector) (condition : Condition) :
    s.apply (.addWhere connector condition) = (.ok [],
      if Text.isBlankText (condition.text s.dialect) then s
      else s.put (.predicates (s.predicates ++
        [.ofKept (connector, condition.text s.dialect)]))) := rfl

theorem apply_addHaving (s : Statement) (connector : Connector) (condition : Condition) :
    s.apply (.addHaving connector condition) = (.ok [],
      if Text.isBlankText (condition.text s.dialect) then s
      else s.put (.havings (s.havings ++
        [if s.havings.isEmpty then Edit.parenthesized (condition.text s.dialect)
          else connector.keyword ++ " " ++
            Edit.parenthesized (condition.text s.dialect)]))) := rfl

theorem sameConditions_apply (h : SameConditions s t) (connector : Connector)
    (condition : Condition) :
    SameConditions (s.apply (.addWhere connector condition)).2
      (t.apply (.addHaving connector condition)).2 := by
  rw [apply_addWhere, apply_addHaving, h.dialect]
  cases Text.isBlankText (condition.text t.dialect) with
  | true => exact h
  | false =>
    refine ⟨h.dialect, ?_⟩
    change t.havings ++ _ = havingEntries (s.predicates ++ _)
    rw [havingEntries_append_singleton, h.havings]
    rfl

/-- **Behind several conditions** both still keep the same ones. -/
theorem sameConditions_applyAll (h : SameConditions s t) (asked : List (Connector × Condition)) :
    SameConditions (s.applyAll (whereCalls asked)) (t.applyAll (havingCalls asked)) := by
  induction asked generalizing s t with
  | nil => exact h
  | cons first rest ih => exact ih (sameConditions_apply h first.1 first.2)

theorem applyAll_whereCalls (s : Statement) (asked : List (Connector × Condition)) :
    s.applyAll (whereCalls asked) = s.put (.predicates
      (s.predicates ++ (keptConditions s.dialect asked).map .ofKept)) := by
  induction asked generalizing s with
  | nil =>
    change s = s.put (.predicates (s.predicates ++ []))
    rw [List.append_nil]
    exact (put_part s .predicates).symm
  | cons first rest ih =>
    obtain ⟨connector, condition⟩ := first
    change (s.apply (.addWhere connector condition)).2.applyAll (whereCalls rest) = _
    rw [ih, apply_addWhere, keptConditions_cons]
    cases Text.isBlankText (condition.text s.dialect) with
    | true => rfl
    | false => simp [put]

end Statement

/-! ## Texts -/

theorem intercalate_cons (sep first : String) (rest : List String) :
    sep.intercalate (first :: rest) = first ++ String.join (rest.map (sep ++ ·)) := by
  induction rest generalizing first with
  | nil => simp
  | cons next more ih => rw [String.intercalate_cons_cons, ih]; simp [String.append_assoc]

/-- **HAVING joins its entries to the text of WHERE.** -/
theorem intercalate_havingEntries (predicates : List Predicate) :
    " ".intercalate (havingEntries predicates) = Dialect.renderPredicates predicates := by
  cases predicates with
  | nil => rfl
  | cons first rest =>
    rw [havingEntries, intercalate_cons, Dialect.renderPredicates, List.map_map]
    simp only [Function.comp_def, ← String.append_assoc]

theorem renderPredicates_ofKept (kept : List (Connector × String)) :
    Dialect.renderPredicates (kept.map .ofKept) = writtenConditions kept := by
  cases kept with
  | nil => rfl
  | cons first rest =>
    rw [List.map_cons, Dialect.renderPredicates, writtenConditions, List.map_map]
    refine congrArg _ (congrArg String.join (List.map_congr_left fun later _ => ?_))
    change " " ++ later.1.keyword ++ " " ++ ("(" ++ later.2 ++ ")") = _
    have hopen : " (" = " " ++ "(" := by decide
    rw [hopen]
    simp only [String.append_assoc]

/-- **HAVING and WHERE agree.** Conditions that are added to HAVING of an empty statement come to
the text that they come to in WHERE: blank ones are left out, each of the others is in parentheses
once, and each of these but the first stands behind its connector. -/
theorem havings_written_as_predicates (d : Dialect) (asked : List (Connector × Condition)) :
    let kept := keptConditions d asked
    let filtered := (Statement.ofDialect d).applyAll (Statement.whereCalls asked)
    let grouped := (Statement.ofDialect d).applyAll (Statement.havingCalls asked)
    " ".intercalate grouped.havings = Dialect.renderPredicates filtered.predicates ∧
      Dialect.renderPredicates filtered.predicates = writtenConditions kept ∧
      filtered.predicates = kept.map .ofKept ∧ grouped.havings = havingEntries (kept.map .ofKept) ∧
      Dialect.whereClause filtered.predicates =
        (if kept = [] then "" else " WHERE " ++ writtenConditions kept) ∧
      Dialect.havingClause grouped.havings =
        (if kept = [] then "" else " HAVING " ++ writtenConditions kept) := by
  intro kept filtered grouped
  have hpredicates : filtered.predicates = kept.map .ofKept :=
    congrArg (·.predicates) (Statement.applyAll_whereCalls (.ofDialect d) asked)
  have hsame : Statement.SameConditions filtered grouped :=
    Statement.sameConditions_applyAll ⟨rfl, rfl⟩ asked
  have hhavings : grouped.havings = havingEntries (kept.map .ofKept) := by
    rw [hsame.havings, hpredicates]
  have hwritten := renderPredicates_ofKept kept
  have hjoined := intercalate_havingEntries (kept.map .ofKept)
  rw [hpredicates, hhavings]
  refine ⟨hjoined, hwritten, rfl, rfl, ?_, ?_⟩
  · rw [Dialect.whereClause, hwritten, List.isEmpty_map]
    simp only [List.isEmpty_iff]
  · rw [Dialect.havingClause, hjoined, hwritten]
    cases kept <;> rfl

/-- A blank condition in front, and the connector of the first one that is kept. -/
example :
    let asked := [(Connector.and, ⟨" ", none⟩), (.or, ⟨"o.id IN (?)", some (.int 7, none)⟩),
      (.or, ⟨"o.open", none⟩), (.and, ⟨"?", some (.list [], none)⟩)]
    writtenConditions (keptConditions (Config.dialect {}) asked) = "(o.id IN (7)) OR (o.open)" := by
  decide +kernel

end SelectQuery
