import SelectQuery.Proofs.Alias
import SelectQuery.Proofs.Reachable
import SelectQuery.Statement.Derived

/-!
# Row identifiers of a table

A DELETE by row identifiers asks for the column `ctid` of a table by its text: the correlation name,
a dot and the name of the column. The text is looked at as any other, so some correlation names come
back as something else.

* `startsWithAs_append`, `lacksAs_append_iff`: a word without blanks behind a text brings no `AS`
  into it;
* `PlainQualifier`: the correlation names that come back;
* `classifyText_rowId`, `Statement.exists_selectRowIds`: the column that its text asks for;
* **`Dialect.postgres_deleteFrom`**: a DELETE by row identifiers.
-/

namespace SelectQuery

open Text (isBlank strip stripStart)

/-! ## A word behind a text -/

section

variable {cs word : List Char}

theorem startsWithAs_append (h : ∀ c ∈ word, isBlank c = false) (cs : List Char) :
    startsWithAs (cs ++ word) = startsWithAs cs := by
  rcases Nat.lt_or_ge 3 cs.length with hlong | hshort
  · match cs, hlong with
    | _ :: _ :: _ :: _ :: _, _ => rfl
  · -- the blank behind the `AS` would have to be one of the word
    have hword : ∀ c ∈ (cs ++ word)[3]?, isBlank c = false := by
      intro c hc
      rw [List.getElem?_append_right hshort] at hc
      exact h c (List.mem_of_getElem? hc)
    have hnone : cs[3]? = none := List.getElem?_eq_none hshort
    rw [startsWithAs_of_fourth hword, startsWithAs_of_fourth (by simp [hnone])]

theorem lacksAs_append_iff (h : ∀ c ∈ word, isBlank c = false) :
    LacksAs (cs ++ word) ↔ LacksAs cs := by
  have hdrop (n : Nat) : startsWithAs ((cs ++ word).drop n) = startsWithAs (cs.drop n) := by
    rw [List.drop_append]
    exact startsWithAs_append (fun c hc => h c (List.mem_of_mem_drop hc)) _
  simp only [LacksAs, hdrop]

end

/-! ## The text of the row identifiers -/

/-- A correlation name that comes back from the text of a column: it does not start with a blank,
stands on one line, and is taken neither for an expression nor for a name with an alias. -/
structure PlainQualifier (correlation : String) : Prop where
  first : ∀ c ∈ correlation.toList.head?, isBlank c = false
  unbroken : '\n' ∉ correlation.toList
  lacksAs : LacksAs correlation.toList
  notExpression : isExpression correlation.toList = false

/-- The column of the row identifiers of a table. -/
def Column.rowId (correlation : String) : Column := ⟨some correlation, .ident "ctid", none⟩

variable {correlation : String}

/-- The name that the text of the row identifiers has in front of its dot. -/
def rowIdQualifier (correlation : String) : List Char := unbreak (stripStart correlation.toList)

theorem isBlank_ctid : ∀ c ∈ ".ctid".toList, isBlank c = false := by
  change ∀ c ∈ ['.', 'c', 't', 'i', 'd'], isBlank c = false
  simp only [List.forall_mem_cons]
  exact ⟨rfl, rfl, rfl, rfl, rfl, List.forall_mem_nil _⟩

theorem columnToken_rowId (correlation : String) :
    columnToken (correlation ++ ".ctid") = rowIdQualifier correlation ++ ".ctid".toList := by
  have hstrip := Text.strip_append (by decide) isBlank_ctid correlation.toList []
  simp only [List.append_nil] at hstrip
  rw [columnToken, String.toList_append, hstrip]
  simp [rowIdQualifier, unbreak, Text.stripEnd]

theorem lacksAs_columnToken_rowId :
    LacksAs (columnToken (correlation ++ ".ctid")) ↔ LacksAs (rowIdQualifier correlation) := by
  rw [columnToken_rowId]
  exact lacksAs_append_iff isBlank_ctid

theorem isExpression_columnToken_rowId :
    isExpression (columnToken (correlation ++ ".ctid")) =
      isExpression (rowIdQualifier correlation) := by
  rw [columnToken_rowId]
  simp [isExpression]

/-- **What the text of the row identifiers asks for**: one column, which is that of the row
identifiers of another name unless something in front of the dot is taken for an alias or an
expression. -/
theorem classifyText_rowId (correlation : String) (target : Option String) :
    ∃ column, classifyText (correlation ++ ".ctid") none target = some column ∧
      ∀ name, column = Column.rowId name ↔ rowIdQualifier correlation = name.toList ∧
        LacksAs name.toList ∧ isExpression name.toList = false := by
  have hne : columnToken (correlation ++ ".ctid") ≠ [] := by
    rw [columnToken_rowId]
    exact List.append_ne_nil_of_right_ne_nil _ (by decide)
  have hnone : TableInput.nonempty none = none := rfl
  have htext := Except.ok.inj (classify_text target hnone hne)
  refine ⟨_, htext, fun name => ?_⟩
  have htrimmed := trimmed_columnToken (correlation ++ ".ctid")
  rcases lacksAs_or_exists_lastAs (columnToken (correlation ++ ".ctid")) with hlacks | ⟨n, hn⟩
  · simp only [splitColumnAlias, splitAlias?_of_none htrimmed hlacks]
    by_cases hexpr : isExpression (rowIdQualifier correlation) = true
    · rw [classifyBody, if_pos (isExpression_columnToken_rowId.trans hexpr)]
      refine iff_of_false (fun hcolumn => ?_) ?_
      · cases hcolumn
      · rintro ⟨hname, -, hnone⟩
        rw [← hname, hexpr] at hnone
        cases hnone
    · rw [classifyBody, if_neg (isExpression_columnToken_rowId ▸ hexpr), columnToken_rowId,
        show ".ctid".toList = '.' :: "ctid".toList from rfl,
        Text.cutLast_append_cons (by decide)]
      constructor
      · intro hcolumn
        have hname := Option.some.inj (congrArg Column.correlation hcolumn)
        rw [← hname, String.toList_ofList]
        exact ⟨rfl, lacksAs_columnToken_rowId.mp hlacks, Bool.not_eq_true _ ▸ hexpr⟩
      · rintro ⟨hname, -⟩
        simp only [hname, String.ofList_toList]
        rfl
  · -- the alias behind the last `AS` is not lost
    simp only [splitColumnAlias, splitAlias?_of_lastAs htrimmed hn]
    refine iff_of_false (fun hcolumn => ?_) ?_
    · have halias := congrArg Column.aliasName hcolumn
      rw [aliasName_classifyBody] at halias
      cases halias
    · rintro ⟨hname, hlacks, -⟩
      rw [← hname, ← lacksAs_columnToken_rowId] at hlacks
      have hhere := hn.here
      rw [hlacks n] at hhere
      cases hhere

theorem rowIdQualifier_eq_iff : rowIdQualifier correlation = correlation.toList ↔
    (∀ c ∈ correlation.toList.head?, isBlank c = false) ∧ '\n' ∉ correlation.toList := by
  rw [← Text.stripStart_eq_self_iff]
  constructor
  · intro h
    have hlength := congrArg List.length h
    rw [rowIdQualifier, unbreak, List.length_map] at hlength
    exact ⟨(List.dropWhile_suffix _).eq_of_length hlength, h ▸ newline_not_mem_unbreak _⟩
  · rintro ⟨hkept, hunbroken⟩
    rw [rowIdQualifier, hkept, unbreak_eq_self hunbroken]

/-- **When the row identifiers are asked for by the name itself.** -/
theorem plainQualifier_iff : PlainQualifier correlation ↔
    rowIdQualifier correlation = correlation.toList ∧ LacksAs correlation.toList ∧
      isExpression correlation.toList = false := by
  rw [rowIdQualifier_eq_iff]
  exact ⟨fun h => ⟨⟨h.first, h.unbroken⟩, h.lacksAs, h.notExpression⟩,
    fun ⟨⟨hfirst, hunbroken⟩, hlacks, hexpr⟩ => ⟨hfirst, hunbroken, hlacks, hexpr⟩⟩

instance (correlation : String) : Decidable (PlainQualifier correlation) :=
  decidable_of_iff _ plainQualifier_iff.symm

/-! ## DELETE -/

theorem Statement.physicalTable_eq_ok_iff {s : Statement} {schema : Option String}
    {name : String} :
    s.physicalTable correlation = .ok (schema, name) ↔
      ∃ table, s.table? correlation = some table ∧ table.source = .name name ∧
        table.schema = schema := by
  unfold physicalTable
  cases s.table? correlation with
  | none => exact iff_of_false nofun (fun ⟨_, h, _⟩ => nomatch h)
  | some table =>
    obtain ⟨_, _, _, source, _⟩ := table
    cases source <;> simp [and_comm]

theorem Statement.exists_selectRowIds (s : Statement) (correlation : String) :
    ∃ column, s.selectRowIds correlation = { s with distinct := false, columns := [column] } ∧
      (column = .rowId correlation ↔ PlainQualifier correlation) := by
  obtain ⟨column, hcolumn, hiff⟩ :=
    classifyText_rowId correlation (s.tables.head?.map (·.correlation))
  refine ⟨column, ?_, (hiff correlation).trans plainQualifier_iff.symm⟩
  simp only [selectRowIds, hcolumn, Option.toList_some]

/-- **The text of a DELETE by row identifiers**: those of the rows that the statement selects, with
one column in its select list. It is the column of the row identifiers behind the correlation name
exactly where that is a plain qualifier. -/
theorem Dialect.postgres_deleteFrom (autoQuote : Bool) {s : Statement} {sql : String}
    (h : (postgres autoQuote).deleteFrom s correlation = .ok sql) :
    ∃ table name target column rows,
      s.table? correlation = some table ∧ table.source = .name name ∧
      (postgres autoQuote).quoteTableAs table.schema name none = .ok target ∧
      { s with distinct := false, columns := [column] : Statement }.assemble = .ok rows ∧
      sql = "DELETE FROM " ++ target ++ " WHERE ctid IN (" ++ rows ++ ")" ∧
      (column = .rowId correlation ↔ PlainQualifier correlation) := by
  obtain ⟨⟨schema, name⟩, htable, h⟩ := bind_eq_ok_iff.mp h
  obtain ⟨table, hfound, hsource, rfl⟩ := Statement.physicalTable_eq_ok_iff.mp htable
  obtain ⟨target, htarget, h⟩ := bind_eq_ok_iff.mp h
  obtain ⟨rows, hrows, h⟩ := bind_eq_ok_iff.mp h
  obtain ⟨column, hselect, hplain⟩ := s.exists_selectRowIds correlation
  rw [hselect] at hrows
  exact ⟨table, name, target, column, rows, hfound, hsource, htarget, hrows,
    (pure_eq_ok_iff.mp h).symm, hplain⟩

theorem Dialect.postgres_deleteFrom_spaced :
    let s := (Statement.ofDialect (postgres true)).applyAll
      [.selectFrom (.ofName "shop.orders AS old orders") [.ofText "id"], .distinct true]
    let sql := "DELETE FROM \"shop\".\"orders\" WHERE ctid IN (" ++
      "SELECT \"old orders\".\"ctid\" FROM \"shop\".\"orders\" AS \"old orders\")"
    (postgres true).deleteFrom s "old orders" = .ok sql ∧
      ∃ target rows,
        { s with distinct := false, columns := [.rowId "old orders"] : Statement }.assemble =
          .ok rows ∧
        sql = "DELETE FROM " ++ target ++ " WHERE ctid IN (" ++ rows ++ ")" := by
  intro s sql
  have hsql : (postgres true).deleteFrom s "old orders" = .ok sql := by decide +kernel
  obtain ⟨-, -, target, column, rows, -, -, -, hrows, htext, hplain⟩ :=
    postgres_deleteFrom true hsql
  obtain rfl := hplain.mpr (by decide +kernel)
  exact ⟨hsql, target, rows, hrows, htext⟩

/-- A correlation name with parentheses is taken for an expression. -/
theorem Dialect.postgres_deleteFrom_parenthesized :
    let s := (Statement.ofDialect (postgres true)).applyAll
      [.selectFrom (.ofName "orders AS o (old)") []]
    let behind := " FROM \"orders\" AS \"o (old)\""
    let around (rows : String) := "DELETE FROM \"orders\" WHERE ctid IN (" ++ rows ++ ")"
    let expected := "SELECT \"o (old)\".\"ctid\"" ++ behind
    Statement.Reachable s ∧
      s.table? "o (old)" = some ⟨"o (old)", none, none, .name "orders", none⟩ ∧
      (s.selectRowIds "o (old)").columns = [.expression (some "o (old)") "o (old).ctid" none] ∧
      s.deleteSql "o (old)" = .ok (around ("SELECT o (old).ctid" ++ behind)) ∧
      { s with distinct := false, columns := [.rowId "o (old)"] : Statement }.assemble =
        .ok expected ∧
      s.deleteSql "o (old)" ≠ .ok (around expected) := by
  intro s behind around expected
  have hs : Statement.Reachable s :=
    (Statement.ReachableBy.empty _).applyAll _ (by simp [Statement.absorbed?])
  have hsql : s.deleteSql "o (old)" = .ok (around ("SELECT o (old).ctid" ++ behind)) := by
    decide +kernel
  refine ⟨hs, by rfl, by decide +kernel, hsql, by decide +kernel, ?_⟩
  rw [hsql]
  decide

end SelectQuery
