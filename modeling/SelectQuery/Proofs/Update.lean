import SelectQuery.Proofs.Misuse
import SelectQuery.Proofs.Qualifier
import SelectQuery.Proofs.SelectList

/-!
# UPDATE made from a SELECT

Every column of the select list becomes an assignment, in its place. Where SET has to name the
updated table, it is always one quoted name, while the UPDATE clause without an alias reads it as an
identifier: they agree on bare names.

* `Assigns`, `Statement.assignments_eq_ok_iff`: the assignments of a select list;
* `Updates`, `Dialect.updateFrom_eq_ok_iff`: the text of an UPDATE around its assignments;
* **`Statement.updateFrom_assigns`**: what becomes of the select list of a reachable statement;
* `Targets`: the words that introduce the updated table;
* **`Dialect.mysql_qualifier_iff`**: when SET names the table as the UPDATE clause does.
-/

namespace SelectQuery

/-! ## Assignments -/

/-- The assignment of a column: to its alias, or else to its name, of what it shows without an
alias. -/
structure Assigns (d : Dialect) (column : Column) (a : Assignment) : Prop where
  target : column.aliasName = some a.target ∨
    column.aliasName = none ∧ column.content = .ident a.target ∧ a.target ≠ "*"
  value : d.renderColumn { column with aliasName := none } = .ok a.value

namespace Statement

theorem assignmentTarget_eq_ok_iff {column : Column} {target : String} :
    assignmentTarget column = .ok target ↔ column.aliasName = some target ∨
      column.aliasName = none ∧ column.content = .ident target ∧ target ≠ "*" := by
  obtain ⟨correlation, content, aliasName⟩ := column
  cases aliasName with
  | some aliasName => simp [assignmentTarget]
  | none =>
    cases content with
    | raw sql => simp [assignmentTarget]
    | ident name =>
      simp only [assignmentTarget, reduceCtorEq, true_and, false_or, ColumnContent.ident.injEq]
      split
      next hstar =>
        refine iff_of_false (fun h => nomatch h) ?_
        rintro ⟨rfl, hne⟩
        exact hne hstar
      next hne =>
        rw [Except.ok.injEq]
        exact ⟨fun h => ⟨h, h ▸ hne⟩, And.left⟩

theorem assignmentValue_eq_renderColumn (d : Dialect) (column : Column) :
    assignmentValue d column = d.renderColumn { column with aliasName := none } := by
  obtain ⟨correlation, content, aliasName⟩ := column
  cases content with
  | raw sql => exact congrArg Except.ok String.append_empty.symm
  | ident name =>
    simp only [assignmentValue, Dialect.renderColumn, ite_self]
    cases correlation with
    | some correlation => rfl
    | none =>
      simp only [Dialect.quoteIdentifier, Dialect.quoteColumnAs, Dialect.quoteColumn]
      cases d.readIdentifier name with
      | error e => rfl
      | ok ident => exact congrArg Except.ok String.append_empty.symm

theorem not_assigns_of_unassignable {d : Dialect} {column : Column} {a : Assignment} {e : Error}
    (h : Unassignable column e) : ¬Assigns d column a := by
  rintro ⟨htarget, -⟩
  cases h with
  | wildcard =>
    obtain ⟨-, hname, hne⟩ := htarget.resolve_left nofun
    exact hne (ColumnContent.ident.inj hname).symm
  | expression =>
    obtain ⟨-, hname, -⟩ := htarget.resolve_left nofun
    cases hname

theorem assignment_eq_ok_iff {d : Dialect} {column : Column} {a : Assignment} :
    assignment d column = .ok a ↔ Assigns d column a := by
  simp only [assignment, bind_eq_ok_iff, pure_eq_ok_iff, assignmentTarget_eq_ok_iff,
    assignmentValue_eq_renderColumn]
  constructor
  · rintro ⟨target, htarget, value, hvalue, rfl⟩
    exact ⟨htarget, hvalue⟩
  · rintro ⟨htarget, hvalue⟩
    exact ⟨_, htarget, _, hvalue, rfl⟩

theorem assignments_eq_ok_iff {s : Statement} {assigned : List Assignment} :
    s.assignments = .ok assigned ↔
      s.columns ≠ [] ∧ List.Forall₂ (Assigns s.dialect) s.columns assigned := by
  unfold assignments
  split
  next hempty => simp [List.isEmpty_iff.mp hempty]
  next hempty =>
    rw [mapM_eq_ok_iff]
    simp only [assignment_eq_ok_iff]
    exact (and_iff_right (by simpa using hempty)).symm

end Statement

/-! ## The text of an UPDATE -/

namespace Dialect

/-- The assignments of SET, with `qualifier` in front of every target. -/
def setItems (d : Dialect) (qualifier : String) (assigned : List Assignment) : String :=
  ", ".intercalate (assigned.map fun a => qualifier ++ d.quoteAlias a.target ++ " = " ++ a.value)

end Dialect

/-- The text of an UPDATE in a dialect that has one. -/
inductive Updates (d : Dialect) (s : Statement) (table : String) (aliasName : Option String)
    (assigned : List Assignment) : String → Prop
  /-- The tables of the statement stand in a FROM clause. -/
  | fromClause {target source : String} (hstyle : d.updateStyle = .fromClause)
      (htarget : d.quoteTableAs none table (some (Dialect.targetName table aliasName)) = .ok target)
      (hsource : s.fromClause = .ok source) :
      Updates d s table aliasName assigned ("UPDATE " ++ target ++ " SET " ++
        d.setItems "" assigned ++ source ++ Dialect.whereClause s.predicates)
  /-- They are joined to the target, whose name stands in front of what is assigned to. -/
  | joins {target joined : String} (hstyle : d.updateStyle = .joins)
      (htarget : d.quoteTableAs none table (some (Dialect.targetName table aliasName)) = .ok target)
      (hjoined : s.dialect.joinedTables s.outcomes.tables = .ok joined) :
      Updates d s table aliasName assigned ("UPDATE " ++ target ++ joined ++ " SET " ++
        d.setItems (d.quoteAlias (Dialect.targetName table aliasName) ++ ".") assigned ++
        Dialect.whereClause s.predicates)

namespace Dialect

variable {d : Dialect} {s : Statement} {table : String} {aliasName : Option String} {sql : String}

/-- **The text of an UPDATE** has the assignments of the select list in its SET. -/
theorem updateFrom_eq_ok_iff : d.updateFrom s table aliasName = .ok sql ↔
    ∃ assigned, s.assignments = .ok assigned ∧ Updates d s table aliasName assigned sql := by
  have hitems (assigned : List Assignment) :
      d.setItems "" assigned = ", ".intercalate
        (assigned.map fun a => d.quoteAlias a.target ++ " = " ++ a.value) := by
    simp only [setItems, String.empty_append]
  unfold updateFrom
  split
  next hstyle =>
    simp only [bind_eq_ok_iff, pure_eq_ok_iff, ← hitems]
    constructor
    · rintro ⟨assigned, hassigned, target, htarget, source, hsource, rfl⟩
      exact ⟨assigned, hassigned, .fromClause hstyle htarget hsource⟩
    · rintro ⟨assigned, hassigned, hsql⟩
      cases hsql with
      | fromClause _ htarget hsource => exact ⟨_, hassigned, _, htarget, _, hsource, rfl⟩
      | joins hjoins => simp [hstyle] at hjoins
  next hstyle =>
    simp only [bind_eq_ok_iff, pure_eq_ok_iff]
    constructor
    · rintro ⟨assigned, hassigned, target, htarget, joined, hjoined, rfl⟩
      exact ⟨assigned, hassigned, .joins hstyle htarget hjoined⟩
    · rintro ⟨assigned, hassigned, hsql⟩
      cases hsql with
      | fromClause hfrom => simp [hstyle] at hfrom
      | joins _ htarget hjoined => exact ⟨_, hassigned, _, htarget, _, hjoined, rfl⟩

end Dialect

namespace Statement

/-! ## The select list of a reachable statement -/

/-- **What becomes of the select list in an UPDATE.** A column of all columns has nothing to assign
to without an alias. A text has one assignment for each column, in the same order, and it is refused
exactly where there is no column or where the first one that cannot be assigned from is of all
columns or SQL text, without an alias. -/
theorem updateFrom_assigns (config : Config) {s : Statement}
    (hs : s.ReachableBy (setsColumns · = false)) (table : String) (aliasName : Option String) :
    let d := config.dialect
    (∀ column ∈ s.columns, column.IsWildcard s.dialect → column.aliasName = none →
      Unassignable column (.validation "cannot assign from a wildcard column")) ∧
    (∀ sql, d.updateFrom s table aliasName = .ok sql →
      s.columns ≠ [] ∧
      (∀ column ∈ s.columns, column.IsWildcard s.dialect → column.aliasName ≠ none) ∧
      ∃ assigned, List.Forall₂ (Assigns s.dialect) s.columns assigned ∧
        Updates d s table aliasName assigned sql) ∧
    ∀ reason, d.updateFrom s table aliasName = .error (.validation reason) ↔
      Unassigned s.dialect s.columns (.validation reason) := by
  intro d
  have hundotted := hs.forall_columns (fun _ => id) fun _ _ _ => undotted_of_classify
  have hwildcard : ∀ column ∈ s.columns, column.IsWildcard s.dialect → column.aliasName = none →
      Unassignable column (.validation "cannot assign from a wildcard column") := by
    intro column hmem hcolumn hnone
    have hcontent := eq_wildcard_of_undotted (hundotted column hmem) hcolumn
    obtain ⟨correlation, content, columnAlias⟩ := column
    obtain rfl : content = .ident "*" := hcontent
    obtain rfl : columnAlias = none := hnone
    exact .wildcard correlation
  refine ⟨hwildcard, fun sql hsql => ?_, fun reason => ?_⟩
  · obtain ⟨assigned, hassigned, htext⟩ := Dialect.updateFrom_eq_ok_iff.mp hsql
    obtain ⟨hne, hall⟩ := assignments_eq_ok_iff.mp hassigned
    refine ⟨hne, fun column hmem hcolumn hnone => ?_, assigned, hall, htext⟩
    obtain ⟨a, -, ha⟩ := exists_of_forall₂ hall hmem
    exact not_assigns_of_unassignable (hwildcard column hmem hcolumn hnone) ha
  · have hblames : ¬(Error.validation reason).Blames := Bool.false_ne_true
    exact updateFrom_eq_error_iff hblames

theorem updateFrom_assigns_expression :
    let s := (ofDialect (Config.dialect {})).applyAll
      [.selectFrom (.ofName "orders AS o") [.ofText "id", .ofText "sum(o.total) AS total"]]
    let d := Config.dialect {}
    let sql := "UPDATE \"t\" SET \"id\" = \"o\".\"id\", \"total\" = sum(o.total)" ++
      " FROM \"orders\" AS \"o\""
    s.ReachableBy (setsColumns · = false) ∧ d.updateFrom s "t" none = .ok sql ∧
      ∃ assigned, List.Forall₂ (Assigns s.dialect) s.columns assigned ∧
        Updates d s "t" none assigned sql := by
  intro s d sql
  have hs : s.ReachableBy (setsColumns · = false) :=
    (ReachableBy.empty _).applyAll _ (by simp [setsColumns, absorbed?])
  have hsql : d.updateFrom s "t" none = .ok sql := by decide +kernel
  obtain ⟨-, htext, -⟩ := updateFrom_assigns {} hs "t" none
  exact ⟨hs, hsql, (htext sql hsql).2.2⟩

/-- A wildcard with an alias is assigned. -/
theorem aliased_wildcard_assigned :
    let s := (ofDialect (Config.dialect {})).applyAll
      [.selectFrom (.ofName "orders AS o") [.ofText "o.* AS x"]]
    let column : Column := ⟨some "o", .ident "*", some "x"⟩
    s.ReachableBy (setsColumns · = false) ∧ column ∈ s.columns ∧ column.IsWildcard s.dialect ∧
      s.updateSql "t" none =
        .ok "UPDATE \"t\" SET \"x\" = \"o\".* FROM \"orders\" AS \"o\"" := by
  intro s column
  have hs : s.ReachableBy (setsColumns · = false) :=
    (ReachableBy.empty _).applyAll _ (by simp [setsColumns, absorbed?])
  have hwildcard : column.IsWildcard s.dialect := ⟨"*", ⟨[.wildcard]⟩, rfl, by rfl, rfl⟩
  exact ⟨hs, by decide, hwildcard, by decide +kernel⟩

end Statement

/-! ## The name of the updated table -/

/-- The words of an UPDATE that introduce its target under `name`, and the text of the name that
they give it: its alias, or the table itself where that is the name. -/
inductive Targets (d : Dialect) (table name : String) : String → String → Prop
  | named {quoted : String} (hname : name = table) (h : d.quoteIdentifier table = .ok quoted) :
      Targets d table name quoted quoted
  | renamed {quoted : String} (hname : name ≠ table) (h : d.quoteIdentifier table = .ok quoted) :
      Targets d table name (quoted ++ " AS " ++ d.quoteAlias name) (d.quoteAlias name)

namespace Dialect

theorem targetName_ne_empty {table : String} (htable : table ≠ "") (aliasName : Option String) :
    targetName table aliasName ≠ "" := by
  unfold targetName TableInput.nonempty
  cases aliasName with
  | none => exact htable
  | some aliasName =>
    by_cases hempty : aliasName = ""
    · simpa [Option.filter, hempty] using htable
    · simp [Option.filter, hempty]

variable {d : Dialect} {table : String} {aliasName : Option String} {target introduced : String}

theorem exists_targets
    (h : d.quoteTableAs none table (some (targetName table aliasName)) = .ok target) :
    ∃ introduced, Targets d table (targetName table aliasName) target introduced := by
  simp only [quoteTableAs, bind_eq_ok_iff, pure_eq_ok_iff] at h
  obtain ⟨_, rfl, quoted, hquoted, rfl⟩ := h
  rw [String.empty_append]
  by_cases hname : targetName table aliasName = table
  · rw [hname, asClause_of_eq, String.append_empty]
    exact ⟨quoted, .named rfl hquoted⟩
  · have htable : table ≠ "" := by
      rintro rfl
      -- the reader refuses the empty text
      cases hquoted
    have hempty := targetName_ne_empty htable aliasName
    rw [asClause_of_ne hempty (mt Option.some.inj (Ne.symm hname)), ← String.append_assoc]
    exact ⟨_, .renamed hname hquoted⟩

end Dialect

namespace Targets

variable {d : Dialect} {table name target introduced : String}

theorem quoteAlias_eq_iff (hsymbol : d.quoteSymbol ≠ '.')
    (h : Targets d table name target introduced) :
    d.quoteAlias name = introduced ↔
      name ≠ table ∨ d.autoQuote = false ∨ Identifier.IsBare d.quoteSymbol table := by
  cases h with
  | renamed hname _ => exact iff_of_true rfl (.inl hname)
  | named hname h =>
    obtain ⟨ident, hread, rfl⟩ := map_eq_ok_iff.mp h
    rw [hname, Dialect.quoteAlias, Dialect.writeIdentifier]
    cases hquote : d.autoQuote with
    | false => exact iff_of_true (Identifier.write_of_parse hread).symm (.inr (.inl rfl))
    | true =>
      have hbare := Identifier.quoted_eq_quoteName_iff hread hsymbol
      rw [if_pos rfl, eq_comm]
      exact hbare.trans (by simp)

end Targets

namespace Dialect

/-- **When SET names the updated table as the UPDATE clause does**, in MySQL: where an alias is
written, where names are not quoted, and where the table is a bare name. The name stands in front of
every target. -/
theorem mysql_qualifier_iff (autoQuote : Bool) {s : Statement} {table : String}
    {aliasName : Option String} {sql : String}
    (h : (mysql autoQuote).updateFrom s table aliasName = .ok sql) :
    let d := mysql autoQuote
    let name := targetName table aliasName
    ∃ assigned target introduced joined,
      s.assignments = .ok assigned ∧ Targets d table name target introduced ∧
      s.dialect.joinedTables s.outcomes.tables = .ok joined ∧
      sql = "UPDATE " ++ target ++ joined ++ " SET " ++
        d.setItems (d.quoteAlias name ++ ".") assigned ++ whereClause s.predicates ∧
      (d.quoteAlias name = introduced ↔
        name ≠ table ∨ autoQuote = false ∨ Identifier.IsBare d.quoteSymbol table) := by
  intro d name
  obtain ⟨assigned, hassigned, hsql⟩ := updateFrom_eq_ok_iff.mp h
  cases hsql with
  | fromClause hstyle => cases hstyle
  | joins _ htarget hjoined =>
    obtain ⟨introduced, htargets⟩ := exists_targets htarget
    have hsymbol : '\x60' ≠ '.' := by decide
    exact ⟨assigned, _, introduced, _, hassigned, htargets, hjoined, rfl,
      htargets.quoteAlias_eq_iff hsymbol⟩

theorem mysql_qualifier_bare :
    let d := mysql true
    let s := (Statement.ofDialect d).applyAll
      [.selectFrom (.ofName "totals AS t") [.ofText "amount AS total"]]
    let sql := "UPDATE `orders` INNER JOIN `totals` AS `t` SET `orders`.`total` = `t`.`amount`"
    d.updateFrom s "orders" none = .ok sql ∧
      ∃ assigned target joined, s.assignments = .ok assigned ∧
        Targets d "orders" "orders" target (d.quoteAlias "orders") ∧
        sql = "UPDATE " ++ target ++ joined ++ " SET " ++
          d.setItems (d.quoteAlias "orders" ++ ".") assigned ++ whereClause s.predicates := by
  intro d s sql
  have hsql : d.updateFrom s "orders" none = .ok sql := by decide +kernel
  obtain ⟨assigned, target, introduced, joined, hassigned, htargets, -, htext, hiff⟩ :=
    mysql_qualifier_iff true hsql
  obtain rfl := hiff.mpr (.inr (.inr (by decide)))
  exact ⟨hsql, assigned, target, joined, hassigned, htargets, htext⟩

/-- A target with a schema is introduced as two names, and named as one in SET. -/
theorem mysql_qualifier_of_schema :
    let d := mysql true
    let s := (Statement.ofDialect d).applyAll
      [.selectFrom (.ofName "totals AS t") [.ofText "amount AS total"]]
    let sql := "UPDATE `shop`.`orders` INNER JOIN `totals` AS `t`" ++
      " SET `shop.orders`.`total` = `t`.`amount`"
    s.updateSql "shop.orders" none = .ok sql ∧
      d.quoteIdentifier "shop.orders" = .ok "`shop`.`orders`" ∧
      Targets d "shop.orders" (targetName "shop.orders" none) "`shop`.`orders`"
        "`shop`.`orders`" ∧
      d.quoteAlias (targetName "shop.orders" none) ≠ "`shop`.`orders`" := by
  intro d s sql
  have hquoted : d.quoteIdentifier "shop.orders" = .ok "`shop`.`orders`" := by rfl
  exact ⟨by decide +kernel, hquoted, .named rfl hquoted, by decide⟩

end Dialect

end SelectQuery
