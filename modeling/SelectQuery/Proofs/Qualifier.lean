import SelectQuery.Proofs.Assembly
import SelectQuery.Proofs.Identifier
import SelectQuery.Proofs.Reachable

/-!
# Qualifiers and correlation names

The select list reads the correlation name of a column as an identifier, and FROM writes it as one
quoted name. The two agree on bare names alone.

* `Qualifies`: the text of a column with its qualifier;
* `Introduces`: the text of a table with the name that FROM gives it;
* `qualifier_eq_introduced`: when the two are the same;
* `Statement.exists_qualifier`: the two in the text of a statement.
-/

namespace SelectQuery

/-- A text is `qualifier`, which spells a correlation name, with a dot, the name of a column and its
alias behind it. -/
inductive Qualifies (d : Dialect) (correlation name : String) : String → String → Prop
  | intro {qualifier shown : String} (known aliasName : Option String)
      (h : d.quoteIdentifier correlation = .ok qualifier)
      (hname : d.quoteIdentifier name = .ok shown) :
      Qualifies d correlation name (qualifier ++ "." ++ shown ++ d.asClause known aliasName)
        qualifier

/-- A text of a table gives it the name `introduced`: its alias, or its own name where that is its
correlation name. -/
inductive Introduces {σ : Type} (d : Dialect) (table : TableRef σ) : String → String → Prop
  | named {name : String} (front : String) (hsource : table.source = .name table.correlation)
      (h : d.quoteIdentifier table.correlation = .ok name) : Introduces d table (front ++ name) name
  | renamed (what : String) (hsource : table.source ≠ .name table.correlation) :
      Introduces d table (what ++ " AS " ++ d.quoteAlias table.correlation)
        (d.quoteAlias table.correlation)

variable {d : Dialect}

/-! ## Columns -/

theorem Dialect.exists_quoteColumn_qualified {correlation name : String}
    {written : String × Option String}
    (h : d.quoteColumn (.qualified correlation name) = .ok written) :
    ∃ qualifier shown, d.quoteIdentifier correlation = .ok qualifier ∧
      d.quoteIdentifier name = .ok shown ∧ qualifier ++ "." ++ shown = written.1 := by
  obtain ⟨front, hfront, h⟩ := bind_eq_ok_iff.mp h
  obtain ⟨back, hback, h⟩ := bind_eq_ok_iff.mp h
  refine ⟨_, _, map_eq_ok_iff.mpr ⟨front, hfront, rfl⟩, map_eq_ok_iff.mpr ⟨back, hback, rfl⟩, ?_⟩
  rw [← pure_eq_ok_iff.mp h]
  exact (Identifier.write_append (Identifier.segments_ne_nil hfront)
    (Identifier.segments_ne_nil hback) d.quoteSymbol d.autoQuote).symm

theorem exists_qualifies {column : Column} {name correlation item : String}
    (hcontent : column.content = .ident name) (hcorrelation : column.correlation = some correlation)
    (h : d.renderColumn column = .ok item) :
    ∃ qualifier, Qualifies d correlation name item qualifier := by
  unfold Dialect.renderColumn at h
  rw [hcontent, hcorrelation] at h
  obtain ⟨written, hwritten, h⟩ := bind_eq_ok_iff.mp h
  obtain ⟨qualifier, shown, hqualifier, hshown, heq⟩ :=
    Dialect.exists_quoteColumn_qualified hwritten
  rw [← pure_eq_ok_iff.mp h, ← heq]
  exact ⟨qualifier, .intro _ _ hqualifier hshown⟩

theorem Qualifies.correlation_ne {correlation name item qualifier : String}
    (h : Qualifies d correlation name item qualifier) : correlation ≠ "" := by
  rintro rfl
  cases h with
  | intro known aliasName hqualifier =>
    -- the reader refuses the empty text
    cases hqualifier

/-! ## Tables -/

theorem Dialect.exists_quoteTableAs {schema : Option String} {table : String}
    {aliasName : Option String} {entry : String}
    (h : d.quoteTableAs schema table aliasName = .ok entry) :
    ∃ front name, d.quoteIdentifier table = .ok name ∧
      front ++ name ++ d.asClause (some table) aliasName = entry := by
  unfold Dialect.quoteTableAs at h
  -- the same chain of steps stands behind either schema
  have hname : ∀ front, (do
      let name ← d.quoteIdentifier table
      return front ++ name ++ d.asClause (some table) aliasName) = (.ok entry : Rendered) →
      ∃ front name, d.quoteIdentifier table = .ok name ∧
        front ++ name ++ d.asClause (some table) aliasName = entry := by
    intro front h
    obtain ⟨name, hname, h⟩ := bind_eq_ok_iff.mp h
    exact ⟨front, name, hname, pure_eq_ok_iff.mp h⟩
  cases schema with
  | none => exact hname "" h
  | some schema =>
    obtain ⟨quoted, -, h⟩ := bind_eq_ok_iff.mp h
    exact hname (quoted ++ ".") h

theorem Dialect.asClause_of_eq (name : String) : d.asClause (some name) (some name) = "" := by
  simp [asClause]

theorem Dialect.asClause_of_ne {known : Option String} {aliasName : String} (hne : aliasName ≠ "")
    (h : known ≠ some aliasName) :
    d.asClause known (some aliasName) = " AS " ++ d.quoteAlias aliasName := by
  simp [asClause, hne, h]

theorem exists_introduces {table : TableRef Rendered} {entry : String}
    (hcorrelation : table.correlation ≠ "") (h : d.renderTable table = .ok entry) :
    ∃ introduced, Introduces d table entry introduced := by
  unfold Dialect.renderTable at h
  split at h
  next name hsource =>
    obtain ⟨front, quoted, hquoted, rfl⟩ := Dialect.exists_quoteTableAs h
    by_cases hname : name = table.correlation
    · rw [hname] at hsource hquoted ⊢
      rw [Dialect.asClause_of_eq, String.append_empty]
      exact ⟨quoted, .named front hsource hquoted⟩
    · rw [Dialect.asClause_of_ne hcorrelation (mt Option.some.inj hname), ← String.append_assoc]
      exact ⟨_, .renamed _ (by simpa [hsource] using hname)⟩
  next sql hsource =>
    cases h
    exact ⟨_, .renamed sql (by simp [hsource])⟩
  next outcome hsource =>
    obtain ⟨sql, -, h⟩ := bind_eq_ok_iff.mp h
    have hsplit : ") AS " = ")" ++ " AS " := rfl
    rw [← pure_eq_ok_iff.mp h, hsplit, ← String.append_assoc]
    exact ⟨_, .renamed _ (by simp [hsource])⟩

theorem Introduces.of_map {σ τ : Type} {f : σ → τ} {table : TableRef σ} {entry introduced : String}
    (h : Introduces d (table.map f) entry introduced) : Introduces d table entry introduced := by
  have hsource : table.source.map f = .name table.correlation ↔
      table.source = .name table.correlation := by
    cases table.source <;> simp [Source.map]
  cases h with
  | named front hname hquoted => exact .named front (hsource.mp hname) hquoted
  | renamed what hname => exact .renamed what (mt hsource.mpr hname)

/-- **When the qualifier of a column is the name that FROM gives its table**: where FROM leaves the
alias out, or the correlation name is bare. A dot for a quote symbol makes more of them agree. -/
theorem qualifier_eq_introduced {σ : Type} (hquote : d.autoQuote = true) {table : TableRef σ}
    {name item qualifier entry introduced : String}
    (hitem : Qualifies d table.correlation name item qualifier)
    (hentry : Introduces d table entry introduced) :
    let Agrees := table.source = .name table.correlation ∨
      Identifier.IsBare d.quoteSymbol table.correlation
    (Agrees → qualifier = introduced) ∧
      (d.quoteSymbol ≠ '.' → qualifier = introduced → Agrees) := by
  intro Agrees
  cases hitem with
  | intro known aliasName hqualifier hname =>
    obtain ⟨ident, hread, rfl⟩ := map_eq_ok_iff.mp hqualifier
    cases hentry with
    | named front hsource h =>
      have heq := Except.ok.inj (hqualifier.symm.trans h)
      exact ⟨fun _ => heq, fun _ _ => .inl hsource⟩
    | renamed what hsource =>
      -- with names quoted, it is one quoted name against an identifier that was read
      have halias : d.quoteAlias table.correlation = quoteName d.quoteSymbol table.correlation := by
        rw [Dialect.quoteAlias, if_pos hquote]
      have hwrite : d.writeIdentifier ident = ident.quoted d.quoteSymbol := by
        rw [Dialect.writeIdentifier, hquote, Identifier.quoted]
      rw [halias, hwrite]
      constructor
      · exact fun h => Identifier.quoted_of_isBare hread (h.resolve_left hsource)
      · exact fun hsymbol heq => .inr ((Identifier.quoted_eq_quoteName_iff hread hsymbol).mp heq)

/-! ## Statements -/

namespace Statement

variable {s : Statement}

/-- **The qualifier of a column and the name that FROM gives its table** in the text of a statement
that quotes names: they are the same where FROM leaves the alias out, and where the correlation name
is bare; and only there, unless the quote symbol is a dot. -/
theorem exists_qualifier {sql : String} (hquote : s.dialect.autoQuote = true)
    (hsql : s.assemble = .ok sql) {column : Column} (hcolumn : column ∈ s.columns) {name : String}
    (hcontent : column.content = .ident name) {table : TableRef Statement}
    (htable : table ∈ s.tables) (hcorrelation : column.correlation = some table.correlation) :
    let d := s.dialect
    let Agrees := table.source = .name table.correlation ∨
      Identifier.IsBare d.quoteSymbol table.correlation
    ∃ list tables behind item entry qualifier introduced,
      sql = "SELECT" ++ s.outcomes.modifiers d ++ " " ++ list ++ " FROM " ++ tables ++ behind ∧
      d.renderColumns s.columns = .ok list ∧ d.renderColumn column = .ok item ∧
      item.toList <:+: list.toList ∧ Qualifies d table.correlation name item qualifier ∧
      d.renderTables s.outcomes.tables = .ok tables ∧
      d.renderTable (table.map assemble) = .ok entry ∧ entry.toList <:+: tables.toList ∧
      Introduces d table entry introduced ∧
      (Agrees → qualifier = introduced) ∧
      (d.quoteSymbol ≠ '.' → qualifier = introduced → Agrees) := by
  intro d Agrees
  rw [assemble_eq_render] at hsql
  have hmem : table.map assemble ∈ s.outcomes.tables := List.mem_map_of_mem htable
  obtain ⟨list, tables, behind, hlist, htables, htext⟩ :=
    Clauses.exists_render_eq (List.ne_nil_of_mem hmem) hsql
  obtain ⟨item, hitem, hitemin⟩ := Dialect.exists_renderColumn hlist hcolumn
  obtain ⟨entry, hentry, hentryin⟩ := Dialect.exists_renderTable htables hmem
  obtain ⟨qualifier, hqualifies⟩ := exists_qualifies hcontent hcorrelation hitem
  obtain ⟨introduced, hintroduced⟩ := exists_introduces hqualifies.correlation_ne hentry
  obtain ⟨hagree, honly⟩ := qualifier_eq_introduced hquote hqualifies hintroduced.of_map
  exact ⟨list, tables, behind, item, entry, qualifier, introduced, htext, hlist, hitem, hitemin,
    hqualifies, htables, hentry, hentryin, hintroduced.of_map, hagree, honly⟩

theorem exists_qualifier_bare :
    let s := (ofDialect (Config.dialect {})).applyAll
      [.selectFrom (.ofName "orders AS o") [.ofText "id"]]
    let d := s.dialect
    let sql := "SELECT \"o\".\"id\" FROM \"orders\" AS \"o\""
    let column : Column := ⟨some "o", .ident "id", none⟩
    let table : TableRef Statement := ⟨"o", none, none, .name "orders", none⟩
    d.autoQuote = true ∧ s.assemble = .ok sql ∧ column ∈ s.columns ∧ table ∈ s.tables ∧
      ∃ list tables behind item entry qualifier,
        sql = "SELECT" ++ s.outcomes.modifiers d ++ " " ++ list ++ " FROM " ++ tables ++ behind ∧
        item.toList <:+: list.toList ∧ Qualifies d "o" "id" item qualifier ∧
        entry.toList <:+: tables.toList ∧ Introduces d table entry qualifier := by
  intro s d sql column table
  have hsql : s.assemble = .ok sql := by decide +kernel
  have hcolumn : column ∈ s.columns := by decide
  have htable : table ∈ s.tables := .head _
  obtain ⟨list, tables, behind, item, entry, qualifier, introduced, htext, -, -, hitem,
    hqualifies, -, -, hentry, hintroduces, hagree, -⟩ :=
    exists_qualifier rfl hsql hcolumn rfl htable rfl
  obtain rfl := hagree (.inr (by decide))
  exact ⟨rfl, hsql, hcolumn, htable, list, tables, behind, item, entry, qualifier, htext, hitem,
    hqualifies, hentry, hintroduces⟩

/-- A correlation name with a dot is two names in the select list, and one in FROM. -/
theorem exists_qualifier_dotted :
    let s := (ofDialect (Config.dialect {})).applyAll
      [.selectFrom (.ofName "orders AS o.v1") [.ofText "id"]]
    let column : Column := ⟨some "o.v1", .ident "id", none⟩
    let table : TableRef Statement := ⟨"o.v1", none, none, .name "orders", none⟩
    Reachable s ∧ s.dialect.autoQuote = true ∧
      s.assemble = .ok "SELECT \"o\".\"v1\".\"id\" FROM \"orders\" AS \"o.v1\"" ∧
      column ∈ s.columns ∧ table ∈ s.tables ∧
      Qualifies s.dialect "o.v1" "id" "\"o\".\"v1\".\"id\"" "\"o\".\"v1\"" ∧
      Introduces s.dialect table "\"orders\" AS \"o.v1\"" "\"o.v1\"" ∧
      "\"o\".\"v1\"" ≠ s.dialect.quoteAlias "o.v1" := by
  intro s column table
  have hs : Reachable s := (ReachableBy.empty _).applyAll _ (by simp [absorbed?])
  have hqualifier : s.dialect.quoteIdentifier "o.v1" = .ok "\"o\".\"v1\"" := by rfl
  have hname : s.dialect.quoteIdentifier "id" = .ok "\"id\"" := by rfl
  have hsource : table.source ≠ .name table.correlation := mt Source.name.inj (by decide)
  have hentry : Introduces s.dialect table ("\"orders\"" ++ " AS " ++ s.dialect.quoteAlias "o.v1")
      (s.dialect.quoteAlias "o.v1") := .renamed "\"orders\"" hsource
  exact ⟨hs, rfl, by decide +kernel, by decide, .head _, .intro none none hqualifier hname, hentry,
    by decide⟩

end Statement

end SelectQuery
