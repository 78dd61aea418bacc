import SelectQuery.Proofs.Containment
import SelectQuery.Proofs.Qualifier

/-!
# Aliases in the select list

The alias of a column is left out where the column has that name without it. The column ends in the
quoted alias nevertheless: a name that arrives bare is quoted like an alias, and one that arrives
between quote symbols is quoted again.

* `KnownAs`: the columns that have a name without an alias;
* `ShownAs`: a column with its alias in the select list;
* `Dialect.exists_writeIdentifier_eq`: identifiers that end in a name, as text;
* `Dialect.exists_quoteColumn_eq`: the identifier that a column is written as;
* `exists_shownAs`, `ShownAs.closed`: every column with an alias is shown so, and its alias starts
  outside of strings and other names;
* `ShownAs.renderColumn_eq_iff`: when `AS` is left out;
* **`renderColumn_ends_in_alias`**: no alias is lost.
-/

namespace SelectQuery

/-- A column is known by a name: it is an identifier that ends in it, bare or between quote
symbols. -/
inductive KnownAs (d : Dialect) (column : Column) (name : String) : Prop
  | intro {text : String} {ident : Identifier} (hcontent : column.content = .ident text)
      (hread : d.readIdentifier text = .ok ident)
      (hlast : ident.segments.getLast? = some (.plain name) ∨
        ident.segments.getLast? = some (.quoted name))

/-- Segments with a dot behind each of them. -/
def Dialect.writeDotted (d : Dialect) (segments : List Segment) : String :=
  String.join (segments.map fun segment => segment.write d.quoteSymbol d.autoQuote ++ ".")

/-- How a column shows its alias: `front` stands in front of the quoted alias. -/
inductive ShownAs (d : Dialect) (column : Column) (name front : String) : Prop
  /-- The column is known by the name, which stands behind the other segments of its identifier. -/
  | known (h : KnownAs d column name) {others : List Segment}
      (hfront : front = d.writeDotted others)
      (hbare : d.renderColumn { column with aliasName := none } =
        .ok (front ++ quoteName d.quoteSymbol name))
  /-- The name follows the column with `AS` in between. -/
  | named (h : ¬ KnownAs d column name) {bare : String}
      (hbare : d.renderColumn { column with aliasName := none } = .ok bare)
      (hfront : front = bare ++ " AS ")

variable {d : Dialect} {column : Column} {name item : String}

/-! ## Names of identifiers -/

theorem Identifier.lastName?_eq_some_iff {ident : Identifier} :
    ident.lastName? = some name ↔ ident.segments.getLast? = some (.plain name) ∨
      ident.segments.getLast? = some (.quoted name) := by
  unfold lastName?
  cases ident.segments.getLast? with
  | none => simp
  | some last => cases last <;> simp [Segment.name?]

namespace Dialect

theorem writeIdentifier_append_singleton (d : Dialect) (others : List Segment) (last : Segment) :
    d.writeIdentifier ⟨others ++ [last]⟩ =
      d.writeDotted others ++ last.write d.quoteSymbol d.autoQuote := by
  unfold writeIdentifier Identifier.write writeDotted
  induction others with
  | nil => simp
  | cons first rest ih =>
    have hne : (rest ++ [last]).map (Segment.write d.quoteSymbol d.autoQuote) ≠ [] := by simp
    rw [List.cons_append, List.map_cons, String.intercalate_cons_of_ne_nil hne, ih, List.map_cons,
      String.join_cons]
    simp only [String.append_assoc]

theorem exists_writeIdentifier_eq (hquote : d.autoQuote = true) (before : List Segment)
    {ident : Identifier} (h : ident.lastName? = some name) :
    ∃ others : List Segment, d.writeIdentifier ⟨before ++ ident.segments⟩ =
      d.writeDotted others ++ quoteName d.quoteSymbol name := by
  have hlast : ∃ last, ident.segments.getLast? = some last ∧
      last.write d.quoteSymbol true = quoteName d.quoteSymbol name := by
    rcases Identifier.lastName?_eq_some_iff.mp h with h | h
    · exact ⟨_, h, rfl⟩
    · exact ⟨_, h, rfl⟩
  obtain ⟨last, hlast, hwrite⟩ := hlast
  obtain ⟨others, hsegments⟩ := List.getLast?_eq_some_iff.mp hlast
  refine ⟨before ++ others, ?_⟩
  rw [hsegments, ← List.append_assoc, writeIdentifier_append_singleton, hquote, hwrite]

/-! ## Columns without and with their aliases -/

theorem quoteColumnAs_eq {ref : ColumnRef} {written : String × Option String}
    (h : d.quoteColumn ref = .ok written) (aliasName : Option String) :
    d.quoteColumnAs ref aliasName = .ok (written.1 ++ d.asClause written.2 aliasName) := by
  rw [quoteColumnAs, h]
  rfl

theorem quoteColumnAs_none {ref : ColumnRef} {written : String × Option String}
    (h : d.quoteColumn ref = .ok written) : d.quoteColumnAs ref none = .ok written.1 := by
  rw [quoteColumnAs_eq h, asClause, String.append_empty]

theorem exists_renderColumn_ident (d : Dialect) {text : String} (htext : text ≠ "*")
    (correlation : Option String) :
    ∃ ref : ColumnRef, (ref = .name text ∨ ∃ front, ref = .qualified front text) ∧
      ∀ aliasName, d.renderColumn ⟨correlation, .ident text, aliasName⟩ =
        d.quoteColumnAs ref aliasName := by
  cases correlation with
  | none => exact ⟨_, .inl rfl, fun aliasName => by simp [renderColumn, htext]⟩
  | some front => exact ⟨_, .inr ⟨front, rfl⟩, fun aliasName => by simp [renderColumn, htext]⟩

theorem exists_quoteColumn_eq {text : String} {ref : ColumnRef}
    (href : ref = .name text ∨ ∃ front, ref = .qualified front text)
    {written : String × Option String} (h : d.quoteColumn ref = .ok written) :
    ∃ before ident, d.readIdentifier text = .ok ident ∧
      d.writeIdentifier ⟨before ++ ident.segments⟩ = written.1 ∧ ident.lastName? = written.2 := by
  rcases href with rfl | ⟨front, rfl⟩
  · obtain ⟨ident, hread, h⟩ := bind_eq_ok_iff.mp h
    rw [← pure_eq_ok_iff.mp h]
    exact ⟨[], ident, hread, rfl, rfl⟩
  · obtain ⟨qualifier, -, h⟩ := bind_eq_ok_iff.mp h
    obtain ⟨ident, hread, h⟩ := bind_eq_ok_iff.mp h
    rw [← pure_eq_ok_iff.mp h]
    exact ⟨qualifier.segments, ident, hread, rfl, rfl⟩

end Dialect

theorem knownAs_iff {text : String} {ident : Identifier} (hcontent : column.content = .ident text)
    (hread : d.readIdentifier text = .ok ident) :
    KnownAs d column name ↔ ident.lastName? = some name := by
  rw [Identifier.lastName?_eq_some_iff]
  refine ⟨fun ⟨hother, hreadother, hlast⟩ => ?_, .intro hcontent hread⟩
  cases hcontent.symm.trans hother
  cases hread.symm.trans hreadother
  exact hlast

theorem not_knownAs_of_raw {sql : String} (hcontent : column.content = .raw sql) :
    ¬ KnownAs d column name := by
  rintro ⟨hident, -, -⟩
  cases hcontent.symm.trans hident

/-- **Every column with an alias shows it.** -/
theorem exists_shownAs (hquote : d.autoQuote = true) (halias : column.aliasName = some name)
    (hname : name ≠ "") (hstar : column.content ≠ .ident "*")
    (h : d.renderColumn column = .ok item) :
    ∃ front, ShownAs d column name front ∧ item = front ++ quoteName d.quoteSymbol name := by
  have hquoted : d.quoteAlias name = quoteName d.quoteSymbol name := by
    rw [Dialect.quoteAlias, if_pos hquote]
  obtain ⟨correlation, content, _⟩ := column
  cases halias
  cases content with
  | raw sql =>
    have hknown : ¬ KnownAs d ⟨correlation, .raw sql, some name⟩ name := not_knownAs_of_raw rfl
    have hwritten : d.quoteColumn (.raw sql) = .ok (sql, none) := rfl
    have hitem := (Dialect.quoteColumnAs_eq hwritten (some name)).symm.trans h
    rw [Dialect.asClause_of_ne hname (Option.some_ne_none name).symm, hquoted,
      ← String.append_assoc] at hitem
    exact ⟨_, .named hknown (Dialect.quoteColumnAs_none hwritten) rfl, (Except.ok.inj hitem).symm⟩
  | ident text =>
    obtain ⟨ref, href, hrender⟩ :=
      d.exists_renderColumn_ident (fun heq => hstar (congrArg _ heq)) correlation
    rw [hrender] at h
    obtain ⟨written, hwritten, -⟩ := bind_eq_ok_iff.mp h
    obtain ⟨before, ident, hread, htext, hlast⟩ := Dialect.exists_quoteColumn_eq href hwritten
    have hknown : KnownAs d ⟨correlation, .ident text, some name⟩ name ↔ written.2 = some name :=
      hlast ▸ knownAs_iff rfl hread
    have hbare := (hrender none).trans (Dialect.quoteColumnAs_none hwritten)
    have hitem := (Dialect.quoteColumnAs_eq hwritten (some name)).symm.trans h
    by_cases hsame : written.2 = some name
    · obtain ⟨others, hothers⟩ :=
        Dialect.exists_writeIdentifier_eq hquote before (hlast.trans hsame)
      rw [hsame, Dialect.asClause_of_eq, String.append_empty, ← htext, hothers] at hitem
      rw [← htext, hothers] at hbare
      exact ⟨_, .known (hknown.mpr hsame) rfl hbare, (Except.ok.inj hitem).symm⟩
    · rw [Dialect.asClause_of_ne hname hsame, hquoted, ← String.append_assoc] at hitem
      exact ⟨_, .named (mt hknown.mp hsame) hbare rfl, (Except.ok.inj hitem).symm⟩

/-! ## What stands in front of the alias -/

section

variable {f : Config.Family} {front : String}

theorem Dialect.closed_writeDotted (hd : d.QuotesAs f) (segments : List Segment) :
    f.lexicon.Closed (d.writeDotted segments) := by
  refine Lexicon.closed_join (List.forall_mem_map.mpr fun segment _ => ?_)
  have hsegment := closed_writeIdentifier hd ⟨[segment]⟩
  rw [writeIdentifier, Identifier.write, List.map_singleton, String.intercalate_singleton]
    at hsegment
  exact hsegment.append (Lexicon.closed_of_plain f "." (by decide))

/-- **The quoted alias starts outside of strings and other names**, if SQL text of a column leaves
none of them open. -/
theorem ShownAs.closed (h : ShownAs d column name front) (hd : d.QuotesAs f)
    (hraw : ∀ sql, column.content = .raw sql → f.lexicon.Closed sql) : f.lexicon.Closed front := by
  cases h with
  | known _ hfront _ => exact hfront ▸ Dialect.closed_writeDotted hd _
  | named _ hbare hfront =>
    have hfragments : ∀ text ∈ column.fragments, f.lexicon.Closed text := by
      unfold Column.fragments
      cases hcontent : column.content with
      | raw sql => exact List.forall_mem_singleton.mpr (hraw sql hcontent)
      | ident text => exact List.forall_mem_nil _
    have hyields : Yields f.lexicon.Closed (d.renderColumn { column with aliasName := none }) :=
      Dialect.yields_renderColumn hd hfragments
    exact hfront ▸ (hyields _ hbare).append (Lexicon.closed_of_plain f " AS " (by decide))

theorem ShownAs.renderColumn_eq_iff (h : ShownAs d column name front) :
    d.renderColumn { column with aliasName := none } =
      .ok (front ++ quoteName d.quoteSymbol name) ↔ KnownAs d column name := by
  cases h with
  | known h _ hbare => exact iff_of_true hbare h
  | named h hbare hfront =>
    refine iff_of_false (fun heq => ?_) h
    -- the text without the alias is shorter
    rw [hbare, hfront] at heq
    have hlength := congrArg String.length (Except.ok.inj heq)
    have hseparator : " AS ".length = 4 := rfl
    simp only [String.length_append] at hlength
    omega

theorem ShownAs.front_eq_of_raw (h : ShownAs d column name front) {sql : String}
    (hcontent : column.content = .raw sql) : front = sql ++ " AS " := by
  cases h with
  | known h _ _ => exact absurd h (not_knownAs_of_raw hcontent)
  | named _ hbare hfront =>
    have hwritten : d.quoteColumn (.raw sql) = .ok (sql, none) := rfl
    have hsql : d.renderColumn { column with aliasName := none } = .ok sql := by
      rw [Dialect.renderColumn, hcontent]
      exact Dialect.quoteColumnAs_none hwritten
    rw [hfront, ← Except.ok.inj (hsql.symm.trans hbare)]

end

/-- **No alias is lost**: an item with a nonempty alias ends in the quoted alias, which starts
outside of strings and other names. `AS` is missing where the column is an identifier whose last
segment is the alias, bare or between quote symbols, and only there; it is never missing behind SQL
text. -/
theorem renderColumn_ends_in_alias (f : Config.Family) {column : Column} {name item : String}
    (halias : column.aliasName = some name) (hname : name ≠ "")
    (hstar : column.content ≠ .ident "*")
    (h : (Config.dialect ⟨f, true⟩).renderColumn column = .ok item) :
    let d := Config.dialect ⟨f, true⟩
    (∃ front, ShownAs d column name front ∧ item = front ++ quoteName d.quoteSymbol name ∧
      ((∀ sql, column.content = .raw sql → f.lexicon.Closed sql) → f.lexicon.Closed front)) ∧
    (d.renderColumn { column with aliasName := none } = .ok item ↔ KnownAs d column name) ∧
    ∀ sql, column.content = .raw sql → item = sql ++ " AS " ++ quoteName d.quoteSymbol name := by
  intro d
  have hd : d.QuotesAs f := Dialect.quotesAs_dialect f
  obtain ⟨front, hshown, rfl⟩ := exists_shownAs hd.auto halias hname hstar h
  refine ⟨⟨front, hshown, rfl, hshown.closed hd⟩, hshown.renderColumn_eq_iff, fun sql hraw => ?_⟩
  rw [hshown.front_eq_of_raw hraw]

/-- The last segment of `o`, `x."a""b"` is the alias `a"b`, so the item has no `AS`. -/
theorem renderColumn_ends_in_alias_doubled_quote :
    let d := Config.dialect ⟨.postgres, true⟩
    let column : Column := ⟨some "o", .ident "x.\"a\"\"b\"", some "a\"b"⟩
    d.renderColumn column = .ok "\"o\".\"x\".\"a\"\"b\"" ∧
      d.renderColumn { column with aliasName := none } = .ok "\"o\".\"x\".\"a\"\"b\"" ∧
      KnownAs d column "a\"b" := by
  intro d column
  have h : d.renderColumn column = .ok "\"o\".\"x\".\"a\"\"b\"" := by decide +kernel
  have hbare : d.renderColumn { column with aliasName := none } =
      .ok "\"o\".\"x\".\"a\"\"b\"" := by decide +kernel
  obtain ⟨-, hknown, -⟩ := renderColumn_ends_in_alias .postgres rfl (by decide) (by decide) h
  exact ⟨h, hbare, hknown.mp hbare⟩

end SelectQuery
