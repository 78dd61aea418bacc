import SelectQuery.Proofs.Lexicon
import SelectQuery.Proofs.Outcome
import SelectQuery.Statement.Render

/-!
# Statements close their quotes

Texts that a statement takes over as they are may open a string or a quoted name and leave it open.
Nothing else in a statement can: names are quoted with their own quote symbols doubled.

* `Clauses.fragments`, `Clauses.nested`: the texts that are taken over, and the nested statements;
* `Statement.nested_induction`: what holds of a statement if it holds of those nested in it;
* `Contained`: statements whose texts are closed, at every depth;
* `Clauses.yields_render`: clauses are written as a closed text, given closed texts for the nested
  statements;
* `Contained.closed_assemble`: such a statement is written as a closed text.
-/

namespace SelectQuery

/-! ## Texts that are taken over -/

/-- The SQL text in a column. -/
def Column.fragments (column : Column) : List String :=
  match column.content with
  | .raw sql => [sql]
  | .ident _ => []

/-- The SQL text of a source. -/
def Source.fragments {σ : Type} : Source σ → List String
  | .expr sql => [sql]
  | .name _ | .select _ => []

/-- The statement of a source. -/
def Source.nested {σ : Type} : Source σ → List σ
  | .select s => [s]
  | .name _ | .expr _ => []

/-- The SQL texts of a table. -/
def TableRef.fragments {σ : Type} (table : TableRef σ) : List String :=
  table.source.fragments ++ table.condition.toList

/-- The SQL text in an entry of GROUP BY. -/
def GroupTerm.fragments : GroupTerm → List String
  | .raw sql => [sql]
  | .ident _ => []

/-- The SQL text in an entry of ORDER BY. -/
def OrderTerm.fragments : OrderTerm → List String
  | .raw sql => [sql]
  | .term value _ => if isExpression value.toList then [value] else []

/-- The SQL text of a union member. -/
def UnionTarget.fragments {σ : Type} : UnionTarget σ → List String
  | .raw sql => [sql]
  | .select _ => []

/-- The statement of a union member. -/
def UnionTarget.nested {σ : Type} : UnionTarget σ → List σ
  | .select s => [s]
  | .raw _ => []

namespace Clauses

variable {σ τ : Type}

/-- The texts that are taken over as they are. -/
def fragments (c : Clauses σ) : List String :=
  c.columns.flatMap Column.fragments ++ c.tables.flatMap TableRef.fragments ++
    c.predicates.map (·.text) ++ c.groups.flatMap GroupTerm.fragments ++ c.havings ++
    c.orders.flatMap OrderTerm.fragments ++ c.unions.flatMap (·.target.fragments)

/-- The nested statements. -/
def nested (c : Clauses σ) : List σ :=
  c.tables.flatMap (·.source.nested) ++ c.unions.flatMap (·.target.nested)

theorem fragments_map (f : σ → τ) (c : Clauses σ) : (c.map f).fragments = c.fragments := by
  have hsource : ∀ source : Source σ, (source.map f).fragments = source.fragments := by
    intro source
    cases source <;> rfl
  have htarget : ∀ target : UnionTarget σ, (target.map f).fragments = target.fragments := by
    intro target
    cases target <;> rfl
  have htable : ∀ table : TableRef σ, (table.map f).fragments = table.fragments := by
    intro table
    simp [TableRef.fragments, TableRef.map, hsource]
  simp [fragments, map, List.flatMap_map, UnionMember.map, htable, htarget]

theorem nested_map (f : σ → τ) (c : Clauses σ) : (c.map f).nested = c.nested.map f := by
  have hsource : ∀ source : Source σ, (source.map f).nested = source.nested.map f := by
    intro source
    cases source <;> rfl
  have htarget : ∀ target : UnionTarget σ, (target.map f).nested = target.nested.map f := by
    intro target
    cases target <;> rfl
  simp [nested, map, List.flatMap_map, List.map_flatMap, TableRef.map, UnionMember.map, hsource,
    htarget]

end Clauses

namespace Statement

theorem nested_outcomes (s : Statement) : s.outcomes.nested = s.nested.map assemble :=
  Clauses.nested_map assemble s.toClauses

theorem sizeOf_lt_of_mem_nested {s n : Statement} (h : n ∈ s.nested) : sizeOf n < sizeOf s := by
  obtain ⟨c, d⟩ := s
  obtain ⟨_, _, _, unions, tables, _, _, _, _, _, _, _⟩ := c
  rcases List.mem_append.mp h with h | h
  · obtain ⟨table, htable, hn⟩ := List.mem_flatMap.mp h
    have hlt := List.sizeOf_lt_of_mem htable
    obtain ⟨correlation, join, schema, source, condition⟩ := table
    cases source with
    | select statement =>
      obtain rfl := List.mem_singleton.mp hn
      simp at hlt ⊢
      omega
    | _ => cases hn
  · obtain ⟨member, hmember, hn⟩ := List.mem_flatMap.mp h
    have hlt := List.sizeOf_lt_of_mem hmember
    obtain ⟨target, kind⟩ := member
    cases target with
    | select statement =>
      obtain rfl := List.mem_singleton.mp hn
      simp at hlt ⊢
      omega
    | raw sql => cases hn

/-- What holds of a statement if it holds of those nested in it holds of all statements. -/
theorem nested_induction {motive : Statement → Prop}
    (step : ∀ s, (∀ n ∈ s.nested, motive n) → motive s) (s : Statement) : motive s :=
  step s fun n hn =>
    have := sizeOf_lt_of_mem_nested hn
    nested_induction step n
termination_by sizeOf s

end Statement

/-! ## Names -/

namespace Dialect

open Lexicon

/-- Whether a dialect quotes all names, with the quote symbol that a database reads. -/
structure QuotesAs (d : Dialect) (f : Config.Family) : Prop where
  symbol : d.quoteSymbol = f.lexicon.symbol
  auto : d.autoQuote = true

theorem quotesAs_dialect (f : Config.Family) : (Config.dialect ⟨f, true⟩).QuotesAs f := by
  cases f <;> exact ⟨rfl, rfl⟩

variable {d : Dialect} {f : Config.Family} (hd : d.QuotesAs f)

include hd

theorem closed_writeIdentifier (ident : Identifier) :
    f.lexicon.Closed (d.writeIdentifier ident) := by
  rw [writeIdentifier, hd.symbol, hd.auto]
  exact closed_write f ident

theorem closed_quoteAlias (name : String) : f.lexicon.Closed (d.quoteAlias name) := by
  rw [quoteAlias, if_pos hd.auto, hd.symbol]
  exact closed_quoteName _ name

theorem closed_asClause (known aliasName : Option String) :
    f.lexicon.Closed (d.asClause known aliasName) := by
  cases aliasName with
  | none => exact closed_empty
  | some name =>
    simp only [asClause]
    split_ifs
    · exact closed_empty
    · exact (closed_of_plain f " AS " (by decide)).append (closed_quoteAlias hd name)

theorem yields_quoteIdentifier (text : String) :
    Yields f.lexicon.Closed (d.quoteIdentifier text) := by
  intro sql h
  obtain ⟨ident, -, rfl⟩ := map_eq_ok_iff.mp h
  exact closed_writeIdentifier hd ident

theorem yields_quoteColumn {column : ColumnRef}
    (hraw : ∀ sql, column = .raw sql → f.lexicon.Closed sql) :
    Yields (fun written => f.lexicon.Closed written.1) (d.quoteColumn column) := by
  intro written h
  cases column with
  | raw sql =>
    cases h
    exact hraw sql rfl
  | name text =>
    obtain ⟨ident, -, h⟩ := bind_eq_ok_iff.mp h
    rw [← pure_eq_ok_iff.mp h]
    exact closed_writeIdentifier hd ident
  | qualified correlation column =>
    obtain ⟨front, -, h⟩ := bind_eq_ok_iff.mp h
    obtain ⟨back, -, h⟩ := bind_eq_ok_iff.mp h
    rw [← pure_eq_ok_iff.mp h]
    exact closed_writeIdentifier hd _

theorem yields_quoteColumnAs {column : ColumnRef} (aliasName : Option String)
    (hraw : ∀ sql, column = .raw sql → f.lexicon.Closed sql) :
    Yields f.lexicon.Closed (d.quoteColumnAs column aliasName) := by
  refine (yields_quoteColumn hd hraw).bind fun written hwritten => yields_ok ?_
  exact hwritten.append (closed_asClause hd written.2 aliasName)

theorem yields_quoteTableAs (schema : Option String) (table : String) (aliasName : Option String) :
    Yields f.lexicon.Closed (d.quoteTableAs schema table aliasName) := by
  unfold quoteTableAs
  have hname : ∀ front, f.lexicon.Closed front → Yields f.lexicon.Closed (do
      let name ← d.quoteIdentifier table
      return front ++ name ++ d.asClause (some table) aliasName) := by
    intro front hfront
    refine (yields_quoteIdentifier hd table).bind fun name hname => yields_ok ?_
    exact (hfront.append hname).append (closed_asClause hd (some table) aliasName)
  cases schema with
  | none => exact hname "" closed_empty
  | some schema =>
    refine (yields_quoteIdentifier hd schema).bind fun quoted hquoted => ?_
    exact hname (quoted ++ ".") (hquoted.append (closed_of_plain f "." (by decide)))

/-! ## Clauses -/

theorem yields_renderColumn {column : Column}
    (h : ∀ text ∈ column.fragments, f.lexicon.Closed text) :
    Yields f.lexicon.Closed (d.renderColumn column) := by
  obtain ⟨correlation, content, aliasName⟩ := column
  cases content with
  | raw sql =>
    refine yields_quoteColumnAs hd aliasName fun text htext => ?_
    cases htext
    exact h sql List.mem_cons_self
  | ident name =>
    refine yields_quoteColumnAs hd _ fun text htext => ?_
    cases correlation with
    | none => cases htext
    | some correlation => cases htext

omit hd in
theorem yields_entries {α : Type} {entries : List α} {texts : α → List String}
    {write : α → Rendered} (h : ∀ text ∈ entries.flatMap texts, f.lexicon.Closed text)
    (hwrite : ∀ entry, (∀ text ∈ texts entry, f.lexicon.Closed text) →
      Yields f.lexicon.Closed (write entry)) :
    Yields (fun written => ∀ text ∈ written, f.lexicon.Closed text) (entries.mapM write) := by
  refine yields_mapM fun entry hmem => hwrite entry fun text htext => ?_
  exact h text (List.mem_flatMap.mpr ⟨entry, hmem, htext⟩)

theorem yields_renderColumns {columns : List Column}
    (h : ∀ text ∈ columns.flatMap Column.fragments, f.lexicon.Closed text) :
    Yields f.lexicon.Closed (d.renderColumns columns) := by
  unfold renderColumns
  split
  · exact yields_ok (closed_of_plain f "*" (by decide))
  · have hall := yields_entries h fun _ htexts => yields_renderColumn hd htexts
    refine hall.bind fun texts htexts => yields_ok ?_
    exact closed_intercalate (closed_of_plain f ", " (by decide)) htexts

theorem yields_renderTable {table : TableRef Rendered}
    (h : ∀ text ∈ table.fragments, f.lexicon.Closed text)
    (hnested : ∀ outcome ∈ table.source.nested, Yields f.lexicon.Closed outcome) :
    Yields f.lexicon.Closed (d.renderTable table) := by
  obtain ⟨correlation, join, schema, source, condition⟩ := table
  cases source with
  | name name => exact yields_quoteTableAs hd schema name (some correlation)
  | expr sql =>
    have hsql := h sql (List.mem_append_left _ List.mem_cons_self)
    refine yields_ok (Closed.append ?_ (closed_quoteAlias hd correlation))
    exact hsql.append (closed_of_plain f " AS " (by decide))
  | select outcome =>
    refine (hnested outcome List.mem_cons_self).bind fun sql hsql => yields_ok ?_
    refine Closed.append ?_ (closed_quoteAlias hd correlation)
    exact ((closed_of_plain f "(" (by decide)).append hsql).append
      (closed_of_plain f ") AS " (by decide))

omit hd in
theorem closed_joinWords (f : Config.Family) (join : Option JoinKind) :
    f.lexicon.Closed (joinWords join) := by
  rcases join with _ | kind
  · exact closed_empty
  · cases kind <;> exact closed_of_plain f _ (by decide)

omit hd in
theorem closed_onClause {condition : Option String}
    (h : ∀ text ∈ condition.toList, f.lexicon.Closed text) :
    f.lexicon.Closed (onClause condition) := by
  cases condition with
  | none => exact closed_empty
  | some condition =>
    exact (closed_of_plain f " ON " (by decide)).append (h condition List.mem_cons_self)

theorem yields_renderJoined {table : TableRef Rendered}
    (h : ∀ text ∈ table.fragments, f.lexicon.Closed text)
    (hnested : ∀ outcome ∈ table.source.nested, Yields f.lexicon.Closed outcome) :
    Yields f.lexicon.Closed (d.renderJoined table) := by
  have hspace : f.lexicon.Closed " " := closed_of_plain f " " (by decide)
  refine (yields_renderTable hd h hnested).bind fun sql hsql => yields_ok ?_
  refine Closed.append ?_ (closed_onClause fun text htext => h text (List.mem_append_right _ htext))
  exact ((hspace.append (closed_joinWords f table.join)).append hspace).append hsql

theorem yields_renderTables {tables : List (TableRef Rendered)}
    (h : ∀ text ∈ tables.flatMap TableRef.fragments, f.lexicon.Closed text)
    (hnested : ∀ outcome ∈ tables.flatMap (·.source.nested), Yields f.lexicon.Closed outcome) :
    Yields f.lexicon.Closed (d.renderTables tables) := by
  cases tables with
  | nil => exact yields_ok closed_empty
  | cons first rest =>
    rw [List.flatMap_cons, List.forall_mem_append] at h hnested
    have hall : ∀ table ∈ rest, Yields f.lexicon.Closed (d.renderJoined table) :=
      fun table hmem => yields_renderJoined hd
        (fun text htext => h.2 text (List.mem_flatMap.mpr ⟨table, hmem, htext⟩))
        (fun outcome hout => hnested.2 outcome (List.mem_flatMap.mpr ⟨table, hmem, hout⟩))
    refine (yields_renderTable hd h.1 hnested.1).bind fun sql hsql => ?_
    refine (yields_mapM hall).bind fun texts htexts => yields_ok ?_
    exact hsql.append (closed_join htexts)

theorem yields_renderGroup {term : GroupTerm}
    (h : ∀ text ∈ term.fragments, f.lexicon.Closed text) :
    Yields f.lexicon.Closed (d.renderGroup term) := by
  cases term with
  | ident name => exact yields_quoteIdentifier hd name
  | raw sql => exact yields_ok (h sql List.mem_cons_self)

theorem yields_groupClause {groups : List GroupTerm}
    (h : ∀ text ∈ groups.flatMap GroupTerm.fragments, f.lexicon.Closed text) :
    Yields f.lexicon.Closed (d.groupClause groups) := by
  unfold groupClause
  split
  · exact yields_ok closed_empty
  · have hall := yields_entries h fun _ htexts => yields_renderGroup hd htexts
    refine hall.bind fun texts htexts => yields_ok ?_
    exact (closed_of_plain f " GROUP BY " (by decide)).append
      (closed_intercalate (closed_of_plain f ", " (by decide)) htexts)

omit hd in
theorem closed_of_isUnsigned (f : Config.Family) {text : String}
    (h : isUnsigned text.toList = true) : f.lexicon.Closed text := by
  refine closed_of_plain f text (List.all_eq_true.mpr fun c hc => ?_)
  simp only [isUnsigned, Bool.and_eq_true] at h
  obtain ⟨⟨-, hdigits⟩, -⟩ := h
  split at hdigits
  next rest heq =>
    rw [heq] at hc
    rcases List.mem_cons.mp hc with rfl | hc
    · rfl
    · exact isPlain_of_isDigit (List.all_eq_true.mp hdigits c hc)
  next => exact isPlain_of_isDigit (List.all_eq_true.mp hdigits c hc)

theorem yields_renderOrder {term : OrderTerm}
    (h : ∀ text ∈ term.fragments, f.lexicon.Closed text) :
    Yields f.lexicon.Closed (d.renderOrder term) := by
  cases term with
  | raw sql => exact yields_ok (h sql List.mem_cons_self)
  | term value direction =>
    have hwritten : ∀ text, f.lexicon.Closed text →
        Yields f.lexicon.Closed (.ok (text ++ " " ++ direction.keyword) : Rendered) := by
      intro text htext
      refine yields_ok ((htext.append (closed_of_plain f " " (by decide))).append ?_)
      cases direction <;> exact closed_of_plain f _ (by decide)
    simp only [renderOrder]
    split_ifs with hverbatim
    · refine hwritten value ?_
      by_cases hexpr : isExpression value.toList = true
      · exact h value (by simp [OrderTerm.fragments, hexpr])
      · exact closed_of_isUnsigned f (by simpa [hexpr] using hverbatim)
    · exact (yields_quoteIdentifier hd value).bind hwritten

theorem yields_orderClause {orders : List OrderTerm}
    (h : ∀ text ∈ orders.flatMap OrderTerm.fragments, f.lexicon.Closed text) :
    Yields f.lexicon.Closed (d.orderClause orders) := by
  unfold orderClause
  split
  · exact yields_ok closed_empty
  · have hall := yields_entries h fun _ htexts => yields_renderOrder hd htexts
    refine hall.bind fun texts htexts => yields_ok ?_
    exact (closed_of_plain f " ORDER BY " (by decide)).append
      (closed_intercalate (closed_of_plain f ", " (by decide)) htexts)

omit hd

theorem closed_whereClause {predicates : List Predicate}
    (h : ∀ text ∈ predicates.map (·.text), f.lexicon.Closed text) :
    f.lexicon.Closed (whereClause predicates) := by
  have hspace : f.lexicon.Closed " " := closed_of_plain f " " (by decide)
  have hword : ∀ connector : Connector, f.lexicon.Closed connector.keyword := by
    intro connector
    cases connector <;> exact closed_of_plain f _ (by decide)
  cases predicates with
  | nil => exact closed_empty
  | cons first rest =>
    obtain ⟨hfirst, hrest⟩ := List.forall_mem_cons.mp h
    refine (closed_of_plain f " WHERE " (by decide)).append (hfirst.append (closed_join ?_))
    refine List.forall_mem_map.mpr fun predicate hmem => ?_
    have htext := hrest predicate.text (List.mem_map_of_mem hmem)
    exact ((hspace.append (hword predicate.connector)).append hspace).append htext

theorem closed_havingClause {havings : List String} (h : ∀ text ∈ havings, f.lexicon.Closed text) :
    f.lexicon.Closed (havingClause havings) := by
  unfold havingClause
  split
  · exact closed_empty
  · exact (closed_of_plain f " HAVING " (by decide)).append
      (closed_intercalate (closed_of_plain f " " (by decide)) h)

theorem closed_limitClause (f : Config.Family) (d : Dialect) (count offset : Option UInt64) :
    f.lexicon.Closed (d.limitClause count offset) := by
  unfold limitClause
  extract_lets shift rows words
  have hwords : ∀ keyword n, f.lexicon.Closed keyword → f.lexicon.Closed (words keyword n) := by
    intro keyword n hkeyword
    cases n with
    | none => exact closed_empty
    | some n => exact hkeyword.append (closed_toString f n.toNat)
  exact (hwords _ _ (closed_of_plain f " LIMIT " (by decide))).append
    (hwords _ _ (closed_of_plain f " OFFSET " (by decide)))

end Dialect

namespace Clauses

open Lexicon Dialect

variable {d : Dialect} {f : Config.Family} {c : Clauses Rendered}

theorem yields_members {members : List (UnionMember Rendered)}
    (h : ∀ text ∈ members.flatMap (·.target.fragments), f.lexicon.Closed text)
    (hnested : ∀ outcome ∈ members.flatMap (·.target.nested), Yields f.lexicon.Closed outcome) :
    ∀ member ∈ members, Yields f.lexicon.Closed member.target.render := by
  intro member hmem
  have h := fun text htext => h text (List.mem_flatMap.mpr ⟨member, hmem, htext⟩)
  have hnested := fun outcome hout => hnested outcome (List.mem_flatMap.mpr ⟨member, hmem, hout⟩)
  obtain ⟨target, kind⟩ := member
  cases target with
  | select outcome => exact hnested outcome List.mem_cons_self
  | raw sql => exact yields_ok (h sql List.mem_cons_self)

theorem yields_unionMembers {members : List (UnionMember Rendered)}
    (h : ∀ member ∈ members, Yields f.lexicon.Closed member.target.render) :
    Yields (fun written => ∀ text ∈ written, f.lexicon.Closed text)
      (members.mapM UnionMember.render) := by
  have hspace : f.lexicon.Closed " " := closed_of_plain f " " (by decide)
  have hword : ∀ kind : UnionKind, f.lexicon.Closed kind.keyword := by
    intro kind
    cases kind <;> exact closed_of_plain f _ (by decide)
  refine yields_mapM fun member hmem => (h member hmem).bind fun sql hsql => yields_ok ?_
  exact ((hspace.append (hword member.kind)).append hspace).append hsql

variable (hd : d.QuotesAs f) (h : ∀ text ∈ c.fragments, f.lexicon.Closed text)
  (hnested : ∀ outcome ∈ c.nested, Yields f.lexicon.Closed outcome)

include hd h hnested

theorem yields_renderBody : Yields f.lexicon.Closed (c.renderBody d) := by
  simp only [fragments, nested, List.forall_mem_append] at h hnested
  obtain ⟨⟨⟨⟨⟨⟨-, htables⟩, hpredicates⟩, hgroups⟩, hhavings⟩, -⟩, -⟩ := h
  unfold renderBody
  split
  · exact yields_ok closed_empty
  · refine (yields_renderTables hd htables hnested.1).bind fun tables hwritten => ?_
    refine (yields_groupClause hd hgroups).bind fun groups hgroup => yields_ok ?_
    have hfrom := (closed_of_plain f " FROM " (by decide)).append hwritten
    exact ((hfrom.append (closed_whereClause hpredicates)).append hgroup).append
      (closed_havingClause hhavings)

theorem yields_renderBase : Yields f.lexicon.Closed (c.renderBase d) := by
  have hbody := yields_renderBody hd h hnested
  simp only [fragments, nested, List.forall_mem_append] at h hnested
  obtain ⟨⟨⟨⟨⟨⟨hcolumns, -⟩, -⟩, -⟩, -⟩, horders⟩, hunions⟩ := h
  have hmodifiers : f.lexicon.Closed (c.modifiers d) := by
    refine closed_of_plain f _ ?_
    unfold modifiers
    split <;> split <;> decide
  refine (yields_renderColumns hd hcolumns).bind fun columns hcolumns => ?_
  refine hbody.bind fun body hbody => ?_
  refine (yields_orderClause hd horders).bind fun order horder => ?_
  refine (yields_unionMembers (yields_members hunions hnested.2)).bind fun members hmembers => ?_
  have hhead := (closed_of_plain f "SELECT" (by decide)).append hmodifiers
  have hselect := (hhead.append (closed_of_plain f " " (by decide))).append hcolumns
  exact yields_ok (((hselect.append hbody).append horder).append (closed_join hmembers))

theorem yields_renderMembers : Yields f.lexicon.Closed (c.renderMembers d c.unions) := by
  simp only [fragments, nested, List.forall_mem_append] at h hnested
  obtain ⟨⟨-, horders⟩, hunions⟩ := h
  have hall := yields_members hunions hnested.2
  cases hmembers : c.unions with
  | nil => exact yields_ok closed_empty
  | cons first rest =>
    rw [hmembers] at hall
    obtain ⟨hfirst, hrest⟩ := List.forall_mem_cons.mp hall
    refine hfirst.bind fun head hhead => ?_
    refine (yields_unionMembers hrest).bind fun members hmembers => ?_
    refine (yields_orderClause hd horders).bind fun order horder => yields_ok ?_
    exact (hhead.append (closed_join hmembers)).append horder

/-- **Clauses are written as a closed text**, given closed texts for the nested statements. -/
theorem yields_render : Yields f.lexicon.Closed (c.render d) := by
  have hfinish : ∀ sql, f.lexicon.Closed sql → f.lexicon.Closed (c.finish d sql) := by
    intro sql hsql
    have hlimited := hsql.append (closed_limitClause f d c.limitCount c.limitOffset)
    unfold finish
    split
    · exact hlimited.append (closed_of_plain f " FOR UPDATE" (by decide))
    · exact hlimited
  unfold render
  split
  · exact (yields_renderMembers hd h hnested).bind fun sql hsql => yields_ok (hfinish sql hsql)
  · exact (yields_renderBase hd h hnested).bind fun sql hsql => yields_ok (hfinish sql hsql)

end Clauses

/-! ## Statements -/

/-- A statement whose texts are closed, in a dialect that quotes all names; and so are the
statements nested in it. -/
inductive Contained (f : Config.Family) : Statement → Prop
  | intro {s : Statement} (hdialect : s.dialect = Config.dialect ⟨f, true⟩)
      (hfragments : ∀ text ∈ s.fragments, f.lexicon.Closed text)
      (hnested : ∀ n ∈ s.nested, Contained f n) : Contained f s

/-- **A statement closes its quotes if the texts in it do**, whatever characters its names have. -/
theorem Contained.closed_assemble {f : Config.Family} {s : Statement} (h : Contained f s)
    {sql : String} (hsql : s.assemble = .ok sql) : f.lexicon.Closed sql := by
  induction h generalizing sql with
  | @intro s hdialect hfragments hnested ih =>
    have hd : s.dialect.QuotesAs f := by
      rw [hdialect]
      exact Dialect.quotesAs_dialect f
    rw [s.assemble_eq_render] at hsql
    refine Clauses.yields_render hd ?_ ?_ sql hsql
    · rw [Statement.outcomes, Clauses.fragments_map]
      exact hfragments
    · rw [Statement.outcomes, Clauses.nested_map]
      refine List.forall_mem_map.mpr fun n hn text htext => ?_
      exact ih n hn htext

/-- Quotes of every kind in names, and a string in a nested statement. -/
theorem contained_closed_nested :
    let inner : Statement :=
      { dialect := Config.dialect ⟨.mysql, true⟩
        columns := [⟨none, .raw "'a\\'b'", some "it's"⟩]
        tables := [⟨"t`", none, none, .name "x'y", none⟩] }
    let outer : Statement :=
      { dialect := Config.dialect ⟨.mysql, true⟩
        columns := [⟨some "d'", .ident "n\"", none⟩]
        tables := [⟨"d'", none, none, .select inner, none⟩] }
    let sql := "SELECT `d'`.`n\"` FROM (SELECT 'a\\'b' AS `it's` FROM `x'y` AS `t```) AS `d'`"
    Contained .mysql outer ∧ outer.assemble = .ok sql ∧ Config.Family.mysql.lexicon.Closed sql := by
  intro inner outer sql
  have hinner : Contained .mysql inner := .intro rfl (by decide) fun _ h => nomatch h
  have houter : Contained .mysql outer :=
    .intro rfl (by decide) (List.forall_mem_singleton.mpr hinner)
  have hsql : outer.assemble = .ok sql := by decide +kernel
  exact ⟨houter, hsql, houter.closed_assemble hsql⟩

end SelectQuery
