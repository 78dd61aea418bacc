import SelectQuery.Proofs.Containment
import SelectQuery.Statement.Derived

/-!
# Texts that cannot be written

A text is made of pieces that are written as they stand and of names, and a name may not be fit to
be quoted. Nothing else keeps a text from being written.

* `Error.OfName`: the errors of names;
* `Dialect.failsWith_quoteColumnAs`, `Dialect.failsWith_quoteTableAs`, … : columns and tables;
* `Clauses.failsWith_render`: clauses fail at a name, if the nested statements do;
* **`Statement.failsWith_assemble`**: a text fails at a name, at any depth.
-/

namespace SelectQuery

/-- An error at a name that cannot be quoted. -/
def Error.OfName (e : Error) : Prop := ∃ reason, e = .invalidIdentifier reason

/-! ## Names, columns and terms -/

namespace Dialect

variable (d : Dialect)

theorem failsWith_readIdentifier (text : String) :
    FailsWith Error.OfName (d.readIdentifier text) := by
  intro e he
  unfold readIdentifier Identifier.parse at he
  split at he
  · cases he
  · cases he
    exact ⟨_, rfl⟩

theorem failsWith_quoteIdentifier (text : String) :
    FailsWith Error.OfName (d.quoteIdentifier text) :=
  (d.failsWith_readIdentifier text).map _

theorem failsWith_quoteColumnAs (column : ColumnRef) (aliasName : Option String) :
    FailsWith Error.OfName (d.quoteColumnAs column aliasName) := by
  have hcolumn : FailsWith Error.OfName (d.quoteColumn column) := by
    cases column with
    | raw sql => exact failsWith_ok _
    | name text => exact (d.failsWith_readIdentifier text).bind fun _ => failsWith_ok _
    | qualified correlation column =>
      refine (d.failsWith_readIdentifier correlation).bind fun _ => ?_
      exact (d.failsWith_readIdentifier column).bind fun _ => failsWith_ok _
  exact hcolumn.bind fun _ => failsWith_ok _

theorem failsWith_quoteTableAs (schema : Option String) (table : String)
    (aliasName : Option String) :
    FailsWith Error.OfName (d.quoteTableAs schema table aliasName) := by
  have hname (front : String) : FailsWith Error.OfName (do
      let name ← d.quoteIdentifier table
      return front ++ name ++ d.asClause (some table) aliasName) :=
    (d.failsWith_quoteIdentifier table).bind fun _ => failsWith_ok _
  cases schema with
  | none => exact hname ""
  | some schema =>
    exact (d.failsWith_quoteIdentifier schema).bind fun quoted => hname (quoted ++ ".")

theorem failsWith_renderColumns (columns : List Column) :
    FailsWith Error.OfName (d.renderColumns columns) := by
  have hcolumn (column : Column) : FailsWith Error.OfName (d.renderColumn column) := by
    unfold renderColumn
    split <;> exact d.failsWith_quoteColumnAs _ _
  unfold renderColumns
  split
  · exact failsWith_ok _
  · exact (failsWith_mapM fun column _ => hcolumn column).bind fun _ => failsWith_ok _

theorem failsWith_groupClause (groups : List GroupTerm) :
    FailsWith Error.OfName (d.groupClause groups) := by
  have hterm (term : GroupTerm) : FailsWith Error.OfName (d.renderGroup term) := by
    cases term with
    | ident name => exact d.failsWith_quoteIdentifier name
    | raw sql => exact failsWith_ok sql
  unfold groupClause
  split
  · exact failsWith_ok _
  · exact (failsWith_mapM fun term _ => hterm term).bind fun _ => failsWith_ok _

theorem failsWith_orderClause (orders : List OrderTerm) :
    FailsWith Error.OfName (d.orderClause orders) := by
  have hterm (term : OrderTerm) : FailsWith Error.OfName (d.renderOrder term) := by
    cases term with
    | raw sql => exact failsWith_ok sql
    | term value direction =>
      simp only [renderOrder]
      split
      · exact failsWith_ok _
      · exact (d.failsWith_quoteIdentifier value).bind fun _ => failsWith_ok _
  unfold orderClause
  split
  · exact failsWith_ok _
  · exact (failsWith_mapM fun term _ => hterm term).bind fun _ => failsWith_ok _

/-! ## Tables -/

variable {d}

theorem failsWith_renderTable {table : TableRef Rendered}
    (hnested : ∀ outcome ∈ table.source.nested, FailsWith Error.OfName outcome) :
    FailsWith Error.OfName (d.renderTable table) := by
  obtain ⟨correlation, join, schema, source, condition⟩ := table
  cases source with
  | name name => exact d.failsWith_quoteTableAs schema name (some correlation)
  | expr sql => exact failsWith_ok _
  | select outcome => exact (hnested outcome List.mem_cons_self).bind fun _ => failsWith_ok _

theorem failsWith_renderEach {tables : List (TableRef Rendered)}
    (hnested : ∀ outcome ∈ tables.flatMap (·.source.nested), FailsWith Error.OfName outcome)
    (write : TableRef Rendered → String → String) :
    FailsWith Error.OfName
      (tables.mapM fun table => do return write table (← d.renderTable table)) := by
  refine failsWith_mapM fun table hmem => FailsWith.bind ?_ fun _ => failsWith_ok _
  exact failsWith_renderTable fun outcome hout =>
    hnested outcome (List.mem_flatMap.mpr ⟨table, hmem, hout⟩)

theorem failsWith_renderTables {tables : List (TableRef Rendered)}
    (hnested : ∀ outcome ∈ tables.flatMap (·.source.nested), FailsWith Error.OfName outcome) :
    FailsWith Error.OfName (d.renderTables tables) := by
  cases tables with
  | nil => exact failsWith_ok _
  | cons first rest =>
    rw [List.flatMap_cons, List.forall_mem_append] at hnested
    refine (failsWith_renderTable hnested.1).bind fun _ => ?_
    exact (failsWith_renderEach hnested.2 _).bind fun _ => failsWith_ok _

theorem failsWith_joinedTables {tables : List (TableRef Rendered)}
    (hnested : ∀ outcome ∈ tables.flatMap (·.source.nested), FailsWith Error.OfName outcome) :
    FailsWith Error.OfName (d.joinedTables tables) :=
  (failsWith_renderEach hnested _).bind fun _ => failsWith_ok _

end Dialect

/-! ## Clauses -/

namespace Clauses

variable {d : Dialect} {c : Clauses Rendered}

theorem failsWith_members {members : List (UnionMember Rendered)}
    (hnested : ∀ outcome ∈ members.flatMap (·.target.nested), FailsWith Error.OfName outcome) :
    ∀ member ∈ members, FailsWith Error.OfName member.target.render := by
  intro member hmem
  have hnested := fun outcome hout => hnested outcome (List.mem_flatMap.mpr ⟨member, hmem, hout⟩)
  obtain ⟨target, kind⟩ := member
  cases target with
  | select outcome => exact hnested outcome List.mem_cons_self
  | raw sql => exact failsWith_ok sql

theorem failsWith_unionMembers {members : List (UnionMember Rendered)}
    (h : ∀ member ∈ members, FailsWith Error.OfName member.target.render) :
    FailsWith Error.OfName (members.mapM UnionMember.render) :=
  failsWith_mapM fun member hmem => (h member hmem).bind fun _ => failsWith_ok _

variable (hnested : ∀ outcome ∈ c.nested, FailsWith Error.OfName outcome)

include hnested

theorem failsWith_renderBase : FailsWith Error.OfName (c.renderBase d) := by
  obtain ⟨htables, hunions⟩ := List.forall_mem_append.mp hnested
  have hbody : FailsWith Error.OfName (c.renderBody d) := by
    unfold renderBody
    split
    · exact failsWith_ok _
    · refine (Dialect.failsWith_renderTables htables).bind fun _ => ?_
      exact (d.failsWith_groupClause c.groups).bind fun _ => failsWith_ok _
  refine (d.failsWith_renderColumns c.columns).bind fun _ => hbody.bind fun _ => ?_
  refine (d.failsWith_orderClause c.orders).bind fun _ => ?_
  exact (failsWith_unionMembers (failsWith_members hunions)).bind fun _ => failsWith_ok _

theorem failsWith_renderMembers : FailsWith Error.OfName (c.renderMembers d c.unions) := by
  have hall := failsWith_members (List.forall_mem_append.mp hnested).2
  cases hmembers : c.unions with
  | nil => exact failsWith_ok _
  | cons first rest =>
    rw [hmembers] at hall
    obtain ⟨hfirst, hrest⟩ := List.forall_mem_cons.mp hall
    refine hfirst.bind fun _ => (failsWith_unionMembers hrest).bind fun _ => ?_
    exact (d.failsWith_orderClause c.orders).bind fun _ => failsWith_ok _

/-- **Clauses fail at a name**, if the nested statements do. -/
theorem failsWith_render : FailsWith Error.OfName (c.render d) := by
  unfold render
  split
  · exact (failsWith_renderMembers hnested).bind fun _ => failsWith_ok _
  · exact (failsWith_renderBase hnested).bind fun _ => failsWith_ok _

end Clauses

/-! ## Statements -/

namespace Statement

/-- **A text fails at a name**, however deep. -/
theorem failsWith_assemble (s : Statement) : FailsWith Error.OfName s.assemble := by
  induction s using nested_induction with
  | step s ih =>
    rw [s.assemble_eq_render]
    refine Clauses.failsWith_render ?_
    rw [s.nested_outcomes]
    exact List.forall_mem_map.mpr ih

theorem failsWith_outcomes (s : Statement) :
    ∀ outcome ∈ s.outcomes.nested, FailsWith Error.OfName outcome := by
  rw [s.nested_outcomes]
  exact List.forall_mem_map.mpr fun n _ => n.failsWith_assemble

theorem failsWith_fromText (s : Statement) : FailsWith Error.OfName s.fromText :=
  Dialect.failsWith_renderTables (List.forall_mem_append.mp s.failsWith_outcomes).1

theorem failsWith_fromClause (s : Statement) : FailsWith Error.OfName s.fromClause := by
  unfold fromClause
  split
  · exact failsWith_ok _
  · exact s.failsWith_fromText.map _

end Statement

end SelectQuery
