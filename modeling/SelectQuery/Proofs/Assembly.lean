import SelectQuery.Proofs.Outcome
import SelectQuery.Statement.Render

/-!
# The text of a statement in its pieces

The text of a statement with a table is a SELECT with the members of its union behind it. Without a
table it is the members alone, with ORDER BY behind them.

* `United`: a text with the members of a union behind it;
* `AllUnited`: the members of a union alone;
* `Clauses.exists_render_eq`, `Dialect.exists_renderColumn`, `Dialect.exists_renderTable`: the
  select list and FROM in the text of a statement, and their entries in these;
* `Clauses.renderSelect`: the SELECT without the members;
* `Clauses.Unbounded`: neither a row window nor a lock;
* `Statement.assemble_eq_ok_iff_of_select`, `Statement.assemble_eq_ok_iff_of_members`: the text of
  such a statement in its pieces;
* `Statement.assemble_append_unions`, `Statement.exists_assemble_append_unions`: its text with more
  members.
-/

namespace SelectQuery

/-! ## Members of a union -/

/-- The text of what is united. -/
def UnionTarget.assemble (target : UnionTarget Statement) : Rendered :=
  (target.map Statement.assemble).render

/-- `sql` is `text` with the members of a union behind it: for each one, in order, a space, the
keyword of its kind, a space and its text. -/
inductive United : String → List (UnionMember Statement) → String → Prop
  | nil (text : String) : United text [] text
  | cons {text shown sql : String} {member : UnionMember Statement}
      {rest : List (UnionMember Statement)} (h : member.target.assemble = .ok shown)
      (hrest : United (text ++ " " ++ member.kind.keyword ++ " " ++ shown) rest sql) :
      United text (member :: rest) sql

/-- `sql` is the text of the first member of a union, without a keyword, with the others behind
it. -/
inductive AllUnited : List (UnionMember Statement) → String → Prop
  | intro {shown sql : String} {first : UnionMember Statement}
      {rest : List (UnionMember Statement)} (h : first.target.assemble = .ok shown)
      (hrest : United shown rest sql) : AllUnited (first :: rest) sql

section Members

variable {text sql : String} {members more : List (UnionMember Statement)}

theorem united_append :
    United text (members ++ more) sql ↔ ∃ mid, United text members mid ∧ United mid more sql := by
  induction members generalizing text with
  | nil =>
    constructor
    · exact fun h => ⟨text, .nil text, h⟩
    · rintro ⟨mid, ⟨⟩, h⟩
      exact h
  | cons member rest ih =>
    constructor
    · rintro (_ | ⟨h, hrest⟩)
      obtain ⟨mid, hmid, hmore⟩ := ih.mp hrest
      exact ⟨mid, .cons h hmid, hmore⟩
    · rintro ⟨mid, _ | ⟨h, hrest⟩, hmore⟩
      exact .cons h (ih.mpr ⟨mid, hrest, hmore⟩)

theorem allUnited_append (hne : members ≠ []) :
    AllUnited (members ++ more) sql ↔ ∃ mid, AllUnited members mid ∧ United mid more sql := by
  cases members with
  | nil => exact absurd rfl hne
  | cons first rest =>
    constructor
    · rintro ⟨h, hrest⟩
      obtain ⟨mid, hmid, hmore⟩ := united_append.mp hrest
      exact ⟨mid, .intro h hmid, hmore⟩
    · rintro ⟨mid, ⟨h, hrest⟩, hmore⟩
      exact .intro h (united_append.mpr ⟨mid, hrest, hmore⟩)

theorem exists_united (text : String)
    (h : ∀ member ∈ members, ∃ shown, member.target.assemble = .ok shown) :
    ∃ sql, United text members sql := by
  induction members generalizing text with
  | nil => exact ⟨text, .nil text⟩
  | cons member rest ih =>
    obtain ⟨⟨shown, hshown⟩, hrest⟩ := List.forall_mem_cons.mp h
    obtain ⟨sql, hsql⟩ := ih _ hrest
    exact ⟨sql, .cons hshown hsql⟩

theorem exists_allUnited (hne : members ≠ [])
    (h : ∀ member ∈ members, ∃ shown, member.target.assemble = .ok shown) :
    ∃ sql, AllUnited members sql := by
  cases members with
  | nil => exact absurd rfl hne
  | cons first rest =>
    obtain ⟨⟨shown, hshown⟩, hrest⟩ := List.forall_mem_cons.mp h
    obtain ⟨sql, hsql⟩ := exists_united shown hrest
    exact ⟨sql, .intro hshown hsql⟩

theorem render_eq_ok_iff {member : UnionMember Statement} {written : String} :
    (member.map Statement.assemble).render = .ok written ↔
      ∃ shown, member.target.assemble = .ok shown ∧
        " " ++ member.kind.keyword ++ " " ++ shown = written := by
  simp only [UnionMember.render, bind_eq_ok_iff, pure_eq_ok_iff]
  rfl

theorem united_iff :
    United text members sql ↔ ∃ texts,
      (members.map (UnionMember.map Statement.assemble)).mapM UnionMember.render = .ok texts ∧
        text ++ String.join texts = sql := by
  simp only [mapM_eq_ok_iff, List.forall₂_map_left_iff]
  induction members generalizing text with
  | nil =>
    constructor
    · rintro ⟨⟩
      exact ⟨[], .nil, String.append_empty⟩
    · rintro ⟨texts, ⟨⟩, rfl⟩
      exact String.append_empty ▸ .nil text
  | cons member rest ih =>
    constructor
    · rintro (_ | ⟨h, hrest⟩)
      obtain ⟨texts, htexts, rfl⟩ := ih.mp hrest
      refine ⟨_ :: texts, .cons (render_eq_ok_iff.mpr ⟨_, h, rfl⟩) htexts, ?_⟩
      simp [String.append_assoc]
    · rintro ⟨_, _ | ⟨hmember, htexts⟩, rfl⟩
      obtain ⟨shown, h, rfl⟩ := render_eq_ok_iff.mp hmember
      refine .cons h (ih.mpr ⟨_, htexts, ?_⟩)
      simp [String.append_assoc]

end Members

/-! ## The select list and FROM -/

theorem infix_intercalate {sep item : String} {items : List String} (h : item ∈ items) :
    item.toList <:+: (sep.intercalate items).toList := by
  induction items with
  | nil => cases h
  | cons first rest ih =>
    cases rest with
    | nil =>
      obtain rfl := List.mem_singleton.mp h
      exact String.intercalate_singleton ▸ List.infix_rfl
    | cons next more =>
      rw [String.intercalate_cons_cons, String.toList_append, String.toList_append]
      rcases List.mem_cons.mp h with rfl | h
      · rw [List.append_assoc]
        exact (List.prefix_append _ _).isInfix
      · exact (ih h).trans (List.suffix_append _ _).isInfix

theorem infix_join {item : String} {items : List String} (h : item ∈ items) :
    item.toList <:+: (String.join items).toList := by
  rw [String.toList_join, List.flatMap_def]
  exact List.infix_of_mem_flatten (List.mem_map_of_mem h)

namespace Dialect

variable {d : Dialect}

theorem exists_renderColumn {columns : List Column} {column : Column} {list : String}
    (h : d.renderColumns columns = .ok list) (hmem : column ∈ columns) :
    ∃ item, d.renderColumn column = .ok item ∧ item.toList <:+: list.toList := by
  unfold renderColumns at h
  rw [if_neg (by simpa using List.ne_nil_of_mem hmem)] at h
  obtain ⟨items, hitems, h⟩ := bind_eq_ok_iff.mp h
  obtain ⟨item, hitem, hcolumn⟩ := exists_of_mapM_eq_ok hitems hmem
  exact ⟨item, hcolumn, pure_eq_ok_iff.mp h ▸ infix_intercalate hitem⟩

theorem exists_renderTable {tables : List (TableRef Rendered)} {table : TableRef Rendered}
    {text : String} (h : d.renderTables tables = .ok text) (hmem : table ∈ tables) :
    ∃ entry, d.renderTable table = .ok entry ∧ entry.toList <:+: text.toList := by
  cases tables with
  | nil => cases hmem
  | cons first rest =>
    obtain ⟨front, hfront, h⟩ := bind_eq_ok_iff.mp h
    obtain ⟨joined, hjoined, h⟩ := bind_eq_ok_iff.mp h
    rw [← pure_eq_ok_iff.mp h, String.toList_append]
    rcases List.mem_cons.mp hmem with rfl | hmem
    · exact ⟨front, hfront, (List.prefix_append _ _).isInfix⟩
    · obtain ⟨piece, hpiece, htable⟩ := exists_of_mapM_eq_ok hjoined hmem
      obtain ⟨entry, hentry, htable⟩ := bind_eq_ok_iff.mp htable
      refine ⟨entry, hentry, .trans ?_ (List.suffix_append _ _).isInfix⟩
      refine .trans ?_ (infix_join hpiece)
      rw [← pure_eq_ok_iff.mp htable, String.toList_append, String.toList_append]
      exact List.infix_append _ _ _

end Dialect

/-! ## Clauses -/

namespace Clauses

/-- Neither a row window nor a lock. -/
structure Unbounded {σ : Type} (c : Clauses σ) : Prop where
  count : c.limitCount = none
  offset : c.limitOffset = none
  lock : c.forUpdate = false

/-- The SELECT itself with its ORDER BY. -/
def renderSelect (d : Dialect) (c : Clauses Rendered) : Rendered := do
  let columns ← d.renderColumns c.columns
  let body ← c.renderBody d
  let order ← d.orderClause c.orders
  return "SELECT" ++ c.modifiers d ++ " " ++ columns ++ body ++ order

variable {d : Dialect} {c : Clauses Rendered} {sql : String}

theorem finish_of_unbounded (h : c.Unbounded) (d : Dialect) (sql : String) :
    c.finish d sql = sql := by
  have hlimit : d.limitClause none none = "" := by
    unfold Dialect.limitClause
    cases d.offsetStyle <;> rfl
  simp [finish, h.count, h.offset, h.lock, hlimit]

theorem exists_orderClause (h : c.renderSelect d = .ok sql) :
    ∃ order, d.orderClause c.orders = .ok order := by
  obtain ⟨columns, -, h⟩ := bind_eq_ok_iff.mp h
  obtain ⟨body, -, h⟩ := bind_eq_ok_iff.mp h
  obtain ⟨order, horder, -⟩ := bind_eq_ok_iff.mp h
  exact ⟨order, horder⟩

theorem renderBase_eq_ok_iff :
    c.renderBase d = .ok sql ↔ ∃ select, c.renderSelect d = .ok select ∧ ∃ texts,
      c.unions.mapM UnionMember.render = .ok texts ∧ select ++ String.join texts = sql := by
  simp only [renderBase, renderSelect, bind_eq_ok_iff, pure_eq_ok_iff]
  constructor
  · rintro ⟨columns, hcolumns, body, hbody, order, horder, texts, htexts, rfl⟩
    exact ⟨_, ⟨columns, hcolumns, body, hbody, order, horder, rfl⟩, texts, htexts, rfl⟩
  · rintro ⟨_, ⟨columns, hcolumns, body, hbody, order, horder, rfl⟩, texts, htexts, rfl⟩
    exact ⟨columns, hcolumns, body, hbody, order, horder, texts, htexts, rfl⟩

theorem render_of_unbounded (h : c.Unbounded) (d : Dialect) :
    c.render d = if c.tables.isEmpty && !c.unions.isEmpty then c.renderMembers d c.unions
      else c.renderBase d := by
  unfold render
  split <;> simp [finish_of_unbounded h]

theorem exists_finish_eq (c : Clauses Rendered) (d : Dialect) (sql : String) :
    ∃ behind, c.finish d sql = sql ++ behind := by
  unfold finish
  split
  · exact ⟨_, String.append_assoc⟩
  · exact ⟨_, rfl⟩

theorem exists_renderBody_eq (htables : c.tables.isEmpty = false) (h : c.renderBody d = .ok sql) :
    ∃ tables behind, d.renderTables c.tables = .ok tables ∧ sql = " FROM " ++ tables ++ behind := by
  unfold renderBody at h
  rw [htables, if_neg Bool.false_ne_true] at h
  obtain ⟨tables, htables, h⟩ := bind_eq_ok_iff.mp h
  obtain ⟨groups, -, h⟩ := bind_eq_ok_iff.mp h
  refine ⟨tables, Dialect.whereClause c.predicates ++ groups ++ Dialect.havingClause c.havings,
    htables, ?_⟩
  rw [← pure_eq_ok_iff.mp h]
  simp only [String.append_assoc]

/-- **The select list and FROM** in the text of a statement with a table. -/
theorem exists_render_eq (htables : c.tables ≠ []) (h : c.render d = .ok sql) :
    ∃ list tables behind, d.renderColumns c.columns = .ok list ∧
      d.renderTables c.tables = .ok tables ∧
      sql = "SELECT" ++ c.modifiers d ++ " " ++ list ++ " FROM " ++ tables ++ behind := by
  have hcase : c.tables.isEmpty = false := by simpa using htables
  unfold render at h
  rw [hcase, Bool.false_and, if_neg Bool.false_ne_true] at h
  obtain ⟨text, htext, h⟩ := bind_eq_ok_iff.mp h
  obtain ⟨select, hselect, members, -, rfl⟩ := renderBase_eq_ok_iff.mp htext
  obtain ⟨list, hlist, hselect⟩ := bind_eq_ok_iff.mp hselect
  obtain ⟨body, hbody, hselect⟩ := bind_eq_ok_iff.mp hselect
  obtain ⟨order, -, hselect⟩ := bind_eq_ok_iff.mp hselect
  obtain ⟨tables, rest, htables, rfl⟩ := exists_renderBody_eq hcase hbody
  obtain ⟨last, hlast⟩ := exists_finish_eq c d (select ++ String.join members)
  refine ⟨list, tables, rest ++ order ++ String.join members ++ last, hlist, htables, ?_⟩
  rw [← pure_eq_ok_iff.mp h, hlast, ← pure_eq_ok_iff.mp hselect]
  simp only [String.append_assoc]

end Clauses

/-! ## Statements -/

namespace Statement

open Clauses

variable {s : Statement} {sql : String} (h : s.Unbounded)

include h

theorem unbounded_outcomes : s.outcomes.Unbounded := ⟨h.count, h.offset, h.lock⟩

/-- **The text of a statement with a table** is its SELECT with the members of its union behind
it; and so it is without a table if there are no members. -/
theorem assemble_eq_ok_iff_of_select (hselect : s.tables ≠ [] ∨ s.unions = []) :
    s.assemble = .ok sql ↔ ∃ select, s.outcomes.renderSelect s.dialect = .ok select ∧
      United select s.unions sql := by
  have hcase : (s.outcomes.tables.isEmpty && !s.outcomes.unions.isEmpty) = false := by
    rcases hselect with hselect | hselect <;> simp [outcomes, Clauses.map, hselect]
  rw [assemble_eq_render, render_of_unbounded (unbounded_outcomes h), hcase]
  simp only [Bool.false_eq_true, if_false, renderBase_eq_ok_iff, united_iff]
  rfl

theorem assemble_append_unions (htables : s.tables ≠ []) {old : String}
    (hold : s.assemble = .ok old) {added : List (UnionMember Statement)}
    (hadded : United old added sql) :
    { s with unions := s.unions ++ added : Statement }.assemble = .ok sql := by
  obtain ⟨select, hselect, hunited⟩ := (assemble_eq_ok_iff_of_select h (.inl htables)).mp hold
  let next : Statement := { s with unions := s.unions ++ added }
  have hnext : next.Unbounded := ⟨h.count, h.offset, h.lock⟩
  exact (assemble_eq_ok_iff_of_select hnext (.inl htables)).mpr
    ⟨select, hselect, united_append.mpr ⟨old, hunited, hadded⟩⟩

/-- **The text of a statement without a table** whose union has members is that of the members,
with ORDER BY behind them. -/
theorem assemble_eq_ok_iff_of_members (htables : s.tables = []) (hunions : s.unions ≠ []) :
    s.assemble = .ok sql ↔ ∃ text order, AllUnited s.unions text ∧
      s.dialect.orderClause s.orders = .ok order ∧ text ++ order = sql := by
  have hcase : (s.outcomes.tables.isEmpty && !s.outcomes.unions.isEmpty) = true := by
    simp [outcomes, Clauses.map, htables, hunions]
  rw [assemble_eq_render, render_of_unbounded (unbounded_outcomes h), hcase, if_pos rfl]
  cases hmembers : s.unions with
  | nil => exact absurd hmembers hunions
  | cons first rest =>
    have hall : s.outcomes.unions = first.map assemble :: rest.map (UnionMember.map assemble) := by
      simp [outcomes, Clauses.map, hmembers]
    simp only [hall, renderMembers, bind_eq_ok_iff, pure_eq_ok_iff]
    constructor
    · rintro ⟨shown, hshown, texts, htexts, order, horder, rfl⟩
      exact ⟨_, order, .intro hshown (united_iff.mpr ⟨texts, htexts, rfl⟩), horder, rfl⟩
    · rintro ⟨_, order, ⟨hshown, hrest⟩, horder, rfl⟩
      obtain ⟨texts, htexts, rfl⟩ := united_iff.mp hrest
      exact ⟨_, hshown, texts, htexts, order, horder, rfl⟩

theorem exists_assemble_append_unions (htables : s.tables = []) {old : String}
    (hold : s.assemble = .ok old) {added : List (UnionMember Statement)} (hne : added ≠ [])
    (hshown : ∀ member ∈ added, ∃ shown, member.target.assemble = .ok shown) :
    ∃ text order, AllUnited (s.unions ++ added) text ∧
      s.dialect.orderClause s.orders = .ok order ∧
      { s with unions := s.unions ++ added : Statement }.assemble = .ok (text ++ order) ∧
      (s.unions ≠ [] → s.orders = [] → United old added (text ++ order)) := by
  let next : Statement := { s with unions := s.unions ++ added }
  have hnext : next.Unbounded := ⟨h.count, h.offset, h.lock⟩
  have hmembers : ∀ text order, AllUnited (s.unions ++ added) text →
      s.dialect.orderClause s.orders = .ok order → next.assemble = .ok (text ++ order) :=
    fun text order hall horder =>
      (assemble_eq_ok_iff_of_members hnext htables (List.append_ne_nil_of_right_ne_nil _ hne)).mpr
        ⟨text, order, hall, horder, rfl⟩
  by_cases hunions : s.unions = []
  · obtain ⟨select, hselect, -⟩ := (assemble_eq_ok_iff_of_select h (.inr hunions)).mp hold
    obtain ⟨order, horder⟩ := exists_orderClause hselect
    obtain ⟨text, htext⟩ := exists_allUnited hne hshown
    have hall : AllUnited (s.unions ++ added) text := by rwa [hunions, List.nil_append]
    exact ⟨text, order, hall, horder, hmembers text order hall horder, fun h => absurd hunions h⟩
  · obtain ⟨front, order, hfront, horder, rfl⟩ :=
      (assemble_eq_ok_iff_of_members h htables hunions).mp hold
    obtain ⟨text, htext⟩ := exists_united front hshown
    have hall := (allUnited_append hunions).mpr ⟨front, hfront, htext⟩
    refine ⟨text, order, hall, horder, hmembers text order hall horder, fun _ hnone => ?_⟩
    rw [hnone] at horder
    cases horder
    rwa [String.append_empty, String.append_empty]

end Statement

end SelectQuery
