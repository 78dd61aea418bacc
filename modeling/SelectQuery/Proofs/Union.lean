import Mathlib.Data.List.TakeWhile
import SelectQuery.Proofs.Assembly
import SelectQuery.Proofs.Reachable

/-!
# Unions

A call of `union` adds its members behind those that are there. Only a statement with neither tables
nor columns takes over the first member, if that is a statement; this one then comes first of all.

* `Statement.apply_union_of_not_absorbed`, `Statement.apply_union_of_absorbed`: the two ways;
* `Statement.assemble_union`: the text of a statement after a call;
* `UnionCall`, `UnionCall.arranged`: calls on an empty statement, and their members as they come to
  stand;
* `UnionCall.assemble_applyAll`: the text after such calls.
-/

namespace SelectQuery

namespace Statement

variable {s : Statement}

/-! ## One call -/

theorem apply_union_of_not_absorbed {members : List (UnionTarget Statement)} {kind : UnionKind}
    (hne : members ≠ []) (h : s.absorbed? (.union members kind) = none) :
    s.apply (.union members kind) = (.ok [], s.withMembers members kind) := by
  cases members with
  | nil => exact absurd rfl hne
  | cons first rest => rw [apply_settle rfl (Edit.union_run s first rest kind), h]

theorem apply_union_of_absorbed {base : Statement} {rest : List (UnionTarget Statement)}
    {kind : UnionKind} (h : s.absorbed? (.union (.select base :: rest) kind) = some base) :
    s.apply (.union (.select base :: rest) kind) =
      (.ok [], (Edit.absorb s base).withMembers rest kind) := by
  rw [apply_settle rfl (Edit.union_run s (.select base) rest kind), h]

theorem absorbed?_union_eq_none (h : s.tables ≠ [] ∨ s.columns ≠ [])
    (members : List (UnionTarget Statement)) (kind : UnionKind) :
    s.absorbed? (.union members kind) = none := by
  unfold absorbed?
  split
  · refine if_neg ?_
    rcases h with h | h <;> simp [h]
  · rfl

/-- **The text of a statement after a call of `union`.** A statement with a table keeps its text,
with the new members behind it. One without a table comes to the members of its union alone. -/
theorem assemble_union (hbase : s.tables ≠ [] ∨ s.columns ≠ []) (hs : s.Unbounded) {old : String}
    (hold : s.assemble = .ok old) {members : List (UnionTarget Statement)} (hne : members ≠ [])
    (hmembers : ∀ target ∈ members, ∃ shown, target.assemble = .ok shown) (kind : UnionKind) :
    let added := members.map fun target => (⟨target, kind⟩ : UnionMember Statement)
    ∃ next sql, s.apply (.union members kind) = (.ok [], next) ∧ next.assemble = .ok sql ∧
      (s.tables ≠ [] ∨ s.unions ≠ [] ∧ s.orders = [] → United old added sql) ∧
      (s.tables = [] → ∃ text order, AllUnited (s.unions ++ added) text ∧
        s.dialect.orderClause s.orders = .ok order ∧ text ++ order = sql) := by
  intro added
  have happly := apply_union_of_not_absorbed hne (absorbed?_union_eq_none hbase members kind)
  have hshown : ∀ member ∈ added, ∃ shown, member.target.assemble = .ok shown :=
    List.forall_mem_map.mpr hmembers
  have hadded : added ≠ [] := by simpa [added] using hne
  by_cases htables : s.tables = []
  · obtain ⟨text, order, hall, horder, hassemble, hbehind⟩ :=
      exists_assemble_append_unions hs htables hold hadded hshown
    refine ⟨s.withMembers members kind, text ++ order, happly, hassemble, ?_, fun _ => ?_⟩
    · rintro (htable | ⟨hunions, hnone⟩)
      · exact absurd htables htable
      · exact hbehind hunions hnone
    · exact ⟨text, order, hall, horder, rfl⟩
  · obtain ⟨sql, hsql⟩ := exists_united old hshown
    exact ⟨s.withMembers members kind, sql, happly, assemble_append_unions hs htables hold hsql,
      fun _ => hsql, fun h => absurd h htables⟩

theorem assemble_union_text_and_select :
    let s := (ofDialect (Config.dialect {})).applyAll
      [.selectFrom (.ofName "orders AS o") [.ofText "id"]]
    let notes := (ofDialect (Config.dialect {})).applyAll
      [.selectFrom (.ofName "notes") [.ofText "id"]]
    let old := "SELECT \"o\".\"id\" FROM \"orders\" AS \"o\""
    s.Unbounded ∧ s.assemble = .ok old ∧
      ∃ next sql, s.apply (.union [.raw "SELECT 2", .select notes] .all) = (.ok [], next) ∧
        next.assemble = .ok sql ∧
        United old [⟨.raw "SELECT 2", .all⟩, ⟨.select notes, .all⟩] sql := by
  intro s notes old
  have htables : s.tables ≠ [] := by decide
  have hs : s.Unbounded := ⟨rfl, rfl, rfl⟩
  have hold : s.assemble = .ok old := by decide +kernel
  have hnotes : notes.assemble = .ok "SELECT \"notes\".\"id\" FROM \"notes\"" := by decide +kernel
  have hmembers : ∀ target ∈ [UnionTarget.raw "SELECT 2", .select notes], ∃ shown,
      target.assemble = .ok shown :=
    List.forall_mem_cons.mpr ⟨⟨_, rfl⟩, List.forall_mem_singleton.mpr ⟨_, hnotes⟩⟩
  obtain ⟨next, sql, happly, hsql, hunited, -⟩ :=
    assemble_union (.inl htables) hs hold (List.cons_ne_nil _ _) hmembers .all
  exact ⟨hs, hold, next, sql, happly, hsql, hunited (.inl htables)⟩

/-- A SELECT without a table is not in the text of its union. -/
theorem assemble_union_without_table :
    let s := (ofDialect (Config.dialect {})).applyAll [.selectFrom {} [.ofText "NOW()"]]
    let m := Mutation.union [.raw "SELECT 2"] .all
    Reachable s ∧ s.columns ≠ [] ∧ s.Unbounded ∧ s.assemble = .ok "SELECT NOW()" ∧
      (s.apply m).1 = .ok [] ∧ (s.apply m).2.assemble = .ok "SELECT 2" ∧
      United "SELECT NOW()" [⟨.raw "SELECT 2", .all⟩] "SELECT NOW() UNION ALL SELECT 2" := by
  intro s m
  have hs : Reachable s := (ReachableBy.empty _).applyAll _ (by simp [absorbed?])
  refine ⟨hs, by decide, ⟨rfl, rfl, rfl⟩, by decide +kernel, by rfl, by decide +kernel, ?_⟩
  exact .cons rfl (.nil _)

/-! ## Several calls -/

theorem applyAll_append (s : Statement) (ms more : List Mutation) :
    s.applyAll (ms ++ more) = (s.applyAll ms).applyAll more := List.foldl_append

theorem absorbed?_withMembers (members : List (UnionTarget Statement)) (kind : UnionKind)
    (m : Mutation) : (s.withMembers members kind).absorbed? m = s.absorbed? m := by
  cases m <;> rfl

end Statement

/-- A call of `union` with its arguments. -/
structure UnionCall where
  members : List (UnionTarget Statement)
  kind : UnionKind

/-- What such calls may unite: SQL text, or a statement that has a table and a text, and neither a
union, nor a row window, nor a lock. -/
inductive Unitable (d : Dialect) : UnionTarget Statement → Prop
  | raw (sql : String) : Unitable d (.raw sql)
  | select {s : Statement} {shown : String} (hdialect : s.dialect = d) (htables : s.tables ≠ [])
      (hunions : s.unions = []) (hs : s.Unbounded) (h : s.assemble = .ok shown) :
      Unitable d (.select s)

theorem Unitable.exists_assemble {d : Dialect} {target : UnionTarget Statement}
    (h : Unitable d target) : ∃ shown, target.assemble = .ok shown := by
  cases h with
  | raw sql => exact ⟨sql, rfl⟩
  | @select s shown _ _ _ _ h => exact ⟨shown, h⟩

namespace UnionCall

def mutation (call : UnionCall) : Mutation := .union call.members call.kind

/-- The members of a call with its kind. -/
def added (call : UnionCall) : List (UnionMember Statement) :=
  call.members.map fun target => ⟨target, call.kind⟩

theorem apply_mutation_fst {call : UnionCall} (hne : call.members ≠ []) (s : Statement) :
    (s.apply call.mutation).1 = .ok [] := by
  obtain ⟨members, kind⟩ := call
  cases members with
  | nil => exact absurd rfl hne
  | cons first rest => rw [mutation, Statement.apply_settle rfl (Edit.union_run s first rest kind)]

/-- **A run of calls that takes over no statement** adds the members of all of them. -/
theorem applyAll_of_not_absorbed {s : Statement} {calls : List UnionCall}
    (h : ∀ call ∈ calls, call.members ≠ [] ∧ s.absorbed? call.mutation = none) :
    s.applyAll (calls.map mutation) = { s with unions := s.unions ++ calls.flatMap added } := by
  induction calls generalizing s with
  | nil =>
    cases s
    simp [Statement.applyAll]
  | cons call rest ih =>
    obtain ⟨⟨hne, hnone⟩, hrest⟩ := List.forall_mem_cons.mp h
    have happly := Statement.apply_union_of_not_absorbed hne hnone
    change (s.apply call.mutation).2.applyAll (rest.map mutation) = _
    rw [mutation, happly, ih fun call hcall => ?_]
    · simp [Statement.withMembers, added]
    · rw [Statement.absorbed?_withMembers]
      exact hrest call hcall

/-! ### The order of the members -/

/-- Whether the first member of a call is a statement. -/
def leads (call : UnionCall) : Bool :=
  match call.members with
  | .select _ :: _ => true
  | _ => false

theorem exists_raw_of_not_leads {call : UnionCall} (hne : call.members ≠ [])
    (h : call.leads = false) : ∃ sql rest, call.members = .raw sql :: rest := by
  obtain ⟨members, kind⟩ := call
  cases members with
  | nil => exact absurd rfl hne
  | cons target rest =>
    cases target with
    | raw sql => exact ⟨sql, rest, rfl⟩
    | select base => cases h

theorem absorbed?_of_not_leads {call : UnionCall} (h : call.leads = false) (s : Statement) :
    s.absorbed? call.mutation = none := by
  obtain ⟨members, kind⟩ := call
  cases members with
  | nil => rfl
  | cons target rest =>
    cases target with
    | raw sql => rfl
    | select base => cases h

/-- The members of the calls in front of the first one that begins with a statement. -/
def early (calls : List UnionCall) : List (UnionMember Statement) :=
  (calls.takeWhile (!·.leads)).flatMap added

/-- The members of the first call that begins with a statement, and of those behind it. -/
def late (calls : List UnionCall) : List (UnionMember Statement) :=
  (calls.dropWhile (!·.leads)).flatMap added

/-- The members of calls on an empty statement as they come to stand: the statement that is taken
over is in front of all that was there. -/
def arranged (calls : List UnionCall) : List (UnionMember Statement) :=
  (late calls).take 1 ++ early calls ++ (late calls).drop 1

theorem early_append_late (calls : List UnionCall) :
    early calls ++ late calls = calls.flatMap added := by
  rw [early, late, ← List.flatMap_append, List.takeWhile_append_dropWhile]

theorem arranged_perm (calls : List UnionCall) : (arranged calls).Perm (calls.flatMap added) :=
  calc (late calls).take 1 ++ early calls ++ (late calls).drop 1
    List.Perm _ (early calls ++ (late calls).take 1 ++ (late calls).drop 1) :=
      List.perm_append_comm.append_right _
    _ = early calls ++ late calls := by rw [List.append_assoc, List.take_append_drop]
    _ = calls.flatMap added := early_append_late calls

theorem arranged_of_forall {calls : List UnionCall} (h : ∀ call ∈ calls, call.leads = false) :
    arranged calls = calls.flatMap added := by
  have hlate : late calls = [] := by
    rw [late, List.dropWhile_eq_nil_iff.mpr (by simpa using h), List.flatMap_nil]
  rw [← early_append_late, arranged, hlate]
  simp

theorem arranged_of_leading {calls before after : List UnionCall} {call : UnionCall}
    {base : Statement} {rest : List (UnionTarget Statement)}
    (hcalls : calls = before ++ call :: after) (hbefore : ∀ call ∈ before, call.leads = false)
    (hcall : call.members = .select base :: rest) :
    arranged calls = ⟨.select base, call.kind⟩ ::
      (before.flatMap added ++ (rest.map fun target => ⟨target, call.kind⟩) ++
        after.flatMap added) := by
  have hleads : call.leads = true := by simp [leads, hcall]
  have hearly : early calls = before.flatMap added := by
    rw [early, hcalls, List.takeWhile_append_of_pos (by simpa using hbefore),
      List.takeWhile_cons_of_neg (by simpa using hleads), List.append_nil]
  have hlate : late calls = ⟨.select base, call.kind⟩ ::
      ((rest.map fun target => ⟨target, call.kind⟩) ++ after.flatMap added) := by
    rw [late, hcalls, List.dropWhile_append_of_pos (by simpa using hbefore),
      List.dropWhile_cons_of_neg (by simpa using hleads), List.flatMap_cons, added, hcall]
    rfl
  rw [arranged, hearly, hlate]
  simp

theorem forall_or_exists_leading (calls : List UnionCall) :
    (∀ call ∈ calls, call.leads = false) ∨
      ∃ before call after base rest, calls = before ++ call :: after ∧
        (∀ call ∈ before, call.leads = false) ∧ call.members = .select base :: rest := by
  cases hfind : calls.find? leads with
  | none => exact .inl (by simpa using List.find?_eq_none.mp hfind)
  | some call =>
    obtain ⟨hleads, before, after, hcalls, hbefore⟩ := List.find?_eq_some_iff_append.mp hfind
    refine .inr ⟨before, call, after, ?_⟩
    unfold leads at hleads
    split at hleads
    next base rest hmembers => exact ⟨base, rest, hcalls, by simpa using hbefore, hmembers⟩
    · cases hleads

/-- The members stand in the order of the calls only if no statement is taken over, or it is that of
the first call. -/
theorem arranged_eq_iff {calls : List UnionCall} (hne : ∀ call ∈ calls, call.members ≠ []) :
    arranged calls = calls.flatMap added ↔
      (∀ call ∈ calls, call.leads = false) ∨ ∃ call ∈ calls.head?, call.leads = true := by
  rcases forall_or_exists_leading calls with
    hnone | ⟨before, call, after, base, rest, hcalls, hbefore, hmembers⟩
  · exact iff_of_true (arranged_of_forall hnone) (.inl hnone)
  have hleads : call.leads = true := by simp [leads, hmembers]
  rw [arranged_of_leading hcalls hbefore hmembers]
  subst hcalls
  cases before with
  | nil =>
    refine iff_of_true ?_ (.inr ⟨call, rfl, hleads⟩)
    simp [added, hmembers]
  | cons first more =>
    have hfirst : first.leads = false := hbefore first List.mem_cons_self
    refine iff_of_false (fun heq => ?_) ?_
    · -- the statement is in front of a text that the first call began with
      obtain ⟨sql, others, hothers⟩ :=
        exists_raw_of_not_leads (hne first List.mem_cons_self) hfirst
      simp [added, hothers] at heq
    · rintro (hall | ⟨_, ⟨⟩, htrue⟩)
      · have := hall call (by simp)
        rw [hleads] at this
        cases this
      · rw [hfirst] at htrue
        cases htrue

/-! ### The text -/

theorem applyAll_of_leading {d : Dialect} {calls before after : List UnionCall} {call : UnionCall}
    {base : Statement} {rest : List (UnionTarget Statement)}
    (hcalls : calls = before ++ call :: after) (hbefore : ∀ call ∈ before, call.leads = false)
    (hmembers : call.members = .select base :: rest) (hne : ∀ call ∈ calls, call.members ≠ [])
    (htables : base.tables ≠ []) :
    (Statement.ofDialect d).applyAll (calls.map mutation) =
      { base with unions := (arranged calls).tail, dialect := d } := by
  -- the statement in front of the call that has a member taken over, and behind it
  let s : Statement := { Statement.ofDialect d with unions := before.flatMap added }
  let t := (Edit.absorb s base).withMembers rest call.kind
  have hearly : ∀ call ∈ before, call.members ≠ [] ∧
      (Statement.ofDialect d).absorbed? call.mutation = none := fun call hmem =>
    ⟨hne call (by simp [hcalls, hmem]), absorbed?_of_not_leads (hbefore call hmem) _⟩
  have hcall : s.apply call.mutation = (.ok [], t) := by
    rw [mutation, hmembers]
    exact Statement.apply_union_of_absorbed rfl
  have hlate : ∀ call ∈ after, call.members ≠ [] ∧ t.absorbed? call.mutation = none :=
    fun call hmem => ⟨hne call (by simp [hcalls, hmem]),
      Statement.absorbed?_union_eq_none (.inl htables) _ _⟩
  rw [arranged_of_leading hcalls hbefore hmembers, hcalls, List.map_append, List.map_cons,
    Statement.applyAll_append, applyAll_of_not_absorbed hearly]
  change (s.apply call.mutation).2.applyAll _ = _
  rw [hcall, applyAll_of_not_absorbed hlate]
  simp [t, s, Statement.withMembers, Edit.absorb, Statement.ofDialect]

theorem exists_assemble_of_mem_arranged {d : Dialect} {calls : List UnionCall}
    (h : ∀ call ∈ calls, ∀ target ∈ call.members, Unitable d target) :
    ∀ member ∈ arranged calls, ∃ shown, member.target.assemble = .ok shown := by
  intro member hmem
  obtain ⟨call, hcall, hmem⟩ := List.mem_flatMap.mp ((arranged_perm calls).mem_iff.mp hmem)
  obtain ⟨target, htarget, rfl⟩ := List.mem_map.mp hmem
  exact (h call hcall target htarget).exists_assemble

theorem exists_assemble_applyAll {d : Dialect} {calls : List UnionCall} (hcalls : calls ≠ [])
    (hne : ∀ call ∈ calls, call.members ≠ [])
    (h : ∀ call ∈ calls, ∀ target ∈ call.members, Unitable d target) :
    ∃ sql, ((Statement.ofDialect d).applyAll (calls.map mutation)).assemble = .ok sql ∧
      AllUnited (arranged calls) sql := by
  have hshown := exists_assemble_of_mem_arranged h
  rcases forall_or_exists_leading calls with
    hnone | ⟨before, call, after, base, rest, hsplit, hbefore, hmembers⟩
  · rw [arranged_of_forall hnone] at hshown ⊢
    rw [applyAll_of_not_absorbed fun call hmem =>
      ⟨hne call hmem, absorbed?_of_not_leads (hnone call hmem) _⟩]
    have hadded : calls.flatMap added ≠ [] := by
      obtain ⟨call, hcall⟩ := List.exists_mem_of_ne_nil calls hcalls
      intro hnil
      have := List.flatMap_eq_nil_iff.mp hnil call hcall
      exact hne call hcall (List.map_eq_nil_iff.mp this)
    obtain ⟨sql, hsql⟩ := exists_allUnited hadded hshown
    refine ⟨sql, (Statement.assemble_eq_ok_iff_of_members ⟨rfl, rfl, rfl⟩ rfl hadded).mpr ?_, hsql⟩
    exact ⟨sql, "", hsql, rfl, String.append_empty⟩
  · -- the statement that is taken over keeps its text, which is that of the first member
    have hbase := h call (by simp [hsplit]) (.select base) (by simp [hmembers])
    cases hbase with
    | @select _ shown hdialect htables hunions hs htext =>
      subst hdialect
      rw [applyAll_of_leading hsplit hbefore hmembers hne htables]
      rw [arranged_of_leading hsplit hbefore hmembers] at hshown ⊢
      obtain ⟨sql, hsql⟩ := exists_united shown (List.forall_mem_cons.mp hshown).2
      have hassemble := Statement.assemble_append_unions hs htables htext hsql
      rw [hunions, List.nil_append] at hassemble
      exact ⟨sql, hassemble, .intro htext hsql⟩

/-- **The text after calls of `union` on an empty statement.** Every call succeeds, and the text is
that of all their members, each one but the first behind the keyword of its call. They stand in
the order of the calls, unless a later call is the first that begins with a statement. -/
theorem assemble_applyAll {d : Dialect} {calls : List UnionCall}
    (h : ∀ call ∈ calls, call.members ≠ [] ∧ ∀ target ∈ call.members, Unitable d target) :
    let s := (Statement.ofDialect d).applyAll (calls.map mutation)
    (∀ call ∈ calls, ∀ t : Statement, (t.apply call.mutation).1 = .ok []) ∧
      (calls = [] → s.assemble = .ok "SELECT *") ∧
      (calls ≠ [] → ∃ sql, s.assemble = .ok sql ∧ AllUnited (arranged calls) sql) ∧
      (arranged calls).Perm (calls.flatMap added) ∧
      (arranged calls = calls.flatMap added ↔
        (∀ call ∈ calls, call.leads = false) ∨ ∃ call ∈ calls.head?, call.leads = true) := by
  intro s
  have hne : ∀ call ∈ calls, call.members ≠ [] := fun call hmem => (h call hmem).1
  refine ⟨fun call hmem => apply_mutation_fst (hne call hmem), ?_, fun hcalls => ?_,
    arranged_perm calls, arranged_eq_iff hne⟩
  · rintro rfl
    have hs : s.Unbounded := ⟨rfl, rfl, rfl⟩
    exact (Statement.assemble_eq_ok_iff_of_select hs (.inr rfl)).mpr ⟨"SELECT *", rfl, .nil _⟩
  · exact exists_assemble_applyAll hcalls hne fun call hmem => (h call hmem).2

theorem assemble_applyAll_select_and_text :
    let d := Config.dialect {}
    let notes := (Statement.ofDialect d).applyAll [.selectFrom (.ofName "notes") [.ofText "id"]]
    let calls : List UnionCall :=
      [⟨[.select notes, .raw "SELECT 1"], .distinct⟩, ⟨[.select notes], .all⟩]
    (∀ call ∈ calls, call.members ≠ [] ∧ ∀ target ∈ call.members, Unitable d target) ∧
      ∃ sql, ((Statement.ofDialect d).applyAll (calls.map mutation)).assemble = .ok sql ∧
        AllUnited (calls.flatMap added) sql := by
  intro d notes calls
  have htext : notes.assemble = .ok "SELECT \"notes\".\"id\" FROM \"notes\"" := by decide +kernel
  have hnotes : Unitable d (.select notes) := .select rfl (by decide) rfl ⟨rfl, rfl, rfl⟩ htext
  have h : ∀ call ∈ calls, call.members ≠ [] ∧ ∀ target ∈ call.members, Unitable d target := by
    simp [calls, hnotes, Unitable.raw]
  obtain ⟨-, -, htexts, -, horder⟩ := assemble_applyAll h
  have harranged : arranged calls = calls.flatMap added := horder.mpr (.inr ⟨_, rfl, rfl⟩)
  exact ⟨h, harranged ▸ htexts (List.cons_ne_nil _ _)⟩

/-- A statement that a later call begins with comes in front of the members that were there, and
the kinds change with it. -/
theorem assemble_applyAll_text_and_select :
    let d := Config.dialect {}
    let notes := (Statement.ofDialect d).applyAll [.selectFrom (.ofName "notes") [.ofText "id"]]
    let calls : List UnionCall := [⟨[.raw "SELECT 1"], .distinct⟩, ⟨[.select notes], .all⟩]
    (∀ call ∈ calls, call.members ≠ [] ∧ ∀ target ∈ call.members, Unitable d target) ∧
      notes.orders = [] ∧
      AllUnited (calls.flatMap added) "SELECT 1 UNION ALL SELECT \"notes\".\"id\" FROM \"notes\"" ∧
      ((Statement.ofDialect d).applyAll (calls.map mutation)).assemble =
        .ok "SELECT \"notes\".\"id\" FROM \"notes\" UNION SELECT 1" := by
  intro d notes calls
  have htext : notes.assemble = .ok "SELECT \"notes\".\"id\" FROM \"notes\"" := by decide +kernel
  have hnotes : Unitable d (.select notes) := .select rfl (by decide) rfl ⟨rfl, rfl, rfl⟩ htext
  have h : ∀ call ∈ calls, call.members ≠ [] ∧ ∀ target ∈ call.members, Unitable d target := by
    simp [calls, hnotes, Unitable.raw]
  exact ⟨h, rfl, .intro rfl (.cons htext (.nil _)), by decide +kernel⟩

end UnionCall

end SelectQuery
