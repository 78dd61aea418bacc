import SelectQuery.Proofs.Frame
import SelectQuery.Proofs.FromClause

/-!
# Parts read and set

Every mutation leaves each part in the form in which `setPart` stores it. So what is read off a
reachable statement can be set again, in it or in another one, and comes back unchanged.

* `PartValue.Normal`: contents that `setPart` stores as they are;
* `ReachableBy.normal`: the parts of a reachable statement are normal;
* `Lossless`: reading and setting parts loses nothing, and touches no other part;
* **`reachable_lossless`**: so it is for every reachable statement.
-/

namespace SelectQuery

/-! ## Normal contents -/

/-- Contents that are in the form in which a statement keeps them. -/
def PartValue.Normal (v : PartValue) : Prop := v.normalized = .ok v

namespace Statement

variable {s : Statement}

theorem firstRepeated?_eq_none {seen names : List String} (h : names.Nodup)
    (hseen : ∀ name ∈ names, name ∉ seen) : Edit.firstRepeated? seen names = none := by
  induction names generalizing seen with
  | nil => rfl
  | cons name rest ih =>
    obtain ⟨hname, hrest⟩ := List.nodup_cons.mp h
    obtain ⟨hfirst, hlater⟩ := List.forall_mem_cons.mp hseen
    rw [Edit.firstRepeated?, if_neg (by simpa using hfirst)]
    refine ih hrest fun other hmem hin => ?_
    rcases List.mem_cons.mp hin with rfl | hin
    · exact hname hmem
    · exact hlater other hmem hin

theorem normalizeJoined_eq_self {table : TableRef Statement} (hjoin : table.join ≠ none)
    (hcond : table.condition ≠ none → table.join ∈ conditionJoins) :
    Edit.normalizeJoined table = table := by
  obtain ⟨correlation, join, schema, source, condition⟩ := table
  cases join with
  | none => exact absurd rfl hjoin
  | some kind =>
    have hkept : (if kind.acceptsCondition then condition else none) = condition := by
      split
      · rfl
      next hrefuses =>
        by_contra hne
        exact hrefuses (mem_conditionJoins_iff.mp (hcond (Ne.symm hne)))
    simp only [Edit.normalizeJoined, Option.getD_some, hkept]

theorem normalizeTables_eq_self {tables : List (TableRef Statement)} (h : WellJoined tables) :
    Edit.normalizeTables tables = tables := by
  cases tables with
  | nil => rfl
  | cons base rest =>
    obtain ⟨-, ⟨hjoin, hcond⟩, hrest⟩ := wellJoined_cons_iff.mp h
    have hbase : { base with join := none, condition := none } = base := by
      cases base
      simp_all
    have hlater : rest.map Edit.normalizeJoined = rest.map id := List.map_congr_left
      fun table hmem => normalizeJoined_eq_self (hrest table hmem).1 (hrest table hmem).2
    rw [Edit.normalizeTables, hbase, hlater, List.map_id]

theorem normal_tables {tables : List (TableRef Statement)} (h : WellJoined tables) :
    (PartValue.tables tables).Normal := by
  have hnone : Edit.firstRepeated? [] (tables.map (·.correlation)) = none :=
    firstRepeated?_eq_none h.distinct fun _ _ hmem => nomatch hmem
  rw [PartValue.Normal, PartValue.normalized, hnone, normalizeTables_eq_self h]

theorem bind_nonzero_nonzero (n : UInt64) :
    (Edit.nonzero n).bind Edit.nonzero = Edit.nonzero n := by
  unfold Edit.nonzero
  split_ifs with hzero
  · rfl
  · exact if_neg hzero

theorem normal_of_normalized {v stored : PartValue} (h : v.normalized = .ok stored) :
    stored.Normal := by
  cases v with
  | tables given =>
    simp only [PartValue.normalized] at h
    split at h
    · cases h
    next hnone =>
      cases h
      exact normal_tables (wellJoined_normalizeTables (nodup_of_firstRepeated? hnone).1)
  | limitCount count | limitOffset count =>
    cases h
    cases count with
    | none => rfl
    | some n => simp [PartValue.Normal, PartValue.normalized, bind_nonzero_nonzero]
  | _ =>
    cases h
    rfl

/-! ## Reachable statements -/

theorem normal_put {v : PartValue} (hv : v.Normal) {p : Part} (hs : (s.part p).Normal) :
    ((s.put v).part p).Normal := by
  by_cases hp : p = v.part
  · rw [hp, part_put_self]
    exact hv
  · rwa [part_put_of_ne hp]

theorem normal_limit (s : Statement) (count offset : UInt64) {p : Part} (hs : (s.part p).Normal) :
    ((s.apply (.limit count offset)).2.part p).Normal := by
  have hcount : (PartValue.limitCount (Edit.nonzero count)).Normal :=
    normal_of_normalized (v := .limitCount (some count)) rfl
  have hoffset : (PartValue.limitOffset (Edit.nonzero offset)).Normal :=
    normal_of_normalized (v := .limitOffset (some offset)) rfl
  rw [apply_limit]
  exact normal_put hoffset (normal_put hcount hs)

theorem normal_reset (part : Part) {p : Part} (hs : (s.part p).Normal) :
    (({ s with toClauses := s.toClauses.reset part } : Statement).part p).Normal := by
  have hempty : (({} : Clauses Statement).part part).Normal := by cases part <;> rfl
  rw [reset_eq_put]
  exact normal_put hempty hs

theorem normal_apply {m : Mutation} {p : Part} (hp : p ≠ .tables) (hs : (s.part p).Normal)
    (hbase : ∀ base, s.absorbed? m = some base → (base.part p).Normal) :
    ((s.apply m).2.part p).Normal := by
  -- all contents are normal but those of FROM and of the two bounds
  by_cases hbound : p ≠ .limitCount ∧ p ≠ .limitOffset
  · obtain ⟨hcount, hoffset⟩ := hbound
    cases p <;> first | rfl | contradiction
  have hframe : ∀ hwrites : p ∉ m.writes, ((s.apply m).2.part p).Normal := by
    intro hwrites
    rw [(agreeOn_apply s m).part p hwrites]
    exact hs
  have hmem : p = .limitCount ∨ p = .limitOffset := by tauto
  cases m with
  | limit count offset => exact normal_limit s count offset hs
  | limitPage page rows => exact normal_limit s _ _ hs
  | union members kind =>
    cases members with
    | nil => exact hs
    | cons first rest =>
      rw [apply_settle rfl (Edit.union_run s first rest kind)]
      cases habsorbed : s.absorbed? (.union (first :: rest) kind) with
      | none => rcases hmem with rfl | rfl <;> exact hs
      | some base =>
        have hnormal := hbase base habsorbed
        rcases hmem with rfl | rfl <;> exact hnormal
  | reset part => exact normal_reset part hs
  | resetNamed name =>
    rw [apply_settle (m := .resetNamed name) rfl (Edit.resetNamed_run s name)]
    cases Part.parse name with
    | error e => exact hs
    | ok part => exact normal_reset part hs
  | resetAll => rcases hmem with rfl | rfl <;> rfl
  | setPart value =>
    rw [apply_settle (m := .setPart value) rfl (Edit.setPart_run s value)]
    cases hstored : value.normalized with
    | error e => exact hs
    | ok stored => exact normal_put (normal_of_normalized hstored) hs
  | _ => exact hframe (by rcases hmem with rfl | rfl <;> simp [Mutation.writes])

/-- **The parts of a reachable statement are normal.** -/
theorem ReachableBy.normal {allowed : Mutation → Prop} (h : ReachableBy allowed s) (p : Part) :
    (s.part p).Normal := by
  by_cases hp : p = .tables
  · subst hp
    exact normal_tables h.wellJoined
  · induction h with
    | empty d => cases p <;> rfl
    | apply hs hm hbase ih ihbase => exact normal_apply hp ih ihbase

/-! ## Setting what was read -/

theorem apply_setPart_of_normal {v : PartValue} (h : v.Normal) (s : Statement) :
    s.apply (.setPart v) = (.ok [], s.put v) := by
  rw [apply_settle rfl (Edit.setPart_run s v), h]
  rfl

/-- The calls that set parts of a statement as they are. -/
def copies (s : Statement) (order : List Part) : List Mutation :=
  order.map fun p => .setPart (s.part p)

/-- **Copied parts come over one by one**, into any statement, and no call fails. -/
theorem record_copies (hs : ∀ p, (s.part p).Normal) (t : Statement) (order : List Part) :
    (∀ call ∈ t.record (s.copies order), call.2 = .ok []) ∧
      (t.applyAll (s.copies order)).dialect = t.dialect ∧
      ∀ p, (t.applyAll (s.copies order)).part p = if p ∈ order then s.part p else t.part p := by
  induction order generalizing t with
  | nil => exact ⟨fun _ h => (nomatch h), rfl, fun _ => (if_neg List.not_mem_nil).symm⟩
  | cons first rest ih =>
    have hfirst := apply_setPart_of_normal (hs first) t
    obtain ⟨hcalls, hdialect, hparts⟩ := ih (t.put (s.part first))
    change (∀ call ∈ (_, (t.apply _).1) :: (t.apply _).2.record (s.copies rest), call.2 = .ok []) ∧
      ((t.apply _).2.applyAll (s.copies rest)).dialect = t.dialect ∧
      ∀ p, ((t.apply _).2.applyAll (s.copies rest)).part p = _
    rw [hfirst]
    refine ⟨List.forall_mem_cons.mpr ⟨rfl, hcalls⟩, hdialect.trans (dialect_put t _), fun p => ?_⟩
    rw [hparts p]
    by_cases hp : p = first
    · rw [hp, part_put_part, ite_self, if_pos List.mem_cons_self]
    · rw [part_put_of_ne (by rwa [Clauses.part_part])]
      simp [hp]

/-- **Reading and setting parts loses nothing, and touches no other part.** -/
structure Lossless (s : Statement) : Prop where
  /-- A part that is set to what it holds stays as it is. -/
  restored : ∀ p, s.apply (.setPart (s.part p)) = (.ok [], s)
  /-- All parts together, in any order, make the same statement of an empty one. -/
  copied : ∀ order : List Part, order.Perm Part.all →
    (∀ call ∈ (ofDialect s.dialect).record (s.copies order), call.2 = .ok []) ∧
      (ofDialect s.dialect).applyAll (s.copies order) = s
  /-- Setting a part changes no other one. -/
  independent : ∀ value events next, s.apply (.setPart value) = (.ok events, next) →
    AgreeOn (· ≠ value.part) next s
  emptied : s.apply .resetAll = (.ok [], ofDialect s.dialect)

/-- **Every reachable statement is the sum of its parts.** -/
theorem reachable_lossless {s : Statement} (h : Reachable s) : Lossless s where
  restored p := by
    rw [apply_setPart_of_normal (h.normal p), put_part]
  copied order horder := by
    obtain ⟨hcalls, hdialect, hparts⟩ := record_copies h.normal (ofDialect s.dialect) order
    refine ⟨hcalls, eq_of_part hdialect fun p => ?_⟩
    rw [hparts p, if_pos (horder.mem_iff.mpr (Part.mem_all p))]
  independent value events next hnext := by
    have hframe := agreeOn_apply s (.setPart value)
    rw [hnext] at hframe
    exact hframe.mono fun p hp hmem => hp (List.mem_singleton.mp hmem)
  emptied := rfl

/-- FROM is given without its joins in order, and the count is zero. -/
theorem reachable_lossless_given :
    let s := (ofDialect (Config.dialect {})).applyAll
      [.selectFrom (.ofName "orders AS o") [.ofText "id"], .limitPage 3 20,
        .setPart (.limitCount (some 0)),
        .setPart (.tables [⟨"o", some .left, none, .name "orders", some "1 = 1"⟩,
          ⟨"r", none, none, .name "refunds", some "2 = 2"⟩])]
    Reachable s ∧ s.limitOffset = some 40 ∧ s.apply (.setPart (s.part .tables)) = (.ok [], s) ∧
      (ofDialect s.dialect).applyAll (s.copies Part.all.reverse) = s := by
  intro s
  have hs : Reachable s := (ReachableBy.empty _).applyAll _ (by simp [absorbed?])
  have hlossless := reachable_lossless hs
  exact ⟨hs, rfl, hlossless.restored .tables, (hlossless.copied _ (List.reverse_perm _)).2⟩

end Statement

end SelectQuery
