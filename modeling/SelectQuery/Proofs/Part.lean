import SelectQuery.Proofs.Mutation

/-!
# Parts of a statement put in place

* `Statement.put`: a statement with other contents in one part, taken as they are, with
  `part_put_self`, `part_put_of_ne`, `put_part`;
* `AgreeOn`: two statements of one dialect with the same contents in some parts;
* `PartValue.normalized`: contents in the form in which a statement keeps them;
* `Edit.setPart_run`: contents are set by putting them in this form.
-/

namespace SelectQuery

theorem Clauses.eq_of_part {c e : Clauses Statement} (h : ∀ p, c.part p = e.part p) : c = e := by
  cases c
  cases e
  rw [Clauses.mk.injEq]
  exact ⟨PartValue.straightJoin.inj (h .straightJoin), PartValue.distinct.inj (h .distinct),
    PartValue.columns.inj (h .columns), PartValue.union.inj (h .union),
    PartValue.tables.inj (h .tables), PartValue.predicates.inj (h .predicates),
    PartValue.groups.inj (h .groups), PartValue.havings.inj (h .havings),
    PartValue.orders.inj (h .orders), PartValue.limitCount.inj (h .limitCount),
    PartValue.limitOffset.inj (h .limitOffset), PartValue.forUpdate.inj (h .forUpdate)⟩

namespace Statement

variable {s t u : Statement}

/-! ## One part replaced -/

/-- The statement with other contents in one part, taken as they are. -/
def put (s : Statement) : PartValue → Statement
  | .straightJoin flag => { s with straightJoin := flag }
  | .distinct flag => { s with distinct := flag }
  | .columns columns => { s with columns }
  | .union members => { s with unions := members }
  | .tables tables => { s with tables }
  | .predicates predicates => { s with predicates }
  | .groups groups => { s with groups }
  | .havings havings => { s with havings }
  | .orders orders => { s with orders }
  | .limitCount count => { s with limitCount := count }
  | .limitOffset offset => { s with limitOffset := offset }
  | .forUpdate flag => { s with forUpdate := flag }

@[simp] theorem dialect_put (s : Statement) (v : PartValue) : (s.put v).dialect = s.dialect := by
  cases v <;> rfl

@[simp] theorem part_put_self (s : Statement) (v : PartValue) : (s.put v).part v.part = v := by
  cases v <;> rfl

theorem part_put_part (s t : Statement) (p : Part) : (s.put (t.part p)).part p = t.part p := by
  have hself := part_put_self s (t.part p)
  rwa [Clauses.part_part] at hself

theorem part_put_of_ne {v : PartValue} {p : Part} (h : p ≠ v.part) :
    (s.put v).part p = s.part p := by
  cases v <;> cases p <;> first | rfl | exact absurd rfl h

theorem eq_of_part (hdialect : s.dialect = t.dialect) (h : ∀ p, s.part p = t.part p) : s = t := by
  have hclauses : s.toClauses = t.toClauses := Clauses.eq_of_part h
  cases s
  cases t
  cases hclauses
  cases hdialect
  rfl

theorem put_part (s : Statement) (p : Part) : s.put (s.part p) = s := by
  refine eq_of_part (dialect_put s _) fun q => ?_
  by_cases hq : q = p
  · rw [hq, part_put_part]
  · exact part_put_of_ne (by rwa [Clauses.part_part])

theorem reset_eq_put (s : Statement) (p : Part) :
    { s with toClauses := s.toClauses.reset p } = s.put (({} : Clauses Statement).part p) := by
  cases p <;> rfl

/-! ## Agreement -/

/-- Two statements of one dialect with the same contents in some parts. -/
structure AgreeOn (parts : Part → Prop) (s t : Statement) : Prop where
  dialect : s.dialect = t.dialect
  part : ∀ p, parts p → s.part p = t.part p

section

variable {parts more : Part → Prop}

theorem AgreeOn.refl (parts : Part → Prop) (s : Statement) : AgreeOn parts s s :=
  ⟨rfl, fun _ _ => rfl⟩

theorem AgreeOn.symm (h : AgreeOn parts s t) : AgreeOn parts t s :=
  ⟨h.dialect.symm, fun p hp => (h.part p hp).symm⟩

theorem AgreeOn.trans (h : AgreeOn parts s t) (ht : AgreeOn parts t u) : AgreeOn parts s u :=
  ⟨h.dialect.trans ht.dialect, fun p hp => (h.part p hp).trans (ht.part p hp)⟩

theorem AgreeOn.mono (h : AgreeOn parts s t) (hmore : ∀ p, more p → parts p) : AgreeOn more s t :=
  ⟨h.dialect, fun p hp => h.part p (hmore p hp)⟩

/-- Statements that agree still do with the same contents put into both. -/
theorem AgreeOn.put (h : AgreeOn parts s t) (v : PartValue) :
    AgreeOn parts (s.put v) (t.put v) := by
  refine ⟨by simpa using h.dialect, fun p hp => ?_⟩
  by_cases hv : p = v.part
  · rw [hv, part_put_self, part_put_self]
  · rw [part_put_of_ne hv, part_put_of_ne hv, h.part p hp]

theorem agreeOn_put {v : PartValue} (h : ¬ parts v.part) : AgreeOn parts (s.put v) s := by
  refine ⟨dialect_put s v, fun p hp => part_put_of_ne ?_⟩
  rintro rfl
  exact h hp

end

end Statement

/-! ## The form of contents -/

/-- Contents of a part in the form in which a statement keeps them: FROM has no name twice and its
joins in order, and there are no bounds of zero rows. -/
def PartValue.normalized : PartValue → Except Error PartValue
  | tables given =>
    match Edit.firstRepeated? [] (given.map (·.correlation)) with
    | some name => .error (.duplicateCorrelation name)
    | none => .ok (tables (Edit.normalizeTables given))
  | limitCount count => .ok (limitCount (count.bind Edit.nonzero))
  | limitOffset offset => .ok (limitOffset (offset.bind Edit.nonzero))
  | value => .ok value

theorem PartValue.part_of_normalized {v next : PartValue} (h : v.normalized = .ok next) :
    next.part = v.part := by
  cases v with
  | tables given =>
    simp only [normalized] at h
    split at h
    · cases h
    · cases h
      rfl
  | _ =>
    cases h
    rfl

theorem Edit.setPart_run (s : Statement) (v : PartValue) :
    setPart v s = settle s (v.normalized.map s.put) := by
  cases v with
  | tables given =>
    rw [setPart_tables_run, PartValue.normalized]
    cases firstRepeated? [] (given.map (·.correlation)) <;> rfl
  | _ => rfl

end SelectQuery
