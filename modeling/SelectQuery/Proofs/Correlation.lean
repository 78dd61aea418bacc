import Mathlib.Data.List.Perm.Subperm
import Mathlib.Data.List.Nodup
import SelectQuery.Proofs.Outcome
import SelectQuery.Statement.Edit

/-!
# Correlation names of new tables

* `numbered_injective`: different numbers make different names of one base;
* `exists_free_number`: among as many numbers as there are tables, one makes a free name of a base
  that is taken;
* `freeCorrelation_free`, `newCorrelation_free`: the correlation name of a new table is free.
-/

namespace SelectQuery.Statement

theorem numbered_injective {base : String} {j k : Nat} (h : numbered base j = numbered base k) :
    j = k := by
  unfold numbered at h
  rw [String.append_right_inj] at h
  have hvalue := congrArg (fun text : String => Nat.ofDigitChars 10 text.toList 0) h
  simpa [Nat.toString_eq_ofList_toDigits] using hvalue

theorem base_ne_numbered (base : String) (k : Nat) : base ≠ numbered base k := by
  intro h
  have := congrArg String.length h
  simp only [numbered, String.length_append] at this
  have : ("_" : String).length = 1 := rfl
  omega

variable (s : Statement)

theorem hasTable_eq_true_iff {name : String} :
    s.hasTable name = true ↔ name ∈ s.tables.map (·.correlation) := by
  simp [hasTable]

theorem hasTable_eq_false_iff {name : String} :
    s.hasTable name = false ↔ name ∉ s.tables.map (·.correlation) := by
  rw [← hasTable_eq_true_iff, Bool.not_eq_true]

theorem exists_free_number {base : String} (hb : s.hasTable base = true) :
    ∃ k ∈ List.range' 2 s.tables.length, s.hasTable (numbered base k) = false := by
  by_contra hall
  push Not at hall
  set names := (List.range' 2 s.tables.length).map (numbered base)
  have hnodup : (base :: names).Nodup := by
    have hnumbers : names.Nodup := (List.nodup_range' 1).map fun _ _ => numbered_injective
    refine List.nodup_cons.mpr ⟨fun h => ?_, hnumbers⟩
    obtain ⟨k, -, hk⟩ := List.mem_map.mp h
    exact base_ne_numbered base k hk.symm
  have hsub : base :: names ⊆ s.tables.map (·.correlation) := by
    intro name hname
    rw [← hasTable_eq_true_iff]
    rcases List.mem_cons.mp hname with rfl | hname
    · exact hb
    · obtain ⟨k, hk, rfl⟩ := List.mem_map.mp hname
      simpa using hall k hk
  have hle := (List.subperm_of_subset hnodup hsub).length_le
  simp only [names, List.length_cons, List.length_map, List.length_range'] at hle
  omega

theorem freeCorrelation_free (base : String) : s.hasTable (s.freeCorrelation base) = false := by
  unfold freeCorrelation
  split_ifs with hb
  · obtain ⟨k, hk, hfree⟩ := s.exists_free_number hb
    cases hf : ((List.range' 2 s.tables.length).map (numbered base)).find? (!s.hasTable ·) with
    | none =>
      have := List.find?_eq_none.mp hf _ (List.mem_map_of_mem hk)
      simp [hfree] at this
    | some name => simpa using List.find?_some hf
  · simpa using hb

theorem newCorrelation_free {table : ResolvedTable} {name : String}
    (h : s.newCorrelation table = .ok name) : s.hasTable name = false := by
  unfold newCorrelation at h
  split at h
  · rw [← Except.ok.inj h]
    exact s.freeCorrelation_free _
  · split_ifs at h with ht
    rw [← Except.ok.inj h]
    simpa using ht

/-- **The entry of FROM for a new table**, one field after the other. -/
theorem newTable_eq_ok {kind : JoinKind} {table : TableInput} {condition : String}
    {entry : TableRef Statement} (h : s.newTable kind table condition = .ok entry) :
    ∃ resolved, table.resolve? = some resolved ∧
      s.newJoin kind (Text.trim condition) resolved = .ok entry.join ∧
      s.newCorrelation resolved = .ok entry.correlation ∧
      entry.schema = resolved.schema ∧ entry.source = resolved.source ∧
      entry.condition = keptCondition entry.join (Text.trim condition) := by
  unfold newTable at h
  split at h
  · cases h
  next resolved hr =>
    obtain ⟨join, hj, h⟩ := bind_eq_ok_iff.mp h
    obtain ⟨correlation, hc, h⟩ := bind_eq_ok_iff.mp h
    rw [← pure_eq_ok_iff.mp h]
    exact ⟨resolved, hr, hj, hc, rfl, rfl, rfl⟩

end SelectQuery.Statement
