import Mathlib.Data.List.Perm.Subperm
import Mathlib.Data.List.Nodup
import SelectQuery.Statement.LeftJoin

/-!
# Orders of dropping

Joins may be dropped in many orders. The more of them are gone, the more can go
(`LeftJoinUse.canGo_mono`), so it does not matter which one is tried.

* `DropOrder`: the lists of joins that can be dropped one after the other;
* `DropOrder.subset_of_stable`: all of them lie in a list behind which nothing more can go;
* `dropOrder_unusedJoins`, `canGo_unusedJoins`: the joins that `unusedJoins` finds are such an
  order, and nothing more can go behind it.
-/

namespace SelectQuery

/-- The lists of joins that can be dropped one after the other. -/
inductive DropOrder (uses : List LeftJoinUse) : List String → Prop
  | nil : DropOrder uses []
  | snoc {gone : List String} {use : LeftJoinUse} (h : DropOrder uses gone) (hu : use ∈ uses)
      (hgo : use.canGo gone = true) : DropOrder uses (gone ++ [use.correlation])

variable {uses : List LeftJoinUse} {gone : List String}

theorem LeftJoinUse.canGo_iff {use : LeftJoinUse} :
    use.canGo gone = true ↔
      use.direct = false ∧ use.correlation ∉ gone ∧ ∀ name ∈ use.dependents, name ∈ gone := by
  simp [canGo, and_assoc]

theorem LeftJoinUse.canGo_mono {use : LeftJoinUse} {more : List String}
    (h : use.canGo gone = true) (hsub : gone ⊆ more) (hmore : use.correlation ∉ more) :
    use.canGo more = true := by
  obtain ⟨hdirect, -, hdep⟩ := canGo_iff.mp h
  exact canGo_iff.mpr ⟨hdirect, hmore, fun name hname => hsub (hdep name hname)⟩

/-! ## Any order -/

namespace DropOrder

theorem exists_use (h : DropOrder uses gone) {name : String} (hname : name ∈ gone) :
    ∃ use ∈ uses, use.correlation = name ∧ use.direct = false ∧ ∀ d ∈ use.dependents, d ∈ gone := by
  induction h with
  | nil => cases hname
  | @snoc gone use h hu hgo ih =>
    rcases List.mem_append.mp hname with hold | hnew
    · obtain ⟨use', hu', hcorr, hdirect, hdep⟩ := ih hold
      exact ⟨use', hu', hcorr, hdirect, fun d hd => List.mem_append_left _ (hdep d hd)⟩
    · obtain ⟨hdirect, -, hdep⟩ := LeftJoinUse.canGo_iff.mp hgo
      refine ⟨use, hu, (List.mem_singleton.mp hnew).symm, hdirect, fun d hd => ?_⟩
      exact List.mem_append_left _ (hdep d hd)

theorem nodup (h : DropOrder uses gone) : gone.Nodup := by
  induction h with
  | nil => exact List.nodup_nil
  | snoc h hu hgo ih =>
    obtain ⟨-, hnew, -⟩ := LeftJoinUse.canGo_iff.mp hgo
    rw [← List.concat_eq_append]
    exact ih.concat hnew

theorem length_le (h : DropOrder uses gone) : gone.length ≤ uses.length := by
  have hsub : gone ⊆ uses.map (·.correlation) := by
    intro name hname
    obtain ⟨use, hu, hcorr, -⟩ := h.exists_use hname
    exact List.mem_map.mpr ⟨use, hu, hcorr⟩
  simpa using (List.subperm_of_subset h.nodup hsub).length_le

/-- **No order goes past a list behind which nothing more can go.** -/
theorem subset_of_stable (h : DropOrder uses gone) {fin : List String}
    (hfin : ∀ use ∈ uses, use.canGo fin = false) : gone ⊆ fin := by
  induction h with
  | nil => exact List.nil_subset _
  | @snoc gone use h hu hgo ih =>
    refine List.append_subset.mpr ⟨ih, List.cons_subset.mpr ⟨?_, List.nil_subset _⟩⟩
    by_contra hnot
    have hmore := LeftJoinUse.canGo_mono hgo ih hnot
    rw [hfin use hu] at hmore
    cases hmore

end DropOrder

/-! ## The order that is taken -/

theorem sweep_cons (use : LeftJoinUse) (l : List LeftJoinUse) (gone : List String) :
    sweep (use :: l) gone =
      sweep l (if use.canGo gone then gone ++ [use.correlation] else gone) := rfl

theorem prefix_sweep (l : List LeftJoinUse) (gone : List String) : gone <+: sweep l gone := by
  induction l generalizing gone with
  | nil => exact List.prefix_rfl
  | cons use l ih =>
    rw [sweep_cons]
    split
    · exact (List.prefix_append _ _).trans (ih _)
    · exact ih gone

theorem dropOrder_sweep {l : List LeftJoinUse} (hl : l ⊆ uses) (h : DropOrder uses gone) :
    DropOrder uses (sweep l gone) := by
  induction l generalizing gone with
  | nil => exact h
  | cons use l ih =>
    obtain ⟨hu, hl⟩ := List.cons_subset.mp hl
    rw [sweep_cons]
    split
    next hgo => exact ih hl (h.snoc hu hgo)
    next => exact ih hl h

theorem canGo_of_sweep_eq {l : List LeftJoinUse} (h : sweep l gone = gone) :
    ∀ use ∈ l, use.canGo gone = false := by
  induction l with
  | nil => exact fun _ hu => nomatch hu
  | cons use l ih =>
    rw [sweep_cons] at h
    split at h
    next hgo =>
      have hle := (prefix_sweep l (gone ++ [use.correlation])).length_le
      rw [h, List.length_append, List.length_singleton] at hle
      omega
    next hgo => exact List.forall_mem_cons.mpr ⟨by simpa using hgo, ih h⟩

theorem dropOrder_repeat (n : Nat) : DropOrder uses (Nat.repeat (sweep uses) n []) := by
  induction n with
  | zero => exact .nil
  | succ n ih => exact dropOrder_sweep (List.Subset.refl _) ih

theorem sweep_repeat_eq_or_le (uses : List LeftJoinUse) (n : Nat) :
    let gone := Nat.repeat (sweep uses) n []
    sweep uses gone = gone ∨ n ≤ gone.length := by
  induction n with
  | zero => exact .inr (Nat.zero_le _)
  | succ n ih =>
    simp only [Nat.repeat]
    by_cases hstop : sweep uses (Nat.repeat (sweep uses) n []) = Nat.repeat (sweep uses) n []
    · exact .inl (by rw [hstop, hstop])
    · have hle := ih.resolve_left hstop
      have hpre := prefix_sweep uses (Nat.repeat (sweep uses) n [])
      have hne := mt hpre.eq_of_length (Ne.symm hstop)
      have := hpre.length_le
      exact .inr (by omega)

theorem dropOrder_unusedJoins (uses : List LeftJoinUse) : DropOrder uses (unusedJoins uses) :=
  dropOrder_repeat _

/-- **As many passes as there are joins leave nothing to drop.** -/
theorem canGo_unusedJoins (uses : List LeftJoinUse) :
    ∀ use ∈ uses, use.canGo (unusedJoins uses) = false := by
  refine canGo_of_sweep_eq ?_
  rcases sweep_repeat_eq_or_le uses uses.length with hstop | hle
  · exact hstop
  · have hpre := prefix_sweep uses (unusedJoins uses)
    have hnext := (dropOrder_sweep (List.Subset.refl _) (dropOrder_unusedJoins uses)).length_le
    exact (hpre.eq_of_length (Nat.le_antisymm hpre.length_le (Nat.le_trans hnext hle))).symm

end SelectQuery
