import Mathlib.Data.Nat.Find
import SelectQuery.Proofs.Correlation
import SelectQuery.Statement.Mutation

/-!
# The number behind a name that is taken

A table whose name is taken is told apart by a number behind its name, the least one from 2 on that
is free. Such a number is found before as many names were looked at as there are tables, so a search
that counts in 32 bits comes to it long before it runs out of numbers.

* `FirstFree`: the least number that makes a free name;
* `exists_firstFree`, `find?_numbered`: there is one among the first numbers, and it is found there;
* `countFrom`, `countFrom_eq`: the search that counts in 32 bits, and what it comes to;
* **`freeCorrelation_least`**: the correlation name of a new table, and the search for it.
-/

namespace SelectQuery.Statement

/-- The least number from 2 on that makes a free name. -/
structure FirstFree (s : Statement) (base : String) (k : Nat) : Prop where
  two_le : 2 ≤ k
  free : s.hasTable (numbered base k) = false
  taken : ∀ j, 2 ≤ j → j < k → s.hasTable (numbered base j) = true

theorem add_one_toNat {k : UInt32} (h : k.toNat + 1 < UInt32.size) :
    (k + 1).toNat = k.toNat + 1 := by
  rw [UInt32.toNat_add]
  exact Nat.mod_eq_of_lt h

/-- A search that counts on from `k` in 32 bits: the number at which it stops, and how many names it
has looked at. The counter is moved on before a name is looked at, so the search has no answer where
that is no longer possible. -/
def countFrom (s : Statement) (base : String) (k : UInt32) : Option (UInt32 × Nat) :=
  if h : k.toNat + 1 < UInt32.size then
    if s.hasTable (numbered base k.toNat) then
      (s.countFrom base (k + 1)).map fun (found, looked) => (found, looked + 1)
    else some (k, 1)
  else none
termination_by UInt32.size - k.toNat
decreasing_by
  rw [add_one_toNat h]
  omega

variable {s : Statement} {base : String}

theorem FirstFree.unique {j k : Nat} (hj : FirstFree s base j) (hk : FirstFree s base k) :
    j = k := by
  rcases Nat.lt_trichotomy j k with h | h | h
  · have := hk.taken j hj.two_le h
    rw [hj.free] at this
    cases this
  · exact h
  · have := hj.taken k hk.two_le h
    rw [hk.free] at this
    cases this

/-- **A name that is taken leaves a number free among the first ones**, as many as there are
tables. -/
theorem exists_firstFree (hbase : s.hasTable base = true) :
    ∃ k, FirstFree s base k ∧ k < s.tables.length + 2 := by
  obtain ⟨n, hn, hfree⟩ := s.exists_free_number hbase
  rw [List.mem_range'_1] at hn
  have hsome : ∃ k, 2 ≤ k ∧ s.hasTable (numbered base k) = false := ⟨n, hn.1, hfree⟩
  obtain ⟨htwo, hfirst⟩ := Nat.find_spec hsome
  refine ⟨Nat.find hsome, ⟨htwo, hfirst, fun j hj hlt => ?_⟩, ?_⟩
  · simpa [hj] using Nat.find_min hsome hlt
  · have hle := Nat.find_min' hsome ⟨hn.1, hfree⟩
    omega

theorem find?_numbered {k n : Nat} (h : FirstFree s base k) (hk : k < n + 2) :
    ((List.range' 2 n).map (numbered base)).find? (!s.hasTable ·) = some (numbered base k) := by
  have hnumber : (List.range' 2 n).find? (fun j => !s.hasTable (numbered base j)) = some k := by
    rw [List.find?_range'_eq_some]
    refine ⟨by rw [h.free]; rfl, List.mem_range'_1.mpr ⟨h.two_le, by omega⟩, fun j hj hlt => ?_⟩
    rw [h.taken j hj hlt]
    rfl
  rw [List.find?_map]
  exact congrArg (Option.map (numbered base)) hnumber

/-- **The search that counts in 32 bits** stops at the least number that is free, with each number
in front of it looked at once. -/
theorem countFrom_eq {k start : UInt32} (h : FirstFree s base k.toNat) (htwo : 2 ≤ start.toNat)
    (hle : start.toNat ≤ k.toNat) (hk : k.toNat + 1 < UInt32.size) :
    s.countFrom base start = some (k, k.toNat - start.toNat + 1) := by
  induction hdist : k.toNat - start.toNat generalizing start with
  | zero =>
    obtain rfl : start = k := UInt32.toNat_inj.mp (by omega)
    rw [countFrom, dif_pos hk, h.free]
    rfl
  | succ distance ih =>
    have hnext := add_one_toNat (k := start) (by omega)
    rw [countFrom, dif_pos (by omega), h.taken _ htwo (by omega), if_pos rfl,
      ih (by omega) (by omega) (by omega)]
    rfl

/-- **The correlation name of a new table** is a free one. It is the name itself where that is free.
Otherwise it is the name with the least number from 2 on that makes it free: a search that counts in
32 bits stops there, having looked at no more names than there are tables. -/
theorem freeCorrelation_least (s : Statement) (base : String)
    (hfew : s.tables.length < UInt32.size - 2) :
    s.hasTable (s.freeCorrelation base) = false ∧
    (s.hasTable base = false → s.freeCorrelation base = base) ∧
    (s.hasTable base = true → ∃ k : UInt32,
      FirstFree s base k.toNat ∧ s.freeCorrelation base = numbered base k.toNat ∧
      s.countFrom base 2 = some (k, k.toNat - 1) ∧ k.toNat - 1 ≤ s.tables.length ∧
      ((List.range' 2 s.tables.length).map (numbered base)).find? (!s.hasTable ·) =
        some (s.freeCorrelation base)) := by
  refine ⟨s.freeCorrelation_free base, fun hbase => ?_, fun hbase => ?_⟩
  · rw [freeCorrelation, hbase]
    rfl
  · obtain ⟨n, hfirst, hn⟩ := exists_firstFree hbase
    have hfound := find?_numbered hfirst hn
    have hname : s.freeCorrelation base = numbered base n := by
      rw [freeCorrelation, if_pos hbase, hfound]
      rfl
    have hcode : n < UInt32.size := by omega
    obtain ⟨k, rfl⟩ : ∃ k : UInt32, k.toNat = n := ⟨.ofNat n, UInt32.toNat_ofNat_of_lt' hcode⟩
    have htwo := hfirst.two_le
    have hstart : (2 : UInt32).toNat = 2 := rfl
    have hcount : s.countFrom base 2 = some (k, k.toNat - (2 : UInt32).toNat + 1) :=
      countFrom_eq hfirst (Nat.le_of_eq hstart.symm) (hstart ▸ htwo) (by omega)
    have hlooked : k.toNat - (2 : UInt32).toNat + 1 = k.toNat - 1 := by omega
    rw [hlooked] at hcount
    exact ⟨k, hfirst, hname, hcount, by omega, hname ▸ hfound⟩

/-- The name is taken, and so are two of the names with a number, one of them by an alias. -/
theorem freeCorrelation_least_between :
    let s := (ofDialect (Config.dialect {})).applyAll
      [.selectFrom (.ofName "orders") [], .join .cross (.ofName "orders") "" [],
        .join .cross (.ofName "refunds AS orders_4") "" []]
    s.tables.length < UInt32.size - 2 ∧ s.hasTable "orders" = true ∧
      s.freeCorrelation "orders" = "orders_3" ∧ s.countFrom "orders" 2 = some (3, 2) := by
  intro s
  have hfew : s.tables.length < UInt32.size - 2 := by decide +kernel
  have hbase : s.hasTable "orders" = true := by decide +kernel
  have hthree : FirstFree s "orders" 3 := ⟨by decide, by decide +kernel, fun j hj hlt => by
    obtain rfl : j = 2 := by omega
    decide +kernel⟩
  obtain ⟨-, -, hnumber⟩ := freeCorrelation_least s "orders" hfew
  obtain ⟨k, hfirst, hname, hcount, -⟩ := hnumber hbase
  obtain rfl : k = 3 := UInt32.toNat_inj.mp (hfirst.unique hthree)
  exact ⟨hfew, hbase, hname.trans (by decide +kernel), hcount⟩

end SelectQuery.Statement
