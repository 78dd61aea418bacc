import SelectQuery.Proofs.Assembly
import SelectQuery.Proofs.PartAccess

/-!
# Pages and row windows

A page is a window of rows, and a statement writes the window that it stores: what the words behind
it say is read back as this window.

* `RowWindow`, `RowWindow.Adjacent`, `Clauses.window`: windows of rows, two of them side by side,
  and the one that a statement stores;
* `limitPage_stores`, `adjacent_limitPage`: the window of a page, and of the page behind it;
* `readBounds?`, `readBounds?_boundWords`: the numbers in the words for a window, read back;
* `Dialect.limitClause_eq`: the words that a dialect has for a window;
* `ReachableBy.bounds_ne_zero`: the bounds that a reachable statement stores are not zero;
* `assemble_eq_append`: the words for the window, and for the lock, stand behind everything else;
* **`pages_and_windows`**: pages lie side by side, and the words for a window say what is stored.
-/

namespace SelectQuery

/-! ## Windows -/

/-- A window of rows: how many are passed over, and how many are shown at most. Without a count all
rows that follow are shown. -/
structure RowWindow where
  offset : Nat
  count : Option Nat
  deriving DecidableEq, Repr

/-- Whether the row with `n` rows in front of it is shown. -/
def RowWindow.Shows (w : RowWindow) (n : Nat) : Prop :=
  w.offset ≤ n ∧ ∀ count ∈ w.count, n < w.offset + count

/-- The second window starts where the first one ends, and no row is shown by both. -/
structure RowWindow.Adjacent (v w : RowWindow) : Prop where
  meet : ∃ count, v.count = some count ∧ w.offset = v.offset + count
  disjoint : ∀ n, ¬ (v.Shows n ∧ w.Shows n)

theorem RowWindow.adjacent_of_meet {v w : RowWindow} {count : Nat} (hcount : v.count = some count)
    (hmeet : w.offset = v.offset + count) : v.Adjacent w := by
  refine ⟨⟨count, hcount, hmeet⟩, ?_⟩
  rintro n ⟨⟨-, hbefore⟩, hafter, -⟩
  have := hbefore count hcount
  omega

/-- The window that clauses store. -/
def Clauses.window {σ : Type} (c : Clauses σ) : RowWindow where
  offset := (c.limitOffset.map (·.toNat)).getD 0
  count := c.limitCount.map (·.toNat)

/-! ## Pages -/

/-- A number as a bound; zero is none. -/
def positive? (n : Nat) : Option Nat := if n = 0 then none else some n

theorem toNat_ofNatClamp (n : Nat) : (UInt64.ofNatClamp n).toNat = min n (UInt64.size - 1) := by
  rcases Nat.lt_or_ge n UInt64.size with h | h
  · rw [UInt64.toNat_ofNatClamp_of_lt h]
    exact (Nat.min_eq_left (Nat.le_sub_one_of_lt h)).symm
  · rw [UInt64.toNat_ofNatClamp_of_le h]
    exact (Nat.min_eq_right (Nat.le_trans (Nat.sub_le _ 1) h)).symm

theorem map_toNat_nonzero (n : UInt64) :
    (Edit.nonzero n).map (·.toNat) = positive? n.toNat := by
  have hzero : n = 0 ↔ n.toNat = 0 := UInt64.toNat_inj.symm
  unfold Edit.nonzero positive?
  simp only [hzero]
  split <;> rfl

theorem getD_positive? (n : Nat) : (positive? n).getD 0 = n := by
  unfold positive?
  split
  next h => exact h.symm
  next => rfl

namespace Statement

variable {s : Statement}

/-- **A page is stored as a window.** The number of the page and its rows are at least 1, and the
rows in front of it are counted up to the largest number of 64 bits. -/
theorem limitPage_stores (s : Statement) (page rows : UInt64) :
    let p := max page.toNat 1
    let r := max rows.toNat 1
    ∃ next, s.apply (.limitPage page rows) = (.ok [], next) ∧
      AgreeOn (· ∉ [.limitCount, .limitOffset]) next s ∧
      next.limitCount.map (·.toNat) = some r ∧
      next.limitOffset.map (·.toNat) = positive? (min (r * (p - 1)) (UInt64.size - 1)) := by
  intro p r
  have hpage : (max page 1).toNat = p := UInt64.toNat_max page 1
  have hrows : (max rows 1).toNat = r := UInt64.toNat_max rows 1
  have hone : r ≠ 0 := by omega
  refine ⟨_, apply_limit s _ _, agreeOn_limit s _ _, ?_, ?_⟩
  · change (Edit.nonzero (max rows 1)).map (·.toNat) = some r
    rw [map_toNat_nonzero, hrows, positive?, if_neg hone]
  · change (Edit.nonzero (.ofNatClamp ((max rows 1).toNat * ((max page 1).toNat - 1)))).map _ = _
    rw [map_toNat_nonzero, toNat_ofNatClamp, hpage, hrows]

theorem window_limitPage (s : Statement) (page rows : UInt64) :
    (s.apply (.limitPage page rows)).2.window =
      ⟨min (max rows.toNat 1 * (max page.toNat 1 - 1)) (UInt64.size - 1),
        some (max rows.toNat 1)⟩ := by
  obtain ⟨next, happly, -, hcount, hoffset⟩ := limitPage_stores s page rows
  rw [happly, Clauses.window, hcount, hoffset, getD_positive?]

theorem adjacent_limitPage (s : Statement) {page following rows : UInt64}
    (hfollowing : following.toNat = max page.toNat 1 + 1)
    (hfits : max rows.toNat 1 * max page.toNat 1 < UInt64.size) :
    (s.apply (.limitPage page rows)).2.window.Adjacent
      (s.apply (.limitPage following rows)).2.window := by
  generalize hp : max page.toNat 1 = p at hfollowing hfits
  generalize hr : max rows.toNat 1 = r at hfits
  have hpositive : 1 ≤ p := hp ▸ Nat.le_max_right _ _
  rw [window_limitPage, window_limitPage, hp, hr, hfollowing]
  refine RowWindow.adjacent_of_meet rfl ?_
  have hnext : max (p + 1) 1 - 1 = p := by omega
  have hrows : r * (p - 1) + r = r * p := by
    rw [← Nat.mul_succ, Nat.succ_eq_add_one, Nat.sub_add_cancel hpositive]
  change min (r * (max (p + 1) 1 - 1)) (UInt64.size - 1) = min (r * (p - 1)) (UInt64.size - 1) + r
  rw [hnext]
  omega

end Statement

/-! ## Words for a window -/

/-- The number behind a word, if the text starts with both, and what follows it. -/
def readBound (word : String) (cs : List Char) : Option Nat × List Char :=
  match word.toList.isPrefixOf? cs with
  | none => (none, cs)
  | some behind =>
    let (digits, rest) := Decimal.takeDigits behind
    if digits.isEmpty then (none, cs) else (some (Decimal.natOfDigits digits), rest)

/-- The count and the offset that the words for a window name, if the text is no other one. -/
def readBounds? (text : String) : Option (Option Nat × Option Nat) :=
  let (count, rest) := readBound " LIMIT " text.toList
  let (offset, rest) := readBound " OFFSET " rest
  if rest.isEmpty then some (count, offset) else none

/-- The window that the words for a window name. -/
def readWindow? (text : String) : Option RowWindow :=
  (readBounds? text).map fun (count, offset) => ⟨offset.getD 0, count⟩

/-- A word with a number behind it, if there is one. -/
def boundWords (word : String) : Option Nat → String
  | none => ""
  | some n => word ++ toString n

theorem readBound_some (word : String) (n : Nat) {rest : List Char}
    (hrest : ∀ c ∈ rest.head?, c.isDigit = false) :
    readBound word ((boundWords word (some n)).toList ++ rest) = (some n, rest) := by
  have hword : word.toList.isPrefixOf? ((boundWords word (some n)).toList ++ rest) =
      some (Nat.toDigits 10 n ++ rest) := by
    rw [List.isPrefixOf?_eq_some_iff_append_eq, boundWords, String.toList_append,
      List.append_assoc, Nat.toString_eq_ofList_toDigits, String.toList_ofList]
  have hdigits : ∀ c ∈ Nat.toDigits 10 n, c.isDigit = true :=
    fun c hc => Nat.isDigit_of_mem_toDigits (by decide) (by decide) hc
  simp only [readBound, hword, Decimal.takeDigits_append hdigits hrest,
    Decimal.natOfDigits_toDigits, List.isEmpty_iff, Nat.toDigits_ne_nil, if_false]

theorem readBound_none {word : String} {cs : List Char} (h : ¬ word.toList <+: cs) :
    readBound word cs = (none, cs) := by
  have hword : word.toList.isPrefixOf? cs = none := by
    by_contra hne
    obtain ⟨rest, hrest⟩ := Option.ne_none_iff_exists'.mp hne
    exact h ⟨rest, List.isPrefixOf?_eq_some_iff_append_eq.mp hrest⟩
  rw [readBound, hword]

/-- **Both bounds are read back.** -/
theorem readBounds?_boundWords (count offset : Option Nat) :
    readBounds? (boundWords " LIMIT " count ++ boundWords " OFFSET " offset) =
      some (count, offset) := by
  have hoffset : readBound " OFFSET " (boundWords " OFFSET " offset).toList = (offset, []) := by
    cases offset with
    | none => exact readBound_none (by decide)
    | some n =>
      rw [← List.append_nil (boundWords " OFFSET " (some n)).toList]
      exact readBound_some " OFFSET " n (by simp)
  have hcount : readBound " LIMIT " (boundWords " LIMIT " count ++
      boundWords " OFFSET " offset).toList = (count, (boundWords " OFFSET " offset).toList) := by
    rw [String.toList_append]
    cases count with
    | none =>
      -- without a count, the words start with the other keyword or not at all
      refine readBound_none ?_
      cases offset <;> simp [boundWords]
    | some n =>
      refine readBound_some " LIMIT " n ?_
      cases offset <;> simp [boundWords]
  simp only [readBounds?, hcount, hoffset, List.isEmpty_nil, if_true]

/-- The count that is named for a window: a lone offset goes with the largest count where the
dialect has no words for it. -/
def Dialect.namedCount (d : Dialect) (count offset : Option UInt64) : Option Nat :=
  if d.offsetStyle = .afterLargestCount ∧ count = none ∧ offset ≠ none then some (UInt64.size - 1)
  else count.map (·.toNat)

theorem Dialect.limitClause_eq (d : Dialect) (count : Option UInt64) {offset : Option UInt64}
    (hoffset : offset ≠ some 0) :
    d.limitClause count offset = boundWords " LIMIT " (d.namedCount count offset) ++
      boundWords " OFFSET " (offset.map (·.toNat)) := by
  have hkept : offset.filter (0 < ·) = offset := by
    cases offset with
    | none => rfl
    | some n =>
      have hpositive : 0 < n := by
        have hzero : n ≠ 0 := fun h => hoffset (congrArg some h)
        exact UInt64.pos_iff_ne_zero.mpr hzero
      simp [hpositive]
  unfold limitClause namedCount
  rw [hkept]
  cases d.offsetStyle <;> cases count <;> cases offset <;> rfl

/-! ## Statements -/

namespace Statement

variable {s : Statement}

theorem ReachableBy.bounds_ne_zero {allowed : Mutation → Prop} (h : ReachableBy allowed s) :
    s.limitCount ≠ some 0 ∧ s.limitOffset ≠ some 0 := by
  have hne : ∀ bound : Option UInt64, bound.bind Edit.nonzero = bound → bound ≠ some 0 := by
    rintro bound hbound rfl
    cases hbound
  have hcount : (PartValue.limitCount s.limitCount).Normal := h.normal .limitCount
  have hoffset : (PartValue.limitOffset s.limitOffset).Normal := h.normal .limitOffset
  exact ⟨hne _ (PartValue.limitCount.inj (Except.ok.inj hcount)),
    hne _ (PartValue.limitOffset.inj (Except.ok.inj hoffset))⟩

/-- The statement without its window and its lock. -/
def unbounded (s : Statement) : Statement :=
  { s with limitCount := none, limitOffset := none, forUpdate := false }

/-- **The words for the window, and for the lock, stand behind everything else.** -/
theorem assemble_eq_append (s : Statement) :
    s.assemble = s.unbounded.assemble.map fun text =>
      text ++ s.dialect.limitClause s.limitCount s.limitOffset ++
        if s.forUpdate then " FOR UPDATE" else "" := by
  have hbare : s.unbounded.outcomes.Unbounded := ⟨rfl, rfl, rfl⟩
  have hfinish : ∀ r : Rendered,
      (do return s.outcomes.finish s.dialect (← r)) = r.map fun text =>
        text ++ s.dialect.limitClause s.limitCount s.limitOffset ++
          if s.forUpdate then " FOR UPDATE" else "" := by
    intro r
    cases r with
    | error e => rfl
    | ok text =>
      refine congrArg Except.ok ?_
      change (if s.forUpdate then _ else _) = _
      cases s.forUpdate
      · exact (String.append_empty).symm
      · rfl
  have hmembers : (s.unbounded.outcomes.tables.isEmpty && !s.unbounded.outcomes.unions.isEmpty) =
      (s.outcomes.tables.isEmpty && !s.outcomes.unions.isEmpty) := rfl
  rw [assemble_eq_render, assemble_eq_render, Clauses.render_of_unbounded hbare, ← hfinish,
    Clauses.render, hmembers]
  split <;> rfl

/-- What a statement writes for its window is the window that it stores. -/
structure WritesWindow (s : Statement) : Prop where
  text : s.assemble = s.unbounded.assemble.map fun text =>
    text ++ s.dialect.limitClause s.limitCount s.limitOffset ++
      if s.forUpdate then " FOR UPDATE" else ""
  /-- A lone offset goes with the largest count where the dialect has no words for it. -/
  window : readWindow? (s.dialect.limitClause s.limitCount s.limitOffset) = some
    { s.window with
      count := if s.dialect.offsetStyle = .afterLargestCount ∧ s.limitCount = none ∧
        s.limitOffset ≠ none then some (UInt64.size - 1) else s.window.count }
  nonzero : ∃ count offset, readBounds? (s.dialect.limitClause s.limitCount s.limitOffset) =
    some (count, offset) ∧ count ≠ some 0 ∧ offset ≠ some 0

theorem writesWindow_of_ne_zero (hcount : s.limitCount ≠ some 0)
    (hoffset : s.limitOffset ≠ some 0) : WritesWindow s := by
  have hread := readBounds?_boundWords (s.dialect.namedCount s.limitCount s.limitOffset)
    (s.limitOffset.map (·.toNat))
  rw [← s.dialect.limitClause_eq s.limitCount hoffset] at hread
  have hne : ∀ bound : Option UInt64, bound ≠ some 0 → bound.map (·.toNat) ≠ some 0 := by
    intro bound hbound hzero
    obtain ⟨n, rfl, hn⟩ := Option.map_eq_some_iff.mp hzero
    exact hbound (congrArg some (UInt64.toNat_inj.mp hn))
  refine ⟨s.assemble_eq_append, ?_, _, _, hread, ?_, hne _ hoffset⟩
  · rw [readWindow?, hread]
    rfl
  · unfold Dialect.namedCount
    split
    · decide
    · exact hne _ hcount

/-- **Pages lie side by side, and a statement writes the window that it stores.** The pages of a
number of rows follow one another without a row between them or in both, as long as the rows can be
counted in 64 bits. The words behind a reachable statement are read back as its window, with the
largest count for a lone offset where the dialect has no words for it, and name no zero. -/
theorem pages_and_windows :
    (∀ (s : Statement) (page rows : UInt64),
      let p := max page.toNat 1
      let r := max rows.toNat 1
      (∃ next, s.apply (.limitPage page rows) = (.ok [], next) ∧
        AgreeOn (· ∉ [.limitCount, .limitOffset]) next s ∧
        next.limitCount.map (·.toNat) = some r ∧
        next.limitOffset.map (·.toNat) = positive? (min (r * (p - 1)) (UInt64.size - 1))) ∧
      ∀ following : UInt64, following.toNat = p + 1 → r * p < UInt64.size →
        (s.apply (.limitPage page rows)).2.window.Adjacent
          (s.apply (.limitPage following rows)).2.window) ∧
    ∀ s : Statement, Reachable s → WritesWindow s := by
  refine ⟨fun s page rows => ⟨limitPage_stores s page rows, fun following hfollowing hfits => ?_⟩,
    fun s hs => ?_⟩
  · exact adjacent_limitPage s hfollowing hfits
  · exact writesWindow_of_ne_zero hs.bounds_ne_zero.1 hs.bounds_ne_zero.2

/-- The last pages that have a number, and a statement with a lone offset behind which it is
locked. -/
theorem pages_and_windows_at_the_end :
    let s := (ofDialect (Config.dialect ⟨.mysql, true⟩)).applyAll
      [.selectFrom (.ofName "orders AS o") [], .limitPage 3 20, .setPart (.limitCount (some 0)),
        .forUpdate true]
    let page : UInt64 := 18446744073709551614
    let following : UInt64 := 18446744073709551615
    let words := " LIMIT 18446744073709551615 OFFSET 40"
    (following.toNat = max page.toNat 1 + 1 ∧
        max (0 : UInt64).toNat 1 * max page.toNat 1 < UInt64.size) ∧
      (s.apply (.limitPage page 0)).2.window.Adjacent
        (s.apply (.limitPage following 0)).2.window ∧
      Reachable s ∧ s.window = ⟨40, none⟩ ∧
      s.assemble = .ok ("SELECT * FROM `orders` AS `o`" ++ words ++ " FOR UPDATE") ∧
      readWindow? words = some ⟨40, some (UInt64.size - 1)⟩ := by
  intro s page following words
  obtain ⟨hpages, hwindows⟩ := pages_and_windows
  have hfollowing : following.toNat = max page.toNat 1 + 1 := by decide
  have hfits : max (0 : UInt64).toNat 1 * max page.toNat 1 < UInt64.size := by decide
  have hs : Reachable s := (ReachableBy.empty _).applyAll _ (by simp [absorbed?])
  have hwords : s.dialect.limitClause s.limitCount s.limitOffset = words := by decide +kernel
  have hwindow := (hwindows s hs).window
  rw [hwords] at hwindow
  exact ⟨⟨hfollowing, hfits⟩, (hpages s page 0).2 following hfollowing hfits, hs, rfl,
    by decide +kernel, hwindow⟩

end Statement

end SelectQuery
