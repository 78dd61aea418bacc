import Mathlib.Data.List.DropRight
import SelectQuery.Statement.Classify

/-!
# Aliases in the text of a column

The word `AS` between blanks is where an alias starts, and the last one decides. Parentheses do not
count: the type in a cast is taken for an alias as well.

* `Text.Trimmed`, `Text.trimmed_strip`: texts without blank ends;
* `startsWithAs`, `LacksAs`, `LastAs`: where an `AS` between blanks stands, whether there is one,
  and where the last one is;
* `splitAlias?_of_none`, `splitAlias?_of_lastAs`: the alias of a trimmed text;
* `openGroups`, `Balanced`: parentheses;
* **`classify_expression_iff`**: the texts with parentheses that stay whole, and what becomes of the
  others.
-/

namespace SelectQuery

/-! ## Trimmed texts -/

namespace Text

/-- A text without blank ends. -/
structure Trimmed (cs : List Char) : Prop where
  first : ∀ c ∈ cs.head?, isBlank c = false
  last : ∀ c ∈ cs.getLast?, isBlank c = false

theorem trimmed_strip (cs : List Char) : Trimmed (strip cs) := by
  have hend : strip cs = (cs.dropWhile isBlank).rdropWhile isBlank := rfl
  constructor
  · intro c hc
    have hfront := (List.rdropWhile_prefix isBlank (l := cs.dropWhile isBlank))
    rw [hend] at hc
    obtain ⟨back, hback⟩ := hfront
    have hhead := List.head?_dropWhile_not isBlank cs
    rw [← hback, List.head?_append, Option.mem_def.mp hc] at hhead
    exact hhead
  · intro c hc
    rw [hend] at hc
    have hne : (cs.dropWhile isBlank).rdropWhile isBlank ≠ [] := by
      intro hnil
      simp [hnil] at hc
    have hlast := List.rdropWhile_last_not isBlank _ hne
    rw [List.getLast?_eq_some_getLast hne] at hc
    cases hc
    simpa using hlast

end Text

open Text (isBlank strip Trimmed)

theorem isBlank_unbreak (c : Char) : isBlank (if c = '\n' then ' ' else c) = isBlank c := by
  split
  next h => rw [h]; rfl
  next => rfl

theorem Text.Trimmed.unbreak {cs : List Char} (h : Trimmed cs) : Trimmed (unbreak cs) := by
  constructor
  · intro c hc
    rw [SelectQuery.unbreak, List.head?_map] at hc
    obtain ⟨b, hb, rfl⟩ := Option.map_eq_some_iff.mp hc
    rw [isBlank_unbreak]
    exact h.first b hb
  · intro c hc
    rw [SelectQuery.unbreak, List.getLast?_map] at hc
    obtain ⟨b, hb, rfl⟩ := Option.map_eq_some_iff.mp hc
    rw [isBlank_unbreak]
    exact h.last b hb

/-! ## Texts on one line -/

theorem newline_not_mem_unbreak (cs : List Char) : '\n' ∉ unbreak cs := by
  intro hmem
  obtain ⟨c, -, hc⟩ := List.mem_map.mp hmem
  split at hc
  · cases hc
  next hne => exact hne hc

theorem unbreak_eq_self {cs : List Char} (h : '\n' ∉ cs) : unbreak cs = cs := by
  refine (List.map_congr_left fun c hc => ?_).trans (List.map_id cs)
  exact if_neg fun (hbreak : c = '\n') => h (hbreak ▸ hc)

theorem unbreak_append (cs rest : List Char) : unbreak (cs ++ rest) = unbreak cs ++ unbreak rest :=
  List.map_append

theorem unbreak_eq_nil_iff {cs : List Char} : unbreak cs = [] ↔ cs = [] := List.map_eq_nil_iff

/-! ## The word `AS` -/

/-- Whether a text starts with the word `AS` between blanks. -/
def startsWithAs : List Char → Bool
  | b :: a :: s :: c :: _ => isBlank b && (a = 'a' || a = 'A') && isLetterS s && isBlank c
  | _ => false

/-- A text without an `AS` between blanks. -/
def LacksAs (cs : List Char) : Prop := ∀ n, startsWithAs (cs.drop n) = false

/-- The place of the last `AS` between blanks. -/
structure LastAs (cs : List Char) (n : Nat) : Prop where
  here : startsWithAs (cs.drop n) = true
  later : ∀ m, n < m → startsWithAs (cs.drop m) = false

section

variable {cs : List Char} {n : Nat}

theorem startsWithAs_drop_of_length_le (h : cs.length ≤ n) : startsWithAs (cs.drop n) = false := by
  rw [List.drop_eq_nil_of_le h]
  rfl

theorem lacksAs_iff : (∀ n < cs.length, startsWithAs (cs.drop n) = false) ↔ LacksAs cs := by
  refine ⟨fun h n => ?_, fun h n _ => h n⟩
  exact (Nat.lt_or_ge n cs.length).elim (h n) startsWithAs_drop_of_length_le

theorem lastAs_iff :
    (startsWithAs (cs.drop n) = true ∧
      ∀ m < cs.length, n < m → startsWithAs (cs.drop m) = false) ↔ LastAs cs n := by
  refine ⟨fun ⟨hhere, hlater⟩ => ⟨hhere, fun m hm => ?_⟩,
    fun h => ⟨h.here, fun m _ hm => h.later m hm⟩⟩
  exact (Nat.lt_or_ge m cs.length).elim (hlater m · hm) startsWithAs_drop_of_length_le

end

instance (cs : List Char) : Decidable (LacksAs cs) := decidable_of_iff _ lacksAs_iff

instance (cs : List Char) (n : Nat) : Decidable (LastAs cs n) := decidable_of_iff _ lastAs_iff

theorem lacksAs_or_exists_lastAs (cs : List Char) : LacksAs cs ∨ ∃ n, LastAs cs n := by
  induction cs with
  | nil => exact .inl fun n => by rw [List.drop_nil]; rfl
  | cons c rest ih =>
    rcases ih with hnone | ⟨n, hn⟩
    · cases hstart : startsWithAs (c :: rest) with
      | false =>
        refine .inl fun n => ?_
        cases n with
        | zero => exact hstart
        | succ n => exact hnone n
      | true =>
        refine .inr ⟨0, hstart, fun m hm => ?_⟩
        obtain ⟨m, rfl⟩ := Nat.exists_eq_add_one.mpr hm
        exact hnone m
    · refine .inr ⟨n + 1, hn.here, fun m hm => ?_⟩
      obtain ⟨m, rfl⟩ := Nat.exists_eq_add_one.mpr (Nat.zero_lt_of_lt hm)
      exact hn.later m (Nat.lt_of_add_lt_add_right hm)

variable {c : Char} {rest cs : List Char} {n : Nat}

theorem afterAs?_eq (hlast : ∀ x ∈ (c :: rest).getLast?, isBlank x = false) :
    (if isBlank c then afterAs? rest else none) =
      if startsWithAs (c :: rest) then some (rest.drop 3) else none := by
  match rest, hlast with
  | [], _ | [_], _ | [_, _], _ => simp [afterAs?, startsWithAs]
  | [a, s, b], hlast =>
    have hb : isBlank b = false := hlast b (by simp)
    simp [afterAs?, startsWithAs, hb]
  | a :: s :: b :: next :: back, _ =>
    by_cases hc : isBlank c = true <;> simp [afterAs?, startsWithAs, hc]

theorem cutAs_cons (hlast : ∀ x ∈ (c :: rest).getLast?, isBlank x = false) :
    cutAs (c :: rest) = match cutAs rest with
      | some (before, after) => some (c :: before, after)
      | none => if startsWithAs (c :: rest) then some ([], rest.drop 3) else none := by
  have h := afterAs?_eq hlast
  rw [cutAs]
  cases cutAs rest with
  | some sides => rfl
  | none =>
    dsimp only
    split_ifs at h ⊢ <;> simp_all

theorem last_of_cons (hlast : ∀ x ∈ (c :: rest).getLast?, isBlank x = false) :
    ∀ x ∈ rest.getLast?, isBlank x = false := by
  intro x hx
  refine hlast x ?_
  rw [List.getLast?_cons, Option.mem_def.mp hx]
  rfl

theorem cutAs_of_none (hlast : ∀ x ∈ cs.getLast?, isBlank x = false)
    (hnone : LacksAs cs) : cutAs cs = none := by
  induction cs with
  | nil => rfl
  | cons c rest ih =>
    have hrest := ih (last_of_cons hlast) fun n => hnone (n + 1)
    have hhere : startsWithAs (c :: rest) = false := hnone 0
    rw [cutAs_cons hlast, hrest, hhere]
    rfl

theorem cutAs_of_lastAs (hlast : ∀ x ∈ cs.getLast?, isBlank x = false) (h : LastAs cs n) :
    cutAs cs = some (cs.take n, cs.drop (n + 4)) := by
  induction cs generalizing n with
  | nil => simpa [startsWithAs] using h.here
  | cons c rest ih =>
    rw [cutAs_cons hlast]
    cases n with
    | zero =>
      have hrest := cutAs_of_none (last_of_cons hlast) fun m => h.later (m + 1) (Nat.succ_pos m)
      have hhere : startsWithAs (c :: rest) = true := h.here
      rw [hrest, hhere]
      rfl
    | succ n =>
      have hn : LastAs rest n := ⟨h.here, fun m hm => h.later (m + 1) (Nat.succ_lt_succ hm)⟩
      rw [ih (last_of_cons hlast) hn]
      rfl

/-! ## The alias of a trimmed text -/

theorem startsWithAs_of_first (h : ∀ x ∈ cs.head?, isBlank x = false) :
    startsWithAs cs = false := by
  match cs, h with
  | [], _ | [_], _ | [_, _], _ | [_, _, _], _ => rfl
  | b :: a :: s :: c :: _, h => simp [startsWithAs, h b rfl]

theorem startsWithAs_of_fourth (h : ∀ c ∈ cs[3]?, isBlank c = false) :
    startsWithAs cs = false := by
  match cs, h with
  | [], _ | [_], _ | [_, _], _ | [_, _, _], _ => rfl
  | _ :: _ :: _ :: c :: _, h => simp [startsWithAs, h c rfl]

theorem splitAlias?_of_none (h : Trimmed cs) (hnone : LacksAs cs) : splitAlias? cs = none := by
  cases cs with
  | nil => rfl
  | cons c rest =>
    rw [splitAlias?, cutAs_of_none (last_of_cons h.last) fun n => hnone (n + 1)]
    rfl

theorem splitAlias?_of_lastAs (h : Trimmed cs) (hn : LastAs cs n) :
    splitAlias? cs = some (strip (cs.take n), strip (cs.drop (n + 4))) := by
  cases cs with
  | nil => simpa [startsWithAs] using hn.here
  | cons c rest =>
    cases n with
    | zero =>
      have hhere := hn.here
      rw [List.drop_zero, startsWithAs_of_first h.first] at hhere
      cases hhere
    | succ n =>
      have hrest : LastAs rest n := ⟨hn.here, fun m hm => hn.later (m + 1) (Nat.succ_lt_succ hm)⟩
      rw [splitAlias?, cutAs_of_lastAs (last_of_cons h.last) hrest]
      rfl

/-! ## Columns -/

/-- The text of a column as it is looked at: trimmed, on one line. -/
def columnToken (text : String) : List Char := unbreak (strip text.toList)

theorem trimmed_columnToken (text : String) : Trimmed (columnToken text) :=
  (Text.trimmed_strip text.toList).unbreak

theorem aliasName_classifyBody (body : List Char) (aliasName target : Option String) :
    (classifyBody body aliasName target).aliasName = aliasName := by
  unfold classifyBody
  split
  · rfl
  · split <;> rfl

variable {text : String} {aliasName : Option String} (target : Option String)

theorem classify_text (halias : TableInput.nonempty aliasName = none)
    (hne : columnToken text ≠ []) :
    classify ⟨.text text, aliasName⟩ target =
      .ok (some (classifyBody (splitColumnAlias (columnToken text) none).1
        (splitColumnAlias (columnToken text) none).2 target)) := by
  have hempty : (columnToken text).isEmpty = false := by simpa using hne
  simp only [classify, classifyText, halias]
  rw [show (unbreak (strip text.toList)).isEmpty = false from hempty]
  rfl

/-- **A text with parentheses stays whole as an expression exactly if there is no `AS` between
blanks in it**, inside of parentheses or outside. Else it is cut at the last one. -/
theorem classify_expression_iff (halias : TableInput.nonempty aliasName = none)
    (hexpr : isExpression (columnToken text) = true) :
    (classify ⟨.text text, aliasName⟩ target =
        .ok (some (.expression target (String.ofList (columnToken text)) none)) ↔
      LacksAs (columnToken text)) ∧
    ∀ n, LastAs (columnToken text) n →
      classify ⟨.text text, aliasName⟩ target =
        .ok (some (classifyBody (strip ((columnToken text).take n))
          (some (String.ofList (strip ((columnToken text).drop (n + 4))))) target)) := by
  have hne : columnToken text ≠ [] := by
    intro hnil
    rw [hnil] at hexpr
    cases hexpr
  have htrimmed := trimmed_columnToken text
  have hcut : ∀ n, LastAs (columnToken text) n →
      classify ⟨.text text, aliasName⟩ target =
        .ok (some (classifyBody (strip ((columnToken text).take n))
          (some (String.ofList (strip ((columnToken text).drop (n + 4))))) target)) := by
    intro n hn
    have hsplit := splitAlias?_of_lastAs htrimmed hn
    simp only [classify_text target halias hne, splitColumnAlias, hsplit]
  refine ⟨⟨fun hwhole => ?_, fun hnone => ?_⟩, hcut⟩
  · refine (lacksAs_or_exists_lastAs (columnToken text)).resolve_right ?_
    rintro ⟨n, hn⟩
    rw [hcut n hn] at hwhole
    have hcolumn := Option.some.inj (Except.ok.inj hwhole)
    have hname := congrArg Column.aliasName hcolumn
    rw [aliasName_classifyBody] at hname
    cases hname
  · have hsplit := splitAlias?_of_none htrimmed hnone
    simp only [classify_text target halias hne, splitColumnAlias, hsplit]
    rw [classifyBody, if_pos hexpr]

/-- A call that stays whole, over two lines, and one that is cut. -/
theorem classify_expression_iff_of_call :
    let whole := "  COALESCE(o.basis,\n o.cast_as) "
    let named := "sum(o.total) as revenue"
    (TableInput.nonempty (some "") = none ∧ isExpression (columnToken whole) = true ∧
      LacksAs (columnToken whole) ∧ classify ⟨.text whole, some ""⟩ (some "o") =
        .ok (some (.expression (some "o") "COALESCE(o.basis,  o.cast_as)" none))) ∧
    isExpression (columnToken named) = true ∧ LastAs (columnToken named) 12 ∧
      classify ⟨.text named, none⟩ (some "o") =
        .ok (some (.expression (some "o") "sum(o.total)" (some "revenue"))) := by
  intro whole named
  have hwhole : isExpression (columnToken whole) = true := by decide +kernel
  have hnamed : isExpression (columnToken named) = true := by decide +kernel
  have hlacks : LacksAs (columnToken whole) := by decide +kernel
  have hlast : LastAs (columnToken named) 12 := by decide +kernel
  have hblank : TableInput.nonempty (some "") = none := rfl
  have hnone : TableInput.nonempty none = none := rfl
  have hstays := (classify_expression_iff (some "o") hblank hwhole).1.mpr hlacks
  have hcut := (classify_expression_iff (some "o") hnone hnamed).2 12 hlast
  have htext : String.ofList (columnToken whole) = "COALESCE(o.basis,  o.cast_as)" := by
    decide +kernel
  have hbody : classifyBody (strip ((columnToken named).take 12))
      (some (String.ofList (strip ((columnToken named).drop (12 + 4))))) (some "o") =
      .expression (some "o") "sum(o.total)" (some "revenue") := by decide +kernel
  rw [htext] at hstays
  rw [hbody] at hcut
  exact ⟨⟨hblank, hwhole, hlacks, hstays⟩, hnamed, hlast, hcut⟩

/-! ## Parentheses -/

/-- How many parentheses are open at the end of a text. -/
def openGroups (cs : List Char) : Int := cs.count '(' - cs.count ')'

/-- A text whose parentheses match. -/
def Balanced (cs : List Char) : Prop :=
  openGroups cs = 0 ∧ ∀ n < cs.length, 0 ≤ openGroups (cs.take n)

instance (cs : List Char) : Decidable (Balanced cs) := inferInstanceAs (Decidable (_ ∧ _))

/-- The type in a cast is taken for an alias, though it stands in parentheses. -/
theorem type_of_cast_taken_for_alias :
    let token := columnToken "CAST(o.total AS int)"
    isExpression token = true ∧ Balanced token ∧
      (∀ n < token.length, startsWithAs (token.drop n) = true → 0 < openGroups (token.take n)) ∧
      classify (.ofText "CAST(o.total AS int)") (some "o") =
        .ok (some ⟨some "CAST(o", .ident "total", some "int)"⟩) ∧
      classify (.ofText "CAST(o.total AS int)") (some "o") ≠
        .ok (some (.expression (some "o") (String.ofList token) none)) := by
  decide +kernel

end SelectQuery
