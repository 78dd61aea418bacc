import Mathlib.Data.List.Forall2
import SelectQuery.Dialect.Literal
import SelectQuery.Proofs.LeadingInteger
import SelectQuery.Proofs.Lexicon

/-!
# Casts

A cast goes into lists and leaves them as they are. What stands in them becomes a value of the type
asked for, NULL and SQL text apart. So a value that is cast to integers, and holds no SQL text, is
written without any character of the texts in it.

* `Value.induct`: induction over nested lists;
* `Nesting`, `Value.nesting`, `Value.leaves`: the lists of a value, and what stands in them;
* `HasType`, `CastsTo`: the type of a value that is no list, and what a cast makes of it;
* `nesting_cast`, `leaves_cast`, `cast_cast`: what a cast makes of nested lists;
* `IntegerLiterals`, `integerLiterals_quoteValue`: the SQL texts of integers;
* `IntegerCharacters`: the characters in them;
* **`cast_keeps_nesting`**: a cast to any type, and the text of a value that is cast to integers.
-/

namespace SelectQuery

/-! ## Nested lists -/

/-- How lists stand in lists, and how many items each of them has. -/
inductive Nesting where
  | leaf
  | list (items : List Nesting)

/-- A value that is neither a list nor NULL nor SQL text has a type. -/
inductive HasType : ValueType → Value → Prop
  | int (i : Int64) : HasType .int (.int i)
  | float (x : Float) : HasType .float (.float x)
  | text (s : String) : HasType .text (.text s)
  | bool (b : Bool) : HasType .bool (.bool b)

namespace Value

@[elab_as_elim]
theorem induct {motive : Value → Prop} (null : motive .null) (expr : ∀ sql, motive (.expr sql))
    (typed : ∀ type v, HasType type v → motive v)
    (list : ∀ items, (∀ item ∈ items, motive item) → motive (.list items)) :
    ∀ v, motive v
  | .null => null
  | .expr sql => expr sql
  | .bool b => typed _ _ (.bool b)
  | .int i => typed _ _ (.int i)
  | .float x => typed _ _ (.float x)
  | .text s => typed _ _ (.text s)
  | .list items => list items fun item _ => induct null expr typed list item

mutual

/-- The lists of a value. -/
def nesting : Value → Nesting
  | .list items => .list (nestings items)
  | _ => .leaf
termination_by structural value => value

/-- The lists of several values. -/
def nestings : List Value → List Nesting
  | [] => []
  | item :: rest => nesting item :: nestings rest
termination_by structural items => items

end

mutual

/-- What stands in the lists of a value, from left to right. -/
def leaves : Value → List Value
  | .list items => allLeaves items
  | leaf => [leaf]
termination_by structural value => value

/-- What stands in the lists of several values, from left to right. -/
def allLeaves : List Value → List Value
  | [] => []
  | item :: rest => leaves item ++ allLeaves rest
termination_by structural items => items

end

theorem nesting_list (items : List Value) :
    (list items).nesting = .list (items.map nesting) := by
  have hall : nestings items = items.map nesting := by
    induction items with
    | nil => rfl
    | cons item rest ih => rw [nestings, ih, List.map_cons]
  rw [nesting, hall]

theorem leaves_list (items : List Value) : (list items).leaves = items.flatMap leaves := by
  have hall : allLeaves items = items.flatMap leaves := by
    induction items with
    | nil => rfl
    | cons item rest ih => rw [allLeaves, ih, List.flatMap_cons]
  rw [leaves, hall]

theorem cast_list (type : ValueType) (items : List Value) :
    (list items).cast type = list (items.map (cast type)) := by
  rw [cast, castAll_eq_map]

end Value

/-! ## One value -/

namespace HasType

variable {type given : ValueType} {v : Value}

theorem leaves_eq (h : HasType given v) : v.leaves = [v] := by cases h <;> rfl

theorem nesting_eq (h : HasType given v) : v.nesting = .leaf := by cases h <;> rfl

theorem cast_self (h : HasType type v) : v.cast type = v := by cases h <;> rfl

protected theorem cast (h : HasType given v) (type : ValueType) : HasType type (v.cast type) := by
  cases h <;> cases type <;> constructor

end HasType

/-- What a cast makes of a value that is no list. -/
inductive CastsTo (type : ValueType) : Value → Value → Prop
  | null : CastsTo type .null .null
  | expr (sql : String) : CastsTo type (.expr sql) (.expr sql)
  /-- A value that has the type already is left alone. -/
  | same {v : Value} (h : HasType type v) : CastsTo type v v
  | turned {given : ValueType} {v w : Value} (hgiven : HasType given v) (hne : given ≠ type)
      (h : HasType type w) : CastsTo type v w

theorem HasType.castsTo {given : ValueType} {v : Value} (h : HasType given v) (type : ValueType) :
    CastsTo type v (v.cast type) := by
  by_cases heq : given = type
  · subst heq
    rw [h.cast_self]
    exact .same h
  · exact .turned h heq (h.cast type)

/-! ## Casts in nested lists -/

namespace Value

theorem nesting_cast (type : ValueType) (v : Value) : (v.cast type).nesting = v.nesting := by
  induction v using Value.induct with
  | null => rfl
  | expr sql => rfl
  | typed given v h => rw [h.nesting_eq, (h.cast type).nesting_eq]
  | list items ih =>
    rw [cast_list, nesting_list, nesting_list, List.map_map]
    exact congrArg Nesting.list (List.map_congr_left ih)

theorem leaves_cast (type : ValueType) (v : Value) :
    (v.cast type).leaves = v.leaves.map (cast type) := by
  induction v using Value.induct with
  | null => rfl
  | expr sql => rfl
  | typed given v h => rw [h.leaves_eq, (h.cast type).leaves_eq, List.map_singleton]
  | list items ih =>
    rw [cast_list, leaves_list, leaves_list, List.flatMap_map, List.map_flatMap]
    exact List.flatMap_congr ih

/-- **A cast is done once.** -/
theorem cast_cast (type : ValueType) (v : Value) : (v.cast type).cast type = v.cast type := by
  induction v using Value.induct with
  | null => rfl
  | expr sql => rfl
  | typed given v h => exact (h.cast type).cast_self
  | list items ih =>
    rw [cast_list, cast_list, List.map_map]
    exact congrArg Value.list (List.map_congr_left ih)

theorem castsTo_of_mem_leaves (type : ValueType) (v : Value) :
    ∀ leaf ∈ v.leaves, CastsTo type leaf (leaf.cast type) := by
  induction v using Value.induct with
  | null => exact List.forall_mem_singleton.mpr .null
  | expr sql => exact List.forall_mem_singleton.mpr (.expr sql)
  | typed given v h =>
    rw [h.leaves_eq]
    exact List.forall_mem_singleton.mpr (h.castsTo type)
  | list items ih =>
    rw [leaves_list]
    intro leaf hleaf
    obtain ⟨item, hitem, hleaf⟩ := List.mem_flatMap.mp hleaf
    exact ih item hitem leaf hleaf

/-- **What stands in the lists** is cast one by one. -/
theorem forall₂_leaves_cast (type : ValueType) (v : Value) :
    List.Forall₂ (CastsTo type) v.leaves (v.cast type).leaves := by
  rw [leaves_cast, List.forall₂_map_right_iff, List.forall₂_same]
  exact castsTo_of_mem_leaves type v

end Value

/-! ## The SQL text of integers -/

/-- The SQL texts of integers and NULLs in nested lists: literals of integers of 64 bits, the word
`NULL`, and a comma with a blank between items. -/
inductive IntegerLiterals : String → Prop
  | null : IntegerLiterals "NULL"
  | int (i : Int64) : IntegerLiterals (toString i.toInt)
  | list {texts : List String} (h : ∀ text ∈ texts, IntegerLiterals text) :
      IntegerLiterals (", ".intercalate texts)

/-- Digits, minus signs, and the characters of the word `NULL` and of separators. -/
def IntegerCharacters (text : String) : Prop :=
  ∀ c ∈ text.toList, c.isDigit = true ∨ c ∈ "-NUL, ".toList

instance (text : String) : Decidable (IntegerCharacters text) :=
  List.decidableBAll _ text.toList

theorem IntegerCharacters.append {text more : String} (h : IntegerCharacters text)
    (hmore : IntegerCharacters more) : IntegerCharacters (text ++ more) := by
  unfold IntegerCharacters
  rw [String.toList_append]
  exact List.forall_mem_append.mpr ⟨h, hmore⟩

theorem IntegerLiterals.characters {text : String} (h : IntegerLiterals text) :
    IntegerCharacters text := by
  induction h with
  | null => decide
  | int i =>
    intro c hc
    rcases isDigit_or_dash_of_mem_toString hc with hdigit | rfl
    · exact .inl hdigit
    · exact .inr (by decide)
  | list _ ih =>
    have hseparator : IntegerCharacters ", " := by decide
    exact intercalate_of_append (by decide) IntegerCharacters.append hseparator ih

theorem integerLiterals_quoteValue (d : Dialect) {v : Value}
    (h : ∀ leaf ∈ v.leaves, leaf = .null ∨ HasType .int leaf) :
    IntegerLiterals (d.quoteValue v) := by
  induction v using Value.induct with
  | null => exact .null
  | expr sql =>
    rcases List.forall_mem_singleton.mp h with h | h <;> cases h
  | typed given v hv =>
    rw [hv.leaves_eq] at h
    rcases List.forall_mem_singleton.mp h with rfl | h
    · exact .null
    · cases h with
      | int i => exact .int i
  | list items ih =>
    rw [Value.leaves_list] at h
    rw [Dialect.quoteValue, Dialect.quoteValues_eq_map]
    refine .list (List.forall_mem_map.mpr fun item hitem => ih item hitem fun leaf hleaf => ?_)
    exact h leaf (List.mem_flatMap.mpr ⟨item, hitem, hleaf⟩)

/-- **A value without SQL text that is cast to integers** is written as integers alone. -/
theorem integerLiterals_quoteValue_cast (d : Dialect) {v : Value}
    (hraw : ∀ sql, .expr sql ∉ v.leaves) : IntegerLiterals (d.quoteValue (v.cast .int)) := by
  refine integerLiterals_quoteValue d fun leaf hleaf => ?_
  rw [Value.leaves_cast] at hleaf
  obtain ⟨given, hgiven, rfl⟩ := List.mem_map.mp hleaf
  have hcasts := Value.castsTo_of_mem_leaves .int v given hgiven
  generalize given.cast .int = leaf at hcasts ⊢
  cases hcasts with
  | null => exact .inl rfl
  | expr sql => exact absurd hgiven (hraw sql)
  | same h => exact .inr h
  | turned _ _ h => exact .inr h

/-- **A cast turns what stands in nested lists into values of its type, and keeps the lists.** NULL
and SQL text are left alone, and a second cast changes nothing. Whatever texts a value holds, no
character of them is in its SQL text after a cast to integers, unless one of them is SQL text. -/
theorem cast_keeps_nesting :
    (∀ (type : ValueType) (v : Value),
      (v.cast type).nesting = v.nesting ∧
      List.Forall₂ (CastsTo type) v.leaves (v.cast type).leaves ∧
      (v.cast type).cast type = v.cast type) ∧
    ∀ v : Value, (∀ sql, .expr sql ∉ v.leaves) → ∀ d : Dialect,
      IntegerLiterals (d.quoteValue (v.cast .int)) ∧
      IntegerCharacters (d.quoteValue (v.cast .int)) := by
  refine ⟨fun type v => ?_, fun v hraw d => ?_⟩
  · exact ⟨v.nesting_cast type, v.forall₂_leaves_cast type, v.cast_cast type⟩
  · have h := integerLiterals_quoteValue_cast d hraw
    exact ⟨h, h.characters⟩

/-- Texts in nested lists, one of them empty, with a quote and words of SQL in them. -/
theorem cast_keeps_nesting_injected :
    let v : Value := .list [.text "7' OR 1=1 --", .list [.null, .list [], .bool true], .text "x"]
    let d := Dialect.mysql true
    (∀ sql, .expr sql ∉ v.leaves) ∧
      v.cast .int = .list [.int 7, .list [.null, .list [], .int 1], .int 0] ∧
      d.quoteValue (v.cast .int) = "7, NULL, , 1, 0" ∧ IntegerLiterals "7, NULL, , 1, 0" ∧
      List.Forall₂ (CastsTo .int) v.leaves [.int 7, .null, .int 1, .int 0] := by
  intro v d
  have hraw : ∀ sql, .expr sql ∉ v.leaves := by
    intro sql hmem
    simp [v, Value.leaves, Value.allLeaves] at hmem
  have hseven : leadingInt "7' OR 1=1 --" = 7 := by decide +kernel
  have hnone : leadingInt "x" = 0 := by decide +kernel
  have hcast : v.cast .int = .list [.int 7, .list [.null, .list [], .int 1], .int 0] := by
    simp [v, Value.cast, Value.castAll, hseven, hnone]
  have htext : d.quoteValue (v.cast .int) = "7, NULL, , 1, 0" := by
    rw [hcast]
    decide +kernel
  obtain ⟨hkeeps, htexts⟩ := cast_keeps_nesting
  have hleaves := (hkeeps .int v).2.1
  rw [hcast] at hleaves
  exact ⟨hraw, hcast, htext, htext ▸ (htexts v hraw d).1, hleaves⟩

end SelectQuery
