import Mathlib.Data.List.Induction
import Mathlib.Data.List.TakeWhile
import Mathlib.Data.Nat.Digits.Defs
import SelectQuery.Proofs.LongestFront
import SelectQuery.Value.Basic

/-!
# The integer at the front of a text

A text is cast to an integer by its longest front part that spells one, and an integer is cast to a
text that spells it.

* `IsInteger`, `integerValue`: the texts that spell an integer, and the integer;
* `Decimal.findsLongest_integerSlice`: the longest front part that spells an integer is found;
* `LeadingInteger`, `leadingInteger_iff`: the integer that a text is cast to;
* `isInteger_toString`, `leadingInt_toString`: the text of an integer spells it, and is cast to it;
* **`leadingInt_and_casts`**: so nothing is lost by a text in between.
-/

namespace SelectQuery

/-! ## Integers -/

/-- Digits alone, one at least. -/
def IsDigits (cs : List Char) : Prop := cs ≠ [] ∧ ∀ c ∈ cs, c.isDigit = true

/-- An optional sign and at least one digit. -/
inductive IsInteger : List Char → Prop
  | unsigned {digits : List Char} (h : IsDigits digits) : IsInteger digits
  | signed {sign : Char} (hsign : sign = '+' ∨ sign = '-') {digits : List Char}
      (h : IsDigits digits) : IsInteger (sign :: digits)

/-- The number that digits denote: each of them counts as often as its place says. -/
def digitsValue (digits : List Char) : Nat :=
  Nat.ofDigits 10 (digits.reverse.map Decimal.digitValue)

/-- The number that an optional sign and digits denote. -/
def integerValue : List Char → Int
  | '+' :: digits => digitsValue digits
  | '-' :: digits => -digitsValue digits
  | digits => digitsValue digits

namespace Decimal

variable {cs slice front : List Char}

theorem natOfDigits_eq (digits : List Char) : natOfDigits digits = digitsValue digits := by
  induction digits using List.reverseRecOn with
  | nil => rfl
  | append_singleton digits c ih =>
    rw [digitsValue, List.reverse_append, List.reverse_singleton, List.singleton_append,
      List.map_cons, Nat.ofDigits_cons, ← digitsValue, ← ih, Nat.add_comm]
    exact List.foldl_append

theorem intOfSlice_eq (slice : List Char) : intOfSlice slice = integerValue slice := by
  unfold intOfSlice integerValue
  fun_cases takeSign slice with
  | case1 digits => simp [natOfDigits_eq]
  | case2 digits => simp [natOfDigits_eq]
  | case3 digits hplus hminus => simp [natOfDigits_eq]

theorem isInteger_iff : IsInteger cs ↔ Signed IsDigits cs := by
  constructor
  · rintro (h | ⟨hsign, h⟩)
    · exact .unsigned h
    · exact .signed hsign h
  · rintro (h | ⟨hsign, h⟩)
    · exact .unsigned h
    · exact .signed hsign h

theorem signless_isDigits : Signless IsDigits := by
  intro digits h
  obtain ⟨first, more, rfl⟩ := List.exists_cons_of_ne_nil h.1
  have hdigit : first.isDigit = true := h.2 first List.mem_cons_self
  refine ⟨first, rfl, ?_⟩
  rintro (rfl | rfl) <;> cases hdigit

theorem findsLongest_digits : FindsLongest IsDigits fun cs =>
    if (takeDigits cs).1.isEmpty then none else some (takeDigits cs).1 where
  sound {cs slice} h := by
    simp only [takeDigits, List.isEmpty_iff, Option.ite_none_left_eq_some, Option.some.injEq] at h
    obtain ⟨hne, rfl⟩ := h
    exact ⟨List.takeWhile_prefix _, hne, fun _ => List.mem_takeWhile_imp⟩
  complete {cs front} h hfront := by
    obtain ⟨rest, rfl⟩ := hfront
    have htake : (takeDigits (front ++ rest)).1 = front ++ rest.takeWhile Char.isDigit :=
      List.takeWhile_append_of_pos h.2
    refine ⟨front ++ rest.takeWhile Char.isDigit, ?_, by simp⟩
    rw [htake, if_neg (by simp [h.1])]

theorem findsLongest_integerSlice : FindsLongest IsInteger integerSlice := by
  have h := findsLongest_digits.signed signless_isDigits
  have hread : (fun cs => (if (takeDigits (takeSign cs).2).1.isEmpty then none
      else some (takeDigits (takeSign cs).2).1).map ((takeSign cs).1 ++ ·)) = integerSlice := by
    funext cs
    unfold integerSlice
    split_ifs <;> simp_all
  have hinteger : Signed IsDigits = IsInteger := funext fun cs => propext isInteger_iff.symm
  rwa [hread, hinteger] at h

end Decimal

/-- An integer as one of 64 bits, or the nearest end of their range. -/
def clamp64 (n : Int) : Int := max (-2 ^ 63) (min n (2 ^ 63 - 1))

theorem toInt_ofIntClamp (n : Int) : (Int64.ofIntClamp n).toInt = clamp64 n := by
  have hmin := Int64.toInt_minValue
  have hmax := Int64.toInt_maxValue
  unfold Int64.ofIntClamp clamp64
  split_ifs with hlow hhigh
  · rw [Int64.toInt_ofIntLE]
    omega
  · omega
  · omega

/-- The integer that a text starts with: that of the longest front part that spells one, as far as
64 bits go, and zero if there is none. -/
inductive LeadingInteger (cs : List Char) : Int → Prop
  | spelled {front : List Char} (h : LongestFront IsInteger cs front) :
      LeadingInteger cs (clamp64 (integerValue front))
  | missing (h : ∀ front, front <+: cs → ¬ IsInteger front) : LeadingInteger cs 0

theorem LeadingInteger.unique {cs : List Char} {m n : Int} (hm : LeadingInteger cs m)
    (hn : LeadingInteger cs n) : m = n := by
  cases hm with
  | spelled hm =>
    cases hn with
    | spelled hn => rw [hm.unique hn]
    | missing hn => exact absurd hm.holds (hn _ hm.isPrefix)
  | missing hm =>
    cases hn with
    | spelled hn => exact absurd hn.holds (hm _ hn.isPrefix)
    | missing _ => rfl

theorem leadingInteger_leadingInt (text : String) :
    LeadingInteger (Text.stripStart text.toList) (leadingInt text).toInt := by
  unfold leadingInt
  split
  next slice hslice =>
    rw [toInt_ofIntClamp, Decimal.intOfSlice_eq]
    exact .spelled (Decimal.findsLongest_integerSlice.eq_some_iff.mp hslice)
  next hslice => exact .missing (Decimal.findsLongest_integerSlice.eq_none_iff.mp hslice)

/-- **The integer that a text is cast to** is the one that it starts with, behind blanks. -/
theorem leadingInteger_iff {text : String} {n : Int} :
    LeadingInteger (Text.stripStart text.toList) n ↔ (leadingInt text).toInt = n := by
  have h := leadingInteger_leadingInt text
  exact ⟨fun hn => h.unique hn, fun heq => heq ▸ h⟩

/-! ## The text of an integer -/

theorem IsInteger.ne_nil {cs : List Char} (h : IsInteger cs) : cs ≠ [] := by
  cases h with
  | unsigned h => exact h.1
  | signed _ _ => exact List.cons_ne_nil _ _

theorem IsInteger.isDigit_or_sign {cs : List Char} (h : IsInteger cs) :
    ∀ c ∈ cs, c.isDigit = true ∨ c = '+' ∨ c = '-' := by
  cases h with
  | unsigned h => exact fun c hc => .inl (h.2 c hc)
  | signed hsign h => exact List.forall_mem_cons.mpr ⟨.inr hsign, fun c hc => .inl (h.2 c hc)⟩

section

variable {c : Char}

theorem isDigit_iff : c.isDigit = true ↔ 48 ≤ c.toNat ∧ c.toNat ≤ 57 := by
  simp only [Char.isDigit, Bool.and_eq_true, decide_eq_true_eq]
  rfl

theorem isBlank_of_isDigit_or_sign (h : c.isDigit = true ∨ c = '+' ∨ c = '-') :
    Text.isBlank c = false := by
  rcases h with h | rfl | rfl
  · rw [isDigit_iff] at h
    simp only [Text.isBlank, Bool.or_eq_false_iff, Bool.and_eq_false_iff, decide_eq_false_iff_not,
      beq_eq_false_iff_ne]
    omega
  · rfl
  · rfl

theorem toLower_of_isDigit_or_sign (h : c.isDigit = true ∨ c = '+' ∨ c = '-') : c.toLower = c := by
  rcases h with h | rfl | rfl
  · rw [isDigit_iff] at h
    -- lower case is for capital letters alone
    refine dif_neg fun hcapital => ?_
    have hrange : 65 ≤ c.toNat ∧ c.toNat ≤ 90 := hcapital
    omega
  · rfl
  · rfl

end

theorem isDigits_toDigits (n : Nat) : IsDigits (Nat.toDigits 10 n) :=
  ⟨Nat.toDigits_ne_nil, fun _ hc => Nat.isDigit_of_mem_toDigits (by decide) (by decide) hc⟩

theorem digitsValue_toDigits (n : Nat) : digitsValue (Nat.toDigits 10 n) = n := by
  rw [← Decimal.natOfDigits_eq, Decimal.natOfDigits_toDigits]

theorem integerValue_of_isDigits {digits : List Char} (h : IsDigits digits) :
    integerValue digits = digitsValue digits := by
  obtain ⟨first, hfirst, hunsigned⟩ := Decimal.signless_isDigits digits h
  fun_cases integerValue digits with
  | case1 => exact absurd (.inl (Option.some.inj hfirst).symm) hunsigned
  | case2 => exact absurd (.inr (Option.some.inj hfirst).symm) hunsigned
  | case3 => rfl

theorem toList_toString (n : Int) :
    (toString n).toList =
      if 0 ≤ n then Nat.toDigits 10 n.toNat else '-' :: Nat.toDigits 10 (-n).toNat := by
  have hnat : ∀ k : Nat, k.repr.toList = Nat.toDigits 10 k := fun k => String.toList_ofList
  rw [Int.toString_eq_repr, Int.repr_eq_if]
  split
  · exact hnat _
  · rw [String.toList_append, hnat]
    rfl

theorem isInteger_toString (n : Int) :
    IsInteger (toString n).toList ∧ integerValue (toString n).toList = n := by
  rw [toList_toString]
  split
  next hpositive =>
    have hdigits := isDigits_toDigits n.toNat
    rw [integerValue_of_isDigits hdigits, digitsValue_toDigits]
    exact ⟨.unsigned hdigits, Int.toNat_of_nonneg hpositive⟩
  next hnegative =>
    rw [integerValue, digitsValue_toDigits]
    exact ⟨.signed (.inr rfl) (isDigits_toDigits _), by omega⟩

theorem isDigit_or_dash_of_mem_toString {n : Int} {c : Char} (hc : c ∈ (toString n).toList) :
    c.isDigit = true ∨ c = '-' := by
  rw [toList_toString] at hc
  split at hc
  · exact .inl ((isDigits_toDigits _).2 c hc)
  · rcases List.mem_cons.mp hc with rfl | hc
    · exact .inr rfl
    · exact .inl ((isDigits_toDigits _).2 c hc)

/-- **The text of an integer is read back**, as far as 64 bits go. -/
theorem leadingInt_toString (n : Int) : (leadingInt (toString n)).toInt = clamp64 n := by
  obtain ⟨hinteger, hvalue⟩ := isInteger_toString n
  have hstrip : Text.stripStart (toString n).toList = (toString n).toList :=
    Text.stripStart_eq_self_iff.mpr fun c hc =>
      isBlank_of_isDigit_or_sign (hinteger.isDigit_or_sign c (List.mem_of_mem_head? hc))
  have hwhole : LongestFront IsInteger (toString n).toList (toString n).toList :=
    ⟨List.prefix_rfl, hinteger, fun other hother _ => hother.length_le⟩
  rw [← leadingInteger_iff, hstrip]
  have hlead := LeadingInteger.spelled hwhole
  rwa [hvalue] at hlead

theorem leadingInt_toString_toInt (i : Int64) : leadingInt (toString i.toInt) = i := by
  have hlow := Int64.le_toInt i
  have hhigh := Int64.toInt_lt i
  rw [← Int64.toInt_inj, leadingInt_toString, clamp64]
  omega

theorem truthOfText_toString (i : Int64) : truthOfText (toString i.toInt) = (i != 0) := by
  obtain ⟨hinteger, -⟩ := isInteger_toString i.toInt
  have hempty : toString i.toInt ≠ "" := fun h => hinteger.ne_nil (by rw [h]; rfl)
  have hfalse : Text.lower (toString i.toInt) ≠ "false" := by
    intro h
    have hsame : (toString i.toInt).toList.map Char.toLower = (toString i.toInt).toList :=
      (List.map_congr_left fun c hc =>
        toLower_of_isDigit_or_sign (hinteger.isDigit_or_sign c hc)).trans (List.map_id _)
    rw [Text.lower, hsame, String.ofList_toList] at h
    rw [h] at hinteger
    have := hinteger.isDigit_or_sign 'f' (by decide)
    revert this
    decide
  have hzero : toString i.toInt = "0" ↔ i = 0 := by
    constructor
    · intro h
      rw [← leadingInt_toString_toInt i, h]
      decide
    · rintro rfl
      rfl
  simp only [truthOfText, hempty, hfalse, hzero, decide_false, Bool.false_or, Bool.or_false]
  rfl

/-! ## Casts by way of a text -/

theorem cast_cast_text_int (i : Int64) {type : ValueType} (h : type ∈ [ValueType.int, .bool]) :
    ((Value.int i).cast .text).cast type = (Value.int i).cast type := by
  simp only [List.mem_cons, List.not_mem_nil, or_false] at h
  rcases h with rfl | rfl
  · exact congrArg Value.int (leadingInt_toString_toInt i)
  · exact congrArg Value.bool (truthOfText_toString i)

theorem cast_cast_text_bool (b : Bool) {type : ValueType} (h : type ∈ [ValueType.int, .bool]) :
    ((Value.bool b).cast .text).cast type = (Value.bool b).cast type := by
  simp only [List.mem_cons, List.not_mem_nil, or_false] at h
  rcases h with rfl | rfl
  · cases b
    · exact congrArg Value.int (by decide)
    · exact congrArg Value.int (by decide)
  · cases b
    · exact congrArg Value.bool (by decide)
    · exact congrArg Value.bool (by decide)

/-- **A text is cast to the integer that it starts with, and an integer to a text that spells it.**
So a text in between changes nothing where an integer or a truth value is cast to either. -/
theorem leadingInt_and_casts :
    (∀ (text : String) (n : Int),
      LeadingInteger (Text.stripStart text.toList) n ↔ (leadingInt text).toInt = n) ∧
    (∀ i : Int64, ((Value.int i).cast .text).cast .int = .int i) ∧
    ∀ type ∈ [ValueType.int, .bool],
      (∀ i : Int64, ((Value.int i).cast .text).cast type = (Value.int i).cast type) ∧
      ∀ b : Bool, ((Value.bool b).cast .text).cast type = (Value.bool b).cast type := by
  refine ⟨fun text n => leadingInteger_iff, fun i => ?_, fun type htype => ?_⟩
  · exact cast_cast_text_int i (by decide)
  · exact ⟨fun i => cast_cast_text_int i htype, fun b => cast_cast_text_bool b htype⟩

/-- Past the range of 64 bits and at its end. -/
theorem leadingInt_and_casts_at_the_end :
    LeadingInteger (Text.stripStart "\t -9223372036854775809 left".toList) (-2 ^ 63) ∧
      LeadingInteger (Text.stripStart "+-7".toList) 0 ∧
      ((Value.int Int64.minValue).cast .text).cast .int = .int Int64.minValue ∧
      ValueType.bool ∈ [ValueType.int, .bool] ∧
      ((Value.int Int64.minValue).cast .text).cast .bool = .bool true ∧
      ((Value.bool false).cast .text).cast .bool = .bool false := by
  obtain ⟨hlead, hint, hcasts⟩ := leadingInt_and_casts
  have hbool : ValueType.bool ∈ [ValueType.int, .bool] := by decide
  obtain ⟨hints, hbools⟩ := hcasts .bool hbool
  exact ⟨(hlead _ _).mpr (by decide +kernel), (hlead _ _).mpr (by decide +kernel), hint _, hbool,
    hints _, hbools _⟩

end SelectQuery
