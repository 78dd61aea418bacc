import Mathlib.Data.List.TakeWhile
import SelectQuery.Proofs.LeadingInteger

/-!
# The number at the front of a text

A text is cast to a number by its longest front part that spells one. That part is cut off and read
as a text of its own.

* `IsMantissa`, `IsExponent`, `IsMagnitude`, `IsNumber`: the texts that spell a number;
* `Decimal.isSome_float?_iff`: the texts that are read as a whole: these, and the words for no finite
  number;
* `Decimal.findsLongest_floatSlice`: the longest front part that spells a number is found;
* `IsNumber.ascii`, `isValid_of_ascii`: it is in ASCII, and may be cut off by its bytes;
* **`leadingFloat_reads_longest`**: so what is cut off is always read.
-/

namespace SelectQuery

variable {cs front : List Char}

/-! ## Texts that spell a number -/

/-- Digits, one at least, and at most one point among or around them:
`digits+ [. digits*] | . digits+`. -/
inductive IsMantissa : List Char → Prop
  | whole {digits : List Char} (h : IsDigits digits) : IsMantissa digits
  | pointed {whole digits : List Char} (hwhole : IsDigits whole)
      (hdigits : ∀ c ∈ digits, c.isDigit = true) : IsMantissa (whole ++ '.' :: digits)
  | pointFirst {digits : List Char} (h : IsDigits digits) : IsMantissa ('.' :: digits)

/-- The letter that begins an exponent, in either case. -/
def IsMark (c : Char) : Prop := c = 'e' ∨ c = 'E'

instance (c : Char) : Decidable (IsMark c) := inferInstanceAs (Decidable (_ ∨ _))

/-- A mark, an optional sign and at least one digit: `(e | E) [sign] digits+`. -/
inductive IsExponent : List Char → Prop
  | intro {mark : Char} (hmark : IsMark mark) {power : List Char} (hpower : IsInteger power) :
      IsExponent (mark :: power)

/-- A mantissa with an optional exponent. -/
inductive IsMagnitude : List Char → Prop
  | intro {mantissa exponent : List Char} (hmantissa : IsMantissa mantissa)
      (hexponent : exponent = [] ∨ IsExponent exponent) : IsMagnitude (mantissa ++ exponent)

/-- An optional sign, a mantissa and an optional exponent. -/
def IsNumber : List Char → Prop := Signed IsMagnitude

/-- A word for no finite number, in any case of letters. -/
def IsNonFinite (cs : List Char) : Prop :=
  Text.lower (String.ofList cs) ∈ ["inf", "infinity", "nan"]

theorem IsMantissa.isDigit_or_point (h : IsMantissa cs) :
    ∀ c ∈ cs, c.isDigit = true ∨ c = '.' := by
  cases h with
  | whole h => exact fun c hc => .inl (h.2 c hc)
  | pointed hwhole hdigits =>
    intro c hc
    rcases List.mem_append.mp hc with hc | hc
    · exact .inl (hwhole.2 c hc)
    · exact (List.mem_cons.mp hc).symm.imp_left (hdigits c)
  | pointFirst h => exact fun c hc => (List.mem_cons.mp hc).symm.imp_left (h.2 c)

theorem IsMantissa.exists_isDigit (h : IsMantissa cs) : ∃ c ∈ cs, c.isDigit = true := by
  have hdigits {digits : List Char} (h : IsDigits digits) : ∃ c ∈ digits, c.isDigit = true :=
    (List.exists_mem_of_ne_nil digits h.1).imp fun c hc => ⟨hc, h.2 c hc⟩
  cases h with
  | whole h => exact hdigits h
  | pointed hwhole _ =>
    obtain ⟨c, hc, hdigit⟩ := hdigits hwhole
    exact ⟨c, List.mem_append_left _ hc, hdigit⟩
  | pointFirst h =>
    obtain ⟨c, hc, hdigit⟩ := hdigits h
    exact ⟨c, List.mem_cons_of_mem _ hc, hdigit⟩

theorem isMark_iff {c : Char} : IsMark c ↔ (c != 'e' && c != 'E') = false := by
  simp [IsMark, or_iff_not_imp_left]

theorem IsMark.not_isDigit_or_point {c : Char} (h : IsMark c) :
    ¬ (c.isDigit = true ∨ c = '.') := by
  rcases h with rfl | rfl <;> decide

theorem IsMark.of_mem_head? {exponent : List Char} (h : exponent = [] ∨ IsExponent exponent)
    {c : Char} (hc : c ∈ exponent.head?) : IsMark c := by
  rcases h with rfl | ⟨hmark, -⟩
  · cases hc
  · exact Option.some.inj hc ▸ hmark

theorem signless_isMagnitude : Signless IsMagnitude := by
  rintro _ ⟨hmantissa, -⟩
  obtain ⟨digit, hdigit, -⟩ := hmantissa.exists_isDigit
  obtain ⟨first, more, rfl⟩ := List.exists_cons_of_ne_nil (List.ne_nil_of_mem hdigit)
  refine ⟨first, rfl, ?_⟩
  have hfirst := hmantissa.isDigit_or_point first List.mem_cons_self
  rintro (rfl | rfl) <;> revert hfirst <;> decide

theorem signless_isNonFinite : Signless IsNonFinite := by
  intro cs h
  cases cs with
  | nil => simp [IsNonFinite, Text.lower] at h
  | cons first more =>
    refine ⟨first, rfl, ?_⟩
    rintro (rfl | rfl) <;> simp [IsNonFinite, Text.lower, String.ext_iff] at h

/-! ## Whole texts -/

namespace Decimal

theorem isMantissa_iff_isDigits : isMantissa cs = true ↔ IsDigits (cs.erase '.') := by
  simp [isMantissa, IsDigits]

theorem isMantissa_iff : isMantissa cs = true ↔ IsMantissa cs := by
  rw [isMantissa_iff_isDigits]
  constructor
  · intro h
    by_cases hpoint : '.' ∈ cs
    · obtain ⟨whole, digits, -, rfl, herase⟩ := List.exists_erase_eq hpoint
      obtain ⟨hne, hall⟩ := herase ▸ h
      obtain ⟨hwhole, hdigits⟩ := List.forall_mem_append.mp hall
      by_cases hempty : whole = []
      · subst hempty
        exact .pointFirst ⟨hne, hdigits⟩
      · exact .pointed ⟨hempty, hwhole⟩ hdigits
    · rw [List.erase_of_not_mem hpoint] at h
      exact .whole h
  · have hpoint {digits : List Char} (h : ∀ c ∈ digits, c.isDigit = true) : '.' ∉ digits :=
      fun hmem => absurd (h _ hmem) (by decide)
    rintro (h | ⟨hwhole, hdigits⟩ | h)
    · rwa [List.erase_of_not_mem (hpoint h.2)]
    · rw [List.erase_append_right _ (hpoint hwhole.2), List.erase_cons_head]
      exact ⟨List.append_ne_nil_of_left_ne_nil hwhole.1 _,
        List.forall_mem_append.mpr ⟨hwhole.2, hdigits⟩⟩
    · rwa [List.erase_cons_head]

theorem isExponent_iff : isExponent cs = true ↔ cs = [] ∨ IsExponent cs := by
  cases cs with
  | nil => simp [isExponent]
  | cons mark power =>
    have hpower : IsInteger power ↔ IsDigits (takeSign power).2 :=
      isInteger_iff.trans (signed_iff signless_isDigits)
    have hread : isExponent (mark :: power) = true ↔ IsMark mark ∧ IsInteger power := by
      simp [isExponent, IsMark, hpower, IsDigits, and_assoc]
    rw [hread]
    constructor
    · rintro ⟨hmark, hpower⟩
      exact .inr ⟨hmark, hpower⟩
    · rintro (h | ⟨hmark, hpower⟩)
      · cases h
      · exact ⟨hmark, hpower⟩

theorem isMagnitude_iff : isMagnitude cs = true ↔ IsMagnitude cs := by
  simp only [isMagnitude, List.span_eq_takeWhile_dropWhile, Bool.and_eq_true, isMantissa_iff,
    isExponent_iff]
  constructor
  · rintro ⟨hmantissa, hexponent⟩
    rw [← List.takeWhile_append_dropWhile (p := fun c => c != 'e' && c != 'E') (l := cs)]
    exact .intro hmantissa hexponent
  · rintro ⟨hmantissa, hexponent⟩
    have hfront : ∀ c ∈ _, (c != 'e' && c != 'E') = true := fun c hc =>
      Bool.eq_true_of_not_eq_false fun hmark =>
        (isMark_iff.mpr hmark).not_isDigit_or_point (hmantissa.isDigit_or_point c hc)
    have hmark : ∀ c ∈ _, (c != 'e' && c != 'E') = false := fun c hc =>
      isMark_iff.mp (IsMark.of_mem_head? hexponent hc)
    obtain ⟨htake, hdrop⟩ := Prod.mk.inj (takeWhile_dropWhile_append hfront hmark)
    rw [htake, hdrop]
    exact ⟨hmantissa, hexponent⟩

theorem isSome_nonFinite?_iff : (nonFinite? cs).isSome ↔ IsNonFinite cs := by
  simp only [nonFinite?, IsNonFinite, Text.lower, String.toList_ofList, List.mem_cons,
    List.not_mem_nil, or_false, Bool.or_eq_true, decide_eq_true_eq, ← or_assoc]
  split_ifs with hinfinite hnan
  · exact iff_of_true rfl (.inl hinfinite)
  · exact iff_of_true rfl (.inr hnan)
  · exact iff_of_false (by simp) (not_or.mpr ⟨hinfinite, hnan⟩)

/-- **The texts that are read as a whole.** -/
theorem isSome_float?_iff : (float? cs).isSome ↔ IsNumber cs ∨ Signed IsNonFinite cs := by
  rw [IsNumber, signed_iff signless_isMagnitude, signed_iff signless_isNonFinite,
    ← isMagnitude_iff, ← isSome_nonFinite?_iff]
  simp only [float?]
  split_ifs <;> simp_all

/-! ## The longest front part -/

theorem takeExponent_cons (mark : Char) (rest : List Char) : takeExponent (mark :: rest) =
    if IsMark mark then (integerSlice rest).elim [] (mark :: ·) else [] := by
  have hmark : (mark = 'e' || mark = 'E') = decide (IsMark mark) := (Bool.decide_or _ _).symm
  simp only [takeExponent, integerSlice, hmark, decide_eq_true_eq]
  split_ifs <;> rfl

theorem takeExponent_sound (cs : List Char) : takeExponent cs <+: cs ∧
    (takeExponent cs = [] ∨ IsExponent (takeExponent cs)) := by
  cases cs with
  | nil => exact ⟨List.prefix_rfl, .inl rfl⟩
  | cons mark rest =>
    rw [takeExponent_cons]
    split_ifs with hmark
    · cases hpower : integerSlice rest with
      | none => exact ⟨List.nil_prefix, .inl rfl⟩
      | some power =>
        obtain ⟨hfront, hinteger⟩ := findsLongest_integerSlice.sound hpower
        exact ⟨(List.prefix_cons_inj mark).mpr hfront, .inr (.intro hmark hinteger)⟩
    · exact ⟨List.nil_prefix, .inl rfl⟩

theorem takeExponent_complete (h : IsExponent front) (hfront : front <+: cs) :
    front.length ≤ (takeExponent cs).length := by
  obtain ⟨hmark, hpower⟩ := h
  obtain ⟨rest, rfl⟩ := hfront
  obtain ⟨slice, hslice, hle⟩ :=
    findsLongest_integerSlice.complete hpower (List.prefix_append _ rest)
  rw [List.cons_append, takeExponent_cons, if_pos hmark, hslice]
  exact Nat.succ_le_succ hle

/-- The digits in front with the point among or around them, and what follows them. -/
def takeMantissa (cs : List Char) : List Char × List Char :=
  ((takeDigits cs).1 ++ (takeFraction (takeDigits cs).2).1, (takeFraction (takeDigits cs).2).2)

theorem takeMantissa_append (cs : List Char) :
    (takeMantissa cs).1 ++ (takeMantissa cs).2 = cs := by
  have hdigits (rest : List Char) : (takeDigits rest).1 ++ (takeDigits rest).2 = rest :=
    List.takeWhile_append_dropWhile
  rw [takeMantissa, List.append_assoc]
  rcases takeFraction_eq_or (takeDigits cs).2 with hnone | ⟨rest, hrest, hpoint⟩
  · rw [hnone]
    exact hdigits cs
  · rw [hpoint, List.cons_append, hdigits, ← hrest]
    exact hdigits cs

theorem takeMantissa_erase (cs : List Char) : (takeMantissa cs).1.erase '.' =
    (takeDigits cs).1 ++ (takeFraction (takeDigits cs).2).1.drop 1 := by
  have hwhole : '.' ∉ (takeDigits cs).1 := fun h => absurd (List.mem_takeWhile_imp h) (by decide)
  rw [takeMantissa, List.erase_append_right _ hwhole]
  rcases takeFraction_eq_or (takeDigits cs).2 with hnone | ⟨rest, -, hpoint⟩
  · simp [hnone]
  · simp [hpoint]

theorem isMantissa_takeMantissa (cs : List Char) :
    isMantissa (takeMantissa cs).1 = true ↔ (takeMantissa cs).1.erase '.' ≠ [] := by
  have hwhole : ∀ c ∈ (takeDigits cs).1, c.isDigit = true := fun _ => List.mem_takeWhile_imp
  have hdigits : ∀ c ∈ (takeFraction (takeDigits cs).2).1.drop 1, c.isDigit = true := by
    rcases takeFraction_eq_or (takeDigits cs).2 with hnone | ⟨rest, -, hpoint⟩
    · simp [hnone]
    · rw [hpoint]
      exact fun _ => List.mem_takeWhile_imp
  rw [isMantissa_iff_isDigits, IsDigits, and_iff_left]
  rw [takeMantissa_erase]
  exact List.forall_mem_append.mpr ⟨hwhole, hdigits⟩

theorem prefix_takeMantissa (h : IsMantissa front) (hfront : front <+: cs) :
    front <+: (takeMantissa cs).1 := by
  have hpointed {whole digits : List Char} (hwhole : ∀ c ∈ whole, c.isDigit = true)
      (hdigits : ∀ c ∈ digits, c.isDigit = true) (rest : List Char) :
      whole ++ '.' :: digits <+: (takeMantissa (whole ++ '.' :: digits ++ rest)).1 := by
    rw [List.append_assoc, takeMantissa, takeDigits_append hwhole (by simp)]
    simp [takeFraction, takeDigits, List.takeWhile_append_of_pos hdigits]
  obtain ⟨rest, rfl⟩ := hfront
  cases h with
  | whole h => simp [takeMantissa, takeDigits, List.takeWhile_append_of_pos h.2]
  | pointed hwhole hdigits => exact hpointed hwhole.2 hdigits rest
  | pointFirst h => exact hpointed (List.forall_mem_nil _) h.2 rest

theorem isMantissa_of_prefix (h : IsMantissa front) (hfront : front <+: cs) :
    isMantissa (takeMantissa cs).1 = true := by
  obtain ⟨digit, hmem, hdigit⟩ := h.exists_isDigit
  have hpoint : digit ≠ '.' := by
    rintro rfl
    exact absurd hdigit (by decide)
  have hfound := (prefix_takeMantissa h hfront).mem hmem
  exact (isMantissa_takeMantissa cs).mpr
    (List.ne_nil_of_mem ((List.mem_erase_of_ne hpoint).mpr hfound))

/-- The longest front part that spells a number without a sign. -/
def magnitudeSlice (cs : List Char) : Option (List Char) :=
  if isMantissa (takeMantissa cs).1 then
    some ((takeMantissa cs).1 ++ takeExponent (takeMantissa cs).2)
  else none

theorem floatSlice_eq (cs : List Char) :
    floatSlice cs = (magnitudeSlice (takeSign cs).2).map ((takeSign cs).1 ++ ·) := by
  have hfound := isMantissa_takeMantissa (takeSign cs).2
  rw [takeMantissa_erase, Ne, List.append_eq_nil_iff, List.drop_eq_nil_iff] at hfound
  simp only [floatSlice, Bool.and_eq_true, List.isEmpty_iff, decide_eq_true_eq]
  split_ifs with hnone
  · rw [magnitudeSlice, if_neg fun h => hfound.mp h hnone, Option.map_none]
  · rw [magnitudeSlice, if_pos (hfound.mpr hnone)]
    simp [takeMantissa]

theorem findsLongest_magnitudeSlice : FindsLongest IsMagnitude magnitudeSlice where
  sound {cs slice} h := by
    simp only [magnitudeSlice, Option.ite_none_right_eq_some, Option.some.injEq] at h
    obtain ⟨hmantissa, rfl⟩ := h
    obtain ⟨hfront, hexponent⟩ := takeExponent_sound (takeMantissa cs).2
    refine ⟨?_, .intro (isMantissa_iff.mp hmantissa) hexponent⟩
    nth_rewrite 3 [← takeMantissa_append cs]
    exact (List.prefix_append_right_inj _).mpr hfront
  complete {cs front} h hfront := by
    obtain @⟨mantissa, exponent, hmantissa, hexponent⟩ := h
    have hshort : mantissa <+: cs := (List.prefix_append mantissa exponent).trans hfront
    have hfound := isMantissa_of_prefix hmantissa hshort
    refine ⟨_, if_pos hfound, ?_⟩
    obtain ⟨more, hmore⟩ := prefix_takeMantissa hmantissa hshort
    have hrest : exponent <+: more ++ (takeMantissa cs).2 := by
      rw [← takeMantissa_append cs, ← hmore, List.append_assoc] at hfront
      exact (List.prefix_append_right_inj mantissa).mp hfront
    rw [← hmore, List.length_append, List.length_append, List.length_append]
    rcases hexponent with rfl | hexponent
    · simp only [List.length_nil]
      omega
    · -- a mark cannot belong to the mantissa, so that nothing is left of it
      obtain rfl : more = [] := by
        obtain ⟨hmark, -⟩ := hexponent
        cases more with
        | nil => rfl
        | cons c more =>
          obtain ⟨rfl, -⟩ := List.cons_prefix_cons.mp hrest
          have hmem : _ ∈ (takeMantissa cs).1 := hmore ▸ List.mem_append_right _ List.mem_cons_self
          exact absurd ((isMantissa_iff.mp hfound).isDigit_or_point _ hmem)
            hmark.not_isDigit_or_point
      have hle := takeExponent_complete hexponent hrest
      simpa using hle

/-- The longest front part that spells a number is found. -/
theorem findsLongest_floatSlice : FindsLongest IsNumber floatSlice := by
  have h := findsLongest_magnitudeSlice.signed signless_isMagnitude
  rwa [← funext floatSlice_eq] at h

end Decimal

/-! ## Characters of one byte -/

theorem IsExponent.isDigit_or (h : IsExponent cs) :
    ∀ c ∈ cs, c.isDigit = true ∨ c = '+' ∨ c = '-' ∨ IsMark c := by
  obtain ⟨hmark, hpower⟩ := h
  refine List.forall_mem_cons.mpr ⟨.inr (.inr (.inr hmark)), fun c hc => ?_⟩
  rcases hpower.isDigit_or_sign c hc with hdigit | rfl | rfl
  · exact .inl hdigit
  · exact .inr (.inl rfl)
  · exact .inr (.inr (.inl rfl))

theorem IsNumber.ascii (h : IsNumber cs) : ∀ c ∈ cs, c.toNat < 128 := by
  have hdigit {c : Char} (h : c.isDigit = true) : c.toNat < 128 := by
    have := isDigit_iff.mp h
    omega
  have hmagnitude {cs : List Char} (h : IsMagnitude cs) : ∀ c ∈ cs, c.toNat < 128 := by
    obtain ⟨hmantissa, hexponent⟩ := h
    refine List.forall_mem_append.mpr ⟨fun c hc => ?_, fun c hc => ?_⟩
    · rcases hmantissa.isDigit_or_point c hc with h | rfl
      · exact hdigit h
      · decide
    · rcases hexponent with rfl | hexponent
      · cases hc
      · rcases hexponent.isDigit_or c hc with h | rfl | rfl | rfl | rfl
        · exact hdigit h
        all_goals decide
  rcases h with h | ⟨hsign, h⟩
  · exact hmagnitude h
  · refine List.forall_mem_cons.mpr ⟨?_, hmagnitude h⟩
    rcases hsign with rfl | rfl <;> decide

theorem utf8ByteSize_of_ascii (h : ∀ c ∈ cs, c.toNat < 128) :
    (String.ofList cs).utf8ByteSize = cs.length := by
  induction cs with
  | nil => rfl
  | cons c rest ih =>
    obtain ⟨hc, hrest⟩ := List.forall_mem_cons.mp h
    have hsize : c.utf8Size = 1 :=
      Char.utf8Size_eq_one_iff.mpr (UInt32.le_iff_toNat_le.mpr (Nat.le_of_lt_succ hc))
    rw [String.ofList_cons, String.utf8ByteSize_append, String.utf8ByteSize_singleton, hsize,
      ih hrest, List.length_cons, Nat.add_comm]

/-- A text may be cut behind as many bytes as a front part in ASCII has characters: the bytes in
front of the cut are those of the front part. -/
theorem isValid_of_ascii (hascii : ∀ c ∈ front, c.toNat < 128) (hfront : front <+: cs) :
    String.Pos.Raw.IsValid (String.ofList cs) ⟨front.length⟩ ∧
      (String.ofList cs).toByteArray.extract 0 front.length =
        (String.ofList front).toByteArray := by
  have hsize := utf8ByteSize_of_ascii hascii
  obtain ⟨rest, rfl⟩ := hfront
  rw [String.ofList_append, ← hsize]
  constructor
  · exact String.Pos.Raw.isValid_iff_exists_append.mpr ⟨_, _, rfl, rfl⟩
  · rw [String.toByteArray_append]
    exact ByteArray.extract_append_eq_left String.size_toByteArray.symm

/-! ## Casts of texts -/

/-- **A text is cast to the number that its longest front part spells**, behind blanks. That part is
in ASCII, so that the text may be cut behind as many bytes as it has characters, and what is cut off
is always read. Where no front part spells a number, nothing is cut off and zero is the answer. -/
theorem leadingFloat_reads_longest :
    (∀ cs, (Decimal.float? cs).isSome ↔ IsNumber cs ∨ Signed IsNonFinite cs) ∧
    (∀ cs slice, Decimal.floatSlice cs = some slice ↔ LongestFront IsNumber cs slice) ∧
    (∀ cs, Decimal.floatSlice cs = none ↔ ∀ front, front <+: cs → ¬ IsNumber front) ∧
    (∀ cs slice, Decimal.floatSlice cs = some slice →
      (∀ c ∈ slice, c.toNat < 128) ∧
      String.Pos.Raw.IsValid (String.ofList cs) ⟨slice.length⟩ ∧
      (String.ofList cs).toByteArray.extract 0 slice.length =
        (String.ofList slice).toByteArray) ∧
    ∀ text : String,
      (∀ slice, Decimal.floatSlice (Text.stripStart text.toList) = some slice →
        Decimal.float? slice = some (leadingFloat text)) ∧
      (Decimal.floatSlice (Text.stripStart text.toList) = none → leadingFloat text = 0) := by
  have hfinds := Decimal.findsLongest_floatSlice
  refine ⟨fun cs => Decimal.isSome_float?_iff, fun cs slice => hfinds.eq_some_iff,
    fun cs => hfinds.eq_none_iff, fun cs slice hslice => ?_, fun text => ⟨fun slice hslice => ?_,
    fun hnone => ?_⟩⟩
  · obtain ⟨hfront, hnumber⟩ := hfinds.sound hslice
    exact ⟨hnumber.ascii, isValid_of_ascii hnumber.ascii hfront⟩
  · obtain ⟨-, hnumber⟩ := hfinds.sound hslice
    obtain ⟨x, hx⟩ := Option.isSome_iff_exists.mp (Decimal.isSome_float?_iff.mpr (.inl hnumber))
    simp only [leadingFloat, hslice, hx, Option.getD_some]
  · rw [leadingFloat, hnone]

/-- An exponent without digits is left where it stands, with what follows it; and a point alone is
no number. -/
theorem leadingFloat_reads_longest_without_exponent :
    Decimal.floatSlice (Text.stripStart "\t -2.e+µ".toList) = some "-2.".toList ∧
      LongestFront IsNumber "-2.e+µ".toList "-2.".toList ∧
      String.Pos.Raw.IsValid (String.ofList "-2.e+µ".toList) ⟨3⟩ ∧
      Decimal.float? "-2.".toList = some (leadingFloat "\t -2.e+µ") ∧
      Decimal.floatSlice (Text.stripStart "+.e5".toList) = none ∧ leadingFloat "+.e5" = 0 := by
  obtain ⟨-, hsome, -, hcut, hcast⟩ := leadingFloat_reads_longest
  have hslice : Decimal.floatSlice "-2.e+µ".toList = some "-2.".toList := by decide +kernel
  have hnumber : Decimal.floatSlice (Text.stripStart "\t -2.e+µ".toList) = some "-2.".toList := by
    decide +kernel
  have hpoint : Decimal.floatSlice (Text.stripStart "+.e5".toList) = none := by decide +kernel
  exact ⟨hnumber, (hsome _ _).mp hslice, (hcut _ _ hslice).2.1, (hcast _).1 _ hnumber, hpoint,
    (hcast _).2 hpoint⟩

end SelectQuery
