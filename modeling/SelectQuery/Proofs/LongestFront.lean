import Mathlib.Data.List.Infix
import SelectQuery.Decimal.Reading

/-!
# Longest front parts

Numbers are read off the front of a text by the longest front part that spells one.

* `LongestFront`: the longest front part of a text with a property;
* `FindsLongest`: a reader that finds it wherever one is there;
* `FindsLongest.eq_some_iff`, `FindsLongest.eq_none_iff`: what such a reader finds, and when nothing;
* `Signed`, `signed_iff`: an optional sign in front;
* `FindsLongest.signed`: a reader for texts without a sign, behind an optional sign.
-/

namespace SelectQuery

/-- The longest front part of a text with a property. -/
structure LongestFront (P : List Char → Prop) (cs front : List Char) : Prop where
  isPrefix : front <+: cs
  holds : P front
  longest : ∀ other, other <+: cs → P other → other.length ≤ front.length

theorem LongestFront.unique {P : List Char → Prop} {cs front other : List Char}
    (h : LongestFront P cs front) (hother : LongestFront P cs other) : front = other := by
  have hle := hother.longest front h.isPrefix h.holds
  have hge := h.longest other hother.isPrefix hother.holds
  exact (List.prefix_of_prefix_length_le h.isPrefix hother.isPrefix hle).eq_of_length
    (Nat.le_antisymm hle hge)

/-- A reader that finds the longest front part with a property wherever one is there. -/
structure FindsLongest (P : List Char → Prop) (read : List Char → Option (List Char)) : Prop where
  sound : ∀ {cs slice}, read cs = some slice → slice <+: cs ∧ P slice
  complete : ∀ {cs front}, P front → front <+: cs →
    ∃ slice, read cs = some slice ∧ front.length ≤ slice.length

namespace FindsLongest

variable {P : List Char → Prop} {read : List Char → Option (List Char)} {cs slice : List Char}

theorem eq_some_iff (h : FindsLongest P read) :
    read cs = some slice ↔ LongestFront P cs slice := by
  have hlongest {found : List Char} (hfound : read cs = some found) : LongestFront P cs found := by
    obtain ⟨hfront, hholds⟩ := h.sound hfound
    refine ⟨hfront, hholds, fun other hother hP => ?_⟩
    obtain ⟨best, hbest, hle⟩ := h.complete hP hother
    rwa [Option.some.inj (hbest.symm.trans hfound)] at hle
  refine ⟨hlongest, fun hslice => ?_⟩
  obtain ⟨found, hfound, -⟩ := h.complete hslice.holds hslice.isPrefix
  rw [hfound, (hlongest hfound).unique hslice]

theorem eq_none_iff (h : FindsLongest P read) :
    read cs = none ↔ ∀ front, front <+: cs → ¬ P front := by
  constructor
  · intro hnone front hfront hP
    obtain ⟨slice, hslice, -⟩ := h.complete hP hfront
    simp [hnone] at hslice
  · intro hmissing
    refine Option.eq_none_iff_forall_ne_some.mpr fun slice hslice => ?_
    obtain ⟨hfront, hholds⟩ := h.sound hslice
    exact hmissing slice hfront hholds

end FindsLongest

/-! ## Signs -/

/-- An optional sign in front of a text with a property. -/
inductive Signed (P : List Char → Prop) : List Char → Prop
  | unsigned {cs : List Char} (h : P cs) : Signed P cs
  | signed {sign : Char} (hsign : sign = '+' ∨ sign = '-') {cs : List Char} (h : P cs) :
      Signed P (sign :: cs)

/-- No text with the property is empty or begins with a sign. -/
def Signless (P : List Char → Prop) : Prop := ∀ cs, P cs → ∃ c ∈ cs.head?, ¬ (c = '+' ∨ c = '-')

section

variable {P : List Char → Prop}

theorem Decimal.takeSign_of_signless (hP : Signless P) {front cs : List Char} (h : P front)
    (hfront : front <+: cs) : takeSign cs = ([], cs) := by
  obtain ⟨c, hc, hunsigned⟩ := hP front h
  rcases takeSign_eq_or cs with htake | ⟨sign, rest, hsign, rfl, -⟩
  · exact htake
  · obtain ⟨more, rfl⟩ := List.head?_eq_some_iff.mp hc
    exact absurd ((List.cons_prefix_cons.mp hfront).1 ▸ hsign) hunsigned

theorem signed_iff (hP : Signless P) {cs : List Char} :
    Signed P cs ↔ P (Decimal.takeSign cs).2 := by
  constructor
  · rintro (h | ⟨hsign, h⟩)
    · rwa [Decimal.takeSign_of_signless hP h List.prefix_rfl]
    · rwa [Decimal.takeSign_sign hsign]
  · rcases Decimal.takeSign_eq_or cs with htake | ⟨sign, rest, hsign, rfl, htake⟩
    · rw [htake]
      exact .unsigned
    · rw [htake]
      exact .signed hsign

/-- A reader for texts without a sign, behind an optional sign. -/
theorem FindsLongest.signed {read : List Char → Option (List Char)} (h : FindsLongest P read)
    (hP : Signless P) : FindsLongest (Signed P) fun cs =>
      (read (Decimal.takeSign cs).2).map ((Decimal.takeSign cs).1 ++ ·) where
  sound {cs slice} hslice := by
    obtain ⟨found, hfound, rfl⟩ := Option.map_eq_some_iff.mp hslice
    obtain ⟨hfront, hholds⟩ := h.sound hfound
    rcases Decimal.takeSign_eq_or cs with htake | ⟨sign, rest, hsign, rfl, htake⟩
    · rw [htake] at hfront ⊢
      exact ⟨hfront, .unsigned hholds⟩
    · rw [htake] at hfront ⊢
      exact ⟨(List.prefix_cons_inj sign).mpr hfront, .signed hsign hholds⟩
  complete {cs front} hholds hfront := by
    cases hholds with
    | unsigned hholds =>
      obtain ⟨slice, hslice, hle⟩ := h.complete hholds hfront
      rw [Decimal.takeSign_of_signless hP hholds hfront]
      exact ⟨slice, by simp [hslice], hle⟩
    | @signed sign hsign front hholds =>
      obtain ⟨rest, rfl⟩ := hfront
      obtain ⟨slice, hslice, hle⟩ := h.complete hholds (List.prefix_append front rest)
      rw [List.cons_append, Decimal.takeSign_sign hsign]
      exact ⟨sign :: slice, by simp [hslice], Nat.succ_le_succ hle⟩

end

end SelectQuery
