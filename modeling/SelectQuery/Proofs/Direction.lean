import Mathlib.Data.List.DropRight
import Mathlib.Data.List.Forall2
import SelectQuery.Proofs.Alias
import SelectQuery.Statement.Suffix

/-!
# Directions in the text of a term

The last `ASC` or `DESC` that stands as a word of its own behind something is taken for the
direction of the term. It need not be the last word: what follows it is lost.

* `Spells`, `wordDirection`: the words for a direction, and the direction that one is read as;
* `directionWord?_eq_some_iff`: the texts that start with such a word;
* `DirectionAt`, `LastDirection`: where such a word stands in a text, and the last one;
* `not_directionAt_of_cutDirection`, `exists_lastDirection_of_cutDirection`: where a text is cut;
* `KeepsText`: a value and a direction that lose nothing of a text;
* `keepsText_iff_of_lastDirection`: what follows the last direction is what is lost;
* **`splitDirection_keepsText`**: the value and the direction of every term, and whether they lose
  anything of it.
-/

namespace SelectQuery

open Text (isBlank isWord strip stripStart stripEnd)

/-! ## Words for a direction -/

/-- A capital letter in either case. The long s is an s as well. -/
def IsCaseOf (capital c : Char) : Prop :=
  c = capital ∨ c = capital.toLower ∨ capital = 'S' ∧ c = '\u017f'

instance (capital c : Char) : Decidable (IsCaseOf capital c) :=
  inferInstanceAs (Decidable (_ ∨ _))

/-- A word is the keyword of a direction when case does not matter. -/
def Spells (word : List Char) (direction : Direction) : Prop :=
  List.Forall₂ IsCaseOf direction.keyword.toList word

/-- The direction that a word is read as: a long s is no s here. -/
def wordDirection (word : List Char) : Direction :=
  if word.map Char.toLower = "desc".toList then .descending else .ascending

variable {cs before word after more rest : List Char} {direction other : Direction} {c : Char}

theorem spells_ascending_iff :
    Spells word .ascending ↔
      ∃ a s c, word = [a, s, c] ∧ IsCaseOf 'A' a ∧ IsCaseOf 'S' s ∧ IsCaseOf 'C' c := by
  constructor
  · rintro (_ | ⟨ha, _ | ⟨hs, _ | ⟨hc, ⟨⟩⟩⟩⟩)
    exact ⟨_, _, _, rfl, ha, hs, hc⟩
  · rintro ⟨a, s, c, rfl, ha, hs, hc⟩
    exact .cons ha (.cons hs (.cons hc .nil))

theorem spells_descending_iff :
    Spells word .descending ↔ ∃ d e s c, word = [d, e, s, c] ∧
      IsCaseOf 'D' d ∧ IsCaseOf 'E' e ∧ IsCaseOf 'S' s ∧ IsCaseOf 'C' c := by
  constructor
  · rintro (_ | ⟨hd, _ | ⟨he, _ | ⟨hs, _ | ⟨hc, ⟨⟩⟩⟩⟩⟩)
    exact ⟨_, _, _, _, rfl, hd, he, hs, hc⟩
  · rintro ⟨d, e, s, c, rfl, hd, he, hs, hc⟩
    exact .cons hd (.cons he (.cons hs (.cons hc .nil)))

theorem isCaseOf_iff_isLetter (letter : Char) (hs : letter.toUpper ≠ 'S')
    (hlower : letter.toUpper.toLower = letter) :
    IsCaseOf letter.toUpper c ↔ isLetter letter c = true := by
  simp [IsCaseOf, isLetter, hs, hlower, or_comm]

theorem isCaseOf_iff_isLetterS : IsCaseOf 'S' c ↔ isLetterS c = true := by
  simp only [IsCaseOf, isLetterS, Bool.or_eq_true, decide_eq_true_eq]
  tauto

theorem isBlank_of_isCaseOf {capital : Char} (h : IsCaseOf capital c)
    (hcapital : isBlank capital = false) (hlower : isBlank capital.toLower = false) :
    isBlank c = false := by
  rcases h with rfl | rfl | ⟨-, rfl⟩
  · exact hcapital
  · exact hlower
  · rfl

theorem Spells.isBlank_eq_false (h : Spells word direction) : ∀ c ∈ word, isBlank c = false := by
  cases direction with
  | ascending =>
    obtain ⟨a, s, c, rfl, ha, hs, hc⟩ := spells_ascending_iff.mp h
    simp only [List.forall_mem_cons]
    exact ⟨isBlank_of_isCaseOf ha rfl rfl, isBlank_of_isCaseOf hs rfl rfl,
      isBlank_of_isCaseOf hc rfl rfl, List.forall_mem_nil _⟩
  | descending =>
    obtain ⟨d, e, s, c, rfl, hd, he, hs, hc⟩ := spells_descending_iff.mp h
    simp only [List.forall_mem_cons]
    exact ⟨isBlank_of_isCaseOf hd rfl rfl, isBlank_of_isCaseOf he rfl rfl,
      isBlank_of_isCaseOf hs rfl rfl, isBlank_of_isCaseOf hc rfl rfl, List.forall_mem_nil _⟩

theorem Spells.ne_nil (h : Spells word direction) : word ≠ [] := by
  rintro rfl
  cases direction <;> cases h

theorem Spells.eq_of_head?_eq (h : Spells word direction) (hmore : Spells more other)
    (heq : word.head? = more.head?) : direction = other := by
  have hfirst : ∀ first : Char, ¬ (IsCaseOf 'A' first ∧ IsCaseOf 'D' first) := by
    rintro first ⟨rfl | rfl | ⟨hs, -⟩, hd⟩
    · exact absurd hd (by decide)
    · exact absurd hd (by decide)
    · cases hs
  cases direction <;> cases other
  · rfl
  · obtain ⟨a, _, _, rfl, ha, -⟩ := spells_ascending_iff.mp h
    obtain ⟨d, _, _, _, rfl, hd, -⟩ := spells_descending_iff.mp hmore
    cases heq
    exact absurd ⟨ha, hd⟩ (hfirst a)
  · obtain ⟨d, _, _, _, rfl, hd, -⟩ := spells_descending_iff.mp h
    obtain ⟨a, _, _, rfl, ha, -⟩ := spells_ascending_iff.mp hmore
    cases heq
    exact absurd ⟨ha, hd⟩ (hfirst d)
  · rfl

theorem Spells.append_inj (h : Spells word direction) (hmore : Spells more other)
    (heq : word ++ after = more ++ rest) : word = more ∧ after = rest := by
  have hhead := congrArg List.head? heq
  rw [List.head?_append_of_ne_nil _ h.ne_nil, List.head?_append_of_ne_nil _ hmore.ne_nil] at hhead
  obtain rfl := h.eq_of_head?_eq hmore hhead
  have hlength : word.length = more.length :=
    (List.Forall₂.length_eq h).symm.trans (List.Forall₂.length_eq hmore)
  exact List.append_inj heq hlength

theorem wordDirection_of_spells_ascending (h : Spells word .ascending) :
    wordDirection word = .ascending := by
  obtain ⟨a, s, c, rfl, -⟩ := spells_ascending_iff.mp h
  simp [wordDirection]

theorem toLower_of_isCaseOf {capital : Char} (h : IsCaseOf capital c) (hs : capital ≠ 'S')
    (hlower : capital.toLower.toLower = capital.toLower) : c.toLower = capital.toLower := by
  rcases h with rfl | rfl | ⟨hcapital, -⟩
  · rfl
  · exact hlower
  · exact absurd hcapital hs

/-- With a long s, the word for descending is read as ascending. -/
theorem wordDirection_of_spells_descending {d e s c : Char} (h : Spells [d, e, s, c] .descending) :
    wordDirection [d, e, s, c] = if s = '\u017f' then .ascending else .descending := by
  obtain ⟨_, _, _, _, heq, hd, he, hs, hc⟩ := spells_descending_iff.mp h
  cases heq
  have hmap : [d, e, s, c].map Char.toLower = ['d', 'e', s.toLower, 'c'] := by
    simp only [List.map_cons, List.map_nil, toLower_of_isCaseOf hd (by decide) rfl,
      toLower_of_isCaseOf he (by decide) rfl, toLower_of_isCaseOf hc (by decide) rfl]
    rfl
  rw [wordDirection, hmap]
  rcases hs with rfl | rfl | ⟨-, rfl⟩ <;> decide

theorem directionWord?_eq_some_iff {cs : List Char} :
    directionWord? cs = some direction ↔ ∃ word after, word ++ after = cs ∧
      (∃ meant, Spells word meant) ∧ endsWord after = true ∧ wordDirection word = direction := by
  have ha {c : Char} := isCaseOf_iff_isLetter (c := c) 'a' (by decide) (by decide)
  have hd {c : Char} := isCaseOf_iff_isLetter (c := c) 'd' (by decide) (by decide)
  have he {c : Char} := isCaseOf_iff_isLetter (c := c) 'e' (by decide) (by decide)
  have hc {c : Char} := isCaseOf_iff_isLetter (c := c) 'c' (by decide) (by decide)
  constructor
  · intro h
    unfold directionWord? at h
    split at h
    next a b c rest =>
      split at h
      next hasc =>
        simp only [Bool.and_eq_true, ← ha, ← hc, ← isCaseOf_iff_isLetterS] at hasc
        obtain ⟨⟨⟨h1, h2⟩, h3⟩, hend⟩ := hasc
        have hword : Spells [a, b, c] .ascending := .cons h1 (.cons h2 (.cons h3 .nil))
        cases h
        exact ⟨[a, b, c], rest, rfl, ⟨_, hword⟩, hend, wordDirection_of_spells_ascending hword⟩
      next hasc =>
        split at h
        next d rest =>
          split at h
          next hdesc =>
            simp only [Bool.and_eq_true, ← hd, ← he, ← hc, ← isCaseOf_iff_isLetterS] at hdesc
            obtain ⟨⟨⟨⟨h1, h2⟩, h3⟩, h4⟩, hend⟩ := hdesc
            have hword : Spells [a, b, c, d] .descending :=
              .cons h1 (.cons h2 (.cons h3 (.cons h4 .nil)))
            cases h
            exact ⟨[a, b, c, d], rest, rfl, ⟨_, hword⟩, hend,
              wordDirection_of_spells_descending hword⟩
          next => cases h
        next => cases h
    next => cases h
  · rintro ⟨word, after, rfl, ⟨meant, hword⟩, hend, rfl⟩
    cases meant with
    | ascending =>
      rw [wordDirection_of_spells_ascending hword]
      obtain ⟨a, s, c, rfl, h1, h2, h3⟩ := spells_ascending_iff.mp hword
      have h1 := ha.mp h1
      have h3 := hc.mp h3
      simp [directionWord?, h1, isCaseOf_iff_isLetterS.mp h2, h3, hend]
    | descending =>
      obtain ⟨d, e, s, c, rfl, h1, h2, h3, h4⟩ := spells_descending_iff.mp hword
      have hfirst : isLetter 'a' d = false := by
        rcases h1 with rfl | rfl | ⟨h, -⟩
        · rfl
        · rfl
        · cases h
      have h1 := hd.mp h1
      have h2 := he.mp h2
      have h4 := hc.mp h4
      rw [wordDirection_of_spells_descending hword]
      simp [directionWord?, hfirst, h1, h2, isCaseOf_iff_isLetterS.mp h3, h4, hend]

/-! ## Directions in a text -/

/-- A text is cut around a word for a direction, which is a word of its own and stands behind a
character that belongs to no word. -/
structure DirectionAt (cs before word after : List Char) : Prop where
  split : before ++ word ++ after = cs
  spelled : ∃ meant, Spells word meant
  boundary : ∃ c, before.getLast? = some c ∧ isWord c = false
  ends : endsWord after = true

/-- A text is cut around the last word for a direction. -/
structure LastDirection (cs before word after : List Char) : Prop
    extends DirectionAt cs before word after where
  last : ∀ front other back, DirectionAt cs front other back → front.length ≤ before.length

theorem directionAt_cons_iff :
    DirectionAt (c :: rest) before word after ↔
      (before = [c] ∧ isWord c = false ∧ word ++ after = rest ∧ (∃ meant, Spells word meant) ∧
        endsWord after = true) ∨
      ∃ front, before = c :: front ∧ DirectionAt rest front word after := by
  constructor
  · rintro ⟨hsplit, hspelled, hboundary, hends⟩
    cases before with
    | nil => simp at hboundary
    | cons first front =>
      obtain ⟨rfl, hrest⟩ := List.cons.inj hsplit
      cases front with
      | nil => exact .inl ⟨rfl, by simpa using hboundary, hrest, hspelled, hends⟩
      | cons next more =>
        rw [List.getLast?_cons_cons] at hboundary
        exact .inr ⟨next :: more, rfl, hrest, hspelled, hboundary, hends⟩
  · rintro (⟨rfl, hc, rfl, hspelled, hends⟩ | ⟨front, rfl, rfl, hspelled, ⟨x, hx, hword⟩, hends⟩)
    · exact ⟨rfl, hspelled, ⟨c, rfl, hc⟩, hends⟩
    · have hlast : (c :: front).getLast? = some x := by simp [List.getLast?_cons, hx]
      exact ⟨rfl, hspelled, ⟨x, hlast, hword⟩, hends⟩

theorem not_directionAt_of_cutDirection (h : cutDirection cs = none)
    (before word after : List Char) : ¬ DirectionAt cs before word after := by
  induction cs generalizing before with
  | nil =>
    rintro ⟨hsplit, -, ⟨c, hc, -⟩, -⟩
    simp only [List.append_eq_nil_iff] at hsplit
    simp [hsplit.1.1] at hc
  | cons c rest ih =>
    rw [cutDirection] at h
    split at h
    · cases h
    next hrest =>
      rw [directionAt_cons_iff]
      rintro (⟨-, hc, hsplit, hspelled, hends⟩ | ⟨front, -, hfront⟩)
      · have hword := directionWord?_eq_some_iff.mpr ⟨word, after, hsplit, hspelled, hends, rfl⟩
        rw [hc, hword] at h
        cases h
      · exact ih hrest front hfront

theorem exists_lastDirection_of_cutDirection (h : cutDirection cs = some (before, direction)) :
    ∃ word after, LastDirection cs before word after ∧ wordDirection word = direction := by
  induction cs generalizing before with
  | nil => cases h
  | cons c rest ih =>
    rw [cutDirection] at h
    split at h
    next front found hrest =>
      cases h
      obtain ⟨word, after, hlast, hword⟩ := ih hrest
      refine ⟨word, after, ⟨directionAt_cons_iff.mpr (.inr ⟨front, rfl, hlast.1⟩), ?_⟩, hword⟩
      intro front' other back hat
      rcases directionAt_cons_iff.mp hat with ⟨rfl, -⟩ | ⟨front', rfl, hfound⟩
      · simp
      · exact Nat.succ_le_succ (hlast.last _ _ _ hfound)
    next hrest =>
      split_ifs at h with hc
      obtain ⟨found, hfound, heq⟩ := Option.map_eq_some_iff.mp h
      cases heq
      obtain ⟨word, after, hsplit, hspelled, hends, hword⟩ := directionWord?_eq_some_iff.mp hfound
      have hc : isWord c = false := by simpa using hc
      refine ⟨word, after, ⟨directionAt_cons_iff.mpr (.inl ⟨rfl, hc, hsplit, hspelled, hends⟩), ?_⟩,
        hword⟩
      -- no direction stands behind this one
      intro front other back hat
      rcases directionAt_cons_iff.mp hat with ⟨rfl, -⟩ | ⟨front, -, hat⟩
      · exact Nat.le_refl _
      · exact absurd hat (not_directionAt_of_cutDirection hrest _ _ _)

/-! ## What is kept of a term -/

/-- A value and a direction lose nothing of a text: trimmed, it is the value alone, or the value
with a keyword of the direction at the very end, in any case. -/
def KeepsText (term : String) (value : String) (direction : Direction) : Prop :=
  Text.trim term = value ∧ direction = .ascending ∨
    ∃ front word, (Text.trim term).toList = front ++ word ∧
      Text.trim (String.ofList front) = value ∧ Spells word direction

theorem stripStart_blanks_append {blanks cs : List Char} (hblanks : ∀ c ∈ blanks, isBlank c = true)
    (h : ∀ c ∈ cs.head?, isBlank c = false) : stripStart (blanks ++ cs) = cs := by
  refine Eq.trans ?_ (Text.stripStart_eq_self_iff.mpr h)
  exact List.dropWhile_append_of_pos hblanks

theorem exists_blanks_of_stripEnd (cs : List Char) :
    ∃ blanks, stripEnd cs ++ blanks = cs ∧ ∀ c ∈ blanks, isBlank c = true :=
  ⟨cs.rtakeWhile isBlank, List.rdropWhile_append_rtakeWhile,
    fun _ hmem => List.mem_rtakeWhile_imp hmem⟩

theorem eq_of_stripEnd_eq {front other more rest : List Char}
    (hstrip : stripEnd front = stripEnd other) (heq : front ++ more = other ++ rest)
    (hmore : ∀ c ∈ more.head?, isBlank c = false) (hrest : ∀ c ∈ rest.head?, isBlank c = false) :
    more = rest := by
  obtain ⟨blanks, hfront, hblanks⟩ := exists_blanks_of_stripEnd front
  obtain ⟨spaces, hother, hspaces⟩ := exists_blanks_of_stripEnd other
  rw [← hfront, ← hother, hstrip, List.append_assoc, List.append_assoc,
    List.append_cancel_left_eq] at heq
  rw [← stripStart_blanks_append hblanks hmore, heq, stripStart_blanks_append hspaces hrest]

theorem Spells.head?_append (h : Spells word direction) (rest : List Char) :
    ∀ c ∈ (word ++ rest).head?, isBlank c = false := by
  intro c hc
  rw [List.head?_append_of_ne_nil _ h.ne_nil] at hc
  exact h.isBlank_eq_false c (List.mem_of_head? hc)

/-- **What follows the last direction is what is lost of a term**, and the direction is the one
that the word spells unless it has a long s. -/
theorem keepsText_iff_of_lastDirection {term : String} {before word after : List Char}
    (h : LastDirection term.toList before word after) :
    KeepsText term (String.ofList (strip before)) (wordDirection word) ↔
      (∀ c ∈ after, isBlank c = true) ∧ Spells word (wordDirection word) := by
  obtain ⟨meant, hword⟩ := h.spelled
  have hterm : (Text.trim term).toList = stripStart before ++ (word ++ stripEnd after) := by
    rw [Text.toList_trim, ← h.split, Text.strip_append hword.ne_nil hword.isBlank_eq_false,
      List.append_assoc]
  have hafter : stripEnd after = [] ↔ ∀ c ∈ after, isBlank c = true := List.rdropWhile_eq_nil_iff
  rw [← hafter]
  constructor
  · rintro (⟨hvalue, -⟩ | ⟨front, keyword, hsplit, hvalue, hkeyword⟩)
    · -- the word is part of the term, and not of its value
      have hprefix : strip before <+: stripStart before := List.rdropWhile_prefix isBlank _
      have hle := hprefix.length_le
      have hpos := List.length_pos_of_ne_nil hword.ne_nil
      have hlength := congrArg List.length hterm
      rw [hvalue, String.toList_ofList, List.length_append, List.length_append] at hlength
      omega
    · have htrimmed := Text.trimmed_strip term.toList
      rw [← Text.toList_trim, hsplit] at htrimmed
      have hfront : stripStart front = front := by
        refine Text.stripStart_eq_self_iff.mpr fun c hc => htrimmed.first c ?_
        rw [List.head?_append, Option.mem_def.mp hc]
        rfl
      have hstrip : strip front = strip before := by
        have hlist := String.ofList_injective hvalue
        rwa [String.toList_ofList] at hlist
      have hend : stripEnd (stripStart before) = stripEnd front := by
        rw [← hfront]
        exact hstrip.symm
      have heq := eq_of_stripEnd_eq hend (hterm.symm.trans hsplit) (hword.head?_append _)
        (by simpa using hkeyword.head?_append [])
      rw [← List.append_nil keyword] at heq
      obtain ⟨rfl, hnone⟩ := hword.append_inj hkeyword heq
      exact ⟨hnone, hkeyword⟩
  · rintro ⟨hnone, hspells⟩
    refine .inr ⟨stripStart before, word, by rw [hterm, hnone, List.append_nil], ?_, hspells⟩
    have hidem : stripStart (stripStart before) = stripStart before :=
      List.dropWhile_idempotent isBlank before
    rw [Text.trim, String.toList_ofList, strip, hidem, strip]

/-- **The value and the direction of a term.** Without a direction the term is its own value.
Otherwise it is cut in front of the last one, and it is kept exactly if nothing but blanks follows
and the word is read as the direction that it spells. -/
theorem splitDirection_keepsText (term : String) :
    ((∀ before word after, ¬ DirectionAt term.toList before word after) ∧
      splitDirection term = (Text.trim term, .ascending) ∧
      KeepsText term (splitDirection term).1 (splitDirection term).2) ∨
    ∃ before word after, LastDirection term.toList before word after ∧
      splitDirection term = (String.ofList (strip before), wordDirection word) ∧
      (KeepsText term (splitDirection term).1 (splitDirection term).2 ↔
        (∀ c ∈ after, isBlank c = true) ∧ Spells word (wordDirection word)) := by
  cases hcut : cutDirection term.toList with
  | none =>
    have hsplit : splitDirection term = (Text.trim term, .ascending) := by
      rw [splitDirection, hcut]
    exact .inl ⟨not_directionAt_of_cutDirection hcut, hsplit, by rw [hsplit]; exact .inl ⟨rfl, rfl⟩⟩
  | some found =>
    obtain ⟨before, direction⟩ := found
    obtain ⟨word, after, hlast, rfl⟩ := exists_lastDirection_of_cutDirection hcut
    have hsplit : splitDirection term = (String.ofList (strip before), wordDirection word) := by
      rw [splitDirection, hcut]
    refine .inr ⟨before, word, after, hlast, hsplit, ?_⟩
    rw [hsplit]
    exact keepsText_iff_of_lastDirection hlast

/-- What is said about nulls behind the direction is lost. -/
theorem nulls_last_lost :
    let term := "created_at DESC NULLS LAST"
    splitDirection term = ("created_at", .descending) ∧
      ¬ KeepsText term (splitDirection term).1 (splitDirection term).2 := by
  intro term
  have hsplit : splitDirection term = ("created_at", .descending) := by decide +kernel
  refine ⟨hsplit, ?_⟩
  rw [hsplit]
  rintro (⟨-, h⟩ | ⟨front, word, heq, -, hword⟩)
  · cases h
  · obtain ⟨d, e, s, c, rfl, -, -, -, hc⟩ := spells_descending_iff.mp hword
    have hlast := congrArg List.getLast? heq
    have hterm : (Text.trim term).toList.getLast? = some 'T' := by decide +kernel
    rw [hterm, List.getLast?_append] at hlast
    cases hlast
    exact absurd hc (by decide)

end SelectQuery
