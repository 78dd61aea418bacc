import SelectQuery.Proofs.Mention

/-!
# Where a text mentions a name

A mention of a name has a dot behind it. The search for bare mentions goes on behind each place
where it has found the name and the dot, so it never looks at a place that overlaps with an earlier
one. Nothing is missed if the name has no dot of its own: two such places do not overlap then.

* `NameChar`: the characters of names that need no quotes;
* `MentionsName`: the texts that mention a name;
* `StandsAsName`, `occursAsName_iff`: the places where a name may begin, and the search for them;
* **`references_iff_mentionsName`**: a mention is found if and only if there is one.
-/

namespace SelectQuery

/-- The characters of names that need no quotes. -/
def NameChar (c : Char) : Prop :=
  'A' ≤ c ∧ c ≤ 'Z' ∨ 'a' ≤ c ∧ c ≤ 'z' ∨ '0' ≤ c ∧ c ≤ '9' ∨ c = '_'

instance (c : Char) : Decidable (NameChar c) := inferInstanceAs (Decidable (_ ∨ _))

/-- A text mentions a name with a dot behind it: between quote symbols, or bare at the start of the
text or behind a character that no name goes on with. -/
inductive MentionsName (symbol : Char) (name : String) : String → Prop
  | quoted (before after : String) :
      MentionsName symbol name
        (before ++ String.singleton symbol ++ name ++ String.singleton symbol ++ "." ++ after)
  | bare {before : String} (h : ∀ c ∈ before.toList.getLast?, ¬ NameChar c) (after : String) :
      MentionsName symbol name (before ++ name ++ "." ++ after)

theorem beginsName_iff {before : Option Char} :
    beginsName before = true ↔ ∀ c ∈ before, ¬ NameChar c := by
  cases before with
  | none => simp [beginsName]
  | some c =>
    have hrange : ∀ {p q : Prop} [Decidable p] [Decidable q],
        (decide p && decide q) = true ↔ p ∧ q := by simp
    have hupper : c.isUpper = true ↔ 'A' ≤ c ∧ c ≤ 'Z' := decide_eq_true_iff
    have hlower : c.isLower = true ↔ 'a' ≤ c ∧ c ≤ 'z' := hrange
    have hdigit : c.isDigit = true ↔ '0' ≤ c ∧ c ≤ '9' := hrange
    have hname : c.isAlphanum = (c.isUpper || c.isLower || c.isDigit) := rfl
    simp only [beginsName, hname, Bool.not_eq_true', ← Bool.not_eq_true, Bool.or_eq_true, hupper,
      hlower, hdigit, decide_eq_true_eq, NameChar, Option.mem_def, Option.some_inj, forall_eq',
      or_assoc]

/-! ## Places where a name may begin -/

/-- Some characters stand in a text where a name may begin; `before` is the character in front of
the text. -/
def StandsAsName (needle : List Char) (before : Option Char) (text : List Char) : Prop :=
  ∃ front back, text = front ++ (needle ++ back) ∧ beginsName (front.getLast?.or before) = true

variable {name needle text : List Char} {before : Option Char}

theorem standsAsName_cons_iff {c : Char} :
    StandsAsName needle before (c :: text) ↔
      needle <+: c :: text ∧ beginsName before = true ∨ StandsAsName needle (some c) text := by
  constructor
  · rintro ⟨front, back, heq, hbegins⟩
    cases front with
    | nil => exact .inl ⟨⟨back, heq.symm⟩, hbegins⟩
    | cons d front =>
      obtain ⟨rfl, rfl⟩ := List.cons_eq_cons.mp heq
      refine .inr ⟨front, back, rfl, ?_⟩
      rwa [List.getLast?_cons, Option.some_or, ← Option.or_some] at hbegins
  · rintro (⟨⟨back, heq⟩, hbegins⟩ | ⟨front, back, rfl, hbegins⟩)
    · exact ⟨[], back, heq.symm, hbegins⟩
    · refine ⟨c :: front, back, rfl, ?_⟩
      rwa [List.getLast?_cons, Option.some_or, ← Option.or_some]

/-! ## The search -/

theorem occursAsName_append (needle front rest : List Char) (before : Option Char) :
    occursAsName needle front.length before (front ++ rest) =
      occursAsName needle 0 (front.getLast?.or before) rest := by
  induction front generalizing before with
  | nil => rfl
  | cons c front ih =>
    rw [List.length_cons, List.cons_append, occursAsName, ih, List.getLast?_cons, Option.some_or,
      Option.or_some]

/-- **Two places of a name and a dot do not overlap** if the name has no dot. -/
theorem eq_nil_or_append_of_append_eq (hdot : '.' ∉ name) {front back after : List Char}
    (h : name ++ '.' :: back = front ++ (name ++ '.' :: after)) :
    front = [] ∨ ∃ more, front = name ++ '.' :: more ∧ back = more ++ (name ++ '.' :: after) := by
  rcases List.append_eq_append_iff.mp h with ⟨more, rfl, heq⟩ | ⟨shared, hname, heq⟩
  · cases more with
    | nil =>
      -- the name would start with the dot
      cases name with
      | nil => exact .inl rfl
      | cons c name =>
        obtain ⟨rfl, -⟩ := List.cons_eq_cons.mp heq
        exact absurd List.mem_cons_self hdot
    | cons c more =>
      obtain ⟨rfl, rfl⟩ := List.cons_eq_cons.mp heq
      exact .inr ⟨more, rfl, rfl⟩
  · -- the first dot ends both
    have hshared : '.' ∉ shared := fun hmem => hdot (hname ▸ List.mem_append_right _ hmem)
    have hcut := Text.cutFirst_append_cons hdot after
    rw [heq, Text.cutFirst_append_cons hshared back] at hcut
    cases hcut
    exact .inl (List.append_left_eq_self.mp hname.symm)

theorem standsAsName_append_iff (hdot : '.' ∉ name) {back : List Char} :
    StandsAsName (name ++ ['.']) before (name ++ '.' :: back) ↔
      beginsName before = true ∨ StandsAsName (name ++ ['.']) (some '.') back := by
  constructor
  · rintro ⟨front, after, heq, hbegins⟩
    rw [List.append_assoc, List.singleton_append] at heq
    rcases eq_nil_or_append_of_append_eq hdot heq with rfl | ⟨more, rfl, rfl⟩
    · exact .inl hbegins
    · refine .inr ⟨more, after, by simp, ?_⟩
      rwa [List.getLast?_append, List.getLast?_cons, Option.some_or, Option.some_or,
        ← Option.or_some] at hbegins
  · rintro (hbegins | ⟨front, after, rfl, hbegins⟩)
    · exact ⟨[], back, by simp, hbegins⟩
    · refine ⟨name ++ '.' :: front, after, by simp, ?_⟩
      rwa [List.getLast?_append, List.getLast?_cons, Option.some_or, Option.some_or,
        ← Option.or_some]

theorem occursAsName_behind {c last : Char} {rest back : List Char}
    (hlast : needle.getLast? = some last) (heq : needle ++ back = c :: rest) :
    occursAsName needle (needle.length - 1) (some c) rest =
      occursAsName needle 0 (some last) back := by
  cases needle with
  | nil => cases hlast
  | cons d tail =>
    rw [List.cons_append] at heq
    obtain ⟨rfl, rfl⟩ := List.cons_eq_cons.mp heq
    rw [List.length_cons, Nat.add_sub_cancel, occursAsName_append, Option.or_some,
      ← List.getLast?_cons, hlast]

/-- **The search finds a name** with a dot behind it wherever it stands, if it has no dot itself. -/
theorem occursAsName_iff (hdot : '.' ∉ name) :
    occursAsName (name ++ ['.']) 0 before text = true ↔
      StandsAsName (name ++ ['.']) before text := by
  induction hlength : text.length using Nat.strong_induction_on generalizing text before with
  | _ n ih =>
    cases text with
    | nil =>
      refine iff_of_false (by simp [occursAsName]) ?_
      rintro ⟨front, back, heq, -⟩
      simp at heq
    | cons c rest =>
      rw [occursAsName]
      split
      next hhere =>
        -- the search goes on behind the dot
        obtain ⟨back, heq⟩ := List.isPrefixOf_iff_prefix.mp hhere
        have hlast : (name ++ ['.']).getLast? = some '.' := by simp
        have hshorter : back.length < n := by
          have := congrArg List.length heq
          simp only [List.length_append, List.length_singleton] at this
          omega
        rw [occursAsName_behind hlast heq, Bool.or_eq_true, ih _ hshorter rfl, ← heq,
          List.append_assoc, List.singleton_append, standsAsName_append_iff hdot]
      next hhere =>
        have hshorter : rest.length < n := by
          rw [← hlength]
          exact Nat.lt_succ_self _
        rw [ih _ hshorter rfl, standsAsName_cons_iff,
          or_iff_right fun h => hhere (List.isPrefixOf_iff_prefix.mpr h.1)]

/-! ## Mentions -/

theorem mentionsName_iff {symbol : Char} {name text : String} :
    MentionsName symbol name text ↔
      symbol :: (name.toList ++ [symbol, '.']) <:+: text.toList ∨
        StandsAsName (name.toList ++ ['.']) none text.toList := by
  constructor
  · rintro (⟨before, after⟩ | @⟨before, h, after⟩)
    · exact .inl ⟨before.toList, after.toList, by simp [String.toList_append]⟩
    · have htext : (before ++ name ++ "." ++ after).toList =
          before.toList ++ ((name.toList ++ ['.']) ++ after.toList) := by
        simp [String.toList_append]
      refine .inr ⟨before.toList, after.toList, htext, ?_⟩
      rwa [Option.or_none, beginsName_iff]
  · rintro (⟨before, after, heq⟩ | ⟨before, after, heq, hbegins⟩)
    · have htext : text = String.ofList before ++ String.singleton symbol ++ name ++
          String.singleton symbol ++ "." ++ String.ofList after := by
        rw [← String.toList_inj, ← heq]
        simp [String.toList_append]
      rw [htext]
      exact .quoted _ _
    · have htext : text = String.ofList before ++ name ++ "." ++ String.ofList after := by
        rw [← String.toList_inj, heq]
        simp [String.toList_append]
      rw [htext]
      refine .bare ?_ _
      rw [Option.or_none, beginsName_iff] at hbegins
      rwa [String.toList_ofList]

/-- **A mention of a name is found if and only if there is one**, for a name without a dot. -/
theorem references_iff_mentionsName {symbol : Char} {name text : String} (hname : name ≠ "")
    (hdot : '.' ∉ name.toList) :
    references symbol name text = true ↔ MentionsName symbol name text := by
  have hne : name.toList.isEmpty = false := by simpa using hname
  simp only [references, hne, Bool.not_false, Bool.true_and, Bool.or_eq_true]
  rw [mentionsName_iff, Text.occursIn_iff, occursAsName_iff hdot]

/-- Places behind a letter, an underscore and a digit come first, and one between the quote symbols
of another dialect. -/
theorem references_iff_mentionsName_behind_others :
    let text := "or.x = _r.y AND \x60r\x60.é <> 2r.z OR er.r.v"
    "r" ≠ "" ∧ '.' ∉ "r".toList ∧ references '"' "r" text = true ∧ MentionsName '"' "r" text ∧
      ¬ MentionsName '\x60' "r" "or.x = _r.y AND \x60r\x60 > r" := by
  intro text
  have hname : "r" ≠ "" := by decide
  have hdot : '.' ∉ "r".toList := by decide
  have hfound : references '"' "r" text = true := by decide +kernel
  have hnone : references '\x60' "r" "or.x = _r.y AND \x60r\x60 > r" = false := by decide +kernel
  refine ⟨hname, hdot, hfound, (references_iff_mentionsName hname hdot).mp hfound, fun h => ?_⟩
  rw [(references_iff_mentionsName hname hdot).mpr h] at hnone
  cases hnone

/-- With a dot in the name, a mention may overlap with a place where no name begins. -/
example : MentionsName '"' "a.a" "xa.a.a." ∧ references '"' "a.a" "xa.a.a." = false := by
  have h : MentionsName '"' "a.a" ("xa." ++ "a.a" ++ "." ++ "") :=
    .bare (beginsName_iff.mp (by decide)) ""
  exact ⟨h, by decide +kernel⟩

end SelectQuery
