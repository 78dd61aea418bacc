import SelectQuery.Dialect.Name

/-!
# Texts that close their quotes

A database reads a text one character after the other and always knows whether it is in a string, in
a quoted name, or in neither. A text is **closed** when it leads from neither back to neither.

* `intercalate_of_append`: what appending keeps is kept where texts are joined;
* `Lexicon`, `Config.Family.lexicon`: which characters a database reads as quotes;
* `Lexicon.step`, `Lexicon.scan`: the reading;
* `Lexicon.Closed`: closed texts, and how they are put together;
* `closed_of_plain`: a text without quotes is closed;
* `closed_quoteName`, `closed_write`: quoted names and identifiers are closed, whatever characters
  they have.
-/

namespace SelectQuery

theorem intercalate_of_append {P : String → Prop} (hempty : P "")
    (happend : ∀ {text more : String}, P text → P more → P (text ++ more)) {separator : String}
    {texts : List String} (hs : P separator) (h : ∀ text ∈ texts, P text) :
    P (separator.intercalate texts) := by
  induction texts with
  | nil => exact hempty
  | cons text rest ih =>
    obtain ⟨htext, hrest⟩ := List.forall_mem_cons.mp h
    cases rest with
    | nil =>
      rw [String.intercalate_singleton]
      exact htext
    | cons next more =>
      rw [String.intercalate_cons_cons]
      exact happend (happend htext hs) (ih hrest)

/-- Where a reader of SQL stands. -/
inductive LexState where
  /-- In neither a string nor a quoted name. -/
  | outside
  /-- In a quoted name. -/
  | name
  | string (delimiter : Char)
  /-- In a string, behind a backslash. -/
  | escaped (delimiter : Char)
  deriving DecidableEq, Repr

/-- The characters that a database reads as quotes. -/
structure Lexicon where
  /-- Stands around quoted names. -/
  symbol : Char
  /-- Stand around strings. -/
  delimiters : List Char
  /-- Whether a backslash in a string takes the next character with it. -/
  backslash : Bool
  deriving DecidableEq, Repr

/-- The quotes of PostgreSQL and of MySQL. -/
def Config.Family.lexicon : Config.Family → Lexicon
  | postgres => ⟨'"', ['\''], false⟩
  | mysql => ⟨'\x60', ['\'', '"'], true⟩

namespace Lexicon

variable (l : Lexicon)

/-- Where the reader stands behind one more character. -/
def step : LexState → Char → LexState
  | .outside, c =>
    if c = l.symbol then .name
    else if l.delimiters.contains c then .string c
    else .outside
  | .name, c => if c = l.symbol then .outside else .name
  | .string delimiter, c =>
    if c = delimiter then .outside
    else if l.backslash && c = '\\' then .escaped delimiter
    else .string delimiter
  | .escaped delimiter, _ => .string delimiter

/-- Where the reader stands behind a text. -/
def scan (state : LexState) (text : List Char) : LexState := text.foldl l.step state

/-- A text that leads from neither a string nor a quoted name back to neither. -/
def Closed (text : String) : Prop := l.scan .outside text.toList = .outside

instance (text : String) : Decidable (l.Closed text) :=
  inferInstanceAs (Decidable (_ = _))

variable {l}

/-! ## Closed texts together -/

theorem scan_append (state : LexState) (text more : List Char) :
    l.scan state (text ++ more) = l.scan (l.scan state text) more := by
  simp [scan]

theorem closed_empty : l.Closed "" := rfl

theorem Closed.append {text more : String} (h : l.Closed text) (hmore : l.Closed more) :
    l.Closed (text ++ more) := by
  unfold Closed at h hmore ⊢
  rw [String.toList_append, scan_append, h, hmore]

theorem closed_join {texts : List String} (h : ∀ text ∈ texts, l.Closed text) :
    l.Closed (String.join texts) := by
  induction texts with
  | nil => exact closed_empty
  | cons text rest ih =>
    obtain ⟨htext, hrest⟩ := List.forall_mem_cons.mp h
    rw [String.join_cons]
    exact htext.append (ih hrest)

theorem closed_intercalate {separator : String} {texts : List String} (hs : l.Closed separator)
    (h : ∀ text ∈ texts, l.Closed text) : l.Closed (separator.intercalate texts) :=
  intercalate_of_append closed_empty Closed.append hs h

/-! ## Texts without quotes -/

/-- A character that no database reads as a quote. -/
def isPlain (c : Char) : Bool := c ≠ '"' && c ≠ '\'' && c ≠ '\x60'

theorem step_outside_of_plain (f : Config.Family) {c : Char} (h : isPlain c = true) :
    f.lexicon.step .outside c = .outside := by
  simp only [isPlain, ne_eq, decide_not, Bool.and_eq_true, Bool.not_eq_true',
    decide_eq_false_iff_not] at h
  obtain ⟨⟨hdouble, hsingle⟩, hback⟩ := h
  cases f <;> simp [Config.Family.lexicon, step, hdouble, hsingle, hback]

theorem closed_of_plain (f : Config.Family) (text : String) (h : text.toList.all isPlain = true) :
    f.lexicon.Closed text := by
  unfold Closed
  generalize text.toList = cs at h
  induction cs with
  | nil => rfl
  | cons c rest ih =>
    rw [List.all_cons, Bool.and_eq_true] at h
    change f.lexicon.scan (f.lexicon.step .outside c) rest = .outside
    rw [step_outside_of_plain f h.1, ih h.2]

theorem isPlain_of_isDigit {c : Char} (h : c.isDigit = true) : isPlain c = true := by
  have hne : ∀ d : Char, d.isDigit = false → c ≠ d := by
    rintro d hd rfl
    rw [h] at hd
    cases hd
  simp [isPlain, hne '"' rfl, hne '\'' rfl, hne '\x60' rfl]

theorem closed_toString (f : Config.Family) (n : Nat) : f.lexicon.Closed (toString n) := by
  refine closed_of_plain f _ (List.all_eq_true.mpr fun c hc => isPlain_of_isDigit ?_)
  rw [Nat.toString_eq_ofList_toDigits, String.toList_ofList] at hc
  exact Nat.isDigit_of_mem_toDigits (by decide) (by decide) hc

/-! ## Quoted names -/

/-- A doubled quote symbol leads out of a name and back into it. -/
theorem scan_escape (l : Lexicon) (name : List Char) :
    l.scan .name (escape l.symbol name) = .name := by
  induction name with
  | nil => rfl
  | cons c rest ih =>
    rw [escape]
    split
    · simpa [scan, step] using ih
    next hc => simpa [scan, step, hc] using ih

/-- **A quoted name is closed**, whatever characters it has. -/
theorem closed_quoteName (l : Lexicon) (name : String) : l.Closed (quoteName l.symbol name) := by
  unfold Closed
  rw [toList_quoteName, ← List.cons_append, scan_append]
  have hopen : l.scan .outside (l.symbol :: escape l.symbol name.toList) = .name := by
    simpa [scan, step] using l.scan_escape name.toList
  rw [hopen]
  simp [scan, step]

theorem closed_write (f : Config.Family) (ident : Identifier) :
    f.lexicon.Closed (ident.write f.lexicon.symbol true) := by
  refine closed_intercalate (closed_of_plain f "." (by decide)) (List.forall_mem_map.mpr ?_)
  intro segment _
  cases segment with
  | plain name => exact closed_quoteName _ name
  | quoted name => exact closed_quoteName _ name
  | wildcard => exact closed_of_plain f "*" (by decide)

end Lexicon

end SelectQuery
