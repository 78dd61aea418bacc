import Mathlib.Data.List.Infix
import SelectQuery.Dialect.Literal
import SelectQuery.Proofs.Lexicon

/-!
# Literals that read back

A database does not only know where a string ends: it also knows the text that the string stands
for. Here the reader hands on what it has read, a literal as its text.

* `Piece`, `Reading`, `Lexicon.next`, `Lexicon.pieces`: the reading;
* `isSome_pieces_iff`: a text can be read to its end if and only if it is closed;
* `pieces_quoteText`: a literal reads as its text, whatever characters it has;
* `closed_quoteText`: so it is closed;
* `Value.texts?`, `slots`: the texts in a value, and what stands for them in SQL;
* `pieces_quoteInto`: a filled template reads as the template with the texts of the value.
-/

namespace SelectQuery

/-- What a reader of SQL hands on: characters, and literals as the texts that they stand for. -/
inductive Piece where
  | char (c : Char)
  | literal (text : String)
  deriving DecidableEq, Repr

/-- Where a reader of SQL stands, and what it has read of a literal, the last character first. -/
inductive Reading where
  | outside
  | name
  | string (delimiter : Char) (read : List Char)
  | escaped (delimiter : Char) (read : List Char)
  /-- Behind a delimiter, which ends the literal unless the same delimiter follows. -/
  | closing (delimiter : Char) (read : List Char)
  deriving DecidableEq, Repr

/-- What is left to hand on at the end of the text, if the text may end here. -/
def Reading.finish : Reading → Option (List Piece)
  | outside => some []
  | closing _ read => some [.literal (String.ofList read.reverse)]
  | _ => none

namespace Lexicon

/-- What a character stands for behind a backslash. -/
def unescape : Char → Char
  | '0' => '\x00'
  | 'n' => '\n'
  | 'r' => '\r'
  | 'Z' => '\x1a'
  | c => c

variable (l : Lexicon)

/-- What a character outside of literals and names hands on, and where it leads. -/
def start (c : Char) : List Piece × Reading :=
  if c = l.symbol then ([.char c], .name)
  else if l.delimiters.contains c then ([], .string c [])
  else ([.char c], .outside)

/-- What a character hands on, and where it leads. -/
def next : Reading → Char → List Piece × Reading
  | .outside, c => l.start c
  | .name, c => ([.char c], if c = l.symbol then .outside else .name)
  | .string delimiter read, c =>
    ([], if c = delimiter then .closing delimiter read
      else if l.backslash && c = '\\' then .escaped delimiter read
      else .string delimiter (c :: read))
  | .escaped delimiter read, c => ([], .string delimiter (unescape c :: read))
  | .closing delimiter read, c =>
    if c = delimiter then ([], .string delimiter (c :: read))
    else (.literal (String.ofList read.reverse) :: (l.start c).1, (l.start c).2)

/-- What a text hands on, unless it ends in a literal or a name. -/
def pieces : Reading → List Char → Option (List Piece)
  | reading, [] => reading.finish
  | reading, c :: rest => (pieces (l.next reading c).2 rest).map ((l.next reading c).1 ++ ·)

/-! ## The reader and closed texts -/

/-- The place of a reader, without what it has read. -/
def place : Reading → LexState
  | .outside => .outside
  | .name => .name
  | .string delimiter _ => .string delimiter
  | .escaped delimiter _ => .escaped delimiter
  | .closing _ _ => .outside

/-- The delimiter behind which a reader stands is one that starts a string. -/
def Opens : Reading → Prop
  | .outside | .name => True
  | .string delimiter _ | .escaped delimiter _ | .closing delimiter _ =>
    delimiter ≠ l.symbol ∧ l.delimiters.contains delimiter = true

variable {l}

theorem opens_start (c : Char) : l.Opens (l.start c).2 := by
  unfold start
  split
  · trivial
  next hsymbol =>
    split
    next hdelimiter => exact ⟨hsymbol, hdelimiter⟩
    · trivial

theorem place_start (c : Char) : place (l.start c).2 = l.step .outside c := by
  simp only [start, apply_ite Prod.snd, apply_ite place]
  rfl

theorem Opens.next {reading : Reading} (h : l.Opens reading) (c : Char) :
    l.Opens (l.next reading c).2 := by
  cases reading with
  | outside => exact opens_start c
  | name => simp only [Lexicon.next]; split <;> trivial
  | string delimiter read =>
    simp only [Lexicon.next]
    split
    · exact h
    · split <;> exact h
  | escaped delimiter read => exact h
  | closing delimiter read =>
    simp only [Lexicon.next]
    split
    · exact h
    · exact opens_start c

theorem place_next {reading : Reading} (h : l.Opens reading) (c : Char) :
    place (l.next reading c).2 = l.step (place reading) c := by
  cases reading with
  | outside => exact place_start c
  | name =>
    simp only [next, apply_ite place]
    rfl
  | string delimiter read =>
    simp only [next, apply_ite place]
    rfl
  | escaped delimiter read => rfl
  | closing delimiter read =>
    obtain ⟨hsymbol, hdelimiter⟩ := h
    simp only [next]
    split
    next heq =>
      -- the same delimiter again: the string goes on here, and a new one starts there
      subst heq
      simp only [place, step, if_neg hsymbol, if_pos hdelimiter]
    · exact place_start c

theorem isSome_finish_iff (reading : Reading) :
    reading.finish.isSome = true ↔ place reading = .outside := by
  cases reading <;> simp [Reading.finish, place]

theorem isSome_pieces_of_opens {reading : Reading} (h : l.Opens reading) (text : List Char) :
    (l.pieces reading text).isSome = true ↔ l.scan (place reading) text = .outside := by
  induction text generalizing reading with
  | nil => exact isSome_finish_iff reading
  | cons c rest ih =>
    rw [pieces, Option.isSome_map, ih (h.next c), place_next h c]
    rfl

/-- **A text can be read to its end** if and only if it is closed. -/
theorem isSome_pieces_iff {text : String} :
    (l.pieces .outside text.toList).isSome = true ↔ l.Closed text := by
  have hopens : l.Opens .outside := trivial
  exact isSome_pieces_of_opens hopens text.toList

/-! ## One literal -/

theorem pieces_plain (f : Config.Family) {c : Char} (h : isPlain c = true) (rest : List Char) :
    f.lexicon.pieces .outside (c :: rest) =
      (f.lexicon.pieces .outside rest).map (.char c :: ·) := by
  simp only [isPlain, ne_eq, decide_not, Bool.and_eq_true, Bool.not_eq_true',
    decide_eq_false_iff_not] at h
  obtain ⟨⟨hdouble, hsingle⟩, hback⟩ := h
  have hstart : f.lexicon.start c = ([.char c], .outside) := by
    cases f <;> simp [start, Config.Family.lexicon, hdouble, hsingle, hback]
  rw [pieces, next, hstart]
  rfl

theorem pieces_closing {delimiter : Char} {rest : List Char} (h : rest.head? ≠ some delimiter)
    (read : List Char) :
    l.pieces (.closing delimiter read) rest =
      (l.pieces .outside rest).map (.literal (String.ofList read.reverse) :: ·) := by
  cases rest with
  | nil => rfl
  | cons c rest =>
    have hne : c ≠ delimiter := fun heq => h (by rw [heq, List.head?_cons])
    simp only [pieces, next, if_neg hne, Option.map_map]
    rfl

theorem pieces_escape (config : Config) (c : Char) (read rest : List Char) :
    config.family.lexicon.pieces (.string '\'' read)
        (config.dialect.textStyle.escape c ++ rest) =
      config.family.lexicon.pieces (.string '\'' (c :: read)) rest := by
  obtain ⟨family, autoQuote⟩ := config
  cases family with
  | postgres =>
    simp only [Config.dialect, Dialect.postgres, TextStyle.escape]
    split
    next hquote =>
      subst hquote
      simp [pieces, next]
    next hquote => simp [pieces, next, hquote, Config.Family.lexicon]
  | mysql =>
    simp only [Config.dialect, Dialect.mysql, TextStyle.escape]
    split
    case h_8 hbackslash hquote _ _ _ _ _ =>
      have hquote : c ≠ '\'' := hquote
      have hbackslash : c ≠ '\\' := hbackslash
      simp [pieces, next, hquote, hbackslash, Config.Family.lexicon]
    all_goals simp [pieces, next, unescape, Config.Family.lexicon]

theorem pieces_escapes (config : Config) (text read rest : List Char) :
    config.family.lexicon.pieces (.string '\'' read)
        (text.flatMap config.dialect.textStyle.escape ++ rest) =
      config.family.lexicon.pieces (.string '\'' (text.reverse ++ read)) rest := by
  induction text generalizing read with
  | nil => rfl
  | cons c more ih =>
    rw [List.flatMap_cons, List.append_assoc, pieces_escape, ih, List.reverse_cons,
      List.append_assoc, List.singleton_append]

/-- **A literal reads as its text**, whatever characters it has and whatever follows it, a quote
apart. -/
theorem pieces_quoteText (config : Config) (text : String) {rest : List Char}
    (h : rest.head? ≠ some '\'') :
    config.family.lexicon.pieces .outside ((config.dialect.quoteText text).toList ++ rest) =
      (config.family.lexicon.pieces .outside rest).map (.literal text :: ·) := by
  have hopen : config.family.lexicon.next .outside '\'' = ([], .string '\'' []) := by
    cases config.family <;> rfl
  have hclose (read : List Char) :
      config.family.lexicon.next (.string '\'' read) '\'' = ([], .closing '\'' read) := by
    simp [next]
  rw [Dialect.toList_quoteText, List.cons_append, List.append_assoc, pieces, hopen, pieces_escapes,
    List.singleton_append, pieces, hclose, pieces_closing h]
  simp [Function.comp_def]

theorem closed_quoteText (config : Config) (text : String) :
    config.family.lexicon.Closed (config.dialect.quoteText text) := by
  have hend : ([] : List Char).head? ≠ some '\'' := by simp
  have hread := pieces_quoteText config text hend
  rw [List.append_nil] at hread
  exact isSome_pieces_iff.mp (by rw [hread]; rfl)

end Lexicon

/-! ## The texts of a value -/

mutual

/-- The texts of a text, or of a list of such values that is not empty. -/
def Value.texts? : Value → Option (List String)
  | .text s => some [s]
  | .list [] => none
  | .list (item :: rest) => allTexts? (item :: rest)
  | _ => none
termination_by structural value => value

def allTexts? : List Value → Option (List String)
  | [] => some []
  | item :: rest => do return (← item.texts?) ++ (← allTexts? rest)
termination_by structural items => items

end

mutual

theorem quoteValue_of_texts (d : Dialect) (value : Value) {texts : List String}
    (h : value.texts? = some texts) :
    texts ≠ [] ∧ d.quoteValue value = ", ".intercalate (texts.map d.quoteText) := by
  cases value with
  | text s =>
    obtain rfl : [s] = texts := Option.some_inj.mp h
    exact ⟨List.cons_ne_nil _ _, (String.intercalate_singleton).symm⟩
  | list items =>
    cases items with
    | nil => cases h
    | cons item rest => exact quoteValues_of_allTexts d (item :: rest) (List.cons_ne_nil _ _) h
  | null | bool | int | float | expr => cases h

theorem quoteValues_of_allTexts (d : Dialect) (items : List Value) (hne : items ≠ [])
    {texts : List String} (h : allTexts? items = some texts) :
    texts ≠ [] ∧
      ", ".intercalate (d.quoteValues items) = ", ".intercalate (texts.map d.quoteText) := by
  cases items with
  | nil => exact absurd rfl hne
  | cons item rest =>
    simp only [allTexts?, Option.pure_def, Option.bind_eq_bind, Option.bind_eq_some_iff,
      Option.some_inj] at h
    obtain ⟨front, hfront, back, hback, rfl⟩ := h
    obtain ⟨hfrontne, hitem⟩ := quoteValue_of_texts d item hfront
    refine ⟨List.append_ne_nil_of_left_ne_nil hfrontne _, ?_⟩
    cases rest with
    | nil =>
      obtain rfl : [] = back := Option.some_inj.mp hback
      rw [Dialect.quoteValues, Dialect.quoteValues, String.intercalate_singleton, hitem,
        List.append_nil]
    | cons next more =>
      obtain ⟨hbackne, hrest⟩ :=
        quoteValues_of_allTexts d (next :: more) (List.cons_ne_nil _ _) hback
      rw [Dialect.quoteValues, String.intercalate_cons_of_ne_nil, hitem, hrest, List.map_append,
        String.intercalate_append_of_ne_nil]
      all_goals simp [Dialect.quoteValues, hfrontne, hbackne]

end

/-! ## A filled template -/

/-- What several literals with commas between them hand on. -/
def slots (texts : List String) : List Piece :=
  [.char ',', .char ' '].intercalate (texts.map ([.literal ·]))

theorem slots_cons_cons (text next : String) (more : List String) :
    slots (text :: next :: more) =
      .literal text :: .char ',' :: .char ' ' :: slots (next :: more) := rfl

namespace Lexicon

theorem pieces_slots (config : Config) {texts : List String} (hne : texts ≠ []) {rest : List Char}
    (h : rest.head? ≠ some '\'') :
    config.family.lexicon.pieces .outside
        ((", ".intercalate (texts.map config.dialect.quoteText)).toList ++ rest) =
      (config.family.lexicon.pieces .outside rest).map (slots texts ++ ·) := by
  induction texts with
  | nil => exact absurd rfl hne
  | cons text more ih =>
    cases more with
    | nil =>
      rw [List.map_singleton, String.intercalate_singleton, pieces_quoteText config text h]
      rfl
    | cons next more =>
      have hsplit :
          (", ".intercalate ((text :: next :: more).map config.dialect.quoteText)).toList =
            (config.dialect.quoteText text).toList ++ ',' :: ' ' ::
              (", ".intercalate ((next :: more).map config.dialect.quoteText)).toList := by
        rw [List.map_cons, List.map_cons, String.intercalate_cons_cons, String.toList_append,
          String.toList_append, List.append_assoc]
        rfl
      rw [hsplit, List.append_assoc, pieces_quoteText config text (by simp), List.cons_append,
        List.cons_append, pieces_plain _ (by decide), pieces_plain _ (by decide),
        ih (List.cons_ne_nil _ _)]
      simp only [Option.map_map, slots_cons_cons]
      rfl

theorem head?_fill_ne_quote (sql : List Char) {rest : List Char}
    (hplain : rest.all isPlain = true) (h : rest.head? ≠ some '?') :
    (rest.flatMap fun c => if c = '?' then sql else [c]).head? ≠ some '\'' := by
  cases rest with
  | nil => simp
  | cons c more =>
    have hmark : c ≠ '?' := by simpa using h
    have hquote : c ≠ '\'' := by
      rintro rfl
      exact absurd hplain (by simp [isPlain])
    simpa [hmark] using hquote

theorem pieces_fill (config : Config) {texts : List String} (hne : texts ≠ [])
    {template : List Char} (hplain : template.all isPlain = true)
    (hapart : ¬ ['?', '?'] <:+: template) :
    config.family.lexicon.pieces .outside (template.flatMap fun c =>
        if c = '?' then (", ".intercalate (texts.map config.dialect.quoteText)).toList else [c]) =
      some (template.flatMap fun c => if c = '?' then slots texts else [.char c]) := by
  induction template with
  | nil => rfl
  | cons c rest ih =>
    rw [List.all_cons, Bool.and_eq_true] at hplain
    have hapart' : ¬ ['?', '?'] <:+: rest :=
      fun h => hapart (h.trans (List.suffix_cons c rest).isInfix)
    have hrest := ih hplain.2 hapart'
    rw [List.flatMap_cons, List.flatMap_cons]
    by_cases hc : c = '?'
    · subst hc
      -- a quote behind a literal would go on with it, so the rest must not start with one
      have hnext : rest.head? ≠ some '?' := by
        intro h
        obtain ⟨more, rfl⟩ := List.head?_eq_some_iff.mp h
        exact hapart ⟨[], more, rfl⟩
      have hbehind := head?_fill_ne_quote
        (", ".intercalate (texts.map config.dialect.quoteText)).toList hplain.2 hnext
      rw [if_pos rfl, if_pos rfl, pieces_slots config hne hbehind, hrest]
      rfl
    · rw [if_neg hc, if_neg hc, List.singleton_append, pieces_plain _ hplain.1, hrest]
      rfl

/-- **Texts cannot leave their literals.** -/
theorem pieces_quoteInto (config : Config) {template : String} {value : Value}
    {texts : List String} (hplain : template.toList.all isPlain = true)
    (hapart : ¬ ['?', '?'] <:+: template.toList) (htexts : value.texts? = some texts) :
    config.family.lexicon.pieces .outside
        (config.dialect.quoteInto template value none).toList =
      some (template.toList.flatMap fun c => if c = '?' then slots texts else [.char c]) := by
  obtain ⟨hne, hvalue⟩ := quoteValue_of_texts config.dialect value htexts
  rw [Dialect.quoteInto, hvalue, Dialect.fill, String.toList_ofList]
  exact pieces_fill config hne hplain hapart

/-- Quotes, backslashes, line breaks and question marks in nested lists stay in their literals. -/
theorem pieces_quoteInto_nested :
    "n IN (?)".toList.all isPlain = true ∧ ¬ ['?', '?'] <:+: "n IN (?)".toList ∧
      (Value.list [.text "'?\\", .list [.text "\n"]]).texts? = some ["'?\\", "\n"] ∧
      Config.Family.mysql.lexicon.pieces .outside
          ((Dialect.mysql true).quoteInto "n IN (?)" (.list [.text "'?\\", .list [.text "\n"]])
            none).toList =
        some ("n IN (".toList.map .char ++
          [.literal "'?\\", .char ',', .char ' ', .literal "\n", .char ')']) := by
  have htexts : (Value.list [.text "'?\\", .list [.text "\n"]]).texts? = some ["'?\\", "\n"] := rfl
  exact ⟨by decide, by decide, htexts,
    pieces_quoteInto ⟨.mysql, true⟩ (by decide) (by decide) htexts⟩

end Lexicon

end SelectQuery
