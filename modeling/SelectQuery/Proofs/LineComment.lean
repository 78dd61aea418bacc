import SelectQuery.Proofs.Literal
import SelectQuery.Statement.Mutation

/-!
# Line comments in filled templates

Two dashes outside of strings and quoted names start a comment, which takes the rest of the line
with it. No literal holds such dashes, but one may start with a dash, and an empty list is no text
at all: so two dashes may meet where a template is filled.

* `Lexicon.OpensComment`, `Lexicon.blanked`: comments, and a text with its strings blanked out;
* `opensComment_iff`: two dashes in a row are left there;
* `Blunt`, `Lexicon.Inert`: texts that open no comment, whatever stands behind them;
* `Numeral`: the literals of numbers;
* `Value.rawFree`, `Value.signed`, `Value.vacant`: values without SQL text, those whose literal
  starts with a minus sign, and those without a literal;
* `inert_quoteValue`: the literal of a value;
* **`opensComment_quoteInto_iff`**: the templates and values that open a comment.
-/

namespace SelectQuery

/-! ## Two dashes in a row -/

section

variable {x y c : Char} {cs rest : List Char}

theorem pair_infix_cons_iff :
    [x, y] <:+: c :: cs ↔ x = c ∧ cs.head? = some y ∨ [x, y] <:+: cs := by
  rw [List.infix_cons_iff, List.cons_prefix_cons]
  cases cs with
  | nil => simp
  | cons d more => simp [List.cons_prefix_cons, eq_comm]

theorem pair_infix_append_iff :
    [x, y] <:+: cs ++ rest ↔
      [x, y] <:+: cs ∨ [x, y] <:+: rest ∨ cs.getLast? = some x ∧ rest.head? = some y := by
  induction cs with
  | nil => simp
  | cons c cs ih =>
    rw [List.cons_append, pair_infix_cons_iff, pair_infix_cons_iff, ih]
    cases cs with
    | nil =>
      have hc : x = c ↔ [c].getLast? = some x := by
        rw [List.getLast?_singleton, Option.some_inj, eq_comm]
      rw [hc, List.nil_append]
      simp only [List.head?_nil, List.getLast?_nil, reduceCtorEq, and_false, false_and, false_or]
      tauto
    | cons d more =>
      rw [List.getLast?_cons_cons, List.cons_append, List.head?_cons, List.head?_cons]
      tauto

end

/-- A text that holds no two dashes in a row, with any text behind it: it does not end in one. -/
structure Blunt (cs : List Char) : Prop where
  apart : ¬ ['-', '-'] <:+: cs
  last : cs.getLast? ≠ some '-'

theorem blunt_of_dashless {cs : List Char} (h : '-' ∉ cs) : Blunt cs :=
  ⟨fun hpair => h (hpair.subset List.mem_cons_self), fun hlast => h (List.mem_of_getLast? hlast)⟩

theorem Blunt.append {cs rest : List Char} (h : Blunt cs) (hrest : Blunt rest) :
    Blunt (cs ++ rest) := by
  constructor
  · rw [pair_infix_append_iff]
    rintro (hpair | hpair | ⟨hlast, -⟩)
    · exact h.apart hpair
    · exact hrest.apart hpair
    · exact h.last hlast
  · rw [List.getLast?_append]
    cases hlast : rest.getLast? with
    | none => exact h.last
    | some c => exact fun heq => hrest.last (hlast.trans heq)

/-! ## Comments -/

namespace Lexicon

variable (l : Lexicon)

/-- A text has two dashes in a row outside of its strings and quoted names. -/
def OpensComment (text : String) : Prop :=
  ∃ before after, text.toList = before ++ '-' :: '-' :: after ∧
    l.scan .outside before = .outside

/-- A text with a blank for each character that is read inside a string or a quoted name. -/
def blanked : LexState → List Char → List Char
  | _, [] => []
  | state, c :: rest => (if state = .outside then c else ' ') :: blanked (l.step state c) rest

variable {l}

theorem blanked_append (state : LexState) (cs rest : List Char) :
    l.blanked state (cs ++ rest) = l.blanked state cs ++ l.blanked (l.scan state cs) rest := by
  induction cs generalizing state with
  | nil => rfl
  | cons c cs ih =>
    rw [List.cons_append, blanked, blanked, ih]
    rfl

theorem head?_blanked (cs : List Char) : (l.blanked .outside cs).head? = cs.head? := by
  cases cs <;> rfl

theorem blanked_eq_nil_iff {state : LexState} {cs : List Char} :
    l.blanked state cs = [] ↔ cs = [] := by
  cases cs <;> simp [blanked]

theorem blanked_of_unquoted {cs : List Char} (h : ∀ c ∈ cs, l.step .outside c = .outside) :
    l.blanked .outside cs = cs := by
  induction cs with
  | nil => rfl
  | cons c cs ih =>
    obtain ⟨hc, hcs⟩ := List.forall_mem_cons.mp h
    rw [blanked, if_pos rfl, hc, ih hcs]

theorem opensComment_from_iff (hdash : l.step .outside '-' = .outside) (state : LexState)
    (cs : List Char) :
    (∃ before after, cs = before ++ '-' :: '-' :: after ∧ l.scan state before = .outside) ↔
      ['-', '-'] <:+: l.blanked state cs := by
  induction cs generalizing state with
  | nil => simp [blanked]
  | cons c cs ih =>
    rw [blanked, pair_infix_cons_iff, ← ih]
    constructor
    · rintro ⟨before, after, hsplit, hscan⟩
      cases before with
      | nil =>
        obtain ⟨rfl, rfl⟩ := List.cons.inj hsplit
        obtain rfl : state = .outside := hscan
        exact .inl ⟨rfl, by rw [hdash, head?_blanked]; rfl⟩
      | cons d before =>
        obtain ⟨rfl, hrest⟩ := List.cons.inj hsplit
        exact .inr ⟨before, after, hrest, hscan⟩
    · rintro (⟨hc, hhead⟩ | ⟨before, after, rfl, hscan⟩)
      · split at hc
        next houtside =>
          subst hc houtside
          rw [hdash, head?_blanked] at hhead
          obtain ⟨after, rfl⟩ := List.head?_eq_some_iff.mp hhead
          exact ⟨[], after, rfl, rfl⟩
        next => cases hc
      · exact ⟨c :: before, after, rfl, hscan⟩

/-- **A comment is opened** where two dashes in a row are not blanked out. -/
theorem opensComment_iff (hdash : l.step .outside '-' = .outside) {text : String} :
    l.OpensComment text ↔ ['-', '-'] <:+: l.blanked .outside text.toList :=
  opensComment_from_iff hdash .outside text.toList

/-! ## Texts that open no comment -/

variable (l) in
/-- A text that leaves no string and no quoted name open and opens no comment, whatever stands
behind it. -/
structure Inert (text : String) : Prop where
  closed : l.Closed text
  blunt : Blunt (l.blanked .outside text.toList)

theorem inert_empty : l.Inert "" := ⟨closed_empty, blunt_of_dashless List.not_mem_nil⟩

theorem Inert.append {text more : String} (h : l.Inert text) (hmore : l.Inert more) :
    l.Inert (text ++ more) := by
  refine ⟨h.closed.append hmore.closed, ?_⟩
  rw [String.toList_append, blanked_append, h.closed]
  exact h.blunt.append hmore.blunt

theorem inert_intercalate {separator : String} {texts : List String} (hs : l.Inert separator)
    (h : ∀ text ∈ texts, l.Inert text) : l.Inert (separator.intercalate texts) :=
  intercalate_of_append inert_empty Inert.append hs h

theorem inert_of_plain (f : Config.Family) {text : String} (hplain : text.toList.all isPlain = true)
    (h : Blunt text.toList) : f.lexicon.Inert text := by
  refine ⟨closed_of_plain f text hplain, ?_⟩
  rwa [blanked_of_unquoted fun c hc => step_outside_of_plain f (List.all_eq_true.mp hplain c hc)]

end Lexicon

/-! ## Literals of numbers -/

/-- Digits and points, with a minus sign in front if the number is `negative`. -/
inductive Numeral : Bool → List Char → Prop
  | positive {cs : List Char} (hne : cs ≠ []) (h : ∀ c ∈ cs, c.isDigit = true ∨ c = '.') :
      Numeral false cs
  | negative {cs : List Char} (h : Numeral false cs) : Numeral true ('-' :: cs)

namespace Numeral

variable {negative : Bool} {cs : List Char}

theorem ne_nil (h : Numeral negative cs) : cs ≠ [] := by
  cases h with
  | positive hne _ => exact hne
  | negative _ => exact List.cons_ne_nil _ _

theorem ne_dash {c : Char} (h : c.isDigit = true ∨ c = '.') : c ≠ '-' := by
  rintro rfl
  exact absurd h (by decide)

theorem dashless (h : Numeral false cs) : '-' ∉ cs := by
  cases h with
  | positive _ h => exact fun hmem => ne_dash (h _ hmem) rfl

theorem head?_eq_dash_iff (h : Numeral negative cs) :
    cs.head? = some '-' ↔ negative = true := by
  cases h with
  | positive hne h =>
    refine iff_of_false (fun hhead => ?_) Bool.false_ne_true
    exact ne_dash (h _ (List.mem_of_head? hhead)) rfl
  | negative _ => exact iff_of_true rfl rfl

theorem blunt (h : Numeral negative cs) : Blunt cs := by
  cases h with
  | positive hne h => exact blunt_of_dashless (positive hne h).dashless
  | @negative digits h =>
    have hdigits := blunt_of_dashless h.dashless
    obtain ⟨first, more, rfl⟩ := List.exists_cons_of_ne_nil h.ne_nil
    have hfirst : first ≠ '-' := fun heq => h.dashless (heq ▸ List.mem_cons_self)
    refine ⟨fun hpair => ?_, by rw [List.getLast?_cons_cons]; exact hdigits.last⟩
    rcases pair_infix_cons_iff.mp hpair with ⟨-, hhead⟩ | hpair
    · exact hfirst (Option.some.inj hhead)
    · exact hdigits.apart hpair

theorem plain (h : Numeral negative cs) : cs.all Lexicon.isPlain = true := by
  have hplain {c : Char} (hc : c.isDigit = true ∨ c = '.') : Lexicon.isPlain c = true := by
    rcases hc with hdigit | rfl
    · exact Lexicon.isPlain_of_isDigit hdigit
    · rfl
  induction h with
  | positive _ h => exact List.all_eq_true.mpr fun c hc => hplain (h c hc)
  | negative _ ih => rw [List.all_cons, ih]; rfl

theorem inert (h : Numeral negative cs) (f : Config.Family) :
    f.lexicon.Inert (String.ofList cs) := by
  refine Lexicon.inert_of_plain f ?_ ?_ <;> rw [String.toList_ofList]
  · exact h.plain
  · exact h.blunt

end Numeral

theorem numeral_toDigits (n : Nat) : Numeral false (toString n).toList := by
  rw [Nat.toString_eq_ofList_toDigits, String.toList_ofList]
  exact .positive Nat.toDigits_ne_nil fun c hc =>
    .inl (Nat.isDigit_of_mem_toDigits (by decide) (by decide) hc)

theorem numeral_int (n : Int) : Numeral (n < 0) (toString n).toList := by
  cases n with
  | ofNat n => exact numeral_toDigits n
  | negSucc n =>
    have htext : toString (Int.negSucc n) = "-" ++ toString (n + 1) := rfl
    have hneg : decide (Int.negSucc n < 0) = true := by simp [Int.negSucc_lt_zero]
    rw [htext, hneg, String.toList_append]
    exact .negative (numeral_toDigits (n + 1))

theorem numeral_positional {digits : String} (h : Numeral false digits.toList) (exponent : Int) :
    Numeral false (Decimal.plain.positional digits exponent).toList := by
  obtain ⟨hne, hdigits⟩ := h
  have hzeros (n : Nat) : ∀ c ∈ (Decimal.zeros n).toList, c.isDigit = true ∨ c = '.' := by
    intro c hc
    rw [Decimal.zeros, String.toList_ofList] at hc
    rw [List.eq_of_mem_replicate hc]
    exact .inl rfl
  have hpoint : Decimal.plain.pointZero = false := rfl
  unfold Decimal.Style.positional
  simp only [hpoint, Bool.false_eq_true, if_false, String.append_empty]
  split_ifs with hwhole hinside
  · rw [String.toList_append]
    exact .positive (List.append_ne_nil_of_left_ne_nil hne _)
      (List.forall_mem_append.mpr ⟨hdigits, hzeros _⟩)
  · simp only [String.toList_append, String.toList_ofList]
    refine .positive (List.append_ne_nil_of_left_ne_nil (List.append_ne_nil_of_right_ne_nil _
      (by decide)) _) ?_
    simp only [List.forall_mem_append]
    exact ⟨⟨fun c hc => hdigits c (List.mem_of_mem_take hc), by simp⟩,
      fun c hc => hdigits c (List.mem_of_mem_drop hc)⟩
  · simp only [String.toList_append]
    refine .positive (List.append_ne_nil_of_right_ne_nil _ hne) ?_
    simp only [List.forall_mem_append]
    exact ⟨⟨by simp, hzeros _⟩, hdigits⟩

/-- Whether the sign bit of a number is set. -/
def signBit (x : Float) : Bool := Nat.pow 2 63 ≤ x.toBits.toNat

theorem exists_write_plain (x : Float) : ∃ digits : String, Numeral false digits.toList ∧
    Decimal.write Decimal.plain x = (if signBit x then "-" else "") ++ digits := by
  have hfrom : Decimal.plain.exponentFrom = none := rfl
  have hbelow : Decimal.plain.exponentBelow = none := rfl
  have hpoint : Decimal.plain.pointZero = false := rfl
  have hsign : (if x.toBits.toNat < Nat.pow 2 63 then "" else "-") =
      if signBit x then "-" else "" := by
    simp only [signBit, ← Nat.not_lt, decide_not, Bool.not_eq_true', decide_eq_false_iff_not,
      ite_not]
  simp only [Decimal.write, hfrom, hbelow, hpoint, hsign, Option.any_none, Bool.or_self,
    Bool.false_eq_true, if_false]
  split
  · exact ⟨"0", numeral_toDigits 0, rfl⟩
  · exact ⟨_, numeral_positional (numeral_toDigits _) _, rfl⟩

theorem numeral_write (x : Float) : Numeral (signBit x) (Decimal.write Decimal.plain x).toList := by
  obtain ⟨digits, hdigits, htext⟩ := exists_write_plain x
  rw [htext]
  cases signBit x with
  | false => simpa using hdigits
  | true =>
    rw [if_pos rfl, String.toList_append]
    exact .negative hdigits

theorem text_of_isFinite {x : Float} (h : x.isFinite = true) :
    Decimal.text x = Decimal.write Decimal.plain x := by
  have hkind : x.isNaN = false ∧ x.isInf = false := by
    change x.toModel.unpack.isFinite = true at h
    change x.toModel.unpack.isNaN = false ∧ x.toModel.unpack.isInf = false
    cases hx : x.toModel.unpack with
    | infinity _ | notANumber =>
      rw [hx] at h
      cases h
    | zero _ | finite _ _ _ _ => exact ⟨rfl, rfl⟩
  rw [Decimal.text, hkind.1, hkind.2]
  rfl

/-! ## Literals of values -/

namespace Value

mutual

/-- Whether there is no SQL text in a value. -/
def rawFree : Value → Bool
  | .expr _ => false
  | .list items => allRawFree items
  | _ => true
termination_by structural value => value

def allRawFree : List Value → Bool
  | [] => true
  | item :: rest => rawFree item && allRawFree rest
termination_by structural items => items

end

/-- Whether a value is a number with a minus sign, or a list that starts with one. -/
def signed : Value → Bool
  | .int i => i < 0
  | .float x => x.isFinite && signBit x
  | .list (item :: _) => signed item
  | _ => false
termination_by structural value => value

/-- Whether a value is the empty list, or a list of one such value. -/
def vacant : Value → Bool
  | .list [] => true
  | .list [item] => vacant item
  | _ => false
termination_by structural value => value

mutual

theorem rawFree_cast (type : ValueType) (value : Value) :
    (value.cast type).rawFree = value.rawFree := by
  cases value with
  | list items => exact allRawFree_castAll type items
  | null | expr => rfl
  | bool | int | float | text => cases type <;> rfl

theorem allRawFree_castAll (type : ValueType) (items : List Value) :
    allRawFree (castAll type items) = allRawFree items := by
  cases items with
  | nil => rfl
  | cons item rest => rw [castAll, allRawFree, rawFree_cast, allRawFree_castAll, allRawFree]

end

end Value

namespace Lexicon

theorem dashless_quoteText (autoQuote : Bool) (text : String) :
    '-' ∉ Config.Family.postgres.lexicon.blanked .outside
      ((Dialect.postgres autoQuote).quoteText text).toList := by
  have hbody (cs : List Char) :
      '-' ∉ Config.Family.postgres.lexicon.blanked (.string '\'')
        (cs.flatMap TextStyle.doubledQuote.escape ++ ['\'']) := by
    induction cs with
    | nil => decide
    | cons c cs ih =>
      rw [List.flatMap_cons, List.append_assoc]
      by_cases hc : c = '\''
      · subst hc
        simpa [TextStyle.escape, blanked, step, Config.Family.lexicon] using ih
      · simpa [TextStyle.escape, blanked, step, Config.Family.lexicon, hc] using ih
  rw [Dialect.toList_quoteText, blanked, List.mem_cons, not_or]
  exact ⟨by decide, hbody text.toList⟩

theorem inert_quoteText (autoQuote : Bool) (text : String) :
    Config.Family.postgres.lexicon.Inert ((Dialect.postgres autoQuote).quoteText text) :=
  ⟨closed_quoteText ⟨.postgres, autoQuote⟩ text,
    blunt_of_dashless (dashless_quoteText autoQuote text)⟩

theorem inert_word {text : String} (h : text.toList.all isPlain = true)
    (hdash : '-' ∉ text.toList) : Config.Family.postgres.lexicon.Inert text :=
  inert_of_plain .postgres h (blunt_of_dashless hdash)

theorem inert_numeral {negative : Bool} {text : String} (h : Numeral negative text.toList) :
    Config.Family.postgres.lexicon.Inert text := by
  have hinert := h.inert .postgres
  rwa [String.ofList_toList] at hinert

mutual

/-- **The literal of a value** opens no comment of its own, whatever stands behind it. -/
theorem inert_quoteValue (autoQuote : Bool) (value : Value) (hraw : value.rawFree = true) :
    Config.Family.postgres.lexicon.Inert ((Dialect.postgres autoQuote).quoteValue value) := by
  cases value with
  | null =>
    change Config.Family.postgres.lexicon.Inert "NULL"
    exact inert_word (by decide) (by decide)
  | bool b =>
    cases b with
    | false =>
      change Config.Family.postgres.lexicon.Inert "FALSE"
      exact inert_word (by decide) (by decide)
    | true =>
      change Config.Family.postgres.lexicon.Inert "TRUE"
      exact inert_word (by decide) (by decide)
  | int i => exact inert_numeral (numeral_int i.toInt)
  | float x =>
    rw [Dialect.quoteValue]
    split
    next hfinite => exact inert_numeral (text_of_isFinite hfinite ▸ numeral_write x)
    next => exact inert_quoteText autoQuote _
  | text s => exact inert_quoteText autoQuote s
  | list items =>
    exact inert_intercalate (inert_word (by decide) (by decide))
      (inert_quoteValues autoQuote items hraw)
  | expr => cases hraw

theorem inert_quoteValues (autoQuote : Bool) (items : List Value)
    (hraw : Value.allRawFree items = true) :
    ∀ text ∈ (Dialect.postgres autoQuote).quoteValues items,
      Config.Family.postgres.lexicon.Inert text := by
  cases items with
  | nil => exact List.forall_mem_nil _
  | cons item rest =>
    obtain ⟨hitem, hrest⟩ := Bool.and_eq_true_iff.mp hraw
    exact List.forall_mem_cons.mpr
      ⟨inert_quoteValue autoQuote item hitem, inert_quoteValues autoQuote rest hrest⟩

end

end Lexicon

theorem head?_quoteText (d : Dialect) (text : String) :
    (d.quoteText text).toList.head? = some '\'' := by
  rw [Dialect.toList_quoteText, List.head?_cons]

/-- **The literal of a value** starts with a minus sign if the value is signed. -/
theorem head?_quoteValue_iff (autoQuote : Bool) (value : Value) (hraw : value.rawFree = true) :
    ((Dialect.postgres autoQuote).quoteValue value).toList.head? = some '-' ↔
      value.signed = true := by
  match value, hraw with
  | .null, _ =>
    change "NULL".toList.head? = some '-' ↔ _
    exact iff_of_false (by decide) (by decide)
  | .bool false, _ =>
    change "FALSE".toList.head? = some '-' ↔ _
    exact iff_of_false (by decide) (by decide)
  | .bool true, _ =>
    change "TRUE".toList.head? = some '-' ↔ _
    exact iff_of_false (by decide) (by decide)
  | .int i, _ =>
    rw [Value.signed, Dialect.quoteValue, (numeral_int i.toInt).head?_eq_dash_iff,
      decide_eq_true_eq, decide_eq_true_eq, Int64.lt_iff_toInt_lt]
    rfl
  | .float x, _ =>
    rw [Value.signed, Dialect.quoteValue]
    split
    next hfinite =>
      rw [text_of_isFinite hfinite, (numeral_write x).head?_eq_dash_iff, hfinite, Bool.true_and]
    next hfinite => simp [hfinite]
  | .text s, _ => simp [Value.signed, Dialect.quoteValue]
  | .list [], _ => simp [Value.signed, Dialect.quoteValue, Dialect.quoteValues]
  | .list (item :: rest), hraw =>
    obtain ⟨hitem, -⟩ := Bool.and_eq_true_iff.mp hraw
    have ih := head?_quoteValue_iff autoQuote item hitem
    rw [Value.signed, ← ih, Dialect.quoteValue, Dialect.quoteValues]
    cases rest with
    | nil => rw [Dialect.quoteValues, String.intercalate_singleton]
    | cons next more =>
      rw [Dialect.quoteValues, String.intercalate_cons_cons, String.toList_append,
        String.toList_append, List.append_assoc]
      -- an item without a literal is followed by a comma
      cases hlist : ((Dialect.postgres autoQuote).quoteValue item).toList with
      | nil => simp
      | cons c cs => simp

theorem quoteText_ne_empty (d : Dialect) (text : String) : d.quoteText text ≠ "" := by
  intro hempty
  have hhead := head?_quoteText d text
  rw [hempty] at hhead
  cases hhead

theorem Numeral.text_ne_empty {negative : Bool} {text : String} (h : Numeral negative text.toList) :
    text ≠ "" := fun hempty => h.ne_nil (by rw [hempty]; rfl)

/-- **The literal of a value** is empty if the value is vacant. -/
theorem quoteValue_eq_empty_iff (autoQuote : Bool) (value : Value) (hraw : value.rawFree = true) :
    (Dialect.postgres autoQuote).quoteValue value = "" ↔ value.vacant = true := by
  match value, hraw with
  | .null, _ => exact iff_of_false (by simp [Dialect.quoteValue]) (by decide)
  | .bool false, _ =>
    change "FALSE" = "" ↔ _
    exact iff_of_false (by decide) (by decide)
  | .bool true, _ =>
    change "TRUE" = "" ↔ _
    exact iff_of_false (by decide) (by decide)
  | .int i, _ => exact iff_of_false (numeral_int i.toInt).text_ne_empty Bool.false_ne_true
  | .float x, _ =>
    refine iff_of_false ?_ Bool.false_ne_true
    rw [Dialect.quoteValue]
    split
    next hfinite =>
      rw [text_of_isFinite hfinite]
      exact (numeral_write x).text_ne_empty
    next => exact quoteText_ne_empty _ _
  | .text s, _ => exact iff_of_false (quoteText_ne_empty _ s) Bool.false_ne_true
  | .list [], _ => exact iff_of_true rfl rfl
  | .list [item], hraw =>
    obtain ⟨hitem, -⟩ := Bool.and_eq_true_iff.mp hraw
    rw [Value.vacant, ← quoteValue_eq_empty_iff autoQuote item hitem, Dialect.quoteValue,
      Dialect.quoteValues, Dialect.quoteValues, String.intercalate_singleton]
  | .list (item :: next :: more), _ =>
    refine iff_of_false (fun hempty => ?_) Bool.false_ne_true
    rw [Dialect.quoteValue, Dialect.quoteValues, Dialect.quoteValues, String.intercalate_cons_cons]
      at hempty
    simp at hempty

/-! ## Filled templates -/

theorem fill_nil (template : List Char) :
    template.flatMap (fun c => if c = '?' then [] else [c]) = template.filter (· ≠ '?') := by
  induction template with
  | nil => rfl
  | cons c rest ih => by_cases hc : c = '?' <;> simp [hc, ih]

theorem head?_fill_iff {sql template : List Char} (hne : sql ≠ [])
    (hfirst : template.head? ≠ some '-') :
    (template.flatMap fun c => if c = '?' then sql else [c]).head? = some '-' ↔
      sql.head? = some '-' ∧ template.head? = some '?' := by
  cases template with
  | nil => simp
  | cons c rest =>
    have hdash : c ≠ '-' := fun hc => hfirst (congrArg some hc)
    by_cases hmark : c = '?'
    · subst hmark
      simp [List.head?_append_of_ne_nil _ hne]
    · simp [hmark, hdash]

/-- A template without two dashes in a row, filled with a text that keeps them apart, holds two of
them only where the text starts with one behind another one, or where there is no text between
them. -/
theorem dashes_fill_iff {sql template : List Char} (hsql : Blunt sql)
    (hdashes : ¬ ['-', '-'] <:+: template) :
    ['-', '-'] <:+: template.flatMap (fun c => if c = '?' then sql else [c]) ↔
      sql.head? = some '-' ∧ ['-', '?'] <:+: template ∨
        sql = [] ∧ ['-', '-'] <:+: template.filter (· ≠ '?') := by
  by_cases hempty : sql = []
  · subst hempty
    rw [fill_nil]
    simp
  · simp only [hempty, false_and, or_false]
    induction template with
    | nil => simp
    | cons c rest ih =>
      obtain ⟨hmeet, hrest⟩ := not_or.mp (mt pair_infix_cons_iff.mpr hdashes)
      rw [List.flatMap_cons]
      by_cases hc : c = '?'
      · subst hc
        rw [if_pos rfl, pair_infix_append_iff, ih hrest, pair_infix_cons_iff]
        simp [hsql.apart, hsql.last]
      · rw [if_neg hc, List.singleton_append, pair_infix_cons_iff, ih hrest, pair_infix_cons_iff]
        -- what meets a dash of the template is no other dash of it
        by_cases hdash : '-' = c
        · rw [head?_fill_iff hempty fun hfirst => hmeet ⟨hdash, hfirst⟩]
          tauto
        · tauto

/-- The value that is written for another one: its cast, if there is a type to cast it to. -/
def Value.written (value : Value) : Option ValueType → Value
  | some type => value.cast type
  | none => value

theorem Value.rawFree_written {value : Value} (h : value.rawFree = true)
    (type : Option ValueType) : (value.written type).rawFree = true := by
  cases type with
  | none => exact h
  | some type => rwa [written, rawFree_cast]

theorem Dialect.quoteInto_eq_fill (d : Dialect) (template : String) (value : Value)
    (type : Option ValueType) :
    d.quoteInto template value type = fill template (d.quoteValue (value.written type)) := by
  cases type <;> rfl

namespace Lexicon

theorem step_outside_of_unquoted {c : Char} (hsingle : c ≠ '\'') (hdouble : c ≠ '"') :
    Config.Family.postgres.lexicon.step .outside c = .outside := by
  simp [step, Config.Family.lexicon, hsingle, hdouble]

theorem blanked_fill {sql : String} (hsql : Config.Family.postgres.lexicon.Closed sql)
    {template : List Char} (hsingle : '\'' ∉ template) (hdouble : '"' ∉ template) :
    Config.Family.postgres.lexicon.blanked .outside
        (template.flatMap fun c => if c = '?' then sql.toList else [c]) =
      template.flatMap fun c => if c = '?' then
        Config.Family.postgres.lexicon.blanked .outside sql.toList else [c] := by
  induction template with
  | nil => rfl
  | cons c rest ih =>
    obtain ⟨hs, hsrest⟩ := List.ne_and_not_mem_of_not_mem_cons hsingle
    obtain ⟨hd, hdrest⟩ := List.ne_and_not_mem_of_not_mem_cons hdouble
    rw [List.flatMap_cons, List.flatMap_cons, blanked_append]
    by_cases hc : c = '?'
    · rw [if_pos hc, if_pos hc, hsql, ih hsrest hdrest]
    · have hstep := step_outside_of_unquoted hs.symm hd.symm
      have hscan : Config.Family.postgres.lexicon.scan .outside [c] = .outside := hstep
      rw [if_neg hc, if_neg hc, hscan, ih hsrest hdrest]
      rfl

/-- **Which templates and values open a comment.** Where the template has none of its own, it does
so behind a dash that a signed value follows, and between two dashes that only vacant values stand
between. -/
theorem opensComment_quoteInto_iff (autoQuote : Bool) {template : String} {value : Value}
    (type : Option ValueType) (hsingle : '\'' ∉ template.toList) (hdouble : '"' ∉ template.toList)
    (hdashes : ¬ ['-', '-'] <:+: template.toList) (hraw : value.rawFree = true) :
    Config.Family.postgres.lexicon.OpensComment
        ((Dialect.postgres autoQuote).quoteInto template value type) ↔
      (value.written type).signed = true ∧ ['-', '?'] <:+: template.toList ∨
        (value.written type).vacant = true ∧
          ['-', '-'] <:+: template.toList.filter (· ≠ '?') := by
  have hwritten := Value.rawFree_written hraw type
  obtain ⟨hclosed, hblunt⟩ := inert_quoteValue autoQuote (value.written type) hwritten
  have hdash : Config.Family.postgres.lexicon.step .outside '-' = .outside := rfl
  rw [opensComment_iff hdash, Dialect.quoteInto_eq_fill, Dialect.fill, String.toList_ofList,
    blanked_fill hclosed hsingle hdouble, dashes_fill_iff hblunt hdashes, head?_blanked,
    blanked_eq_nil_iff, String.toList_eq_nil_iff, head?_quoteValue_iff autoQuote _ hwritten,
    quoteValue_eq_empty_iff autoQuote _ hwritten]

/-- Behind a dash and a space, a list that starts with a negative number opens no comment. -/
theorem opensComment_quoteInto_iff_apart :
    let template := "a - ? IN (?)"
    let value : Value := .list [.int (-1), .list [], .text "--x"]
    ('\'' ∉ template.toList ∧ '"' ∉ template.toList ∧ ¬ ['-', '-'] <:+: template.toList ∧
      value.rawFree = true) ∧
    value.signed = true ∧
    ¬ Config.Family.postgres.lexicon.OpensComment
      ((Dialect.postgres true).quoteInto template value none) := by
  intro template value
  have hsingle : '\'' ∉ template.toList := by decide
  have hdouble : '"' ∉ template.toList := by decide
  have hdashes : ¬ ['-', '-'] <:+: template.toList := by decide
  have hraw : value.rawFree = true := by decide
  refine ⟨⟨hsingle, hdouble, hdashes, hraw⟩, by decide, ?_⟩
  rw [opensComment_quoteInto_iff true none hsingle hdouble hdashes hraw]
  rintro (⟨-, hmark⟩ | ⟨hvacant, -⟩)
  · exact absurd hmark (by decide)
  · cases hvacant

/-- A negative number behind a dash opens a comment, and the rest of the condition is lost. -/
theorem opensComment_of_negative :
    let template := "o.balance > -?"
    let value : Value := .int (-5)
    let s := (Statement.ofDialect (Config.dialect {})).applyAll
      [.selectFrom (.ofName "orders AS o") [.ofText "id"],
        .addWhere .and ⟨template, some (value, none)⟩]
    ('\'' ∉ template.toList ∧ '"' ∉ template.toList ∧ ¬ ['-', '-'] <:+: template.toList ∧
      ¬ ['/', '*'] <:+: template.toList ∧ value.rawFree = true) ∧
    Config.Family.postgres.lexicon.OpensComment
      ((Dialect.postgres true).quoteInto template value none) ∧
    s.assemble = .ok "SELECT \"o\".\"id\" FROM \"orders\" AS \"o\" WHERE (o.balance > --5)" := by
  intro template value s
  have htext : ((Dialect.postgres true).quoteInto template value none).toList =
      "o.balance > ".toList ++ '-' :: '-' :: ['5'] := by decide +kernel
  refine ⟨⟨by decide, by decide, by decide, by decide, by decide⟩, ?_, by decide +kernel⟩
  exact ⟨_, _, htext, by decide +kernel⟩

end Lexicon

end SelectQuery
