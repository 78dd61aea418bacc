import SelectQuery.Proofs.Outcome
import SelectQuery.Identifier.Parser

/-!
# Reading and writing identifiers

* `Identifier.Place.text`: what the reader has read of the segment it is in;
* `Identifier.spelled_of_readSegments`: the segments that are read spell the text they are read
  from;
* `Identifier.write_of_parse`: an identifier that was read is written as the text it was read from,
  if bare names stay bare;
* `Identifier.eq_of_parse_plain`, `Identifier.segments_of_parse_self`,
  `Identifier.segments_eq_plain_iff`: the texts that are read as one bare name;
* `Identifier.forall_mem_of_readSegments`, `Identifier.readable_of_readSegments`: the segments that
  are read;
* `Identifier.quoted_eq_quoteName_iff`: the texts whose identifier is written as one quoted name.
-/

namespace SelectQuery

theorem escape_append (symbol : Char) (l m : List Char) :
    escape symbol (l ++ m) = escape symbol l ++ escape symbol m := by
  induction l with
  | nil => rfl
  | cons c rest ih =>
    simp only [List.cons_append, escape, ih]
    split <;> rfl

theorem length_escape (symbol : Char) (l : List Char) :
    (escape symbol l).length = l.length + l.count symbol := by
  induction l with
  | nil => rfl
  | cons c rest ih =>
    rw [escape]
    by_cases hc : c = symbol
    · rw [if_pos hc, hc, List.length_cons, List.length_cons, List.length_cons, List.count_cons_self]
      omega
    · rw [if_neg hc, List.length_cons, List.length_cons, List.count_cons_of_ne hc]
      omega

theorem length_le_escape (symbol : Char) (l : List Char) : l.length ≤ (escape symbol l).length := by
  rw [length_escape]
  exact Nat.le_add_right _ _

theorem escape_eq_nil_iff {symbol : Char} {name : List Char} :
    escape symbol name = [] ↔ name = [] := by
  constructor
  · intro h
    have hle := length_le_escape symbol name
    rw [h] at hle
    exact List.eq_nil_of_length_eq_zero (Nat.le_zero.mp hle)
  · rintro rfl
    rfl

namespace Identifier

variable {symbol : Char}

/-- What the reader has read of the segment it is in. -/
def Place.text (symbol : Char) : Place → List Char
  | .start => []
  | .bare name => name.reverse
  | .inside name => symbol :: escape symbol name.reverse
  | .closing name => symbol :: (escape symbol name.reverse ++ [symbol])

theorem toList_write_bareSegment (name : List Char) :
    ((bareSegment name).write symbol false).toList = name.reverse := by
  unfold bareSegment Segment.ofName
  split_ifs with hstar
  · rw [← String.toList_ofList (l := name.reverse), hstar]
    rfl
  · simp [Segment.write]

theorem toList_write_of_quotedSegment {name : List Char} {segment : Segment}
    (h : quotedSegment name = .ok segment) :
    (segment.write symbol false).toList = symbol :: (escape symbol name.reverse ++ [symbol]) := by
  unfold quotedSegment at h
  split_ifs at h
  cases h
  simp [Segment.write]

/-- The text of segments with dots between them. -/
def spelled (symbol : Char) (segments : List Segment) : List Char :=
  List.intercalate ['.'] (segments.map fun segment => (segment.write symbol false).toList)

theorem toList_write_false (ident : Identifier) :
    (ident.write symbol false).toList = spelled symbol ident.segments := by
  simp [write, spelled, Function.comp_def]

theorem spelled_singleton (segment : Segment) :
    spelled symbol [segment] = (segment.write symbol false).toList :=
  List.intercalate_singleton

theorem spelled_cons {segments : List Segment} (h : segments ≠ []) (segment : Segment) :
    spelled symbol (segment :: segments) =
      (segment.write symbol false).toList ++ '.' :: spelled symbol segments := by
  unfold spelled
  rw [List.map_cons, List.intercalate_cons_of_ne_nil (by simpa using h)]
  simp

/-- **The segments that are read spell the text they are read from**, and there is at least one. -/
theorem spelled_of_readSegments {place : Place} {text : List Char} {segments : List Segment}
    (h : readSegments symbol place text = .ok segments) :
    segments ≠ [] ∧ spelled symbol segments = place.text symbol ++ text := by
  -- each place holds what was read of its segment, so a step moves one character over
  fun_induction readSegments symbol place text generalizing segments with
  | case1 | case3 | case8 => cases h
  | case2 rest ih =>
    obtain ⟨hne, htext⟩ := ih h
    exact ⟨hne, by simp [htext, Place.text, escape]⟩
  | case4 c rest _ _ ih =>
    obtain ⟨hne, htext⟩ := ih h
    exact ⟨hne, by simp [htext, Place.text]⟩
  | case5 name =>
    cases h
    exact ⟨List.cons_ne_nil _ _, by simp [spelled_singleton, toList_write_bareSegment, Place.text]⟩
  | case6 name rest ih =>
    obtain ⟨more, hmore, rfl⟩ := map_eq_ok_iff.mp h
    obtain ⟨hne, htext⟩ := ih hmore
    refine ⟨List.cons_ne_nil _ _, ?_⟩
    rw [spelled_cons hne, toList_write_bareSegment, htext]
    rfl
  | case7 name c rest _ ih =>
    obtain ⟨hne, htext⟩ := ih h
    exact ⟨hne, by simp [htext, Place.text]⟩
  | case9 name rest ih =>
    obtain ⟨hne, htext⟩ := ih h
    exact ⟨hne, by simp [htext, Place.text]⟩
  | case10 name c rest hc ih =>
    obtain ⟨hne, htext⟩ := ih h
    exact ⟨hne, by simp [htext, Place.text, escape_append, escape, hc]⟩
  | case11 name =>
    obtain ⟨segment, hsegment, rfl⟩ := map_eq_ok_iff.mp h
    refine ⟨List.cons_ne_nil _ _, ?_⟩
    rw [spelled_singleton, toList_write_of_quotedSegment hsegment]
    exact (List.append_nil _).symm
  | case12 name rest ih =>
    obtain ⟨hne, htext⟩ := ih h
    exact ⟨hne, by simp [htext, Place.text, escape_append, escape]⟩
  | case13 name c rest hc ih =>
    obtain ⟨segment, hsegment, h⟩ := bind_eq_ok_iff.mp h
    split_ifs at h with hdot
    obtain ⟨more, hmore, rfl⟩ := map_eq_ok_iff.mp h
    obtain ⟨hne, htext⟩ := ih hmore
    refine ⟨List.cons_ne_nil _ _, ?_⟩
    rw [spelled_cons hne, toList_write_of_quotedSegment hsegment, htext, hdot]
    rfl

theorem read_of_parse {text : String} {ident : Identifier} (h : parse symbol text = .ok ident) :
    readSegments symbol .start text.toList = .ok ident.segments := by
  unfold parse at h
  split at h
  next other hread =>
    cases h
    unfold read at hread
    split_ifs at hread
    obtain ⟨segments, hsegments, rfl⟩ := map_eq_ok_iff.mp hread
    exact hsegments
  next => cases h

theorem segments_ne_nil {text : String} {ident : Identifier} (h : parse symbol text = .ok ident) :
    ident.segments ≠ [] := (spelled_of_readSegments (read_of_parse h)).1

theorem write_append {front back : List Segment} (hfront : front ≠ []) (hback : back ≠ [])
    (symbol : Char) (autoQuote : Bool) :
    write symbol autoQuote ⟨front ++ back⟩ =
      write symbol autoQuote ⟨front⟩ ++ "." ++ write symbol autoQuote ⟨back⟩ := by
  unfold write
  rw [List.map_append]
  exact String.intercalate_append_of_ne_nil (by simpa using hfront) (by simpa using hback)

/-- **An identifier that was read is written as the text it was read from**, if bare names stay
bare. -/
theorem write_of_parse {text : String} {ident : Identifier} (h : parse symbol text = .ok ident) :
    ident.write symbol false = text := by
  rw [← String.toList_inj, toList_write_false]
  exact (spelled_of_readSegments (read_of_parse h)).2

theorem eq_of_parse_plain {text name : String} {ident : Identifier}
    (h : parse symbol text = .ok ident) (hplain : ident.segments = [.plain name]) :
    text = name := by
  rw [← write_of_parse h, write, hplain]
  simp [Segment.write]

theorem eq_plain_or_length_le (symbol : Char) {segment : Segment} {name : String}
    (h : segment.name? = some name) :
    segment = .plain name ∨
      name.toList.length + 2 ≤ (segment.write symbol false).toList.length := by
  cases segment with
  | plain n =>
    cases h
    exact .inl rfl
  | quoted n =>
    cases h
    have := length_le_escape symbol name.toList
    simp only [Segment.write, toList_quoteName, List.length_cons, List.length_append]
    exact .inr (by omega)
  | wildcard => cases h

theorem length_le_spelled (symbol : Char) {segments : List Segment} {name : String}
    (h : segments.getLast?.bind Segment.name? = some name) :
    name.toList.length ≤ (spelled symbol segments).length := by
  induction segments with
  | nil => cases h
  | cons segment rest ih =>
    cases rest with
    | nil =>
      change segment.name? = some name at h
      rw [spelled_singleton]
      rcases eq_plain_or_length_le symbol h with rfl | hlen
      · exact Nat.le_refl _
      · omega
    | cons next more =>
      rw [spelled_cons (List.cons_ne_nil _ _), List.length_append, List.length_cons]
      have := ih h
      omega

theorem segments_of_parse_self {name : String} {ident : Identifier}
    (h : parse symbol name = .ok ident) (hlast : ident.lastName? = some name) :
    ident.segments = [.plain name] := by
  have htext := (spelled_of_readSegments (read_of_parse h)).2
  have hlen : (spelled symbol ident.segments).length = name.toList.length := by rw [htext]; rfl
  unfold lastName? at hlast
  cases hsegments : ident.segments with
  | nil =>
    rw [hsegments] at hlast
    cases hlast
  | cons segment rest =>
    rw [hsegments] at hlast hlen
    cases rest with
    | nil =>
      change segment.name? = some name at hlast
      rw [spelled_singleton] at hlen
      rcases eq_plain_or_length_le symbol hlast with rfl | hle
      · rfl
      · omega
    | cons next more =>
      rw [spelled_cons (List.cons_ne_nil _ _), List.length_append, List.length_cons] at hlen
      have : name.toList.length ≤ (spelled symbol (next :: more)).length :=
        length_le_spelled symbol hlast
      omega

/-! ## What the reader accepts -/

/-- A name that stands for itself: it has no dots, does not start with a quote symbol, and is not
the wildcard. -/
def IsBare (symbol : Char) (name : String) : Prop :=
  '.' ∉ name.toList ∧ name.toList.head? ≠ some symbol ∧ name ≠ "*"

instance (symbol : Char) (name : String) : Decidable (IsBare symbol name) :=
  inferInstanceAs (Decidable (_ ∧ _ ∧ _))

/-- The segments that can be read. -/
def Readable (symbol : Char) : Segment → Prop
  | .plain name => IsBare symbol name
  | .quoted name => name ≠ ""
  | .wildcard => symbol ≠ '*'

/-- What the reader has read of a bare segment has no dots and does not start with a quote
symbol. -/
def Place.Readable (symbol : Char) : Place → Prop
  | .bare name => '.' ∉ name ∧ ∃ first, name.getLast? = some first ∧ first ≠ symbol
  | .start | .inside _ | .closing _ => True

theorem readable_bareSegment {name : List Char} (h : (Place.bare name).Readable symbol) :
    Readable symbol (bareSegment name) := by
  obtain ⟨hdot, first, hfirst, hne⟩ := h
  unfold bareSegment Segment.ofName
  split_ifs with hstar
  · have hname : name.reverse = ['*'] := String.ofList_injective hstar
    rw [← List.head?_reverse, hname] at hfirst
    cases hfirst
    exact hne.symm
  · exact ⟨by simpa using hdot, by simpa [hfirst] using hne, hstar⟩

theorem readable_of_quotedSegment {name : List Char} {segment : Segment}
    (h : quotedSegment name = .ok segment) : Readable symbol segment := by
  unfold quotedSegment at h
  split_ifs at h with hname
  cases h
  intro hempty
  have hnil : name.reverse = [] := String.ofList_injective hempty
  simp [List.reverse_eq_nil_iff.mp hnil] at hname

theorem forall_mem_of_readSegments {P : Segment → Prop}
    (hbare : ∀ name, (Place.bare name).Readable symbol → P (bareSegment name))
    (hquoted : ∀ name segment, quotedSegment name = .ok segment → P segment) {place : Place}
    {text : List Char} {segments : List Segment}
    (h : readSegments symbol place text = .ok segments) (hplace : place.Readable symbol) :
    ∀ segment ∈ segments, P segment := by
  -- a bare segment is readable as far as it was read, so a step has to look at one character
  fun_induction readSegments symbol place text generalizing segments with
  | case1 | case3 | case8 => cases h
  | case2 rest ih => exact ih h trivial
  | case4 c rest hsymbol hdot ih =>
    exact ih h ⟨by simpa using Ne.symm hdot, c, rfl, hsymbol⟩
  | case5 name =>
    cases h
    exact List.forall_mem_singleton.mpr (hbare name hplace)
  | case6 name rest ih =>
    obtain ⟨more, hmore, rfl⟩ := map_eq_ok_iff.mp h
    exact List.forall_mem_cons.mpr ⟨hbare name hplace, ih hmore trivial⟩
  | case7 name c rest hdot ih =>
    obtain ⟨hdots, first, hfirst, hne⟩ := hplace
    have hlast : (c :: name).getLast? = some first := by simp [List.getLast?_cons, hfirst]
    exact ih h ⟨by simpa using ⟨Ne.symm hdot, hdots⟩, first, hlast, hne⟩
  | case9 name rest ih => exact ih h trivial
  | case10 name c rest hc ih => exact ih h trivial
  | case11 name =>
    obtain ⟨segment, hsegment, rfl⟩ := map_eq_ok_iff.mp h
    exact List.forall_mem_singleton.mpr (hquoted name segment hsegment)
  | case12 name rest ih => exact ih h trivial
  | case13 name c rest hc ih =>
    obtain ⟨segment, hsegment, h⟩ := bind_eq_ok_iff.mp h
    split_ifs at h with hdot
    obtain ⟨more, hmore, rfl⟩ := map_eq_ok_iff.mp h
    exact List.forall_mem_cons.mpr ⟨hquoted name segment hsegment, ih hmore trivial⟩

/-- **What the reader accepts.** -/
theorem readable_of_readSegments {place : Place} {text : List Char} {segments : List Segment}
    (h : readSegments symbol place text = .ok segments) (hplace : place.Readable symbol) :
    ∀ segment ∈ segments, Readable symbol segment :=
  forall_mem_of_readSegments (fun _ => readable_bareSegment)
    (fun _ _ => readable_of_quotedSegment) h hplace

theorem segments_eq_plain_iff {text : String} {ident : Identifier}
    (h : parse symbol text = .ok ident) :
    ident.segments = [.plain text] ↔ IsBare symbol text := by
  have hread := read_of_parse h
  obtain ⟨hne, htext⟩ := spelled_of_readSegments hread
  change spelled symbol ident.segments = text.toList at htext
  constructor
  · intro hplain
    have hall := readable_of_readSegments hread trivial
    rw [hplain] at hall
    exact hall _ List.mem_cons_self
  · rintro ⟨hdot, hfirst, hstar⟩
    cases hsegments : ident.segments with
    | nil => exact absurd hsegments hne
    | cons segment rest =>
      rw [hsegments] at htext
      cases rest with
      | cons next more =>
        rw [spelled_cons (List.cons_ne_nil _ _)] at htext
        rw [← htext] at hdot
        simp at hdot
      | nil =>
        rw [spelled_singleton] at htext
        cases segment with
        | plain name =>
          have hname : name = text := String.toList_inj.mp htext
          rw [hname]
        | quoted name =>
          rw [← htext] at hfirst
          simp [Segment.write] at hfirst
        | wildcard => exact absurd (String.toList_inj.mp htext.symm) hstar

/-! ## Quoted names -/

theorem readSegments_inside_escape (name read rest : List Char) :
    readSegments symbol (.inside read) (escape symbol name ++ symbol :: rest) =
      readSegments symbol (.closing (name.reverse ++ read)) rest := by
  induction name generalizing read with
  | nil => simp [escape, readSegments]
  | cons c name ih =>
    rw [escape]
    split
    next hc => simp [readSegments, ih, hc]
    next hc => simp [readSegments, ih, hc]

theorem quoteName_append_dot_ne (hsymbol : symbol ≠ '.') {text : String} (htext : text ≠ "")
    (name rest : String) : quoteName symbol name ++ "." ++ rest ≠ quoteName symbol text := by
  intro heq
  have hlist : escape symbol name.toList ++ symbol :: '.' :: rest.toList =
      escape symbol text.toList ++ [symbol] := by
    have := congrArg (fun written : String => written.toList.tail) heq
    simpa [String.toList_append] using this
  have hread := congrArg (readSegments symbol (.inside [])) hlist
  have hwhole : readSegments symbol (.closing text.toList.reverse) [] = .ok [.quoted text] := by
    simp [readSegments, quotedSegment, htext, Except.map]
  rw [readSegments_inside_escape, readSegments_inside_escape, List.append_nil, List.append_nil,
    hwhole, readSegments, if_neg hsymbol.symm] at hread
  obtain ⟨segment, -, hread⟩ := bind_eq_ok_iff.mp hread
  rw [if_pos rfl] at hread
  obtain ⟨more, hmore, hall⟩ := map_eq_ok_iff.mp hread
  cases hall
  exact (spelled_of_readSegments hmore).1 rfl

theorem ne_quoteName (symbol : Char) (text : String) : text ≠ quoteName symbol text := by
  intro heq
  have hlen := congrArg (fun name : String => name.toList.length) heq
  have := length_le_escape symbol text.toList
  simp only [toList_quoteName, List.length_cons, List.length_append] at hlen
  omega

theorem quoted_of_isBare {text : String} {ident : Identifier} (h : parse symbol text = .ok ident)
    (hbare : IsBare symbol text) : ident.quoted symbol = quoteName symbol text := by
  simp [quoted, write, (segments_eq_plain_iff h).mpr hbare, Segment.write]

/-- **A text that is read as an identifier is written as one quoted name** only if it is a bare
name. -/
theorem quoted_eq_quoteName_iff {text : String} {ident : Identifier}
    (h : parse symbol text = .ok ident) (hsymbol : symbol ≠ '.') :
    ident.quoted symbol = quoteName symbol text ↔ IsBare symbol text := by
  refine ⟨fun hquoted => (segments_eq_plain_iff h).mp ?_, quoted_of_isBare h⟩
  have hreadable := readable_of_readSegments (read_of_parse h) trivial
  have htext := write_of_parse h
  unfold quoted write at hquoted
  unfold write at htext
  cases hsegments : ident.segments with
  | nil => exact absurd hsegments (segments_ne_nil h)
  | cons segment rest =>
    have hfirst := hreadable segment (by simp [hsegments])
    rw [hsegments] at hquoted htext
    cases rest with
    | nil =>
      simp only [List.map_singleton, String.intercalate_singleton] at hquoted htext
      cases segment with
      | plain name => rw [show name = text from htext]
      | quoted name | wildcard => exact absurd (htext.symm.trans hquoted) (ne_quoteName symbol text)
    | cons next more =>
      simp only [List.map_cons, String.intercalate_cons_cons] at hquoted htext
      have hempty : text ≠ "" := by
        rintro rfl
        cases h
      cases segment with
      | plain name | quoted name =>
        exact absurd hquoted (quoteName_append_dot_ne hsymbol hempty name _)
      | wildcard =>
        have hhead := congrArg (fun written : String => written.toList.head?) hquoted
        simp only [Segment.write, String.toList_append, toList_quoteName] at hhead
        exact absurd (Option.some.inj hhead).symm hfirst

/-- Where a dot is the quote symbol, another text is written so as well. -/
example : parse '.' "a.*.b" = .ok ⟨[.plain "a", .wildcard, .plain "b"]⟩ ∧
    quoted '.' ⟨[.plain "a", .wildcard, .plain "b"]⟩ = quoteName '.' "a.*.b" := by decide +kernel

end Identifier

end SelectQuery
