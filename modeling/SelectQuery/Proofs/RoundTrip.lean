import SelectQuery.Proofs.Identifier

/-!
# Identifiers written and read again

The reader finds the segments of a text where the writer has put them: a bare name goes on to the
next dot, and a quoted one to the first quote symbol that is not doubled.

* `Identifier.Legal`: the segments that a text can spell;
* `Identifier.readSegments_spelled`: legal segments are read as they are spelled;
* `Segment.enquoted`, `Identifier.enquoted`: bare names between quote symbols;
* **`Identifier.parse_quoted`**: an identifier that was read is read again from its quoted text,
  with every name quoted.
-/

namespace SelectQuery

theorem mem_escape_iff {symbol c : Char} {name : List Char} :
    c ∈ escape symbol name ↔ c ∈ name := by
  induction name with
  | nil => rfl
  | cons first rest ih =>
    rw [escape]
    split
    next hfirst => simp [ih, hfirst]
    next => simp [ih]

theorem Segment.toList_write_wildcard (symbol : Char) :
    (Segment.wildcard.write symbol false).toList = ['*'] := by simp [Segment.write]

/-- The same segment with its name between quote symbols. -/
def Segment.enquoted : Segment → Segment
  | plain name => quoted name
  | quoted name => quoted name
  | wildcard => wildcard

theorem Segment.write_enquoted (symbol : Char) (autoQuote : Bool) (segment : Segment) :
    segment.enquoted.write symbol autoQuote = segment.write symbol true := by
  cases segment <;> rfl

namespace Identifier

variable {symbol : Char}

/-- The same identifier with every name between quote symbols. -/
def enquoted (ident : Identifier) : Identifier := ⟨ident.segments.map Segment.enquoted⟩

theorem write_enquoted (symbol : Char) (autoQuote : Bool) (ident : Identifier) :
    ident.enquoted.write symbol autoQuote = ident.quoted symbol := by
  have hsegment : ∀ segment : Segment,
      segment.enquoted.write symbol autoQuote = segment.write symbol true :=
    Segment.write_enquoted symbol autoQuote
  simp [quoted, write, enquoted, Function.comp_def, hsegment]

/-! ## Legal segments -/

/-- A segment that a text can spell: a readable one whose name is not empty. -/
def Legal (symbol : Char) (segment : Segment) : Prop :=
  Readable symbol segment ∧ segment.name? ≠ some ""

theorem name?_bareSegment_ne {name : List Char} (h : (Place.bare name).Readable symbol) :
    (bareSegment name).name? ≠ some "" := by
  obtain ⟨-, first, hfirst, -⟩ := h
  intro hname
  unfold bareSegment Segment.ofName at hname
  split_ifs at hname with hstar
  · cases hname
  · have hempty : String.ofList name.reverse = String.ofList [] := Option.some.inj hname
    have hnil : name = [] := List.reverse_eq_nil_iff.mp (String.ofList_injective hempty)
    rw [hnil] at hfirst
    cases hfirst

theorem legal_of_readSegments {text : List Char} {segments : List Segment}
    (h : readSegments symbol .start text = .ok segments) :
    ∀ segment ∈ segments, Legal symbol segment := by
  refine forall_mem_of_readSegments (fun name hname => ?_) (fun name segment hsegment => ?_) h
    trivial
  · exact ⟨readable_bareSegment hname, name?_bareSegment_ne hname⟩
  · have hreadable : Readable symbol segment := readable_of_quotedSegment hsegment
    unfold quotedSegment at hsegment
    split_ifs at hsegment
    cases hsegment
    exact ⟨hreadable, fun hname => hreadable (Option.some.inj hname)⟩

theorem Legal.enquoted {segment : Segment} (h : Legal symbol segment) :
    Legal symbol segment.enquoted := by
  obtain ⟨hreadable, hname⟩ := h
  cases segment with
  | plain name => exact ⟨fun hempty => hname (congrArg some hempty), hname⟩
  | quoted name => exact ⟨hreadable, hname⟩
  | wildcard => exact ⟨hreadable, hname⟩

/-! ## Reading what was written -/

theorem readSegments_bare_append {name : List Char} (h : '.' ∉ name) (read rest : List Char) :
    readSegments symbol (.bare read) (name ++ rest) =
      readSegments symbol (.bare (name.reverse ++ read)) rest := by
  induction name generalizing read with
  | nil => rfl
  | cons c name ih =>
    obtain ⟨hc, hname⟩ := List.ne_and_not_mem_of_not_mem_cons h
    rw [List.cons_append, readSegments, if_neg (Ne.symm hc), ih hname]
    simp

/-- Where the reader stands behind a segment. -/
def Place.behind : Segment → Place
  | .plain name => .bare name.toList.reverse
  | .quoted name => .closing name.toList.reverse
  | .wildcard => .bare ['*']

theorem readSegments_write {segment : Segment} (h : Legal symbol segment) (rest : List Char) :
    readSegments symbol .start ((segment.write symbol false).toList ++ rest) =
      readSegments symbol (.behind segment) rest := by
  obtain ⟨hreadable, hname⟩ := h
  cases segment with
  | plain name =>
    obtain ⟨hdot, hfirst, -⟩ := hreadable
    change readSegments symbol .start (name.toList ++ rest) = _
    cases hlist : name.toList with
    | nil => exact absurd (congrArg some (String.toList_inj.mp hlist)) hname
    | cons c more =>
      rw [hlist] at hdot hfirst
      obtain ⟨hc, hmore⟩ := List.ne_and_not_mem_of_not_mem_cons hdot
      have hsymbol : c ≠ symbol := fun heq => hfirst (congrArg some heq)
      rw [List.cons_append, readSegments, if_neg hsymbol, if_neg (Ne.symm hc),
        readSegments_bare_append hmore, Place.behind, hlist, List.reverse_cons]
  | quoted name =>
    have hread : readSegments symbol (.inside []) (escape symbol name.toList ++ symbol :: rest) =
        readSegments symbol (.closing name.toList.reverse) rest := by
      rw [readSegments_inside_escape, List.append_nil]
    simp [Segment.write, readSegments, Place.behind, hread]
  | wildcard =>
    have hstar : '*' ≠ symbol := Ne.symm hreadable
    rw [Segment.toList_write_wildcard, List.singleton_append, readSegments, if_neg hstar,
      if_neg (by decide), Place.behind]

theorem bareSegment_reverse {name : String} (h : name ≠ "*") :
    bareSegment name.toList.reverse = .plain name := by
  simp [bareSegment, Segment.ofName, h]

theorem quotedSegment_reverse {name : String} (h : name ≠ "") :
    quotedSegment name.toList.reverse = .ok (.quoted name) := by
  simp [quotedSegment, h]

theorem readSegments_behind_nil {segment : Segment} (h : Readable symbol segment) :
    readSegments symbol (.behind segment) [] = .ok [segment] := by
  cases segment with
  | plain name => rw [Place.behind, readSegments, bareSegment_reverse h.2.2]
  | quoted name => rw [Place.behind, readSegments, quotedSegment_reverse h, Except.map]
  | wildcard => rfl

theorem readSegments_behind_dot (hsymbol : symbol ≠ '.') {segment : Segment}
    (h : Readable symbol segment) (rest : List Char) :
    readSegments symbol (.behind segment) ('.' :: rest) =
      (readSegments symbol .start rest).map (segment :: ·) := by
  cases segment with
  | plain name => rw [Place.behind, readSegments, if_pos rfl, bareSegment_reverse h.2.2]
  | quoted name =>
    rw [Place.behind, readSegments, if_neg (Ne.symm hsymbol), quotedSegment_reverse h]
    rfl
  | wildcard => rw [Place.behind, readSegments, if_pos rfl]; rfl

/-- **Legal segments are read as they are spelled.** -/
theorem readSegments_spelled (hsymbol : symbol ≠ '.') {segments : List Segment}
    (hne : segments ≠ []) (h : ∀ segment ∈ segments, Legal symbol segment) :
    readSegments symbol .start (spelled symbol segments) = .ok segments := by
  induction segments with
  | nil => exact absurd rfl hne
  | cons segment rest ih =>
    obtain ⟨hsegment, hrest⟩ := List.forall_mem_cons.mp h
    by_cases hlast : rest = []
    · subst hlast
      have hread := readSegments_write hsegment []
      rw [List.append_nil] at hread
      rw [spelled_singleton, hread, readSegments_behind_nil hsegment.1]
    · rw [spelled_cons hlast, readSegments_write hsegment,
        readSegments_behind_dot hsymbol hsegment.1, ih hlast hrest, Except.map]

/-! ## The quoted text -/

theorem parse_eq_ok_iff {text : String} {ident : Identifier} :
    parse symbol text = .ok ident ↔
      '\x00' ∉ text.toList ∧ readSegments symbol .start text.toList = .ok ident.segments := by
  constructor
  · intro h
    refine ⟨fun hnul => ?_, read_of_parse h⟩
    have hread : read symbol text.toList = .error .containsNul := by
      have hne : text ≠ "" := by
        rintro rfl
        cases hnul
      simp [read, hne, hnul]
    rw [parse, hread] at h
    cases h
  · rintro ⟨hnul, hread⟩
    have hne : text ≠ "" := by
      rintro rfl
      cases hread
    simp [parse, read, hne, hnul, hread, Except.map]

theorem mem_spelled_enquoted {c : Char} {segments : List Segment}
    (h : c ∈ spelled symbol (segments.map Segment.enquoted)) :
    c = symbol ∨ c ∈ spelled symbol segments := by
  have hsegment : ∀ segment : Segment, c ∈ (segment.enquoted.write symbol false).toList →
      c = symbol ∨ c ∈ (segment.write symbol false).toList := by
    intro segment hmem
    cases segment with
    | plain name =>
      simp only [Segment.enquoted, Segment.write, toList_quoteName, List.mem_cons,
        List.mem_append, mem_escape_iff, List.not_mem_nil, or_false] at hmem
      rcases hmem with hc | hc | hc
      · exact .inl hc
      · exact .inr hc
      · exact .inl hc
    | quoted name => exact .inr hmem
    | wildcard => exact .inr hmem
  induction segments with
  | nil => cases h
  | cons segment rest ih =>
    by_cases hlast : rest = []
    · subst hlast
      rw [List.map_singleton, spelled_singleton] at h
      rw [spelled_singleton]
      exact hsegment segment h
    · rw [List.map_cons, spelled_cons (by simpa using hlast), List.mem_append, List.mem_cons] at h
      rw [spelled_cons hlast, List.mem_append, List.mem_cons]
      rcases h with h | h | h
      · exact (hsegment segment h).imp_right .inl
      · exact .inr (.inr (.inl h))
      · exact (ih h).imp_right fun hrest => .inr (.inr hrest)

/-- **Quoting and reading are inverse.** The quoted text of an identifier that was read is read as
the same segments, each name quoted, and is the quoted text of these again; the bare text is the
one that was read first. -/
theorem parse_quoted {text : String} {ident : Identifier} (hdot : symbol ≠ '.')
    (hnul : symbol ≠ '\x00') (h : parse symbol text = .ok ident) :
    parse symbol (ident.quoted symbol) = .ok ident.enquoted ∧
      ident.enquoted.quoted symbol = ident.quoted symbol ∧ ident.write symbol false = text := by
  obtain ⟨hfree, hread⟩ := parse_eq_ok_iff.mp h
  have hspelled : spelled symbol ident.segments = text.toList := (spelled_of_readSegments hread).2
  have hquoted : (ident.quoted symbol).toList = spelled symbol ident.enquoted.segments := by
    rw [← write_enquoted symbol false, toList_write_false]
  have hlegal : ∀ segment ∈ ident.enquoted.segments, Legal symbol segment :=
    List.forall_mem_map.mpr fun segment hmem => (legal_of_readSegments hread segment hmem).enquoted
  have hne : ident.enquoted.segments ≠ [] := by simpa [enquoted] using segments_ne_nil h
  refine ⟨parse_eq_ok_iff.mpr ⟨?_, ?_⟩, write_enquoted symbol true ident, write_of_parse h⟩
  · rw [hquoted]
    intro hmem
    rcases mem_spelled_enquoted hmem with heq | hmem
    · exact hnul heq.symm
    · rw [hspelled] at hmem
      exact hfree hmem
  · rw [hquoted]
    exact readSegments_spelled hdot hne hlegal

theorem parse_quoted_mixed :
    let text := "sales.\"o\"\"x\".a\"b.*"
    let ident : Identifier := ⟨[.plain "sales", .quoted "o\"x", .plain "a\"b", .wildcard]⟩
    '"' ≠ '.' ∧ '"' ≠ '\x00' ∧ parse '"' text = .ok ident ∧
      parse '"' (ident.quoted '"') =
        .ok ⟨[.quoted "sales", .quoted "o\"x", .quoted "a\"b", .wildcard]⟩ ∧
      ident.quoted '"' = "\"sales\".\"o\"\"x\".\"a\"\"b\".*" ∧ ident.write '"' false = text := by
  intro text ident
  have h : parse '"' text = .ok ident := by decide +kernel
  obtain ⟨hquoted, -, hbare⟩ := parse_quoted (by decide) (by decide) h
  exact ⟨by decide, by decide, h, hquoted, by decide +kernel, hbare⟩

end Identifier

end SelectQuery
