import SelectQuery.Proofs.GivenAlias
import SelectQuery.Proofs.Mutation
import SelectQuery.Proofs.Qualifier
import SelectQuery.Proofs.RoundTrip

/-!
# Dotted names as columns and tables

A column is cut at the last dot of its text and a table at the first one, while the reader of
identifiers takes no dot between quote symbols for a separator. The three agree unless the cut falls
between quote symbols, and then the text in front of it is no identifier.

* `Identifier.readSegments_step`: what one character does to the reader;
* `Identifier.readSegments_at_dot`: what the reader makes of the text in front of a dot;
* `Segment.Undotted`, `Identifier.EndsUndotted`, `Identifier.StartsUndotted`: segments without dots;
* `Identifier.cutLast_of_undotted`, `Identifier.cutFirst_of_undotted`: cuts between segments;
* `Identifier.exists_unclosed_of_cutLast`, `Identifier.exists_unclosed_of_cutFirst`: cuts between
  quote symbols;
* `Dialect.columnOf`: an identifier as a column of a table;
* `Statement.firstTable`: a name as the first table;
* **`Dialect.renders_dotted_name`**: the column and the table that a dotted name asks for.
-/

namespace SelectQuery

open Text (Trimmed cutFirst cutLast)

/-- A segment without dots. Of those that can be read, only a name between quote symbols can have
some. -/
def Segment.Undotted : Segment → Prop
  | quoted name => '.' ∉ name.toList
  | plain _ | wildcard => True

instance : DecidablePred Segment.Undotted := fun segment =>
  match segment with
  | .quoted _ => inferInstanceAs (Decidable (_ ∉ _))
  | .plain _ | .wildcard => inferInstanceAs (Decidable True)

namespace Identifier

variable {symbol : Char}

/-! ## Dots and the reader -/

/-- One character leads on to another place, ends a segment, or is a fault, whatever stands behind
it. -/
theorem readSegments_step (symbol : Char) (place : Place) (c : Char) :
    (∃ next, ∀ rest, readSegments symbol place (c :: rest) = readSegments symbol next rest) ∨
    (∃ segment, ∀ rest, readSegments symbol place (c :: rest) =
      (readSegments symbol .start rest).map (segment :: ·)) ∨
    ∃ fault, ∀ rest, readSegments symbol place (c :: rest) = .error fault := by
  cases place with
  | start =>
    by_cases hopen : c = symbol
    · exact .inl ⟨.inside [], fun _ => by rw [readSegments, if_pos hopen]⟩
    · by_cases hdot : c = '.'
      · exact .inr (.inr ⟨_, fun _ => by rw [readSegments, if_neg hopen, if_pos hdot]⟩)
      · exact .inl ⟨.bare [c], fun _ => by rw [readSegments, if_neg hopen, if_neg hdot]⟩
  | bare name =>
    by_cases hdot : c = '.'
    · exact .inr (.inl ⟨bareSegment name, fun _ => by rw [readSegments, if_pos hdot]⟩)
    · exact .inl ⟨.bare (c :: name), fun _ => by rw [readSegments, if_neg hdot]⟩
  | inside name =>
    by_cases hclose : c = symbol
    · exact .inl ⟨.closing name, fun _ => by rw [readSegments, if_pos hclose]⟩
    · exact .inl ⟨.inside (c :: name), fun _ => by rw [readSegments, if_neg hclose]⟩
  | closing name =>
    by_cases hdoubled : c = symbol
    · exact .inl ⟨.inside (c :: name), fun _ => by rw [readSegments, if_pos hdoubled]⟩
    · refine .inr ?_
      cases hsegment : quotedSegment name with
      | error fault =>
        refine .inr ⟨fault, fun _ => ?_⟩
        rw [readSegments, if_neg hdoubled, hsegment]
        rfl
      | ok segment =>
        by_cases hdot : c = '.'
        · refine .inl ⟨segment, fun _ => ?_⟩
          simp only [readSegments, if_neg hdoubled, hsegment, bind, Except.bind, if_pos hdot]
        · refine .inr ⟨.missingDot c, fun _ => ?_⟩
          simp only [readSegments, if_neg hdoubled, hsegment, bind, Except.bind, if_neg hdot]

/-- **What the reader makes of the text in front of a dot**: some of the segments, or a name that is
not closed. -/
theorem readSegments_at_dot (hsymbol : symbol ≠ '.') {place : Place} {before after : List Char}
    {segments : List Segment}
    (h : readSegments symbol place (before ++ '.' :: after) = .ok segments) :
    (∃ front back, readSegments symbol place before = .ok front ∧
      readSegments symbol .start after = .ok back ∧ front ++ back = segments) ∨
    readSegments symbol place before = .error .unclosedQuote := by
  induction before generalizing place segments with
  | nil =>
    -- here the text in front ends, and the place says whether it may
    cases place with
    | start =>
      rw [List.nil_append, readSegments, if_neg hsymbol.symm, if_pos rfl] at h
      cases h
    | bare name =>
      rw [List.nil_append, readSegments, if_pos rfl] at h
      obtain ⟨back, hback, rfl⟩ := map_eq_ok_iff.mp h
      exact .inl ⟨[bareSegment name], back, rfl, hback, rfl⟩
    | inside name => exact .inr rfl
    | closing name =>
      rw [List.nil_append, readSegments, if_neg hsymbol.symm] at h
      obtain ⟨segment, hsegment, h⟩ := bind_eq_ok_iff.mp h
      rw [if_pos rfl] at h
      obtain ⟨back, hback, rfl⟩ := map_eq_ok_iff.mp h
      refine .inl ⟨[segment], back, ?_, hback, rfl⟩
      rw [readSegments, hsegment, Except.map]
  | cons c rest ih =>
    rw [List.cons_append] at h
    obtain ⟨next, hstep⟩ | ⟨segment, hstep⟩ | ⟨fault, hstep⟩ := readSegments_step symbol place c
    · rw [hstep] at h ⊢
      exact ih h
    · rw [hstep] at h ⊢
      obtain ⟨more, hmore, rfl⟩ := map_eq_ok_iff.mp h
      obtain ⟨front, back, hfront, hback, rfl⟩ | hunclosed := ih hmore
      · exact .inl ⟨segment :: front, back, by rw [hfront, Except.map], hback, rfl⟩
      · exact .inr (by rw [hunclosed, Except.map])
    · rw [hstep] at h
      cases h

theorem undotted_iff (hsymbol : symbol ≠ '.') {segment : Segment} (h : Readable symbol segment) :
    segment.Undotted ↔ '.' ∉ (segment.write symbol false).toList := by
  cases segment with
  | plain name => exact iff_of_true trivial h.1
  | quoted name =>
    simp [Segment.Undotted, Segment.write, mem_escape_iff, Ne.symm hsymbol]
  | wildcard =>
    rw [Segment.toList_write_wildcard]
    exact iff_of_true trivial (by decide)

theorem spelled_append {front back : List Segment} (hfront : front ≠ []) (hback : back ≠ []) :
    spelled symbol (front ++ back) = spelled symbol front ++ '.' :: spelled symbol back := by
  induction front with
  | nil => exact absurd rfl hfront
  | cons segment rest ih =>
    by_cases hlast : rest = []
    · subst hlast
      rw [List.singleton_append, spelled_cons hback, spelled_singleton]
    · rw [List.cons_append, spelled_cons (List.append_ne_nil_of_left_ne_nil hlast _), ih hlast,
        spelled_cons hlast, List.append_assoc, List.cons_append]

theorem exists_singleton_of_read (hsymbol : symbol ≠ '.') {text : List Char}
    {segments : List Segment} (hread : readSegments symbol .start text = .ok segments)
    (h : '.' ∉ text) : ∃ segment, segments = [segment] ∧ segment.Undotted := by
  obtain ⟨hne, hspelled⟩ := spelled_of_readSegments hread
  change spelled symbol segments = text at hspelled
  obtain ⟨segment, rest, rfl⟩ := List.exists_cons_of_ne_nil hne
  have hreadable := readable_of_readSegments hread trivial segment List.mem_cons_self
  by_cases hlast : rest = []
  · subst hlast
    rw [← hspelled, spelled_singleton] at h
    exact ⟨segment, rfl, (undotted_iff hsymbol hreadable).mpr h⟩
  · rw [← hspelled, spelled_cons hlast] at h
    exact absurd (List.mem_append_right _ List.mem_cons_self) h

/-! ## Cuts between segments -/

section

variable {text : List Char} {segments front rest : List Segment} {segment : Segment}

theorem cutLast_of_undotted (hsymbol : symbol ≠ '.')
    (hread : readSegments symbol .start text = .ok (front ++ [segment])) (h : segment.Undotted) :
    cutLast '.' text = if front = [] then none
      else some (spelled symbol front, spelled symbol [segment]) := by
  have hspelled : spelled symbol (front ++ [segment]) = text := (spelled_of_readSegments hread).2
  have hreadable := readable_of_readSegments hread trivial segment (by simp)
  have hdot : '.' ∉ spelled symbol [segment] := by
    rw [spelled_singleton]
    exact (undotted_iff hsymbol hreadable).mp h
  rw [← hspelled]
  split
  next hfront =>
    subst hfront
    exact Text.cutLast_eq_none_iff.mpr hdot
  next hfront =>
    rw [spelled_append hfront (List.cons_ne_nil _ _)]
    exact Text.cutLast_append_cons hdot _

theorem cutFirst_of_undotted (hsymbol : symbol ≠ '.')
    (hread : readSegments symbol .start text = .ok (segment :: rest)) (h : segment.Undotted) :
    cutFirst '.' text = if rest = [] then none
      else some (spelled symbol [segment], spelled symbol rest) := by
  have hspelled : spelled symbol ([segment] ++ rest) = text := (spelled_of_readSegments hread).2
  have hreadable := readable_of_readSegments hread trivial segment List.mem_cons_self
  have hdot : '.' ∉ spelled symbol [segment] := by
    rw [spelled_singleton]
    exact (undotted_iff hsymbol hreadable).mp h
  rw [← hspelled]
  split
  next hrest =>
    subst hrest
    exact Text.cutFirst_eq_none_iff.mpr hdot
  next hrest =>
    rw [spelled_append (List.cons_ne_nil _ _) hrest]
    exact Text.cutFirst_append_cons hdot _

/-! ## Cuts between quote symbols -/

theorem dot_mem_of_not_undotted (hsymbol : symbol ≠ '.')
    (hread : readSegments symbol .start text = .ok segments) (hmem : segment ∈ segments)
    (h : ¬ segment.Undotted) : '.' ∈ text := by
  refine Decidable.byContradiction fun hdot => ?_
  obtain ⟨only, rfl, honly⟩ := exists_singleton_of_read hsymbol hread hdot
  rw [List.mem_singleton.mp hmem] at h
  exact h honly

theorem exists_unclosed_of_cutLast (hsymbol : symbol ≠ '.')
    (hread : readSegments symbol .start text = .ok (front ++ [segment]))
    (h : ¬ segment.Undotted) :
    ∃ before after, cutLast '.' text = some (before, after) ∧
      readSegments symbol .start before = .error .unclosedQuote := by
  have hdot := dot_mem_of_not_undotted hsymbol hread (by simp) h
  obtain ⟨⟨before, after⟩, hcut⟩ := Option.ne_none_iff_exists'.mp
    (mt Text.cutLast_eq_none_iff.mp (not_not_intro hdot))
  refine ⟨before, after, hcut, ?_⟩
  rw [Text.eq_append_of_cutLast hcut] at hread
  refine (readSegments_at_dot hsymbol hread).resolve_left ?_
  rintro ⟨more, back, -, hback, heq⟩
  obtain ⟨only, rfl, honly⟩ := exists_singleton_of_read hsymbol hback (Text.not_mem_of_cutLast hcut)
  obtain rfl := List.singleton_inj.mp (List.append_inj_right' heq rfl)
  exact h honly

theorem exists_unclosed_of_cutFirst (hsymbol : symbol ≠ '.')
    (hread : readSegments symbol .start text = .ok (segment :: rest))
    (h : ¬ segment.Undotted) :
    ∃ before after, cutFirst '.' text = some (before, after) ∧
      readSegments symbol .start before = .error .unclosedQuote := by
  have hdot := dot_mem_of_not_undotted hsymbol hread List.mem_cons_self h
  obtain ⟨⟨before, after⟩, hcut⟩ := Option.ne_none_iff_exists'.mp
    (mt Text.cutFirst_eq_none_iff.mp (not_not_intro hdot))
  refine ⟨before, after, hcut, ?_⟩
  rw [Text.eq_append_of_cutFirst hcut] at hread
  refine (readSegments_at_dot hsymbol hread).resolve_left ?_
  rintro ⟨first, back, hfirst, -, heq⟩
  obtain ⟨only, rfl, honly⟩ := exists_singleton_of_read hsymbol hfirst
    (Text.not_mem_of_cutFirst hcut)
  obtain ⟨rfl, -⟩ := List.cons.inj heq
  exact h honly

end

/-! ## Parts of a name -/

/-- The last segment has no dot. -/
def EndsUndotted (ident : Identifier) : Prop :=
  ∀ segment ∈ ident.segments.getLast?, segment.Undotted

/-- The first segment has no dot. -/
def StartsUndotted (ident : Identifier) : Prop :=
  ∀ segment ∈ ident.segments.head?, segment.Undotted

theorem endsUndotted_concat {front : List Segment} {segment : Segment} :
    EndsUndotted ⟨front ++ [segment]⟩ ↔ segment.Undotted := by simp [EndsUndotted]

theorem startsUndotted_cons {segment : Segment} {rest : List Segment} :
    StartsUndotted ⟨segment :: rest⟩ ↔ segment.Undotted := by simp [StartsUndotted]

theorem exists_concat_of_parse {text : String} {ident : Identifier}
    (h : parse symbol text = .ok ident) : ∃ front segment, ident = ⟨front ++ [segment]⟩ :=
  ⟨_, _, congrArg mk (List.dropLast_concat_getLast (segments_ne_nil h)).symm⟩

theorem exists_cons_of_parse {text : String} {ident : Identifier}
    (h : parse symbol text = .ok ident) : ∃ segment rest, ident = ⟨segment :: rest⟩ := by
  obtain ⟨segment, rest, hsegments⟩ := List.exists_cons_of_ne_nil (segments_ne_nil h)
  exact ⟨segment, rest, congrArg mk hsegments⟩

theorem parse_ofList {text : List Char} {segments : List Segment} (hnul : '\x00' ∉ text)
    (h : readSegments symbol .start text = .ok segments) :
    parse symbol (String.ofList text) = .ok ⟨segments⟩ :=
  parse_eq_ok_iff.mpr (by simpa using ⟨hnul, h⟩)

theorem parse_ofList_unclosed {text : List Char} (hnul : '\x00' ∉ text)
    (h : readSegments symbol .start text = .error .unclosedQuote) :
    parse symbol (String.ofList text) =
      .error (.invalidIdentifier (Fault.unclosedQuote.message (String.ofList text))) := by
  have hne : text ≠ [] := by
    rintro rfl
    cases h
  simp [parse, read, hne, hnul, h, Except.map]

theorem parse_spelled_of_append (hsymbol : symbol ≠ '.') {text : String} {front back : List Segment}
    (h : parse symbol text = .ok ⟨front ++ back⟩) (hfront : front ≠ []) (hback : back ≠ []) :
    parse symbol (String.ofList (spelled symbol front)) = .ok ⟨front⟩ ∧
      parse symbol (String.ofList (spelled symbol back)) = .ok ⟨back⟩ := by
  obtain ⟨hnul, hread⟩ := parse_eq_ok_iff.mp h
  have hspelled : spelled symbol (front ++ back) = text.toList := (spelled_of_readSegments hread).2
  rw [← hspelled, spelled_append hfront hback] at hnul
  have hlegal := List.forall_mem_append.mp (legal_of_readSegments hread)
  exact ⟨parse_ofList (fun hmem => hnul (List.mem_append_left _ hmem))
      (readSegments_spelled hsymbol hfront hlegal.1),
    parse_ofList (fun hmem => hnul (List.mem_append_right _ (List.mem_cons_of_mem _ hmem)))
      (readSegments_spelled hsymbol hback hlegal.2)⟩

end Identifier

/-! ## Columns -/

theorem classify_name {name : String} (h : Trimmed name.toList) (hne : name.toList ≠ [])
    (hline : '\n' ∉ name.toList) (has : LacksAs name.toList) (target : Option String) :
    classify (.ofText name) target = .ok (some (classifyBody name.toList none target)) := by
  have htoken : columnToken name = name.toList :=
    (columnToken_eq h hne).trans (unbreak_eq_self hline)
  have hnone : TableInput.nonempty none = none := rfl
  have hclassify := classify_text target hnone (htoken ▸ hne)
  simp only [htoken, splitColumnAlias, splitAlias?_of_none h has] at hclassify
  exact hclassify

namespace Dialect

/-- An identifier as a column of a table: a single segment has the table in front of it. -/
def columnOf (d : Dialect) (target : String) (ident : Identifier) : String :=
  if ident.segments.length = 1 then
    d.writeIdentifier ⟨[.plain target]⟩ ++ "." ++ d.writeIdentifier ident
  else d.writeIdentifier ident

/-- A name is refused, since a quote symbol in front of one of its dots is not closed there. -/
def UnclosedBeforeDot (name : String) (outcome : Rendered) : Prop :=
  ∃ front back, name = front ++ "." ++ back ∧
    outcome = .error (.invalidIdentifier (Identifier.Fault.unclosedQuote.message front))

variable {d : Dialect} {name target : String} {ident : Identifier}

theorem columnOf_singleton (d : Dialect) (target : String) (segment : Segment) :
    d.columnOf target ⟨[segment]⟩ = d.writeIdentifier ⟨[.plain target] ++ [segment]⟩ :=
  (Identifier.write_append (List.cons_ne_nil _ _) (List.cons_ne_nil _ _) _ _).symm

theorem columnOf_concat {front : List Segment} (hfront : front ≠ []) (target : String)
    (segment : Segment) :
    d.columnOf target ⟨front ++ [segment]⟩ = d.writeIdentifier ⟨front ++ [segment]⟩ :=
  if_neg (by simpa using hfront)

theorem exists_unclosedBeforeDot {before after : List Char}
    (hname : d.readIdentifier name = .ok ident) (htext : name.toList = before ++ '.' :: after)
    (hunclosed : Identifier.readSegments d.quoteSymbol .start before = .error .unclosedQuote) :
    ∃ e, d.readIdentifier (String.ofList before) = .error e ∧
      UnclosedBeforeDot name (.error e) := by
  have hnul := (Identifier.parse_eq_ok_iff.mp hname).1
  rw [htext] at hnul
  refine ⟨_, Identifier.parse_ofList_unclosed (fun hmem => hnul (List.mem_append_left _ hmem))
    hunclosed, String.ofList before, String.ofList after, ?_, rfl⟩
  rw [← String.toList_inj, htext]
  simp

theorem classifyBody_name (h : isExpression name.toList = false) :
    classifyBody name.toList none (some target) =
      match cutLast '.' name.toList with
      | some (qualifier, last) =>
        ⟨some (String.ofList qualifier), .ident (String.ofList last), none⟩
      | none => ⟨some target, .ident name, none⟩ := by
  cases hcut : cutLast '.' name.toList with
  | some sides => simp [classifyBody, h, hcut]
  | none => simp [classifyBody, h, hcut]

theorem renderColumn_qualified {qualifier : String} {front back : List Segment}
    (hqualifier : d.readIdentifier qualifier = .ok ⟨front⟩)
    (hname : d.readIdentifier name = .ok ⟨back⟩) :
    d.renderColumn ⟨some qualifier, .ident name, none⟩ =
      .ok (d.writeIdentifier ⟨front ++ back⟩) := by
  simp [renderColumn, quoteColumnAs, quoteColumn, hqualifier, hname, asClause, bind, Except.bind,
    pure, Except.pure]

theorem renderColumn_of_endsUndotted (hsymbol : d.quoteSymbol ≠ '.')
    (hname : d.readIdentifier name = .ok ident)
    (htarget : d.readIdentifier target = .ok ⟨[.plain target]⟩)
    (hplain : isExpression name.toList = false) (hends : ident.EndsUndotted) :
    d.renderColumn (classifyBody name.toList none (some target)) =
      .ok (d.columnOf target ident) := by
  obtain ⟨front, segment, rfl⟩ := Identifier.exists_concat_of_parse hname
  rw [classifyBody_name hplain, Identifier.cutLast_of_undotted hsymbol
    (Identifier.read_of_parse hname) (Identifier.endsUndotted_concat.mp hends)]
  by_cases hfront : front = []
  · subst hfront
    exact (renderColumn_qualified htarget hname).trans
      (congrArg Except.ok (d.columnOf_singleton target segment).symm)
  · obtain ⟨hqualifier, hlast⟩ :=
      Identifier.parse_spelled_of_append hsymbol hname hfront (List.cons_ne_nil _ _)
    rw [if_neg hfront, columnOf_concat hfront]
    exact renderColumn_qualified hqualifier hlast

theorem renderColumn_of_not_endsUndotted (hsymbol : d.quoteSymbol ≠ '.')
    (hname : d.readIdentifier name = .ok ident) (hplain : isExpression name.toList = false)
    (hends : ¬ ident.EndsUndotted) :
    UnclosedBeforeDot name (d.renderColumn (classifyBody name.toList none (some target))) := by
  obtain ⟨front, segment, rfl⟩ := Identifier.exists_concat_of_parse hname
  obtain ⟨before, after, hcut, hunclosed⟩ := Identifier.exists_unclosed_of_cutLast hsymbol
    (Identifier.read_of_parse hname) (mt Identifier.endsUndotted_concat.mpr hends)
  obtain ⟨e, herror, hbefore⟩ :=
    exists_unclosedBeforeDot hname (Text.eq_append_of_cutLast hcut) hunclosed
  have hrender : d.renderColumn (classifyBody name.toList none (some target)) = .error e := by
    rw [classifyBody_name hplain, hcut]
    simp only [renderColumn, quoteColumnAs, quoteColumn, herror]
    rfl
  rwa [hrender]

end Dialect

/-! ## Tables -/

/-- The entry of FROM for a name in front of which there is no table. -/
def Statement.firstTable (name : String) : TableRef Statement :=
  let named := TableInput.resolveSchema name.toList none
  { correlation := String.ofList named.1
    join := none
    schema := TableInput.nonempty named.2
    source := .name (String.ofList named.1)
    condition := none }

theorem Statement.apply_selectFrom_name (d : Dialect) {name : String} (h : Trimmed name.toList)
    (hne : name.toList ≠ []) (has : LacksAs name.toList) :
    (ofDialect d).apply (.selectFrom (.ofName name) []) =
      (.ok [], { ofDialect d with tables := [firstTable name] }) := by
  have hresolved := TableInput.resolve?_of_trimmed h hne none none
  simp only [TableInput.resolveAlias, splitAlias?_of_none h has] at hresolved
  have hentry : (ofDialect d).newTable .inner (.ofName name) "" = .ok (firstTable name) := by
    simp only [newTable, TableInput.ofName, hresolved]
    rfl
  have hempty : (TableInput.ofName name).isEmpty = false := isBlankText_eq_false h hne
  refine apply_settle (r := .ok _) rfl ?_
  rw [Edit.selectFrom_run, hempty, if_neg Bool.false_ne_true, joined, hentry]
  rfl

namespace Dialect

variable {d : Dialect} {name target : String} {ident : Identifier}

theorem renderTable_firstTable (d : Dialect) (name : String) :
    d.renderTable ((Statement.firstTable name).map Statement.assemble) =
      match cutFirst '.' name.toList with
      | some (schema, table) =>
        d.quoteTableAs (TableInput.nonempty (some (String.ofList schema))) (String.ofList table)
          (some (String.ofList table))
      | none => d.quoteTableAs none name (some name) := by
  rw [Statement.firstTable, TableInput.resolveSchema]
  cases cutFirst '.' name.toList with
  | some sides => rfl
  | none =>
    rw [String.ofList_toList]
    rfl

theorem quoteTableAs_self (hname : d.readIdentifier name = .ok ident) :
    d.quoteTableAs none name (some name) = .ok (d.writeIdentifier ident) := by
  simp [quoteTableAs, quoteIdentifier, hname, asClause_of_eq, bind, Except.bind, pure, Except.pure,
    Except.map]

theorem quoteTableAs_schema_self {schema : String} {front back : List Segment}
    (hfront : front ≠ []) (hback : back ≠ []) (hschema : d.readIdentifier schema = .ok ⟨front⟩)
    (hname : d.readIdentifier name = .ok ⟨back⟩) :
    d.quoteTableAs (some schema) name (some name) = .ok (d.writeIdentifier ⟨front ++ back⟩) := by
  have hwrite : d.writeIdentifier ⟨front ++ back⟩ = _ :=
    Identifier.write_append hfront hback d.quoteSymbol d.autoQuote
  rw [hwrite]
  simp [quoteTableAs, quoteIdentifier, hname, hschema, asClause_of_eq, bind, Except.bind, pure,
    Except.pure, Except.map, writeIdentifier]

theorem renderTable_of_startsUndotted (hsymbol : d.quoteSymbol ≠ '.')
    (hname : d.readIdentifier name = .ok ident) (hstarts : ident.StartsUndotted) :
    d.renderTable ((Statement.firstTable name).map Statement.assemble) =
      .ok (d.writeIdentifier ident) := by
  obtain ⟨segment, rest, rfl⟩ := Identifier.exists_cons_of_parse hname
  rw [renderTable_firstTable, Identifier.cutFirst_of_undotted hsymbol
    (Identifier.read_of_parse hname) (Identifier.startsUndotted_cons.mp hstarts)]
  by_cases hrest : rest = []
  · subst hrest
    exact quoteTableAs_self hname
  · have hparts : d.readIdentifier name = .ok ⟨[segment] ++ rest⟩ := hname
    obtain ⟨hschema, htable⟩ :=
      Identifier.parse_spelled_of_append hsymbol hparts (List.cons_ne_nil _ _) hrest
    have hne : String.ofList (Identifier.spelled d.quoteSymbol [segment]) ≠ "" := by
      intro hempty
      rw [hempty] at hschema
      cases hschema
    rw [if_neg hrest]
    dsimp only
    rw [TableInput.nonempty_some hne]
    exact quoteTableAs_schema_self (List.cons_ne_nil _ _) hrest hschema htable

theorem renderTable_of_not_startsUndotted (hsymbol : d.quoteSymbol ≠ '.')
    (hname : d.readIdentifier name = .ok ident) (hstarts : ¬ ident.StartsUndotted) :
    UnclosedBeforeDot name
      (d.renderTable ((Statement.firstTable name).map Statement.assemble)) := by
  obtain ⟨segment, rest, rfl⟩ := Identifier.exists_cons_of_parse hname
  obtain ⟨before, after, hcut, hunclosed⟩ := Identifier.exists_unclosed_of_cutFirst hsymbol
    (Identifier.read_of_parse hname) (mt Identifier.startsUndotted_cons.mpr hstarts)
  obtain ⟨e, herror, hbefore⟩ :=
    exists_unclosedBeforeDot hname (Text.eq_append_of_cutFirst hcut) hunclosed
  have hne : String.ofList before ≠ "" := by
    intro hempty
    obtain rfl : before = [] := String.ofList_injective hempty
    cases hunclosed
  have hrender : d.renderTable ((Statement.firstTable name).map Statement.assemble) =
      .error e := by
    rw [renderTable_firstTable, hcut]
    simp only [TableInput.nonempty_some hne, quoteTableAs, quoteIdentifier, herror]
    rfl
  rwa [hrender]

/-- **The column and the table that a dotted name asks for.** Cut at its last dot, a name that is
read as an identifier is the column of that identifier, and cut at its first one it is the table,
unless the cut falls between quote symbols: then what is in front of it is refused. -/
theorem renders_dotted_name (hsymbol : d.quoteSymbol ≠ '.')
    (hname : d.readIdentifier name = .ok ident)
    (htarget : d.readIdentifier target = .ok ⟨[.plain target]⟩) (htrimmed : Trimmed name.toList)
    (hline : '\n' ∉ name.toList) (hplain : isExpression name.toList = false)
    (has : LacksAs name.toList) :
    (∃ column, classify (.ofText name) (some target) = .ok (some column) ∧
      (ident.EndsUndotted → d.renderColumn column = .ok (d.columnOf target ident)) ∧
      (¬ ident.EndsUndotted → UnclosedBeforeDot name (d.renderColumn column))) ∧
    ∃ table, (Statement.ofDialect d).apply (.selectFrom (.ofName name) []) =
        (.ok [], { Statement.ofDialect d with tables := [table] }) ∧
      (ident.StartsUndotted →
        d.renderTable (table.map Statement.assemble) = .ok (d.writeIdentifier ident)) ∧
      (¬ ident.StartsUndotted →
        UnclosedBeforeDot name (d.renderTable (table.map Statement.assemble))) := by
  have hne : name.toList ≠ [] := by
    intro hnil
    have hread := Identifier.read_of_parse hname
    rw [hnil] at hread
    cases hread
  exact ⟨⟨_, classify_name htrimmed hne hline has _,
      renderColumn_of_endsUndotted hsymbol hname htarget hplain,
      renderColumn_of_not_endsUndotted hsymbol hname hplain⟩,
    _, Statement.apply_selectFrom_name d htrimmed hne has,
    renderTable_of_startsUndotted hsymbol hname, renderTable_of_not_startsUndotted hsymbol hname⟩

/-- A dot between quote symbols in the middle of a name is no place for a cut. -/
theorem renders_dotted_name_between :
    let d := Dialect.postgres true
    let name := "sales.\"o.x\".id"
    let ident : Identifier := ⟨[.plain "sales", .quoted "o.x", .plain "id"]⟩
    d.quoteSymbol ≠ '.' ∧ d.readIdentifier name = .ok ident ∧
      d.readIdentifier "o" = .ok ⟨[.plain "o"]⟩ ∧ Trimmed name.toList ∧ '\n' ∉ name.toList ∧
      isExpression name.toList = false ∧ LacksAs name.toList ∧
      ident.EndsUndotted ∧ ident.StartsUndotted ∧
      (∃ column, classify (.ofText name) (some "o") = .ok (some column) ∧
        d.renderColumn column = .ok "\"sales\".\"o.x\".\"id\"") ∧
      ∃ table, (Statement.ofDialect d).apply (.selectFrom (.ofName name) []) =
          (.ok [], { Statement.ofDialect d with tables := [table] }) ∧
        d.renderTable (table.map Statement.assemble) = .ok "\"sales\".\"o.x\".\"id\"" := by
  intro d name ident
  have hname : d.readIdentifier name = .ok ident := by decide +kernel
  have htarget : d.readIdentifier "o" = .ok ⟨[.plain "o"]⟩ := by decide +kernel
  have htrimmed : Trimmed name.toList := trimmed_of_strip_eq (by decide +kernel)
  have hline : '\n' ∉ name.toList := by decide +kernel
  have hplain : isExpression name.toList = false := by decide +kernel
  have has : LacksAs name.toList := by decide +kernel
  have hends : ident.EndsUndotted := by simp [ident, Identifier.EndsUndotted, Segment.Undotted]
  have hstarts : ident.StartsUndotted := by
    simp [ident, Identifier.StartsUndotted, Segment.Undotted]
  have hcolumnOf : d.columnOf "o" ident = "\"sales\".\"o.x\".\"id\"" := by decide +kernel
  have hwrite : d.writeIdentifier ident = "\"sales\".\"o.x\".\"id\"" := by decide +kernel
  obtain ⟨⟨column, hcolumn, hrendered, -⟩, table, htable, hwritten, -⟩ :=
    renders_dotted_name (by decide) hname htarget htrimmed hline hplain has
  rw [hcolumnOf] at hrendered
  rw [hwrite] at hwritten
  exact ⟨by decide, hname, htarget, htrimmed, hline, hplain, has, hends, hstarts,
    ⟨column, hcolumn, hrendered hends⟩, table, htable, hwritten hstarts⟩

/-- A name between quote symbols with a dot in it, which is read as one segment, is neither a column
nor a table. -/
theorem single_quoted_refused :
    let d := Dialect.postgres true
    let name := "\"a.b\""
    let ident : Identifier := ⟨[.quoted "a.b"]⟩
    let refused : Rendered := .error (.invalidIdentifier "unclosed quoted identifier in '\"a'")
    d.readIdentifier name = .ok ident ∧ d.readIdentifier "o" = .ok ⟨[.plain "o"]⟩ ∧
      Trimmed name.toList ∧ '\n' ∉ name.toList ∧ isExpression name.toList = false ∧
      LacksAs name.toList ∧
      d.columnOf "o" ident = "\"o\".\"a.b\"" ∧ d.quoteIdentifier name = .ok "\"a.b\"" ∧
      (∃ column, classify (.ofText name) (some "o") = .ok (some column) ∧
        d.renderColumn column = refused) ∧
      ∃ table, (Statement.ofDialect d).apply (.selectFrom (.ofName name) []) =
          (.ok [], { Statement.ofDialect d with tables := [table] }) ∧
        d.renderTable (table.map Statement.assemble) = refused := by
  intro d name ident refused
  have htrimmed : Trimmed name.toList := trimmed_of_strip_eq (by decide +kernel)
  have has : LacksAs name.toList := by decide +kernel
  have hcolumn := classify_name htrimmed (by decide +kernel) (by decide +kernel) has (some "o")
  have htable := Statement.apply_selectFrom_name d htrimmed (by decide +kernel) has
  exact ⟨by decide +kernel, by decide +kernel, htrimmed, by decide +kernel, by decide +kernel, has,
    by decide +kernel, by decide +kernel, ⟨_, hcolumn, by decide +kernel⟩, _, htable,
    by decide +kernel⟩

end Dialect

end SelectQuery
