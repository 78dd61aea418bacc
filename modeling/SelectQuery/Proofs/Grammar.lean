import SelectQuery.Proofs.RoundTrip

/-!
# The grammar of identifiers

What the reader accepts is said here without the reader: an identifier is one segment or more with
dots between them, and a segment is a bare run of characters or a name between quote symbols.

* `Doubled`: the text of a name between its quote symbols;
* `Segment.Derives`, `Identifier.Derives`: the grammar;
* `Segment.derives_iff`, `Identifier.derives_iff`: what the grammar derives is what the writer
  writes, if bare names stay bare;
* `Identifier.readSegments_eq_ok_iff`: the reader follows the grammar;
* **`Identifier.parse_iff_derives`**: which texts are read, as what, and which are refused.
-/

namespace SelectQuery

/-- Characters that are no quote symbols stand once, and each quote symbol stands twice. -/
inductive Doubled (symbol : Char) : List Char → List Char → Prop
  | nil : Doubled symbol [] []
  | other {c : Char} {text name : List Char} (hc : c ≠ symbol) (h : Doubled symbol text name) :
      Doubled symbol (c :: text) (c :: name)
  | symbol {text name : List Char} (h : Doubled symbol text name) :
      Doubled symbol (symbol :: symbol :: text) (symbol :: name)

/-- The texts of a segment: `*`, a bare run of characters, or a name between quote symbols. -/
inductive Segment.Derives (symbol : Char) : List Char → Segment → Prop
  | wildcard (hfirst : '*' ≠ symbol) : Derives symbol ['*'] .wildcard
  | plain {run : List Char} (hne : run ≠ []) (hdot : '.' ∉ run) (hfirst : run.head? ≠ some symbol)
      (hstar : run ≠ ['*']) : Derives symbol run (.plain (String.ofList run))
  | quoted {text name : List Char} (hne : text ≠ []) (h : Doubled symbol text name) :
      Derives symbol (symbol :: text ++ [symbol]) (.quoted (String.ofList name))

/-- The texts of one segment or more, with a dot between each two of them. -/
inductive Identifier.Derives (symbol : Char) : List Char → List Segment → Prop
  | last {text : List Char} {segment : Segment} (h : segment.Derives symbol text) :
      Derives symbol text [segment]
  | cons {text rest : List Char} {segment : Segment} {segments : List Segment}
      (h : segment.Derives symbol text) (hrest : Derives symbol rest segments) :
      Derives symbol (text ++ '.' :: rest) (segment :: segments)

variable {symbol : Char}

/-! ## The grammar and the writer -/

theorem doubled_escape (symbol : Char) (name : List Char) :
    Doubled symbol (escape symbol name) name := by
  induction name with
  | nil => exact .nil
  | cons c rest ih =>
    rw [escape]
    split
    next hc =>
      subst hc
      exact .symbol ih
    next hc => exact .other hc ih

theorem doubled_iff {text name : List Char} :
    Doubled symbol text name ↔ text = escape symbol name := by
  refine ⟨fun h => ?_, fun h => h ▸ doubled_escape symbol name⟩
  induction h with
  | nil => rfl
  | other hc _ ih => rw [escape, if_neg hc, ih]
  | symbol _ ih => rw [escape, if_pos rfl, ih]

open Identifier (Legal IsBare spelled)

theorem Segment.derives_iff {text : List Char} {segment : Segment} :
    segment.Derives symbol text ↔
      Legal symbol segment ∧ (segment.write symbol false).toList = text := by
  constructor
  · intro h
    cases h with
    | wildcard hfirst => exact ⟨⟨hfirst.symm, nofun⟩, toList_write_wildcard symbol⟩
    | plain hne hdot hfirst hstar =>
      have hbare : IsBare symbol (String.ofList text) := by
        refine ⟨by simpa using hdot, by simpa using hfirst, fun heq => hstar ?_⟩
        exact String.ofList_injective heq
      refine ⟨⟨hbare, fun hempty => hne ?_⟩, String.toList_ofList⟩
      exact String.ofList_injective (Option.some.inj hempty)
    | @quoted inner name hne h =>
      obtain rfl := doubled_iff.mp h
      have hname : String.ofList name ≠ "" := fun hempty =>
        hne (escape_eq_nil_iff.mpr (String.ofList_injective hempty))
      refine ⟨⟨hname, fun hempty => hname (Option.some.inj hempty)⟩, ?_⟩
      simp [Segment.write]
  · rintro ⟨⟨hreadable, hname⟩, rfl⟩
    cases segment with
    | wildcard =>
      rw [toList_write_wildcard]
      exact .wildcard (Ne.symm hreadable)
    | plain name =>
      obtain ⟨hdot, hfirst, hstar⟩ := hreadable
      have hne : name.toList ≠ [] := fun hnil => hname (congrArg some (String.toList_inj.mp hnil))
      have h : Derives symbol name.toList (.plain (String.ofList name.toList)) :=
        .plain hne hdot hfirst fun heq => hstar (String.toList_inj.mp heq)
      rwa [String.ofList_toList] at h
    | quoted name =>
      have hne : escape symbol name.toList ≠ [] := fun hnil =>
        hreadable (String.toList_inj.mp (escape_eq_nil_iff.mp hnil))
      have h := Derives.quoted hne (doubled_escape symbol name.toList)
      rwa [String.ofList_toList, List.cons_append, ← toList_quoteName] at h

namespace Identifier

/-- **The texts of segments** are the readable segments with dots between them. -/
theorem derives_iff {text : List Char} {segments : List Segment} :
    Derives symbol text segments ↔
      segments ≠ [] ∧ (∀ segment ∈ segments, Legal symbol segment) ∧
        spelled symbol segments = text := by
  constructor
  · intro h
    induction h with
    | last h =>
      obtain ⟨hlegal, htext⟩ := Segment.derives_iff.mp h
      exact ⟨List.cons_ne_nil _ _, by simpa using hlegal, by rw [spelled_singleton, htext]⟩
    | cons h _ ih =>
      obtain ⟨hlegal, htext⟩ := Segment.derives_iff.mp h
      obtain ⟨hne, hrest, hspelled⟩ := ih
      refine ⟨List.cons_ne_nil _ _, List.forall_mem_cons.mpr ⟨hlegal, hrest⟩, ?_⟩
      rw [spelled_cons hne, htext, hspelled]
  · rintro ⟨hne, hlegal, rfl⟩
    induction segments with
    | nil => exact absurd rfl hne
    | cons segment rest ih =>
      obtain ⟨hsegment, hrest⟩ := List.forall_mem_cons.mp hlegal
      have h := Segment.derives_iff.mpr ⟨hsegment, rfl⟩
      by_cases hlast : rest = []
      · subst hlast
        rw [spelled_singleton]
        exact .last h
      · rw [spelled_cons hlast]
        exact .cons h (ih hlast hrest)

/-! ## The grammar and the reader -/

/-- **The reader follows the grammar.** -/
theorem readSegments_eq_ok_iff (hdot : symbol ≠ '.') {text : List Char}
    {segments : List Segment} :
    readSegments symbol .start text = .ok segments ↔ Derives symbol text segments := by
  rw [derives_iff]
  constructor
  · intro h
    obtain ⟨hne, hspelled⟩ := spelled_of_readSegments h
    exact ⟨hne, legal_of_readSegments h, hspelled⟩
  · rintro ⟨hne, hlegal, rfl⟩
    exact readSegments_spelled hdot hne hlegal

theorem Derives.unique (hdot : symbol ≠ '.') {text : List Char} {segments other : List Segment}
    (h : Derives symbol text segments) (hother : Derives symbol text other) : segments = other := by
  have hread := (readSegments_eq_ok_iff hdot).mpr h
  rw [(readSegments_eq_ok_iff hdot).mpr hother] at hread
  exact (Except.ok.inj hread).symm

theorem parse_ok_or_invalid (symbol : Char) (text : String) :
    (∃ ident, parse symbol text = .ok ident) ∨
      ∃ reason, parse symbol text = .error (.invalidIdentifier reason) := by
  unfold parse
  split
  · exact .inl ⟨_, rfl⟩
  · exact .inr ⟨_, rfl⟩

/-- **What is read, as what, and what is refused.** A text without NUL is read as the segments that
the grammar derives it from, of which there is one list at most; every other text is refused as an
invalid identifier. -/
theorem parse_iff_derives (hdot : symbol ≠ '.') (text : String) :
    (∀ ident, parse symbol text = .ok ident ↔
      '\x00' ∉ text.toList ∧ Derives symbol text.toList ident.segments) ∧
    (∀ segments other, Derives symbol text.toList segments → Derives symbol text.toList other →
      segments = other) ∧
    ((∃ reason, parse symbol text = .error (.invalidIdentifier reason)) ↔
      '\x00' ∈ text.toList ∨ ∀ segments, ¬ Derives symbol text.toList segments) := by
  have haccepts (ident : Identifier) : parse symbol text = .ok ident ↔
      '\x00' ∉ text.toList ∧ Derives symbol text.toList ident.segments := by
    rw [parse_eq_ok_iff, readSegments_eq_ok_iff hdot]
  refine ⟨haccepts, fun _ _ h hother => h.unique hdot hother, fun ⟨reason, hreason⟩ => ?_,
    fun hrefused => (parse_ok_or_invalid symbol text).resolve_left ?_⟩
  · refine or_iff_not_imp_left.mpr fun hnul segments h => ?_
    have hread := (haccepts ⟨segments⟩).mpr ⟨hnul, h⟩
    rw [hreason] at hread
    cases hread
  · rintro ⟨ident, hident⟩
    obtain ⟨hnul, h⟩ := (haccepts ident).mp hident
    exact hrefused.elim hnul fun hnone => hnone _ h

/-- A text with a dot and a doubled quote symbol between quote symbols, and one that goes on behind
a quote symbol. -/
theorem parse_iff_derives_mixed :
    let text := "sales.\"o.\"\"x\".a\"b.*"
    let segments : List Segment := [.plain "sales", .quoted "o.\"x", .plain "a\"b", .wildcard]
    '"' ≠ '.' ∧ parse '"' text = .ok ⟨segments⟩ ∧ Derives '"' text.toList segments ∧
      ∀ other, ¬ Derives '"' "\"o\"x".toList other := by
  intro text segments
  have hread : parse '"' text = .ok ⟨segments⟩ := by decide +kernel
  have hderives := (((parse_iff_derives (by decide) text).1 ⟨segments⟩).mp hread).2
  have hfault : parse '"' "\"o\"x" =
      .error (.invalidIdentifier ((Fault.missingDot 'x').message "\"o\"x")) := by decide +kernel
  have hrefused := (parse_iff_derives (by decide) "\"o\"x").2.2.mp ⟨_, hfault⟩
  exact ⟨by decide, hread, hderives, hrefused.resolve_left (by decide)⟩

end Identifier

end SelectQuery
