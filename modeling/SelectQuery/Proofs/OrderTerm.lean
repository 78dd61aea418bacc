import SelectQuery.Proofs.GivenAlias
import SelectQuery.Proofs.Outcome
import SelectQuery.Proofs.Part

/-!
# Terms with a direction behind them

The direction of a term is looked for as far behind as possible. So one that is written behind the
value, with blanks between them, is found whatever words stand in the value, and a term that is
written as it stands is read back as the same term.

* `isWord_of_isBlank`, `Spells.isWord_eq_true`: blanks stand between words, and a word for a
  direction has no place inside where another one could start;
* `lastDirection_append`, `LastDirection.unique`: a direction at the end is the last one, and there
  is one last direction;
* `InEitherCase`, `WritesTerm`: a value with a keyword behind it;
* `splitDirection_of_writesTerm`: the value and the direction come apart again;
* **`written_term_read_back`**: so do the terms that are written without quotes.
-/

namespace SelectQuery

open Text (isBlank isWord strip Trimmed)

/-! ## Words and blanks -/

theorem isWord_of_isBlank {c : Char} (h : isBlank c = true) : isWord c = false := by
  let blanks := List.range' 0x09 5 ++ [0x20, 0x85, 0xA0, 0x1680] ++ List.range' 0x2000 11 ++
    [0x2028, 0x2029, 0x202F, 0x205F, 0x3000]
  have hcode : c.toNat ∈ blanks := by
    simp only [isBlank, Bool.or_eq_true, Bool.and_eq_true, decide_eq_true_eq, beq_iff_eq] at h
    simp only [blanks, List.mem_append, List.mem_range'_1, List.mem_cons, List.not_mem_nil,
      or_false]
    omega
  have hall : ∀ n ∈ blanks, Text.inRanges n Text.wordRanges = false := by decide +kernel
  exact hall _ hcode

theorem isWord_of_isCaseOf {capital c : Char} (h : IsCaseOf capital c)
    (hcapital : isWord capital = true) (hlower : isWord capital.toLower = true) :
    isWord c = true := by
  rcases h with rfl | rfl | ⟨-, rfl⟩
  · exact hcapital
  · exact hlower
  · decide

variable {cs before word after front more back : List Char} {direction other : Direction}

theorem Spells.isWord_eq_true (h : Spells word direction) : ∀ c ∈ word, isWord c = true := by
  have hletters : direction.keyword.toList.all
      (fun capital => isWord capital && isWord capital.toLower) = true := by
    cases direction <;> decide
  intro c hc
  obtain ⟨capital, hmem, hcase⟩ := exists_of_forall₂ (List.Forall₂.flip h) hc
  obtain ⟨hcapital, hlower⟩ := Bool.and_eq_true_iff.mp (List.all_eq_true.mp hletters capital hmem)
  exact isWord_of_isCaseOf hcase hcapital hlower

/-! ## The last direction -/

theorem lastDirection_append {c : Char} (hboundary : before.getLast? = some c)
    (hc : isWord c = false) (hword : Spells word direction) :
    LastDirection (before ++ word) before word [] := by
  refine ⟨⟨List.append_nil _, ⟨direction, hword⟩, ⟨c, hboundary, hc⟩, rfl⟩, ?_⟩
  rintro front more back ⟨hsplit, -, ⟨x, hlast, hx⟩, -⟩
  by_contra hlonger
  rw [List.append_assoc] at hsplit
  -- a direction further behind would stand behind a letter of this one
  obtain ⟨rest, rfl, -⟩ | ⟨letters, rfl, hletters⟩ := List.append_eq_append_iff.mp hsplit
  · simp at hlonger
  · have hne : letters ≠ [] := by
      rintro rfl
      simp at hlonger
    rw [List.getLast?_append_of_ne_nil _ hne] at hlast
    have hmem : x ∈ word := by
      rw [hletters]
      exact List.mem_append_left _ (List.mem_of_getLast? hlast)
    rw [hword.isWord_eq_true x hmem] at hx
    cases hx

theorem LastDirection.unique (h : LastDirection cs before word after)
    (hmore : LastDirection cs front more back) : before = front ∧ word = more ∧ after = back := by
  have hlength : before.length = front.length :=
    Nat.le_antisymm (hmore.last _ _ _ h.toDirectionAt) (h.last _ _ _ hmore.toDirectionAt)
  have hsplit := h.split.trans hmore.split.symm
  rw [List.append_assoc, List.append_assoc] at hsplit
  obtain ⟨rfl, hrest⟩ := List.append_inj hsplit hlength
  obtain ⟨meant, hword⟩ := h.spelled
  obtain ⟨read, hread⟩ := hmore.spelled
  exact ⟨rfl, hword.append_inj hread hrest⟩

/-- **A term is cut in front of its last direction.** -/
theorem splitDirection_of_lastDirection {term : String}
    (h : LastDirection term.toList before word after) :
    splitDirection term = (String.ofList (strip before), wordDirection word) := by
  cases hcut : cutDirection term.toList with
  | none => exact absurd h.toDirectionAt (not_directionAt_of_cutDirection hcut _ _ _)
  | some found =>
    obtain ⟨front, direction⟩ := found
    obtain ⟨more, back, hlast, rfl⟩ := exists_lastDirection_of_cutDirection hcut
    obtain ⟨rfl, rfl, -⟩ := h.unique hlast
    rw [splitDirection, hcut]

/-! ## A direction behind a value -/

/-- A word is the keyword of a direction, each letter in either case. -/
def InEitherCase (word : List Char) (direction : Direction) : Prop :=
  List.Forall₂ (fun capital c => c = capital ∨ c = capital.toLower) direction.keyword.toList word

/-- A text is a trimmed value, blanks, and the keyword of a direction. -/
inductive WritesTerm : List Char → List Char → Direction → Prop
  | intro {value blanks word : List Char} {direction : Direction} (hvalue : value ≠ [])
      (htrimmed : Trimmed value) (hne : blanks ≠ []) (hblanks : ∀ c ∈ blanks, isBlank c = true)
      (hword : InEitherCase word direction) : WritesTerm (value ++ blanks ++ word) value direction

theorem InEitherCase.spells (h : InEitherCase word direction) : Spells word direction :=
  List.Forall₂.imp (fun _ _ hcase => hcase.elim .inl fun hlower => .inr (.inl hlower)) h

theorem InEitherCase.wordDirection_eq (h : InEitherCase word direction) :
    wordDirection word = direction := by
  have hspells := h.spells
  cases direction with
  | ascending => exact wordDirection_of_spells_ascending hspells
  | descending =>
    obtain _ | ⟨-, _ | ⟨-, _ | ⟨hs, _ | ⟨-, ⟨⟩⟩⟩⟩⟩ := h
    rw [wordDirection_of_spells_descending hspells]
    rcases hs with rfl | rfl <;> decide

/-- **The value and the direction come apart again**, whatever words stand in the value. -/
theorem splitDirection_of_writesTerm {text value : String}
    (h : WritesTerm text.toList value.toList direction) :
    splitDirection text = (value, direction) := by
  generalize htext : text.toList = cs at h
  generalize hvalue : value.toList = front at h
  obtain ⟨hne, htrimmed, hsome, hblanks, hword⟩ := h
  rename_i blanks word
  obtain ⟨lead, b, rfl⟩ : ∃ lead b, blanks = lead ++ [b] :=
    ⟨_, _, (List.dropLast_concat_getLast hsome).symm⟩
  have hboundary : (front ++ (lead ++ [b])).getLast? = some b := by simp
  have hlast := lastDirection_append hboundary (isWord_of_isBlank (hblanks b (by simp)))
    hword.spells
  have hstrip : strip (front ++ (lead ++ [b])) = front := by
    simpa using htrimmed.strip_append hne (List.forall_mem_nil _) hblanks
  rw [← htext] at hlast
  rw [splitDirection_of_lastDirection hlast, hstrip, hword.wordDirection_eq, ← hvalue,
    String.ofList_toList]

theorem WritesTerm.not_blank {value : List Char} (h : WritesTerm cs value direction) :
    value ≠ [] ∧ cs.all isBlank = false := by
  obtain ⟨hne, htrimmed, -⟩ := h
  obtain ⟨c, rest, rfl⟩ := List.exists_cons_of_ne_nil hne
  have hc : isBlank c = false := htrimmed.first c rfl
  exact ⟨hne, by simp [hc]⟩

theorem orderTerm?_of_writesTerm {text value : String}
    (h : WritesTerm text.toList value.toList direction) :
    orderTerm? (.text text) = some (.term value direction) := by
  obtain ⟨hvalue, hblank⟩ := h.not_blank
  have hne : value ≠ "" := by simpa using hvalue
  simp [orderTerm?, Text.isBlankText, hblank, splitDirection_of_writesTerm h, hne]

/-! ## Terms written as they stand -/

theorem inEitherCase_keyword (direction : Direction) :
    InEitherCase direction.keyword.toList direction := by
  unfold InEitherCase
  induction direction.keyword.toList with
  | nil => exact .nil
  | cons c rest ih => exact .cons (.inl rfl) ih

theorem writesTerm_keyword {value : String} (hne : value ≠ "") (htrimmed : Trimmed value.toList)
    (direction : Direction) :
    WritesTerm (value ++ " " ++ direction.keyword).toList value.toList direction := by
  rw [String.toList_append, String.toList_append]
  exact .intro (by simpa using hne) htrimmed (by decide) (List.all_eq_true.mp (by decide))
    (inEitherCase_keyword direction)

/-- Whether the value of a term is written without quotes. -/
def WrittenBare (value : String) : Prop :=
  isUnsigned value.toList = true ∨ isExpression value.toList = true

theorem renderOrder_of_writtenBare {value : String} (h : WrittenBare value) (d : Dialect)
    (direction : Direction) :
    d.renderOrder (.term value direction) = .ok (value ++ " " ++ direction.keyword) := by
  have hbare : (isUnsigned value.toList || isExpression value.toList) = true :=
    Bool.or_eq_true_iff.mpr h
  rw [Dialect.renderOrder, if_pos hbare]
  rfl

theorem apply_orderBy_text {text : String} {term : OrderTerm}
    (h : orderTerm? (.text text) = some term) (s : Statement) :
    s.apply (.orderBy [.text text]) = (.ok [], s.put (.orders (s.orders ++ [term]))) := by
  change (_, s.put (.orders (s.orders ++ [TermInput.text text].filterMap orderTerm?))) = _
  rw [List.filterMap_cons_some h, List.filterMap_nil]

/-- **What is written of a term is read as the term.** A direction behind a value is found, in any
case and behind any blanks, whatever words for directions the value has in it; and the text of a
term whose value is a whole number or has parentheses, given to `orderBy`, adds this term. -/
theorem written_term_read_back :
    (∀ text value : String, ∀ direction, WritesTerm text.toList value.toList direction →
      splitDirection text = (value, direction)) ∧
    ∀ value : String, ∀ direction, value ≠ "" → Trimmed value.toList → WrittenBare value →
      ∀ (d : Dialect) (s : Statement), ∃ text, d.renderOrder (.term value direction) = .ok text ∧
        s.apply (.orderBy [.text text]) =
          (.ok [], s.put (.orders (s.orders ++ [.term value direction]))) := by
  refine ⟨fun text value direction h => splitDirection_of_writesTerm h, ?_⟩
  intro value direction hne htrimmed hbare d s
  have hread := orderTerm?_of_writesTerm (writesTerm_keyword hne htrimmed direction)
  exact ⟨_, renderOrder_of_writtenBare hbare d direction, apply_orderBy_text hread s⟩

/-- A value that ends in a word for the other direction, and a stored term with one in
parentheses. -/
theorem written_term_read_back_among_directions :
    let text := "rank desc asc\t \u00a0dEsC"
    let value := "FIELD(rank, desc) ASC"
    let s := (Statement.ofDialect (Config.dialect {})).applyAll
      [.selectFrom (.ofName "orders AS o") [], .setPart (.orders [.term value .descending])]
    WritesTerm text.toList "rank desc asc".toList .descending ∧
      splitDirection text = ("rank desc asc", .descending) ∧
      (value ≠ "" ∧ Trimmed value.toList ∧ WrittenBare value) ∧
      s.dialect.renderOrder (.term value .descending) =
        .ok "FIELD(rank, desc) ASC DESC" ∧
      (s.apply (.orderBy [.text "FIELD(rank, desc) ASC DESC"])).2.orders =
        [.term value .descending, .term value .descending] := by
  intro text value s
  have hsplit : text.toList = "rank desc asc".toList ++ ['\t', ' ', '\u00a0'] ++ "dEsC".toList := by
    decide +kernel
  have hvalue : Trimmed "rank desc asc".toList := trimmed_of_strip_eq (by decide +kernel)
  have hword : InEitherCase "dEsC".toList .descending :=
    .cons (by decide) (.cons (by decide) (.cons (by decide) (.cons (by decide) .nil)))
  have hwrites : WritesTerm text.toList "rank desc asc".toList .descending := by
    rw [hsplit]
    exact .intro (by decide) hvalue (by decide) (List.all_eq_true.mp (by decide)) hword
  have hne : value ≠ "" := by decide
  have htrimmed : Trimmed value.toList := trimmed_of_strip_eq (by decide +kernel)
  have hbare : WrittenBare value := .inr (by decide +kernel)
  obtain ⟨hread, hback⟩ := written_term_read_back
  obtain ⟨sql, hrender, happly⟩ := hback value .descending hne htrimmed hbare s.dialect s
  have hsql : s.dialect.renderOrder (.term value .descending) =
      .ok "FIELD(rank, desc) ASC DESC" := by decide +kernel
  obtain rfl := Except.ok.inj (hrender.symm.trans hsql)
  refine ⟨hwrites, hread _ _ _ hwrites, ⟨hne, htrimmed, hbare⟩, hsql, ?_⟩
  rw [happly]
  rfl

end SelectQuery
