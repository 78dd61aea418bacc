import SelectQuery.Proofs.Direction

/-!
# Aliases given and aliases written

The alias of a column or a table is given apart, or it is written behind the text with the word `AS`
between blanks. The last such word decides, so the two ways agree for every text, even one that has
the word in it, as long as there is no blank in the alias.

* `SpellsAs`, `WritesAlias`: a text with an alias behind it;
* `lastAs_append`, `lacksAs_blanks_append`: behind the `AS` of such a text there is no other one;
* `WritesAlias.splitAlias?_eq`: the text and the alias come apart again;
* `WritesAlias.unbreak`: so they do on one line;
* **`classify_and_resolve_of_writesAlias`**: an alias that is written is as good as one that is
  given.
-/

namespace SelectQuery

open Text (isBlank strip stripStart stripEnd Trimmed)

variable {cs before after : List Char}

/-! ## Trimmed texts -/

theorem Text.Trimmed.strip_append (h : Trimmed cs) (hne : cs ≠ [])
    (hbefore : ∀ c ∈ before, isBlank c = true) (hafter : ∀ c ∈ after, isBlank c = true) :
    strip (before ++ cs ++ after) = cs := by
  have hfirst : ∀ c ∈ (cs ++ after).head?, isBlank c = false := by
    rw [List.head?_append_of_ne_nil _ hne]
    exact h.first
  have hlast : ∀ c ∈ cs.reverse.head?, isBlank c = false := by
    rw [List.head?_reverse]
    exact h.last
  have hend : stripEnd (cs ++ after) = cs := by
    have hback : stripStart (after.reverse ++ cs.reverse) = cs.reverse :=
      stripStart_blanks_append (by simpa using hafter) hlast
    change (stripStart (cs ++ after).reverse).reverse = cs
    rw [List.reverse_append, hback, List.reverse_reverse]
  rw [strip, List.append_assoc, stripStart_blanks_append hbefore hfirst, hend]

theorem Text.Trimmed.strip_eq (h : Trimmed cs) (hne : cs ≠ []) : strip cs = cs := by
  simpa using h.strip_append hne (List.forall_mem_nil _) (List.forall_mem_nil _)

theorem trimmed_of_strip_eq (h : strip cs = cs) : Trimmed cs := h ▸ Text.trimmed_strip cs

theorem trimmed_of_solid (h : ∀ c ∈ cs, isBlank c = false) : Trimmed cs :=
  ⟨fun c hc => h c (List.mem_of_head? hc), fun c hc => h c (List.mem_of_getLast? hc)⟩

/-! ## The last `AS` -/

theorem lacksAs_cons {c : Char} (hc : isBlank c = false) (h : LacksAs cs) : LacksAs (c :: cs) := by
  intro n
  cases n with
  | zero => exact startsWithAs_of_first (by simpa using hc)
  | succ n => exact h n

theorem startsWithAs_blanks_append {blanks word : List Char}
    (hblanks : ∀ c ∈ blanks, isBlank c = true) (hword : ∀ c ∈ word, isBlank c = false) :
    startsWithAs (blanks ++ word) = false := by
  match blanks, hblanks with
  | [], _ => exact startsWithAs_of_first fun c hc => hword c (List.mem_of_head? hc)
  | [_], _ => exact startsWithAs_of_fourth fun c hc => hword c (List.mem_of_getElem? hc)
  | _ :: second :: rest, hblanks =>
    -- the second character is a blank, and so no letter
    have hsecond : isBlank second = true := hblanks second (by simp)
    have hlower : second ≠ 'a' := by
      rintro rfl
      cases hsecond
    have hupper : second ≠ 'A' := by
      rintro rfl
      cases hsecond
    rcases hrest : rest ++ word with _ | ⟨third, _ | ⟨fourth, more⟩⟩ <;>
      simp [startsWithAs, hrest, hlower, hupper]

theorem lacksAs_blanks_append {blanks word : List Char} (hblanks : ∀ c ∈ blanks, isBlank c = true)
    (hword : ∀ c ∈ word, isBlank c = false) : LacksAs (blanks ++ word) := by
  intro n
  rw [List.drop_append]
  exact startsWithAs_blanks_append (fun c hc => hblanks c (List.mem_of_mem_drop hc))
    fun c hc => hword c (List.mem_of_mem_drop hc)

theorem lastAs_append {c : Char} {rest : List Char} (hhere : startsWithAs (c :: rest) = true)
    (h : LacksAs rest) (front : List Char) : LastAs (front ++ c :: rest) front.length := by
  refine ⟨by rwa [List.drop_left], fun m hm => ?_⟩
  obtain ⟨k, rfl⟩ := Nat.exists_eq_add_of_lt hm
  rw [Nat.add_assoc, List.drop_append, List.drop_eq_nil_of_le (Nat.le_add_right _ _)]
  simpa using h k

/-! ## Texts with an alias -/

/-- The word `AS` in any case; a long s is an s. -/
def SpellsAs (word : List Char) : Prop := List.Forall₂ IsCaseOf ['A', 'S'] word

/-- A text is `body`, the word `AS` between blanks, and an alias without blanks. -/
inductive WritesAlias : List Char → List Char → List Char → Prop
  | intro {body before word after aliasName : List Char} (hbody : body ≠ [])
      (htrimmed : Trimmed body) (hbefore : before ≠ []) (hblanks : ∀ c ∈ before, isBlank c = true)
      (hword : SpellsAs word) (hafter : after ≠ []) (hspaces : ∀ c ∈ after, isBlank c = true)
      (halias : aliasName ≠ []) (hsolid : ∀ c ∈ aliasName, isBlank c = false) :
      WritesAlias (body ++ before ++ word ++ after ++ aliasName) body aliasName

theorem spellsAs_iff {word : List Char} :
    SpellsAs word ↔ ∃ a s, word = [a, s] ∧ IsCaseOf 'A' a ∧ IsCaseOf 'S' s := by
  constructor
  · rintro (_ | ⟨ha, _ | ⟨hs, ⟨⟩⟩⟩)
    exact ⟨_, _, rfl, ha, hs⟩
  · rintro ⟨a, s, rfl, ha, hs⟩
    exact .cons ha (.cons hs .nil)

theorem SpellsAs.isBlank_eq_false {word : List Char} (h : SpellsAs word) :
    ∀ c ∈ word, isBlank c = false := by
  obtain ⟨a, s, rfl, ha, hs⟩ := spellsAs_iff.mp h
  simp only [List.forall_mem_cons]
  exact ⟨isBlank_of_isCaseOf ha rfl rfl, isBlank_of_isCaseOf hs rfl rfl, List.forall_mem_nil _⟩

theorem startsWithAs_of_spells {b a s c : Char} (hb : isBlank b = true) (ha : IsCaseOf 'A' a)
    (hs : IsCaseOf 'S' s) (hc : isBlank c = true) (rest : List Char) :
    startsWithAs (b :: a :: s :: c :: rest) = true := by
  have hletter : a = 'a' ∨ a = 'A' := by
    rcases ha with h | h | ⟨h, -⟩
    · exact .inr h
    · exact .inl h
    · cases h
  simp [startsWithAs, hb, hc, hletter, isCaseOf_iff_isLetterS.mp hs]

variable {text body aliasName : List Char}

theorem WritesAlias.trimmed (h : WritesAlias text body aliasName) : Trimmed text := by
  obtain ⟨hbody, htrimmed, -, -, -, -, -, halias, hsolid⟩ := h
  refine ⟨fun c hc => htrimmed.first c ?_, fun c hc => (trimmed_of_solid hsolid).last c ?_⟩
  · simp only [List.append_assoc] at hc
    rwa [List.head?_append_of_ne_nil _ hbody] at hc
  · rwa [List.getLast?_append_of_ne_nil _ halias] at hc

/-- **The text and the alias come apart again.** -/
theorem WritesAlias.splitAlias?_eq (h : WritesAlias text body aliasName) :
    splitAlias? text = some (body, aliasName) := by
  have htext := h.trimmed
  obtain ⟨hbody, htrimmed, hbefore, hblanks, hword, hafter, hspaces, halias, hsolid⟩ := h
  rename_i before word after
  obtain ⟨a, s, rfl, ha, hs⟩ := spellsAs_iff.mp hword
  obtain ⟨lead, b, rfl⟩ : ∃ lead b, before = lead ++ [b] :=
    ⟨_, _, (List.dropLast_concat_getLast hbefore).symm⟩
  obtain ⟨c, trail, rfl⟩ := List.exists_cons_of_ne_nil hafter
  have hsplit : body ++ (lead ++ [b]) ++ [a, s] ++ c :: trail ++ aliasName =
      (body ++ lead) ++ b :: a :: s :: c :: (trail ++ aliasName) := by simp
  rw [hsplit] at htext ⊢
  have hhere := startsWithAs_of_spells (hblanks b (by simp)) ha hs (hspaces c (by simp))
    (trail ++ aliasName)
  have hnone : LacksAs (a :: s :: c :: (trail ++ aliasName)) :=
    lacksAs_cons (isBlank_of_isCaseOf ha rfl rfl) (lacksAs_cons (isBlank_of_isCaseOf hs rfl rfl)
      (lacksAs_blanks_append hspaces hsolid))
  rw [splitAlias?_of_lastAs htext (lastAs_append hhere hnone (body ++ lead)), List.take_left]
  have hfront : strip (body ++ lead) = body := by
    have hlead : ∀ c ∈ lead, isBlank c = true := fun c hc => hblanks c (by simp [hc])
    simpa using htrimmed.strip_append hbody (List.forall_mem_nil _) hlead
  have hback : strip (trail ++ aliasName) = aliasName := by
    have htrail : ∀ c ∈ trail, isBlank c = true := fun c hc => hspaces c (by simp [hc])
    simpa using (trimmed_of_solid hsolid).strip_append halias htrail (List.forall_mem_nil _)
  rw [← List.drop_drop, List.drop_left, hfront]
  simp [hback]

theorem WritesAlias.unbreak (h : WritesAlias text body aliasName) :
    WritesAlias (SelectQuery.unbreak text) (SelectQuery.unbreak body) aliasName := by
  obtain ⟨hbody, htrimmed, hbefore, hblanks, hword, hafter, hspaces, halias, hsolid⟩ := h
  have hline {cs : List Char} (h : ∀ c ∈ cs, isBlank c = false) : SelectQuery.unbreak cs = cs :=
    unbreak_eq_self fun hmem => absurd (h _ hmem) (by decide)
  have hkept {cs : List Char} (h : ∀ c ∈ cs, isBlank c = true) :
      ∀ c ∈ SelectQuery.unbreak cs, isBlank c = true :=
    List.forall_mem_map.mpr fun c hc => (isBlank_unbreak c).trans (h c hc)
  simp only [unbreak_append, hline hword.isBlank_eq_false, hline hsolid]
  exact .intro (mt unbreak_eq_nil_iff.mp hbody) htrimmed.unbreak
    (mt unbreak_eq_nil_iff.mp hbefore) (hkept hblanks) hword (mt unbreak_eq_nil_iff.mp hafter)
    (hkept hspaces) halias hsolid

theorem WritesAlias.ne_nil (h : WritesAlias text body aliasName) :
    text ≠ [] ∧ body ≠ [] ∧ aliasName ≠ [] := by
  obtain ⟨hbody, -, -, -, -, -, -, halias, -⟩ := h
  exact ⟨List.append_ne_nil_of_right_ne_nil _ halias, hbody, halias⟩

theorem WritesAlias.trimmed_body (h : WritesAlias text body aliasName) : Trimmed body := by
  obtain ⟨-, htrimmed, -⟩ := h
  exact htrimmed

/-! ## Columns and tables -/

theorem TableInput.nonempty_some {name : String} (h : name ≠ "") :
    nonempty (some name) = some name := Option.filter_eq_some_iff.mpr ⟨rfl, by simpa using h⟩

theorem columnToken_eq {text : String} (h : Trimmed text.toList) (hne : text.toList ≠ []) :
    columnToken text = unbreak text.toList := by
  rw [columnToken, h.strip_eq hne]

theorem classify_aliased {text aliasName : String} (target : Option String)
    (halias : aliasName ≠ "") (hne : columnToken text ≠ []) :
    classify (.aliased aliasName (.ofText text)) target =
      .ok (some (classifyBody (columnToken text) (some aliasName) target)) := by
  have hempty : (unbreak (strip text.toList)).isEmpty = false := by simpa [columnToken] using hne
  have hname := TableInput.nonempty_some halias
  simp only [classify, classifyText, ColumnInput.aliased, ColumnInput.ofText, hname, hempty]
  rfl

theorem isBlankText_eq_false {text : String} (h : Trimmed text.toList) (hne : text.toList ≠ []) :
    Text.isBlankText text = false := by
  obtain ⟨c, rest, hcons⟩ := List.exists_cons_of_ne_nil hne
  have hfirst : isBlank c = false := h.first c (by rw [hcons]; rfl)
  simp [Text.isBlankText, hcons, hfirst]

theorem TableInput.resolve?_of_trimmed {text : String} (h : Trimmed text.toList)
    (hne : text.toList ≠ []) (correlation schema : Option String) :
    TableInput.resolve? ⟨some (.name text), correlation, schema⟩ =
      let named := resolveAlias text.toList correlation
      let name := resolveSchema named.1 schema
      some ⟨.name (String.ofList name.1), nonempty named.2, nonempty name.2⟩ := by
  have hblank : TableInput.isEmpty ⟨some (.name text), correlation, schema⟩ = false :=
    isBlankText_eq_false h hne
  simp only [resolve?, hblank, h.strip_eq hne]
  rfl

/-- **An alias that is written is as good as one that is given**, for a column and for a table; the
column has it, and it is the correlation name of the table. -/
theorem classify_and_resolve_of_writesAlias {text body aliasName : String}
    (h : WritesAlias text.toList body.toList aliasName.toList) (target : Option String) :
    (classify (.ofText text) target = classify (.aliased aliasName (.ofText body)) target ∧
      ∃ column, classify (.ofText text) target = .ok (some column) ∧
        column.aliasName = some aliasName) ∧
    (TableInput.ofName text).resolve? = (TableInput.aliased aliasName (.ofName body)).resolve? ∧
      ∃ table, (TableInput.ofName text).resolve? = some table ∧
        table.correlation = some aliasName := by
  obtain ⟨htext, hbody, halias⟩ := h.ne_nil
  have hname : aliasName ≠ "" := by simpa using halias
  have hwritten : classify (.ofText text) target =
      .ok (some (classifyBody (columnToken body) (some aliasName) target)) := by
    have htoken : columnToken text ≠ [] := by
      rw [columnToken_eq h.trimmed htext]
      exact h.unbreak.ne_nil.1
    have hnone : TableInput.nonempty none = none := rfl
    have hclassify := classify_text target hnone htoken
    simp only [columnToken_eq h.trimmed htext, splitColumnAlias, h.unbreak.splitAlias?_eq,
      String.ofList_toList] at hclassify
    rw [columnToken_eq h.trimmed_body hbody]
    exact hclassify
  have hgiven : classify (.aliased aliasName (.ofText body)) target =
      .ok (some (classifyBody (columnToken body) (some aliasName) target)) := by
    refine classify_aliased target hname ?_
    rw [columnToken_eq h.trimmed_body hbody]
    exact h.unbreak.ne_nil.2.1
  have hresolved : (TableInput.aliased aliasName (.ofName body)).resolve? = _ :=
    TableInput.resolve?_of_trimmed h.trimmed_body hbody (some aliasName) none
  have htable : (TableInput.ofName text).resolve? =
      (TableInput.aliased aliasName (.ofName body)).resolve? := by
    refine (TableInput.resolve?_of_trimmed h.trimmed htext none none).trans ?_
    rw [hresolved]
    simp only [TableInput.resolveAlias, h.splitAlias?_eq, String.ofList_toList]
  exact ⟨⟨hwritten.trans hgiven.symm, _, hwritten, aliasName_classifyBody _ _ _⟩, htable, _,
    htable.trans hresolved, TableInput.nonempty_some hname⟩

/-- A text that has the word in it twice, the second time at its end, and blanks of other kinds
around the last one. -/
theorem classify_and_resolve_of_writesAlias_repeated :
    let text := "shop.a AS b as\n\taS\u00a0 x.y"
    let body := "shop.a AS b as"
    WritesAlias text.toList body.toList "x.y".toList ∧
      classify (.ofText text) (some "o") = classify (.aliased "x.y" (.ofText body)) (some "o") ∧
      (TableInput.ofName text).resolve? = (TableInput.aliased "x.y" (.ofName body)).resolve? := by
  intro text body
  have hsplit : text.toList =
      body.toList ++ ['\n', '\t'] ++ ['a', 'S'] ++ ['\u00a0', ' '] ++ "x.y".toList := by
    decide +kernel
  have htrimmed : Trimmed body.toList := trimmed_of_strip_eq (by decide +kernel)
  have hsolid : "x.y".toList.all (! isBlank ·) = true := by decide +kernel
  have h : WritesAlias text.toList body.toList "x.y".toList := by
    rw [hsplit]
    exact .intro (by decide) htrimmed (by decide) (List.all_eq_true.mp (by decide))
      (.cons (by decide) (.cons (by decide) .nil)) (by decide) (List.all_eq_true.mp (by decide))
      (by decide) (by simpa using hsolid)
  obtain ⟨⟨hcolumn, -⟩, htable, -⟩ := classify_and_resolve_of_writesAlias h (some "o")
  exact ⟨h, hcolumn, htable⟩

end SelectQuery
