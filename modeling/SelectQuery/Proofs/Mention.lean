import Mathlib.Data.List.TakeWhile
import SelectQuery.Proofs.Identifier
import SelectQuery.Proofs.PartAccess
import SelectQuery.Proofs.Survival

/-!
# Mentions of quoted names

A name is quoted with the quote symbols in it doubled, but it is looked for between quote symbols as
it is. A quoted name is found only if no quote symbol in it stands behind another character.

* `Text.occursIn_iff`, `infix_of_occursAsName`: what it means to be found;
* `SymbolsInFront`: names whose quote symbols stand in front of everything else;
* `references_of_infix_quoteName`, `references_quoteName_iff`: these names are found when they are
  quoted, and no others are;
* `Statement.KeepsQuoted`, `Statement.keepsQuoted_iff`: the left joins that pruning keeps for a
  mention of their quoted name;
* `Statement.pruned_of_doubled_symbol`: one that it drops.
-/

namespace SelectQuery

/-! ## Searching -/

theorem Text.occursIn_iff {needle text : List Char} :
    Text.occursIn needle text = true ↔ needle <:+: text := by
  induction text with
  | nil => rw [occursIn, List.isEmpty_iff, List.infix_nil]
  | cons c rest ih =>
    rw [occursIn, Bool.or_eq_true, List.isPrefixOf_iff_prefix, ih, List.infix_cons_iff]

theorem infix_of_occursAsName {needle text : List Char} {skip : Nat} {before : Option Char}
    (h : occursAsName needle skip before text = true) : needle <:+: text := by
  induction text generalizing skip before with
  | nil => simp [occursAsName] at h
  | cons c rest ih =>
    cases skip with
    | succ skip => exact List.infix_cons (ih h)
    | zero =>
      rw [occursAsName] at h
      split at h
      next hhere => exact (List.isPrefixOf_iff_prefix.mp hhere).isInfix
      next => exact List.infix_cons (ih h)

/-! ## Doubled quote symbols -/

section Escape

variable {symbol : Char} {name : List Char}

theorem countP_escape (symbol : Char) (name : List Char) :
    (escape symbol name).countP (· != symbol) = name.countP (· != symbol) := by
  induction name with
  | nil => rfl
  | cons c rest ih =>
    rw [escape]
    by_cases hc : c = symbol
    · simp [hc, ih]
    · simp [hc, ih]

theorem dropWhile_escape (symbol : Char) (name : List Char) :
    (escape symbol name).dropWhile (· = symbol) = escape symbol (name.dropWhile (· = symbol)) := by
  induction name with
  | nil => rfl
  | cons c rest ih =>
    by_cases hc : c = symbol
    · simp [escape, hc, ih]
    · simp [escape, hc]

theorem escape_of_not_mem (h : symbol ∉ name) : escape symbol name = name := by
  induction name with
  | nil => rfl
  | cons c rest ih =>
    obtain ⟨hc, hrest⟩ := List.ne_and_not_mem_of_not_mem_cons h
    rw [escape, if_neg (Ne.symm hc), ih hrest]

theorem escape_replicate (symbol : Char) (k : Nat) :
    escape symbol (List.replicate k symbol) = List.replicate (k + k) symbol := by
  induction k with
  | zero => rfl
  | succ k ih =>
    rw [List.replicate_succ, escape, if_pos rfl, ih, ← List.replicate_succ, ← List.replicate_succ]
    congr 1
    omega

end Escape

/-! ## Names that are found -/

/-- No quote symbol in a name stands behind another character. -/
def SymbolsInFront (symbol : Char) (name : String) : Prop :=
  symbol ∉ name.toList.dropWhile (· = symbol)

instance (symbol : Char) (name : String) : Decidable (SymbolsInFront symbol name) :=
  inferInstanceAs (Decidable (_ ∉ _))

section Found

variable {symbol : Char} {name : String}

theorem suffix_of_symbolsInFront (h : SymbolsInFront symbol name) :
    symbol :: (name.toList ++ [symbol, '.']) <:+ (quoteName symbol name ++ ".").toList := by
  obtain ⟨k, rest, hname, hrest⟩ : ∃ k rest, name.toList = List.replicate k symbol ++ rest ∧
      symbol ∉ rest := by
    have hfront : ∀ c ∈ name.toList.takeWhile (· = symbol), c = symbol :=
      fun c hc => by simpa using List.mem_takeWhile_imp hc
    exact ⟨_, _, by rw [← List.eq_replicate_of_mem hfront, List.takeWhile_append_dropWhile], h⟩
  refine ⟨List.replicate k symbol, ?_⟩
  have hcomm : List.replicate k symbol ++ [symbol] = symbol :: List.replicate k symbol := by
    rw [← List.replicate_succ', List.replicate_succ]
  rw [String.toList_append, toList_quoteName, hname, escape_append, escape_replicate,
    escape_of_not_mem hrest, List.replicate_add, List.append_cons, hcomm]
  simp only [List.cons_append, List.append_assoc, List.nil_append, String.reduceToList]

theorem references_of_infix_quoteName (hname : name ≠ "") (h : SymbolsInFront symbol name)
    {text : String} (hin : (quoteName symbol name ++ ".").toList <:+: text.toList) :
    references symbol name text = true := by
  have hne : name.toList.isEmpty = false := by simpa using hname
  have hfound := Text.occursIn_iff.mpr ((suffix_of_symbolsInFront h).isInfix.trans hin)
  simp [references, hne, hfound]

theorem exists_of_infix_quoted (hsymbol : symbol ≠ '.') {name tail : List Char}
    (htail : ∀ c ∈ tail, c = symbol)
    (h : name ++ tail ++ ['.'] <:+: symbol :: (escape symbol name ++ [symbol]) ++ ['.']) :
    ∃ front, (∀ c ∈ front, c = symbol) ∧
      front ++ (name ++ tail) = symbol :: (escape symbol name ++ [symbol]) := by
  obtain ⟨front, back, heq⟩ := h
  -- the name uses up all characters that are no symbols, so nothing else is around it
  have hcount := congrArg (List.countP (· != symbol)) heq
  have htail : tail.countP (· != symbol) = 0 :=
    List.countP_eq_zero.mpr fun c hc => by simp [htail c hc]
  simp only [List.countP_append, List.countP_cons, List.countP_nil, htail, countP_escape,
    bne_self_eq_false, bne_iff_ne.mpr hsymbol.symm, Bool.false_eq_true, if_true, if_false] at hcount
  have honly : ∀ l : List Char, l.countP (· != symbol) = 0 → ∀ c ∈ l, c = symbol :=
    fun l hl c hc => by simpa using List.countP_eq_zero.mp hl c hc
  have hfront := honly front (by omega)
  have hback := honly back (by omega)
  rcases List.eq_nil_or_concat back with rfl | ⟨more, last, rfl⟩
  · rw [List.append_nil, ← List.append_assoc] at heq
    exact ⟨front, hfront, (List.append_singleton_inj.mp heq).1⟩
  · -- the last character is a dot, and no symbol
    rw [List.concat_eq_append, ← List.append_assoc] at heq
    have hdot := (List.append_singleton_inj.mp heq).2
    exact absurd (hback last (by simp)) (hdot ▸ hsymbol.symm)

/-- **A quoted name with a dot behind it mentions the name only if the quote symbols in the name
stand in front.** -/
theorem references_quoteName_iff (hsymbol : symbol ≠ '.') (hname : name ≠ "") :
    references symbol name (quoteName symbol name ++ ".") = true ↔ SymbolsInFront symbol name := by
  refine ⟨fun h hbehind => ?_, fun h => references_of_infix_quoteName hname h List.infix_rfl⟩
  have htext : (quoteName symbol name ++ ".").toList =
      symbol :: (escape symbol name.toList ++ [symbol]) ++ ['.'] := by
    simp [String.toList_append]
  obtain ⟨tail, htail, hlength, hin⟩ : ∃ tail : List Char, (∀ c ∈ tail, c = symbol) ∧
      tail.length ≤ 1 ∧ name.toList ++ tail ++ ['.'] <:+:
        symbol :: (escape symbol name.toList ++ [symbol]) ++ ['.'] := by
    simp only [references, Bool.and_eq_true, Bool.or_eq_true, htext] at h
    rcases h.2 with h | h
    · refine ⟨[symbol], by simp, Nat.le_refl _, List.IsInfix.trans ?_ (Text.occursIn_iff.mp h)⟩
      exact ⟨[symbol], [], by simp⟩
    · refine ⟨[], by simp, Nat.zero_le _, ?_⟩
      rw [List.append_nil]
      exact infix_of_occursAsName h
  obtain ⟨front, hfront, heq⟩ := exists_of_infix_quoted hsymbol htail hin
  -- behind the symbols in front, the name is longer with its symbols doubled than without
  have hrest := congrArg (List.dropWhile (· = symbol)) heq
  have hne := List.ne_nil_of_mem hbehind
  have hempty : (name.toList.dropWhile (· = symbol)).isEmpty = false :=
    List.isEmpty_eq_false_iff.mpr hne
  have hempty' : (escape symbol (name.toList.dropWhile (· = symbol))).isEmpty = false :=
    List.isEmpty_eq_false_iff.mpr (mt escape_eq_nil_iff.mp hne)
  rw [List.dropWhile_append_of_pos fun c hc => decide_eq_true (hfront c hc),
    List.dropWhile_append, hempty, List.dropWhile_cons_of_pos (by simp), List.dropWhile_append,
    dropWhile_escape, hempty', if_neg Bool.false_ne_true, if_neg Bool.false_ne_true] at hrest
  have hlengths := congrArg List.length hrest
  have hcount := List.count_pos_iff.mpr hbehind
  rw [List.length_append, List.length_append, length_escape, List.length_singleton] at hlengths
  omega

end Found

/-! ## Left joins that are kept -/

namespace Statement

open Clauses

variable {d : Dialect} {name : String}

/-- The texts of a statement in which a mention keeps a left join: those of WHERE and of raw
columns. -/
inductive Searched (s : Statement) : String → Prop
  | predicate {predicate : Predicate} (hmem : predicate ∈ s.predicates) : Searched s predicate.text
  | column {column : Column} {sql : String} (hmem : column ∈ s.columns)
      (hraw : column.content = .raw sql) : Searched s sql

/-- Pruning keeps every left join with this correlation name when one of these texts has the quoted
name in it with a dot behind. -/
def KeepsQuoted (d : Dialect) (name : String) : Prop :=
  ∀ s : Statement, Reachable s → s.dialect = d →
    ∀ table ∈ s.tables, table.join = some .left → table.correlation = name →
      ∀ text, Searched s text → (d.quoteAlias name ++ ".").toList <:+: text.toList →
        table ∈ (s.apply .pruneLeftJoins).2.tables

theorem keepsQuoted_of_symbolsInFront (hquote : d.autoQuote = true) (hname : name ≠ "")
    (h : SymbolsInFront d.quoteSymbol name) : KeepsQuoted d name := by
  rintro s hs rfl table hmem hleft rfl text htext hin
  have hc := (ReachableBy.wellJoined hs).distinct
  rw [Dialect.quoteAlias, if_pos hquote] at hin
  have hmention : ¬ Avoids s.dialect.quoteSymbol table text := by
    intro havoids
    have hnone := havoids table.correlation (.inl rfl)
    rw [references_of_infix_quoteName hname h hin] at hnone
    cases hnone
  have hused : UsedDirectly s.dialect.quoteSymbol s.toClauses table := by
    cases htext with
    | predicate hpredicate => exact .predicate hpredicate hmention
    | column hcolumn hraw => exact .column hcolumn hraw hmention
  exact (mem_pruneLeftJoins_iff hc _ hmem hleft).mpr (.inl (usedDirectly_iff.mp hused))

/-- A statement that mentions a left join by its quoted name and in no other way. -/
def mentioning (d : Dialect) (name : String) : Statement where
  dialect := d
  tables := [⟨numbered name 2, none, none, .expr "f()", none⟩,
    ⟨name, some .left, none, .expr "g()", none⟩]
  predicates := [⟨.and, d.quoteAlias name ++ "."⟩]

theorem wellJoined_mentioning (d : Dialect) (name : String) :
    WellJoined (mentioning d name).tables := by
  refine wellJoined_cons_iff.mpr ⟨?_, ⟨rfl, rfl⟩, by simp⟩
  simpa using (base_ne_numbered name 2).symm

theorem reachable_mentioning (d : Dialect) (name : String) : Reachable (mentioning d name) := by
  have hset := apply_setPart_of_normal (normal_tables (wellJoined_mentioning d name)) (ofDialect d)
  have htables : Reachable
      (((ofDialect d).apply (.setPart (.tables (mentioning d name).tables))).2) :=
    .apply (.empty d) trivial fun _ h => nomatch h
  rw [hset] at htables
  have hpredicates : Reachable ((((ofDialect d).put (.tables (mentioning d name).tables)).apply
      (.setPart (.predicates (mentioning d name).predicates))).2) :=
    .apply htables trivial fun _ h => nomatch h
  exact hpredicates

theorem not_mem_prune_mentioning
    (h : references d.quoteSymbol name (d.quoteAlias name ++ ".") = false) :
    ⟨name, some .left, none, .expr "g()", none⟩ ∉
      ((mentioning d name).apply .pruneLeftJoins).2.tables := by
  intro hstays
  have hc := (wellJoined_mentioning d name).distinct
  rcases (keepOneAnother_pruneLeftJoins hc _).used _ hstays rfl with
    hused | ⟨other, hother, -, hfeeds⟩
  · cases hused with
    | selected hmem => cases hmem
    | column hmem => cases hmem
    | predicate hmem hmention =>
      obtain rfl := List.mem_singleton.mp hmem
      refine hmention fun known hknown => ?_
      rcases hknown with rfl | hsource
      · exact h
      · cases hsource
  · obtain ⟨condition, hcondition, -⟩ := hfeeds
    have hmem := mem_of_mem_pruneLeftJoins hother
    simp only [mentioning, List.mem_cons, List.not_mem_nil, or_false] at hmem
    rcases hmem with rfl | rfl <;> cases hcondition

/-- **When pruning keeps each left join that is mentioned by its quoted name**: when the quote
symbols in the name stand in front. A dot for a quote symbol makes more of them kept. -/
theorem keepsQuoted_iff (hquote : d.autoQuote = true) (hname : name ≠ "") :
    (SymbolsInFront d.quoteSymbol name → KeepsQuoted d name) ∧
      (d.quoteSymbol ≠ '.' → KeepsQuoted d name → SymbolsInFront d.quoteSymbol name) := by
  refine ⟨keepsQuoted_of_symbolsInFront hquote hname, fun hsymbol hkeeps => ?_⟩
  have halias : d.quoteAlias name = quoteName d.quoteSymbol name := by
    rw [Dialect.quoteAlias, if_pos hquote]
  have hstays := hkeeps (mentioning d name) (reachable_mentioning d name) rfl _
    (List.mem_cons_of_mem _ List.mem_cons_self) rfl rfl _
    (.predicate List.mem_cons_self) List.infix_rfl
  rw [← references_quoteName_iff hsymbol hname, ← halias]
  by_contra hnone
  exact not_mem_prune_mentioning (Bool.eq_false_iff.mpr hnone) hstays

theorem keepsQuoted_iff_quoted :
    let d := Config.dialect {}
    d.autoQuote = true ∧ "\"r" ≠ "" ∧ d.quoteSymbol ≠ '.' ∧
      (SymbolsInFront d.quoteSymbol "\"r" ∧ KeepsQuoted d "\"r") ∧
      ¬ SymbolsInFront d.quoteSymbol "r\"x" ∧ ¬ KeepsQuoted d "r\"x" := by
  intro d
  have hfront : SymbolsInFront d.quoteSymbol "\"r" := by decide
  have hbehind : ¬ SymbolsInFront d.quoteSymbol "r\"x" := by decide
  have hquote : d.autoQuote = true := rfl
  have hname : "\"r" ≠ "" := by decide
  have hname' : "r\"x" ≠ "" := by decide
  have hsymbol : d.quoteSymbol ≠ '.' := by decide
  have hkeeps := (keepsQuoted_iff hquote hname).1 hfront
  have honly := (keepsQuoted_iff hquote hname').2 hsymbol
  exact ⟨hquote, hname, hsymbol, ⟨hfront, hkeeps⟩, hbehind, fun h => hbehind (honly h)⟩

/-- A left join with a quote symbol inside of its name is dropped; the condition that mentions it
by its quoted name stays. -/
theorem pruned_of_doubled_symbol :
    let s := (ofDialect (Config.dialect {})).applyAll
      [.selectFrom (.ofName "orders AS o") [.ofText "id"],
        .join .left (.ofName "refunds AS r\"x") "order_id = o.id" [],
        .addWhere .and { template := "\"r\"\"x\".amount > 0" }]
    let refunds : TableRef Statement :=
      ⟨"r\"x", some .left, none, .name "refunds", some "order_id = o.id"⟩
    let text := "(\"r\"\"x\".amount > 0)"
    let next := (s.apply .pruneLeftJoins).2
    Reachable s ∧ s.dialect.autoQuote = true ∧ refunds ∈ s.tables ∧ Searched s text ∧
      (s.dialect.quoteAlias refunds.correlation ++ ".").toList <:+: text.toList ∧
      refunds ∉ next.tables ∧
      next.assemble =
        .ok "SELECT \"o\".\"id\" FROM \"orders\" AS \"o\" WHERE (\"r\"\"x\".amount > 0)" := by
  intro s refunds text next
  have hs : Reachable s := (ReachableBy.empty _).applyAll _ (by simp [absorbed?])
  have hnames : next.tables.map (·.correlation) = ["o"] := by decide +kernel
  have hpredicate : (⟨.and, text⟩ : Predicate) ∈ s.predicates := by decide +kernel
  have hmem : refunds ∈ s.tables := .tail _ (.head _)
  have hin : (s.dialect.quoteAlias refunds.correlation ++ ".").toList <:+: text.toList := by
    decide +kernel
  refine ⟨hs, rfl, hmem, .predicate hpredicate, hin, fun hmem => ?_,
    by decide +kernel⟩
  have hname : "r\"x" ∈ next.tables.map (·.correlation) := List.mem_map_of_mem hmem
  rw [hnames] at hname
  exact absurd hname (by decide)

end Statement

end SelectQuery
