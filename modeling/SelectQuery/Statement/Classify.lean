import SelectQuery.Statement.Input
import SelectQuery.Statement.Render

/-!
# From what is asked for to entries of clauses

A column given as text is looked at in three steps: a trailing `AS alias` is taken off unless an
alias was given, a text with both parentheses is an expression, and the last dot of any other text
separates a qualifier from the column's name.

* `classifyText`, `classify`, `classifyAll`: columns, against the correlation name of a table;
* `groupTerm?`, `orderTerm?`: terms.
-/

namespace SelectQuery

/-- A column of an expression. -/
def Column.expression (correlation : Option String) (sql : String) (aliasName : Option String) :
    Column := ⟨correlation, .raw sql, aliasName⟩

/-- The body and the alias of a column's text. -/
def splitColumnAlias (text : List Char) (aliasName : Option String) : List Char × Option String :=
  match aliasName with
  | some aliasName => (text, some aliasName)
  | none =>
    match splitAlias? text with
    | some (body, aliasName) => (body, some (String.ofList aliasName))
    | none => (text, none)

/-- The column for a text without its alias. -/
def classifyBody (body : List Char) (aliasName correlation : Option String) : Column :=
  if isExpression body then .expression correlation (String.ofList body) aliasName
  else
    match Text.cutLast '.' body with
    | some (qualifier, name) =>
      ⟨some (String.ofList qualifier), .ident (String.ofList name), aliasName⟩
    | none => ⟨correlation, .ident (String.ofList body), aliasName⟩

/-- A text with blanks in place of line breaks. -/
def unbreak (cs : List Char) : List Char := cs.map fun c => if c = '\n' then ' ' else c

/-- The column for a text; a blank text asks for none. -/
def classifyText (text : String) (aliasName correlation : Option String) : Option Column :=
  let token := unbreak (Text.strip text.toList)
  if token.isEmpty then none
  else
    let (body, aliasName) := splitColumnAlias token aliasName
    some (classifyBody body aliasName correlation)

/-- The column that is asked for, if any. A statement is written at once. -/
def classify (column : ColumnInput) (correlation : Option String) :
    Except Error (Option Column) :=
  let aliasName := TableInput.nonempty column.aliasName
  match column.source with
  | .select s => do return some (.expression correlation ("(" ++ (← s.assemble) ++ ")") aliasName)
  | .raw sql => .ok (if sql = "" then none else some (.expression correlation sql aliasName))
  | .text text => .ok (classifyText text aliasName correlation)

/-- The columns that are asked for. -/
def classifyAll (columns : List ColumnInput) (correlation : Option String) :
    Except Error (List Column) :=
  match columns with
  | [] => .ok []
  | column :: rest => do
    let first ← classify column correlation
    return first.toList ++ (← classifyAll rest correlation)

/-- The entry of GROUP BY for a term; an empty term asks for none. -/
def groupTerm? : TermInput → Option GroupTerm
  | .raw sql => if sql = "" then none else some (.raw sql)
  | .text text =>
    let token := Text.trim text
    if token = "" then none
    else if isExpression token.toList then some (.raw token)
    else some (.ident token)

/-- The entry of ORDER BY for a term; an empty term asks for none. -/
def orderTerm? : TermInput → Option OrderTerm
  | .raw sql => if sql = "" then none else some (.raw sql)
  | .text text =>
    if Text.isBlankText text then none
    else
      let (value, direction) := splitDirection text
      if value = "" then none else some (.term value direction)

end SelectQuery
