/-!
# Identifiers

An **identifier** is a list of segments, written with dots between them. A segment is a bare name,
a name that arrived between quote symbols, or the wildcard `*`.

* `Segment`, `Identifier`, `Identifier.ofNames`, `Identifier.lastName?`;
* `escape`, `quoteName`: a name between quote symbols, with each symbol inside it doubled;
* `Identifier.write`: the text of an identifier; bare names are quoted on request only;
* `Identifier.quoted`: the text with every name quoted.
-/

namespace SelectQuery

/-- A part of an identifier between dots. -/
inductive Segment where
  /-- A name written bare. -/
  | plain (name : String)
  /-- A name that stood between quote symbols, without them. -/
  | quoted (name : String)
  /-- All columns. -/
  | wildcard
  deriving DecidableEq, Repr

/-- A name made of segments, such as `schema.table.column`. -/
structure Identifier where
  segments : List Segment
  deriving DecidableEq, Repr

/-- Each quote symbol written twice, all else once. -/
def escape (symbol : Char) : List Char → List Char
  | [] => []
  | c :: rest => if c = symbol then symbol :: symbol :: escape symbol rest
    else c :: escape symbol rest

/-- A name between quote symbols. -/
def quoteName (symbol : Char) (name : String) : String :=
  String.ofList (symbol :: (escape symbol name.toList ++ [symbol]))

@[simp] theorem toList_quoteName (symbol : Char) (name : String) :
    (quoteName symbol name).toList = symbol :: (escape symbol name.toList ++ [symbol]) := by
  simp [quoteName]

namespace Segment

/-- The segment that a name alone stands for: `*` is the wildcard. -/
def ofName (name : String) : Segment := if name = "*" then wildcard else plain name

/-- The name in a segment; the wildcard has none. -/
def name? : Segment → Option String
  | plain name | quoted name => some name
  | wildcard => none

/-- The text of a segment. Names that arrived quoted are quoted again whatever `autoQuote` says. -/
def write (symbol : Char) (autoQuote : Bool) : Segment → String
  | plain name => if autoQuote then quoteName symbol name else name
  | quoted name => quoteName symbol name
  | wildcard => "*"

end Segment

namespace Identifier

/-- An identifier of names that are already apart. -/
def ofNames (names : List String) : Identifier := ⟨names.map Segment.ofName⟩

/-- The name in the last segment. -/
def lastName? (ident : Identifier) : Option String := ident.segments.getLast?.bind Segment.name?

/-- The text of an identifier: its segments with dots between them. -/
def write (symbol : Char) (autoQuote : Bool) (ident : Identifier) : String :=
  ".".intercalate (ident.segments.map (Segment.write symbol autoQuote))

/-- The text of an identifier with every name quoted. -/
def quoted (symbol : Char) (ident : Identifier) : String := ident.write symbol true

end Identifier

end SelectQuery
