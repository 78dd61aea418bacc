import SelectQuery.Error
import SelectQuery.Identifier.Basic

/-!
# Reading identifiers

The reader walks over the characters once and is always in one of four places: before a segment,
inside a bare one, inside a quoted one, or after a quote symbol that may close a quoted one.

* `Identifier.Fault`, `Identifier.Fault.message`: why a text is no identifier;
* `Identifier.readSegments`: the walk;
* `Identifier.read`, `Identifier.parse`: the identifier that a text spells, with a fault or an
  error for any other text.
-/

namespace SelectQuery.Identifier

/-- Why a text is no identifier. -/
inductive Fault where
  | empty
  | containsNul
  | trailingDot
  | missingDot (found : Char)
  | unclosedQuote
  | emptyQuotes
  | emptySegment
  deriving DecidableEq, Repr

/-- What is said about the text `text`. -/
def Fault.message (text : String) : Fault → String
  | empty => "identifier cannot be empty"
  | containsNul => "identifier cannot contain NUL character"
  | trailingDot => s!"trailing '.' in identifier '{text}'"
  | missingDot found => s!"expected '.' between identifier parts of '{text}', got '{found}'"
  | unclosedQuote => s!"unclosed quoted identifier in '{text}'"
  | emptyQuotes => s!"empty quoted identifier in '{text}'"
  | emptySegment => s!"empty identifier segment in '{text}'"

/-- Where the reader stands. A name read so far is kept with its last character first. -/
inductive Place where
  /-- Before a segment. -/
  | start
  /-- Inside a bare segment. -/
  | bare (name : List Char)
  /-- Between quote symbols. -/
  | inside (name : List Char)
  /-- Behind a quote symbol that closes the segment unless another one follows. -/
  | closing (name : List Char)
  deriving DecidableEq, Repr

/-- The segment for a bare name. -/
def bareSegment (name : List Char) : Segment := Segment.ofName (String.ofList name.reverse)

/-- The segment for a name between quote symbols, which must not be empty. -/
def quotedSegment (name : List Char) : Except Fault Segment :=
  if name.isEmpty then .error .emptyQuotes else .ok (.quoted (String.ofList name.reverse))

/-- The segments that are left to read at a place of the text. -/
def readSegments (symbol : Char) : Place → List Char → Except Fault (List Segment)
  | .start, [] => .error .trailingDot
  | .start, c :: rest =>
    if c = symbol then readSegments symbol (.inside []) rest
    else if c = '.' then .error .emptySegment
    else readSegments symbol (.bare [c]) rest
  | .bare name, [] => .ok [bareSegment name]
  | .bare name, c :: rest =>
    if c = '.' then (readSegments symbol .start rest).map (bareSegment name :: ·)
    else readSegments symbol (.bare (c :: name)) rest
  | .inside _, [] => .error .unclosedQuote
  | .inside name, c :: rest =>
    if c = symbol then readSegments symbol (.closing name) rest
    else readSegments symbol (.inside (c :: name)) rest
  | .closing name, [] => (quotedSegment name).map ([·])
  | .closing name, c :: rest =>
    if c = symbol then readSegments symbol (.inside (c :: name)) rest
    else do
      let segment ← quotedSegment name
      if c = '.' then (readSegments symbol .start rest).map (segment :: ·)
      else .error (.missingDot c)

/-- The identifier that a list of characters spells. -/
def read (symbol : Char) (text : List Char) : Except Fault Identifier :=
  if text.isEmpty then .error .empty
  else if text.contains '\x00' then .error .containsNul
  else (readSegments symbol .start text).map (⟨·⟩)

/-- The identifier that a text spells. -/
def parse (symbol : Char) (text : String) : Except Error Identifier :=
  match read symbol text.toList with
  | .ok ident => .ok ident
  | .error fault => .error (.invalidIdentifier (fault.message text))

end SelectQuery.Identifier
