import SelectQuery.Json.Token

/-!
# JSON texts as trees

A tree keeps numbers and strings as they were written and the members of objects in order, repeated
names included. What they mean is decided later.

* `Json.Raw`: the trees;
* `Json.Raw.ofTokens?`: one walk over the tokens with the unfinished lists and objects on a stack;
* `Json.Raw.parse?`: the tree that a text spells.
-/

namespace SelectQuery.Json

/-- A JSON text as a tree. -/
inductive Raw where
  | null
  | bool (b : Bool)
  | number (n : Numeral)
  | string (s : Spelling)
  | array (items : List Raw)
  | object (members : List (Spelling × Raw))

/-- A list or an object whose end has not been read. What it holds so far is kept with the last
piece first. -/
inductive Frame where
  | array (items : List Raw)
  /-- An object, and the name of the member that is being read. -/
  | object (members : List (Spelling × Raw)) (name : Spelling)

/-- What the walk expects next. -/
inductive Expected where
  | value
  /-- A value or the end of a list that holds nothing yet. -/
  | firstItem
  /-- A member's name in an object with these members. -/
  | name (members : List (Spelling × Raw))
  /-- A member's name or the end of an object that holds nothing yet. -/
  | firstName
  /-- The colon behind a member's name. -/
  | colon (members : List (Spelling × Raw)) (name : Spelling)
  /-- What may stand behind a value. -/
  | after (value : Raw)

namespace Raw

/-- The value that a token is on its own. -/
def ofToken? : Token → Option Raw
  | .null => some null
  | .bool b => some (bool b)
  | .number n => some (number n)
  | .string s => some (string s)
  | _ => none

/-- What a token leads to where a value is expected. -/
def startValue? (stack : List Frame) : Token → Option (Expected × List Frame)
  | .openArray => some (.firstItem, stack)
  | .openObject => some (.firstName, stack)
  | token => (ofToken? token).map fun value => (.after value, stack)

/-- What a token leads to. While the first item of a list or the first name of an object is
expected, its frame is not on the stack yet. -/
def step? : Expected → List Frame → Token → Option (Expected × List Frame)
  | .value, stack, token => startValue? stack token
  | .firstItem, stack, .closeArray => some (.after (array []), stack)
  | .firstItem, stack, token => startValue? (.array [] :: stack) token
  | .firstName, stack, .closeObject => some (.after (object []), stack)
  | .firstName, stack, .string name => some (.colon [] name, stack)
  | .firstName, _, _ => none
  | .name members, stack, .string name => some (.colon members name, stack)
  | .name _, _, _ => none
  | .colon members name, stack, .colon => some (.value, .object members name :: stack)
  | .colon _ _, _, _ => none
  | .after value, .array items :: stack, .comma => some (.value, .array (value :: items) :: stack)
  | .after value, .array items :: stack, .closeArray =>
    some (.after (array (value :: items).reverse), stack)
  | .after value, .object members name :: stack, .comma =>
    some (.name ((name, value) :: members), stack)
  | .after value, .object members name :: stack, .closeObject =>
    some (.after (object ((name, value) :: members).reverse), stack)
  | .after _, _, _ => none

/-- The tree that is finished when all tokens are read. -/
def run? : Expected → List Frame → List Token → Option Raw
  | .after value, [], [] => some value
  | _, _, [] => none
  | expected, stack, token :: rest => do
    let (expected, stack) ← step? expected stack token
    run? expected stack rest

/-- The tree that tokens spell. -/
def ofTokens? (tokens : List Token) : Option Raw := run? .value [] tokens

/-- The tree that a text spells. -/
def parse? (text : String) : Option Raw := (tokens? text).bind ofTokens?

end Raw

end SelectQuery.Json
