import SelectQuery.Statement.Basic
import SelectQuery.Text.Blank
import SelectQuery.Text.Word

/-!
# Aliases and directions written in the text

* `afterAs?`: what follows the word `AS` and a blank;
* `cutAs`: the sides of the last `AS` between blanks;
* `splitAlias?`: the trimmed sides, the left one not empty before trimming;
* `directionWord?`: the direction at the front of a text;
* `cutDirection`: the last direction that stands as a word of its own behind something, and the
  text before it; what follows it does not count;
* `splitDirection`: the term and its direction, ascending if none is written.
-/

namespace SelectQuery

/-! ## Aliases -/

/-- The letters that count as an `S` when case does not matter; the long s is one of them. -/
def isLetterS (c : Char) : Bool := c = 's' || c = 'S' || c = '\u017f'

/-- What follows the word `AS` and one blank, if the text starts with them and goes on. -/
def afterAs? : List Char → Option (List Char)
  | a :: s :: blank :: next :: rest =>
    if (a = 'a' || a = 'A') && isLetterS s && Text.isBlank blank then some (next :: rest) else none
  | _ => none

/-- The sides of the last `AS` that has a blank before it, a blank after it and something after
that. -/
def cutAs : List Char → Option (List Char × List Char)
  | [] => none
  | c :: rest =>
    match cutAs rest with
    | some (before, after) => some (c :: before, after)
    | none => if Text.isBlank c then (afterAs? rest).map fun after => ([], after) else none

/-- The text before the last `AS` and the alias after it, both trimmed. Something has to stand
before the `AS` and its blank. -/
def splitAlias? : List Char → Option (List Char × List Char)
  | [] => none
  | c :: rest =>
    (cutAs rest).map fun (before, after) => (Text.strip (c :: before), Text.strip after)

/-! ## Directions -/

/-- Whether a word is over where this text goes on. -/
def endsWord : List Char → Bool
  | [] => true
  | c :: _ => !Text.isWord c

/-- Whether `c` is the lower-case letter `letter` or its capital. -/
def isLetter (letter c : Char) : Bool := c = letter || c = letter.toUpper

/-- The direction that stands at the front as a word of its own. Written with a long s, either word
means ascending. -/
def directionWord? : List Char → Option Direction
  | a :: b :: c :: rest =>
    if isLetter 'a' a && isLetterS b && isLetter 'c' c && endsWord rest then some .ascending
    else
      match rest with
      | d :: rest =>
        if isLetter 'd' a && isLetter 'e' b && isLetterS c && isLetter 'c' d && endsWord rest then
          some (if c = '\u017f' then .ascending else .descending)
        else none
      | [] => none
  | _ => none

/-- The text before the last direction, which ends in a character that belongs to no word, and the
direction. -/
def cutDirection : List Char → Option (List Char × Direction)
  | [] => none
  | c :: rest =>
    match cutDirection rest with
    | some (before, direction) => some (c :: before, direction)
    | none =>
      if Text.isWord c then none
      else (directionWord? rest).map fun direction => ([c], direction)

/-- The trimmed term in front of its direction. -/
def splitDirection (term : String) : String × Direction :=
  match cutDirection term.toList with
  | some (before, direction) => (String.ofList (Text.strip before), direction)
  | none => (Text.trim term, .ascending)

end SelectQuery
