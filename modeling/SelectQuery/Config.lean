import SelectQuery.Json.Raw
import SelectQuery.Json.Basic

/-!
# Configuration

* `Config.Family`, `Config`: the dialect to write and whether bare names are quoted;
* `Config.ofRaw?`, `Config.parse?`: a configuration read from JSON. It is an object, or a list of
  its two settings in order; settings that are missing have their defaults, unknown members of an
  object are ignored, and a setting given twice is refused;
* `Config.json`: a configuration as a JSON value.
-/

namespace SelectQuery

/-- The dialects that a configuration can name. -/
inductive Config.Family where
  | postgres
  | mysql
  deriving DecidableEq, Repr

/-- Settings for new statements. -/
structure Config where
  family : Config.Family := .postgres
  autoQuote : Bool := true
  deriving DecidableEq, Repr

namespace Config

/-- The name of a dialect. -/
def Family.name : Family → String
  | postgres => "postgres"
  | mysql => "mysql"

/-- The dialect with a name; MariaDB is written like MySQL. -/
def Family.ofName? (name : String) : Option Family :=
  if name = "postgres" then some postgres
  else if name = "mysql" || name = "mariadb" then some mysql
  else none

open Json in
/-- A string as a text. -/
def textOf? (s : Spelling) : Option String := s.text?.map String.ofList

/-- A dialect: its name, or an object whose only member has that name and the value null. -/
def Family.ofRaw? : Json.Raw → Option Family
  | .string s => (textOf? s).bind ofName?
  | .object [(s, .null)] => (textOf? s).bind ofName?
  | _ => none

/-- A flag. -/
def flagOfRaw? : Json.Raw → Option Bool
  | .bool b => some b
  | _ => none

/-- Settings read from some members of an object. -/
structure Settings where
  family : Option Family := none
  autoQuote : Option Bool := none
  deriving DecidableEq, Repr

/-- Settings after one more member. -/
def Settings.add? (settings : Settings) (member : Json.Spelling × Json.Raw) : Option Settings := do
  let name ← textOf? member.1
  if name = "dialect" then
    if settings.family.isSome then none
    else return { settings with family := some (← Family.ofRaw? member.2) }
  else if name = "auto_quote" then
    if settings.autoQuote.isSome then none
    else return { settings with autoQuote := some (← flagOfRaw? member.2) }
  else return settings

/-- The configuration that a tree denotes. -/
def ofRaw? : Json.Raw → Option Config
  | .object members => do
    let settings ← members.foldlM Settings.add? {}
    return ⟨settings.family.getD .postgres, settings.autoQuote.getD true⟩
  | .array [] => some {}
  | .array [family] => (Family.ofRaw? family).map fun family => { family }
  | .array [family, flag] => do return ⟨← Family.ofRaw? family, ← flagOfRaw? flag⟩
  | _ => none

/-- The configuration that a JSON text denotes. -/
def parse? (text : String) : Option Config := (Json.Raw.parse? text).bind ofRaw?

/-- A configuration as a JSON value. Members keep this order. -/
def json (config : Config) : Json :=
  .object [("dialect", .string config.family.name), ("auto_quote", .bool config.autoQuote)]

end Config

end SelectQuery
