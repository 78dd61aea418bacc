import SelectQuery.Event
import SelectQuery.Statement.Derived

/-!
# Running statements

A client runs a text with parameters. A run is recorded as a value: what was told to observers, what
was asked of the client, and the outcome.

* `Client`, `ClientCall`: clients, and what is asked of them;
* `Run`: the record of a run, with `Run.andThen`, `Run.tell` and `Run.ask`;
* `Client.rows`, `Client.first?`, `Client.one`, `Client.change`: the ways to ask a client;
* `Statement.fetchAll`, `Statement.fetchOne`, `Statement.fetchOption` and the `As` forms, which
  decode the rows;
* `Statement.insertInto`, `Statement.updateTable`, `Statement.deleteFrom`;
* `Statement.display`: the text of a statement where no error can be reported.
-/

namespace SelectQuery

/-! ## Clients -/

/-- What runs texts with parameters of type `π` and yields rows of type `ρ`. -/
structure Client (π ρ : Type) where
  /-- The rows of a query. -/
  query : String → List π → Except Error (List ρ)
  /-- The number of rows that a text has changed. -/
  execute : String → List π → Except Error UInt64

/-- What is asked of a client. -/
inductive ClientCall (π : Type) where
  | query (sql : String) (params : List π)
  | execute (sql : String) (params : List π)
  deriving DecidableEq, Repr

/-! ## Runs -/

/-- The record of a run. -/
structure Run (π α : Type) where
  events : List Event
  calls : List (ClientCall π)
  result : Except Error α

namespace Run

variable {π α β : Type}

/-- A run that tells and asks nothing. -/
def ofOutcome (outcome : Except Error α) : Run π α := ⟨[], [], outcome⟩

/-- A run and what follows from its result. An error ends it. -/
def andThen (run : Run π α) (next : α → Run π β) : Run π β :=
  match run.result with
  | .error e => ⟨run.events, run.calls, .error e⟩
  | .ok a =>
    let rest := next a
    ⟨run.events ++ rest.events, run.calls ++ rest.calls, rest.result⟩

instance : Monad (Run π) where
  pure a := ofOutcome (.ok a)
  bind := andThen

/-- An event told to observers. -/
def tell (event : Event) : Run π Unit := ⟨[event], [], .ok ()⟩

/-- One call of a client, with its answer. -/
def ask (call : ClientCall π) (answer : Except Error α) : Run π α := ⟨[], [call], answer⟩

/-- A text announced and then given to a client; an error in place of the text ends the run before
either. -/
def ofText (text : Rendered) (params : List π) (give : String → List π → Run π α) : Run π α := do
  let sql ← ofOutcome text
  tell (.executing sql params.length)
  give sql params

end Run

namespace Client

variable {π ρ : Type}

/-- All rows of a query. -/
def rows (client : Client π ρ) (sql : String) (params : List π) : Run π (List ρ) :=
  .ask (.query sql params) (client.query sql params)

/-- The first row of a query, if there is one. -/
def first? (client : Client π ρ) (sql : String) (params : List π) : Run π (Option ρ) := do
  return (← client.rows sql params).head?

/-- The first row of a query, which must have one. -/
def one (client : Client π ρ) (sql : String) (params : List π) : Run π ρ := do
  match ← client.first? sql params with
  | some row => return row
  | none => .ofOutcome (.error (.notFound "query returned no rows"))

/-- The number of rows that a text changes. -/
def change (client : Client π ρ) (sql : String) (params : List π) : Run π UInt64 :=
  .ask (.execute sql params) (client.execute sql params)

end Client

namespace Statement

variable {π ρ α : Type}

/-! ## Queries -/

/-- All rows. -/
def fetchAll (s : Statement) (client : Client π ρ) (params : List π) : Run π (List ρ) :=
  .ofText s.assemble params client.rows

/-- The first row, which there must be. -/
def fetchOne (s : Statement) (client : Client π ρ) (params : List π) : Run π ρ :=
  .ofText s.assemble params client.one

/-- The first row, if there is one. -/
def fetchOption (s : Statement) (client : Client π ρ) (params : List π) : Run π (Option ρ) :=
  .ofText s.assemble params client.first?

/-- All rows, decoded. -/
def fetchAllAs (s : Statement) (client : Client π ρ) (decode : ρ → Except Error α)
    (params : List π) : Run π (List α) := do
  let rows ← s.fetchAll client params
  .ofOutcome (rows.mapM decode)

/-- The first row, decoded. -/
def fetchOneAs (s : Statement) (client : Client π ρ) (decode : ρ → Except Error α)
    (params : List π) : Run π α := do
  let row ← s.fetchOne client params
  .ofOutcome (decode row)

/-- The first row, decoded, if there is one. -/
def fetchOptionAs (s : Statement) (client : Client π ρ) (decode : ρ → Except Error α)
    (params : List π) : Run π (Option α) := do
  let row ← s.fetchOption client params
  .ofOutcome (row.mapM decode)

/-! ## Changes -/

/-- The rows of the statement inserted into a table. -/
def insertInto (s : Statement) (client : Client π ρ) (table : String) (fields : List String)
    (mode : InsertMode) (params : List π) : Run π UInt64 :=
  .ofText (s.insertSql table fields mode) params client.change

/-- A table updated with the select list of the statement. -/
def updateTable (s : Statement) (client : Client π ρ) (table : String) (aliasName : Option String)
    (params : List π) : Run π UInt64 :=
  .ofText (s.updateSql table aliasName) params client.change

/-- The rows deleted that the statement selects from the table with a correlation name. -/
def deleteFrom (s : Statement) (client : Client π ρ) (correlation : String) (params : List π) :
    Run π UInt64 :=
  .ofText (s.deleteSql correlation) params client.change

/-! ## Showing a statement -/

/-- The text of a statement, and the empty text with a warning where there is none. -/
def display (s : Statement) : String × List Event :=
  match s.assemble with
  | .ok sql => (sql, [])
  | .error e => ("", [.unrendered e.message s.dialect.name])

end Statement

end SelectQuery
