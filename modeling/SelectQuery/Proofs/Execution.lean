import SelectQuery.Proofs.Outcome
import SelectQuery.Statement.Mutation
import SelectQuery.Statement.Run

/-!
# Runs ask once

* `Client.first?_eq_ask`, `Client.one_eq_ask`: a single row takes one query;
* `RunsOnce`: a run of a text, which is announced once and given to the client once, or not at all
  if there is no text;
* `runsOnce_ofText`, `RunsOnce.bind`: how such runs come about;
* `RunsOnce.failsWith`: what holds of their errors;
* **`Statement.runs_once`**: every way to run a statement.
-/

namespace SelectQuery

variable {π ρ α β γ : Type}

/-! ## Single rows -/

namespace Client

variable (client : Client π ρ) (sql : String) (params : List π)

/-- The first of some rows, of which there must be one. -/
def single : List ρ → Except Error ρ
  | [] => .error (.notFound "query returned no rows")
  | row :: _ => .ok row

theorem single_eq_notFound_iff {rows : List ρ} :
    (∃ reason, single rows = .error (.notFound reason)) ↔ rows = [] := by
  cases rows with
  | nil => exact ⟨fun _ => rfl, fun _ => ⟨_, rfl⟩⟩
  | cons row rest => simp [single]

theorem first?_eq_ask : client.first? sql params =
    .ask (.query sql params) (client.query sql params >>= fun rows => .ok rows.head?) := by
  unfold first? rows
  cases client.query sql params <;> rfl

theorem one_eq_ask : client.one sql params =
    .ask (.query sql params) (client.query sql params >>= single) := by
  unfold one
  rw [first?_eq_ask]
  cases client.query sql params with
  | error e => rfl
  | ok rows => cases rows <;> rfl

end Client

/-! ## One text, one call -/

/-- A run of `text`. An error in its place is the outcome, and nothing is told or asked. A text is
told of once, and given to the client in one `call`; an error that the client answers is the outcome
as it is, and of any other answer the run makes what `read` does. -/
structure RunsOnce (text : Rendered) (params : List π) (call : String → List π → ClientCall π)
    (answer : String → List π → Except Error γ) (read : γ → Except Error α) (run : Run π α) :
    Prop where
  unwritten : ∀ e, text = .error e → run.events = [] ∧ run.calls = [] ∧ run.result = .error e
  written : ∀ sql, text = .ok sql →
    run.events = [.executing sql params.length] ∧ run.calls = [call sql params]
  refused : ∀ sql e, text = .ok sql → answer sql params = .error e → run.result = .error e
  answered : ∀ sql a, text = .ok sql → answer sql params = .ok a → run.result = read a

section

variable {text : Rendered} {params : List π} {call : String → List π → ClientCall π}
  {answer : String → List π → Except Error γ} {read : γ → Except Error α}

theorem runsOnce_ofText {give : String → List π → Run π α}
    (hgive : ∀ sql, give sql params = .ask (call sql params) (answer sql params >>= read)) :
    RunsOnce text params call answer read (.ofText text params give) := by
  have hrun : ∀ sql, Run.ofText (.ok sql) params give =
      ⟨[.executing sql params.length], [call sql params], answer sql params >>= read⟩ := by
    intro sql
    show Run.andThen (.tell _) (fun _ => give sql params) = _
    rw [hgive]
    rfl
  constructor
  · rintro e rfl
    exact ⟨rfl, rfl, rfl⟩
  · rintro sql rfl
    rw [hrun]
    exact ⟨rfl, rfl⟩
  · rintro sql e rfl hanswer
    rw [hrun, hanswer]
    rfl
  · rintro sql a rfl hanswer
    rw [hrun, hanswer]
    rfl

theorem RunsOnce.bind {run : Run π α} (h : RunsOnce text params call answer read run)
    (f : α → Except Error β) :
    RunsOnce text params call answer (fun a => read a >>= f)
      (run >>= fun a => .ofOutcome (f a)) := by
  have hrun : (run >>= fun a => .ofOutcome (f a)) =
      ⟨run.events, run.calls, run.result >>= f⟩ := by
    show run.andThen _ = _
    unfold Run.andThen
    cases run.result with
    | error e => rfl
    | ok a =>
      simp only [Run.ofOutcome, List.append_nil]
      rfl
  rw [hrun]
  constructor
  · intro e he
    obtain ⟨hevents, hcalls, hresult⟩ := h.unwritten e he
    exact ⟨hevents, hcalls, by rw [hresult]; rfl⟩
  · exact h.written
  · intro sql e hsql hanswer
    rw [h.refused sql e hsql hanswer]
    rfl
  · intro sql a hsql hanswer
    rw [h.answered sql a hsql hanswer]

/-- An error behind a text comes from the client, or from what is made of its answer. -/
theorem RunsOnce.failsWith {run : Run π α} (h : RunsOnce text params call answer read run)
    {E : Error → Prop} (hanswer : ∀ sql, FailsWith E (answer sql params))
    (hread : ∀ a, FailsWith E (read a)) {sql : String} (hsql : text = .ok sql) :
    FailsWith E run.result := by
  intro e he
  cases houtcome : answer sql params with
  | error e' =>
    rw [h.refused sql e' hsql houtcome] at he
    cases he
    exact hanswer sql _ houtcome
  | ok a =>
    rw [h.answered sql a hsql houtcome] at he
    exact hread a e he

end

/-! ## Statements -/

namespace Statement

variable (s : Statement) (client : Client π ρ) (params : List π)

theorem runsOnce_fetchAll :
    RunsOnce s.assemble params .query client.query .ok (s.fetchAll client params) :=
  runsOnce_ofText fun sql => by
    unfold Client.rows
    cases client.query sql params <;> rfl

theorem runsOnce_fetchOne :
    RunsOnce s.assemble params .query client.query Client.single (s.fetchOne client params) :=
  runsOnce_ofText fun sql => client.one_eq_ask sql params

theorem runsOnce_fetchOption :
    RunsOnce s.assemble params .query client.query (fun rows => .ok rows.head?)
      (s.fetchOption client params) :=
  runsOnce_ofText fun sql => client.first?_eq_ask sql params

theorem runsOnce_change (text : Rendered) :
    RunsOnce text params .execute client.execute .ok (.ofText text params client.change) :=
  runsOnce_ofText fun sql => by
    unfold Client.change
    cases client.execute sql params <;> rfl

/-- **A statement is run once**: nothing is told or asked if its text cannot be written; else the
text is told of once and given to the client once, as a query or as a change. An error of the client
is the outcome as it is; and a single row is missing exactly if the client has no rows. -/
theorem runs_once (decode : ρ → Except Error α) (table : String) (fields : List String)
    (mode : InsertMode) (aliasName : Option String) (correlation : String) :
    let Queries {α : Type} (read : List ρ → Except Error α) (run : Run π α) :=
      RunsOnce s.assemble params .query client.query read run
    let Changes (text : Rendered) (run : Run π UInt64) :=
      RunsOnce text params .execute client.execute .ok run
    Queries .ok (s.fetchAll client params) ∧
      Queries Client.single (s.fetchOne client params) ∧
      Queries (fun rows => .ok rows.head?) (s.fetchOption client params) ∧
      Queries (·.mapM decode) (s.fetchAllAs client decode params) ∧
      Queries (fun rows => Client.single rows >>= decode) (s.fetchOneAs client decode params) ∧
      Queries (fun rows => rows.head?.mapM decode) (s.fetchOptionAs client decode params) ∧
      Changes (s.insertSql table fields mode) (s.insertInto client table fields mode params) ∧
      Changes (s.updateSql table aliasName) (s.updateTable client table aliasName params) ∧
      Changes (s.deleteSql correlation) (s.deleteFrom client correlation params) ∧
      ∀ sql rows, s.assemble = .ok sql → client.query sql params = .ok rows →
        ((∃ reason, (s.fetchOne client params).result = .error (.notFound reason)) ↔
          rows = []) := by
  intro Queries Changes
  have hall := s.runsOnce_fetchAll client params
  have hone := s.runsOnce_fetchOne client params
  have hoption := s.runsOnce_fetchOption client params
  refine ⟨hall, hone, hoption, hall.bind (·.mapM decode), hone.bind decode,
    hoption.bind (·.mapM decode), runsOnce_change client params _, runsOnce_change client params _,
    runsOnce_change client params _, fun sql rows hsql hrows => ?_⟩
  rw [hone.answered sql rows hsql hrows]
  exact Client.single_eq_notFound_iff

/-- A client that has no rows and cannot change any, and a statement without a text. -/
theorem runs_once_without_rows :
    let s := (ofDialect (Config.dialect {})).applyAll
      [.selectFrom (.ofName "orders AS o") [.ofText "id"]]
    let unwritten := s.applyAll [.addColumns [.ofText "a..b"] none]
    let client : Client Nat String :=
      ⟨fun _ _ => .ok [], fun _ _ => .error (.pool "connection closed")⟩
    let sql := "SELECT \"o\".\"id\" FROM \"orders\" AS \"o\""
    let insert := "INSERT INTO \"copies\" (\"id\") " ++ sql ++ " ON CONFLICT DO NOTHING"
    let e := Error.invalidIdentifier "trailing '.' in identifier 'a.'"
    s.assemble = .ok sql ∧ client.query sql [7] = .ok [] ∧
      s.insertSql "copies" ["id"] .ignore = .ok insert ∧ unwritten.assemble = .error e ∧
      (s.fetchOne client [7]).events = [.executing sql 1] ∧
      (s.fetchOne client [7]).calls = [.query sql [7]] ∧
      (∃ reason, (s.fetchOne client [7]).result = .error (.notFound reason)) ∧
      (s.insertInto client "copies" ["id"] .ignore [7]).calls = [.execute insert [7]] ∧
      (s.insertInto client "copies" ["id"] .ignore [7]).result =
        .error (.pool "connection closed") ∧
      (unwritten.fetchAll client [7]).calls = [] ∧
      (unwritten.fetchAll client [7]).result = .error e := by
  intro s unwritten client sql insert e
  have hsql : s.assemble = .ok sql := by decide +kernel
  have hinsert : s.insertSql "copies" ["id"] .ignore = .ok insert := by decide +kernel
  have he : unwritten.assemble = .error e := by decide +kernel
  have hruns := runs_once s client [7] (fun row => .ok row) "copies" ["id"] .ignore none "o"
  have hunwritten :=
    runs_once unwritten client [7] (fun row => .ok row) "copies" ["id"] .ignore none "o"
  obtain ⟨-, hone, -, -, -, -, hchange, -, -, hmissing⟩ := hruns
  obtain ⟨hevents, hcalls⟩ := hone.written sql hsql
  obtain ⟨-, hnone, herror⟩ := hunwritten.1.unwritten e he
  exact ⟨hsql, rfl, hinsert, he, hevents, hcalls, (hmissing sql [] hsql rfl).mpr rfl,
    (hchange.written insert hinsert).2, hchange.refused insert _ hinsert rfl, hnone, herror⟩

end Statement

end SelectQuery
