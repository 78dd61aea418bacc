/-!
# Events

* `Event`: what a statement tells an observer while it is changed, shown or run;
* `Event.target`, `Event.level`, `Event.message`, `Event.fields`: an event as a log entry.
-/

namespace SelectQuery

/-- What a statement tells an observer. -/
inductive Event where
  /-- A left join that nothing uses was dropped. -/
  | pruned (correlation : String)
  /-- A statement could not be written where no error can be reported. -/
  | unrendered (error dialect : String)
  /-- A text is about to be run. -/
  | executing (sql : String) (paramCount : Nat)
  deriving DecidableEq, Repr

/-- How much an event matters. -/
inductive Level where
  | debug
  | warn
  deriving DecidableEq, Repr

/-- The name of a level. -/
def Level.name : Level → String
  | debug => "DEBUG"
  | warn => "WARN"

namespace Event

/-- The topic of an event. -/
def target : Event → String
  | pruned _ | unrendered _ _ => "sqlsel.select"
  | executing _ _ => "sqlsel.sql"

/-- How much an event matters. -/
def level : Event → Level
  | unrendered _ _ => .warn
  | pruned _ | executing _ _ => .debug

/-- What happened. -/
def message : Event → String
  | pruned _ => "pruned unused LEFT JOIN"
  | unrendered _ _ => "SELECT could not be rendered; substituting an empty string"
  | executing _ _ => "executing"

/-- The details, by name. -/
def fields : Event → List (String × String)
  | pruned correlation => [("correlation", correlation)]
  | unrendered error dialect => [("error", error), ("dialect", dialect)]
  | executing sql paramCount => [("sql", sql), ("param_count", toString paramCount)]

end Event

end SelectQuery
