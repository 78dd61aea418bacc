import SelectQuery.Config

/-!
# SQL dialects

A dialect is a record of the choices in which databases differ. The choices that have a default are
those a database need not support.

* `TextStyle`, `OffsetStyle`, `IgnoreStyle`, `UpdateStyle`, `DeleteStyle`: the choices;
* `Dialect`: the record;
* `Dialect.postgres`, `Dialect.mysql`, `Config.dialect`: the two dialects that a configuration can
  name;
* `Dialect.limitClause`: the words that select a window of rows;
* `Dialect.forUpdate`: a query that locks its rows.
-/

namespace SelectQuery

/-- How a text becomes a string literal between single quotes. -/
inductive TextStyle where
  /-- A single quote is written twice. -/
  | doubledQuote
  /-- Quotes, backslashes and some control characters have a backslash in front. -/
  | backslash
  deriving DecidableEq, Repr

/-- How an offset without a row count is written. -/
inductive OffsetStyle where
  /-- `OFFSET` stands alone. -/
  | alone
  /-- `OFFSET` follows a `LIMIT` of the largest count. -/
  | afterLargestCount
  deriving DecidableEq, Repr

/-- How an insert skips rows that break a unique constraint. -/
inductive IgnoreStyle where
  | unsupported
  /-- `INSERT IGNORE INTO` in front. -/
  | ignoreWord
  /-- `ON CONFLICT DO NOTHING` at the end. -/
  | conflictClause
  deriving DecidableEq, Repr

/-- How an UPDATE reads from other tables. -/
inductive UpdateStyle where
  /-- In a FROM clause behind the assignments. -/
  | fromClause
  /-- In joins in front of the assignments, which name the target. -/
  | joins
  deriving DecidableEq, Repr

/-- How a DELETE finds its rows. -/
inductive DeleteStyle where
  /-- By the row identifiers that a subquery selects. -/
  | rowIds
  /-- By naming one of the tables of a FROM clause. -/
  | fromClause
  deriving DecidableEq, Repr

/-- The choices in which databases differ. -/
structure Dialect where
  name : String
  /-- Stands around quoted names. -/
  quoteSymbol : Char
  /-- Whether bare names are quoted. -/
  autoQuote : Bool
  textStyle : TextStyle
  /-- The literals for true and false. -/
  trueLiteral : String
  falseLiteral : String
  /-- The call that yields a random number. -/
  randomFunction : String
  updateStyle : UpdateStyle
  deleteStyle : DeleteStyle
  /-- Whether `STRAIGHT_JOIN` is understood. -/
  straightJoin : Bool := false
  offsetStyle : OffsetStyle := .alone
  ignoreStyle : IgnoreStyle := .unsupported
  deriving DecidableEq, Repr

namespace Dialect

/-- PostgreSQL. -/
def postgres (autoQuote : Bool) : Dialect where
  name := "postgres"
  quoteSymbol := '"'
  autoQuote := autoQuote
  textStyle := .doubledQuote
  trueLiteral := "TRUE"
  falseLiteral := "FALSE"
  randomFunction := "RANDOM()"
  updateStyle := .fromClause
  deleteStyle := .rowIds
  ignoreStyle := .conflictClause

/-- MySQL and MariaDB. -/
def mysql (autoQuote : Bool) : Dialect where
  name := "mysql"
  quoteSymbol := '\x60'
  autoQuote := autoQuote
  textStyle := .backslash
  trueLiteral := "1"
  falseLiteral := "0"
  randomFunction := "RAND()"
  updateStyle := .joins
  deleteStyle := .fromClause
  straightJoin := true
  offsetStyle := .afterLargestCount
  ignoreStyle := .ignoreWord

/-- The literal for a truth value. -/
def boolLiteral (d : Dialect) (b : Bool) : String := if b then d.trueLiteral else d.falseLiteral

end Dialect

/-- The dialect that a configuration names. -/
def Config.dialect (config : Config) : Dialect :=
  match config.family with
  | .postgres => .postgres config.autoQuote
  | .mysql => .mysql config.autoQuote

/-! ## Row windows and locks -/

namespace Dialect

/-- The words for at most `count` rows after the first `offset` ones. An offset of zero is never
written. -/
def limitClause (d : Dialect) (count offset : Option UInt64) : String :=
  let offset := offset.filter (0 < ·)
  let count :=
    match d.offsetStyle, count, offset with
    | .afterLargestCount, none, some _ => some (UInt64.ofNat (Nat.pow 2 64 - 1))
    | _, count, _ => count
  let words (keyword : String) : Option UInt64 → String
    | none => ""
    | some n => keyword ++ toString n.toNat
  words " LIMIT " count ++ words " OFFSET " offset

/-- A query that locks its rows. -/
def forUpdate (_ : Dialect) (sql : String) : String := sql ++ " FOR UPDATE"

end Dialect

end SelectQuery
