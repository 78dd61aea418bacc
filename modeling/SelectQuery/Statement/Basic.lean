import SelectQuery.Dialect.Basic
import SelectQuery.JoinKind

/-!
# Statements

A statement is twelve clauses and a dialect. Tables in FROM and members of a union may be statements
themselves, each with a dialect of its own.

* `Column`, `Predicate`, `GroupTerm`, `OrderTerm`: entries of the flat clauses;
* `Source`, `TableRef`, `UnionTarget`, `UnionMember`: entries that may hold a statement, over any
  type `σ` in place of statements;
* `Clauses`: the twelve clauses over such a type, with `Clauses.map`;
* `Statement`: clauses over statements, with `Statement.ofDialect`, `Statement.ofConfig`,
  `Statement.table?`, `Statement.hasTable`.
-/

namespace SelectQuery

/-! ## Columns -/

/-- What a column shows. -/
inductive ColumnContent where
  /-- An identifier, quoted when it is written. -/
  | ident (name : String)
  /-- SQL text. -/
  | raw (sql : String)
  deriving DecidableEq, Repr

/-- An entry of the select list. -/
structure Column where
  /-- The correlation name of the table it belongs to. -/
  correlation : Option String
  content : ColumnContent
  aliasName : Option String
  deriving DecidableEq, Repr

/-! ## Conditions and terms -/

/-- The word between two conditions. -/
inductive Connector where
  | and
  | or
  deriving DecidableEq, Repr

/-- How a connector is written. -/
def Connector.keyword : Connector → String
  | and => "AND"
  | or => "OR"

/-- A condition of WHERE, in parentheses already. -/
structure Predicate where
  connector : Connector
  text : String
  deriving DecidableEq, Repr

/-- An entry of GROUP BY. -/
inductive GroupTerm where
  | ident (name : String)
  | raw (sql : String)
  deriving DecidableEq, Repr

/-- Which values come first. -/
inductive Direction where
  | ascending
  | descending
  deriving DecidableEq, Repr

/-- How a direction is written. -/
def Direction.keyword : Direction → String
  | ascending => "ASC"
  | descending => "DESC"

/-- An entry of ORDER BY. -/
inductive OrderTerm where
  | term (value : String) (direction : Direction)
  | raw (sql : String)
  deriving DecidableEq, Repr

/-! ## Tables and union members -/

/-- What a table in FROM reads from. -/
inductive Source (σ : Type) where
  /-- A table of the database. -/
  | name (table : String)
  /-- SQL text, such as the call of a function. -/
  | expr (sql : String)
  | select (statement : σ)
  deriving DecidableEq, Repr

/-- The same source with `f` applied to its statement. -/
def Source.map {σ τ : Type} (f : σ → τ) : Source σ → Source τ
  | name table => name table
  | expr sql => expr sql
  | select statement => select (f statement)

/-- A table in FROM. -/
structure TableRef (σ : Type) where
  /-- The name by which the rest of the statement refers to the table. -/
  correlation : String
  /-- How it is joined to the tables before it; the first table is not. -/
  join : Option JoinKind
  schema : Option String
  source : Source σ
  condition : Option String
  deriving DecidableEq, Repr

/-- The same table with `f` applied to its statement. -/
def TableRef.map {σ τ : Type} (f : σ → τ) (table : TableRef σ) : TableRef τ :=
  { table with source := table.source.map f }

/-- The name of the table in the database, if it is one. -/
def TableRef.tableName? {σ : Type} (table : TableRef σ) : Option String :=
  match table.source with
  | .name name => some name
  | .expr _ | .select _ => none

/-- Whether a union keeps equal rows. -/
inductive UnionKind where
  | distinct
  | all
  deriving DecidableEq, Repr

/-- How a union is written. -/
def UnionKind.keyword : UnionKind → String
  | distinct => "UNION"
  | all => "UNION ALL"

/-- What is united. -/
inductive UnionTarget (σ : Type) where
  | select (statement : σ)
  | raw (sql : String)
  deriving DecidableEq, Repr

/-- The same target with `f` applied to its statement. -/
def UnionTarget.map {σ τ : Type} (f : σ → τ) : UnionTarget σ → UnionTarget τ
  | select statement => select (f statement)
  | raw sql => raw sql

/-- A member of a union, with the kind of union that adds it. -/
structure UnionMember (σ : Type) where
  target : UnionTarget σ
  kind : UnionKind
  deriving DecidableEq, Repr

/-- The same member with `f` applied to its statement. -/
def UnionMember.map {σ τ : Type} (f : σ → τ) (member : UnionMember σ) : UnionMember τ :=
  { member with target := member.target.map f }

/-! ## Clauses and statements -/

/-- The twelve clauses of a statement. -/
structure Clauses (σ : Type) where
  straightJoin : Bool := false
  distinct : Bool := false
  columns : List Column := []
  unions : List (UnionMember σ) := []
  tables : List (TableRef σ) := []
  predicates : List Predicate := []
  groups : List GroupTerm := []
  /-- Conditions of HAVING; all but the first start with their connector. -/
  havings : List String := []
  orders : List OrderTerm := []
  limitCount : Option UInt64 := none
  limitOffset : Option UInt64 := none
  forUpdate : Bool := false
  deriving DecidableEq, Repr

/-- The same clauses with `f` applied to every statement in them. -/
def Clauses.map {σ τ : Type} (f : σ → τ) (c : Clauses σ) : Clauses τ :=
  { c with
    unions := c.unions.map (UnionMember.map f)
    tables := c.tables.map (TableRef.map f) }

/-- A SELECT statement. -/
structure Statement extends Clauses Statement where
  dialect : Dialect

namespace Statement

/-- The statement with nothing in its clauses. -/
def ofDialect (dialect : Dialect) : Statement := { dialect }

/-- The empty statement in the dialect of a configuration. -/
def ofConfig (config : Config) : Statement := ofDialect config.dialect

/-- The table with a correlation name. -/
def table? (s : Statement) (correlation : String) : Option (TableRef Statement) :=
  s.tables.find? (·.correlation = correlation)

/-- Whether some table has a correlation name. -/
def hasTable (s : Statement) (correlation : String) : Bool :=
  s.tables.any (·.correlation = correlation)

end Statement

end SelectQuery
