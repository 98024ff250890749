import Mathlib.Data.Multiset.Filter
import Mathlib.Data.Set.Insert

/-!
# What a program asks of a database

A database has schemas, and under them tables with their rows.  What can be seen of it is its
catalog (`Catalog`): the names of the schemas, and the rows of every table that is there.

A program goes through an engine (`Engine`): it executes statements and transactions.  What is
documented of them is stated on the catalog (`Documented`): what a statement that goes through
has changed, when it does, and that a transaction is committed as a whole or not at all.
-/

namespace SqlCatalog

/-- What a table is called: its schema and its own name. -/
structure TableName where
  schema : String
  name : String
deriving DecidableEq

/-- A declared table, with the tables that its foreign keys refer to. -/
structure Table where
  name : TableName
  references : List TableName
deriving DecidableEq

/-! ## Catalogs -/

/-- The schemas, and the rows of each table that is there; rows have no order. -/
@[ext] structure Catalog (Row : Type) where
  schemas : Set String
  rows : TableName → Option (Multiset Row)

namespace Catalog

variable {Row : Type}

/-- A schema is there. -/
def withSchema (schema : String) (c : Catalog Row) : Catalog Row :=
  { c with schemas := insert schema c.schemas }

/-- Tables that were not there are, without rows. -/
def withTables (names : List TableName) (c : Catalog Row) : Catalog Row :=
  { c with rows := fun name => (c.rows name).or (if name ∈ names then some 0 else none) }

/-- A table has other rows. -/
def withRows (table : TableName) (rows : Multiset Row) (c : Catalog Row) : Catalog Row :=
  { c with rows := fun name => if name = table then some rows else c.rows name }

@[simp] theorem rows_withSchema
    (schema : String) (c : Catalog Row) :
    (c.withSchema schema).rows = c.rows :=
  rfl

@[simp] theorem rows_withRows
    (table name : TableName) (rows : Multiset Row) (c : Catalog Row) :
    (c.withRows table rows).rows name = if name = table then some rows else c.rows name :=
  rfl

theorem rows_withTables
    (names : List TableName) (c : Catalog Row) (name : TableName) :
    (c.withTables names).rows name =
      (c.rows name).or (if name ∈ names then some 0 else none) :=
  rfl

end Catalog

/-! ## Engines -/

/-- The operations of a database and its driver.  A statement makes another database, or raises
an exception. -/
structure Engine (Row E : Type) where
  Database : Type
  catalog : Database → Catalog Row
  /-- What can happen to the connection of a transaction. -/
  Interruption : Type
  uninterrupted : Interruption
  execDriverSql : String → Database → Except E Database
  /-- `create_all(checkfirst=True)`. -/
  createAll : List Table → Database → Except E Database
  /-- `SELECT` of the rows that satisfy a condition. -/
  select : TableName → (Row → Bool) → Database → Except E (List Row)
  insert : TableName → Row → Database → Except E Database
  /-- `async with engine.begin()`: the database afterwards, and what is raised. -/
  transaction : Interruption → (Database → Except E Database) → Database → Database × Option E
  /-- The exception for a schema that is not there. -/
  undefinedSchema : String → E

/-- A name that a quoted identifier stands for as it is: it has no quote in it, and is not cut
off. -/
def IsIdentifier (name : String) : Prop :=
  '"' ∉ name.toList ∧ name.utf8ByteSize ≤ 63

/-- The statement that creates a schema. -/
def createSchemaText (name : String) : String :=
  "CREATE SCHEMA IF NOT EXISTS \"" ++ name ++ "\""

/-- What is documented of the operations, for the tables that are declared and a row that is
inserted into one.  The tables that are there have the columns that are declared. -/
structure Documented
    {Row E : Type}
    (engine : Engine Row E)
    (declared : List Table)
    (table : TableName)
    (row : Row) :
    Prop where
  /-- A schema that is created or there is there, and nothing else has changed. -/
  catalog_createSchema : ∀ name db db', IsIdentifier name →
    engine.execDriverSql (createSchemaText name) db = .ok db' →
      engine.catalog db' = (engine.catalog db).withSchema name
  /-- The tables that were not there are created without rows, and nothing else has changed. -/
  catalog_createAll : ∀ db db', engine.createAll declared db = .ok db' →
    engine.catalog db' = (engine.catalog db).withTables (declared.map Table.name)
  /-- It goes through if the schemas of these tables are there; the user may create tables. -/
  createAll_ok : ∀ db,
    (∀ table ∈ declared, (engine.catalog db).rows table.name = none →
      table.name.schema ∈ (engine.catalog db).schemas) →
    ∃ db', engine.createAll declared db = .ok db'
  /-- Nothing is created in a schema that is not there. -/
  createAll_error : ∀ db schema, (∀ table ∈ declared, table.name.schema = schema) →
    (∃ table ∈ declared, (engine.catalog db).rows table.name = none) →
      schema ∉ (engine.catalog db).schemas →
        engine.createAll declared db = .error (engine.undefinedSchema schema)
  select_eq : ∀ db rows (p : Row → Bool), (engine.catalog db).rows table = some rows →
    ∃ found, engine.select table p db = .ok found ∧
      (found : Multiset Row) = rows.filter fun row => p row = true
  /-- The row can be inserted if it is not there. -/
  insert_ok : ∀ db rows, (engine.catalog db).rows table = some rows → row ∉ rows →
    ∃ db', engine.insert table row db = .ok db' ∧
      engine.catalog db' = (engine.catalog db).withRows table (row ::ₘ rows)
  /-- A transaction is committed as a whole, or not at all. -/
  transaction_atomic : ∀ interruption body db,
    (engine.transaction interruption body db).1 = db ∨
      body db = .ok (engine.transaction interruption body db).1
  /-- One that raises is rolled back. -/
  transaction_error : ∀ interruption body db error, body db = .error error →
    ∃ error', engine.transaction interruption body db = (db, some error')
  uninterrupted_error : ∀ body db error, body db = .error error →
    engine.transaction engine.uninterrupted body db = (db, some error)
  uninterrupted_ok : ∀ body db db', body db = .ok db' →
    engine.transaction engine.uninterrupted body db = (db', none)

end SqlCatalog
