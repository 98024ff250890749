import YamlAgno.Library.Fallible
import YamlAgno.Library.OrderedDict
import YamlAgno.Library.PyText
import YamlAgno.Library.SqlCatalog
import Mathlib.Data.List.Perm.Basic

/-!
# A database in memory

An engine whose databases are lists of schemas and of tables with their rows.  A table is created
under a schema that exists, after the tables that its foreign keys refer to.  `createAll` creates
those of the declared tables that are missing; the order in which it does is given, and is one in
which a table follows the tables that it refers to (`SortsByReference`).

It does what is documented of an engine (`documented_memoryEngine`).
-/

namespace SqlMemory

open SqlCatalog

/-- What the database refuses. -/
inductive SqlError where
  | undefinedSchema (schema : String)
  | undefinedTable (table : TableName)
  | duplicateTable (table : TableName)
  | uniqueViolation (table : TableName)
  | syntaxError
  | connectionLost
deriving DecidableEq

structure Database (Row : Type) where
  schemas : List String
  tables : List (TableName × List Row)
deriving DecidableEq

namespace Database

variable {Row : Type} {db : Database Row}

/-- The rows of a table, if there is one of that name. -/
def rows (db : Database Row) (table : TableName) : Option (List Row) :=
  db.tables.lookup table

/-- `CREATE SCHEMA IF NOT EXISTS`. -/
def createSchema (schema : String) (db : Database Row) : Database Row :=
  if schema ∈ db.schemas then db else { db with schemas := db.schemas ++ [schema] }

/-- Tables without rows, after those that are there. -/
def addTables (names : List TableName) (db : Database Row) : Database Row :=
  { db with tables := db.tables ++ names.map fun name => (name, []) }

/-- `CREATE TABLE`. -/
def createTable (table : Table) (db : Database Row) : Except SqlError (Database Row) :=
  if table.name.schema ∉ db.schemas then
    .error (.undefinedSchema table.name.schema)
  else if (db.rows table.name).isSome then
    .error (.duplicateTable table.name)
  else
    match table.references.find? fun name => name ≠ table.name ∧ db.rows name = none with
    | some name => .error (.undefinedTable name)
    | none => .ok (db.addTables [table.name])

/-- The declared tables that are not there. -/
def missing (declared : List Table) (db : Database Row) : List Table :=
  declared.filter fun table => (db.rows table.name).isNone

/-- `create_all(checkfirst=True)`, in the given order of creation. -/
def createAll
    (order : List Table → List Table)
    (declared : List Table)
    (db : Database Row) :
    Except SqlError (Database Row) :=
  (order (db.missing declared)).foldlM (fun db table => db.createTable table) db

/-- The rows of a table that is there are replaced. -/
def setRows (table : TableName) (rows : List Row) (db : Database Row) : Database Row :=
  { db with tables := OrderedDict.set table rows db.tables }

/-- The name between a beginning and a closing quote; the empty one is none. -/
def quotedAfter (start text : List Char) : Option String :=
  let name := (text.drop start.length).takeWhile (· ≠ '"')
  if text = start ++ name ++ ['"'] ∧ name ≠ [] then some (String.ofList name) else none

/-- The name in the statement that creates a schema. -/
def createdSchema (text : String) : Option String :=
  quotedAfter "CREATE SCHEMA IF NOT EXISTS \"".toList text.toList

/-- The one kind of statement that is executed as a text. -/
def execDriverSql (text : String) (db : Database Row) : Except SqlError (Database Row) :=
  match createdSchema text with
  | none => .error .syntaxError
  | some schema => .ok (db.createSchema schema)

/-- `SELECT`. -/
def select
    (table : TableName)
    (p : Row → Bool)
    (db : Database Row) :
    Except SqlError (List Row) :=
  match db.rows table with
  | none => .error (.undefinedTable table)
  | some rows => .ok (rows.filter p)

/-- `INSERT` into a table whose primary key is the whole row. -/
def insert [DecidableEq Row]
    (table : TableName)
    (row : Row)
    (db : Database Row) :
    Except SqlError (Database Row) :=
  match db.rows table with
  | none => .error (.undefinedTable table)
  | some rows =>
      if row ∈ rows then .error (.uniqueViolation table)
      else .ok (db.setRows table (rows ++ [row]))

/-! ## What a statement leaves as it is -/

@[simp] theorem rows_createSchema
    (schema : String) (db : Database Row) :
    (db.createSchema schema).rows = db.rows := by
  unfold createSchema
  split <;> rfl

theorem mem_schemas_createSchema
    {schema other : String} :
    other ∈ (db.createSchema schema).schemas ↔ other = schema ∨ other ∈ db.schemas := by
  unfold createSchema
  split
  · next hmem =>
      exact ⟨Or.inr, fun h => h.elim (fun heq => heq ▸ hmem) id⟩
  · rw [List.mem_append, List.mem_singleton]
    exact or_comm

theorem rows_addTables
    (names : List TableName) (db : Database Row) (table : TableName) :
    (db.addTables names).rows table =
      (db.rows table).or (if table ∈ names then some [] else none) := by
  rw [rows, addTables, List.lookup_append]
  refine congrArg (Option.or _) ?_
  induction names with
  | nil =>
      rfl
  | cons name names ih =>
      by_cases heq : table = name
      · simp [heq]
      · simp [List.lookup_cons, heq, beq_false_of_ne heq, ih]

@[simp] theorem addTables_nil (db : Database Row) :
    db.addTables [] = db := by
  simp [addTables]

theorem addTables_addTables
    (names names' : List TableName) (db : Database Row) :
    (db.addTables names).addTables names' = db.addTables (names ++ names') := by
  simp [addTables]

theorem rows_setRows
    (table other : TableName) (rows : List Row) (db : Database Row) :
    (db.setRows table rows).rows other = if other = table then some rows else db.rows other :=
  OrderedDict.lookup_set table other rows db.tables

theorem createTable_eq_ok
    {table : Table} {db' : Database Row}
    (h : db.createTable table = .ok db') :
    db' = db.addTables [table.name] ∧ table.name.schema ∈ db.schemas ∧
      db.rows table.name = none := by
  unfold createTable at h
  split at h
  · cases h
  · next hschema =>
      split at h
      · cases h
      · next hnew =>
          split at h
          · cases h
          · cases h
            exact ⟨rfl, not_not.mp hschema, by simpa using hnew⟩

end Database

/-! ## The order of creation -/

/-- Every table follows those that it refers to, if they are not known before. -/
def ReferencesFirst : (TableName → Prop) → List Table → Prop
  | _, [] => True
  | known, table :: tables =>
      (∀ name ∈ table.references, name = table.name ∨ known name) ∧
        ReferencesFirst (fun name => name = table.name ∨ known name) tables

theorem ReferencesFirst.mono
    {known known' : TableName → Prop} {tables : List Table}
    (h : ReferencesFirst known tables)
    (hmono : ∀ table ∈ tables, ∀ name ∈ table.references, known name → known' name) :
    ReferencesFirst known' tables := by
  induction tables generalizing known known' with
  | nil =>
      trivial
  | cons table tables ih =>
      refine ⟨fun name hname => (h.1 name hname).imp_right
        (hmono table List.mem_cons_self name hname), ih h.2 fun other hother name hname => ?_⟩
      exact Or.imp_right (hmono other (List.mem_cons_of_mem table hother) name hname)

/--
The order of creation of some of the declared tables: a table follows those of them that it
refers to.
-/
structure SortsByReference (order : List Table → List Table) (declared : List Table) : Prop where
  perm : ∀ tables, tables.Sublist declared → (order tables).Perm tables
  first : ∀ tables, tables.Sublist declared →
    ReferencesFirst (fun name => name ∉ tables.map Table.name) (order tables)

/-- Tables that refer to no other table are created first. -/
def independentFirst (tables : List Table) : List Table :=
  tables.filter (fun table => ∀ name ∈ table.references, name = table.name) ++
    tables.filter fun table => ¬ ∀ name ∈ table.references, name = table.name

theorem referencesFirst_of_forall
    {known : TableName → Prop} {tables : List Table}
    (h : ∀ table ∈ tables, ∀ name ∈ table.references, name = table.name ∨ known name) :
    ReferencesFirst known tables := by
  induction tables generalizing known with
  | nil =>
      trivial
  | cons table tables ih =>
      exact ⟨h table List.mem_cons_self, ih fun other hother name hname =>
        (h other (List.mem_cons_of_mem table hother) name hname).imp_right Or.inr⟩

theorem ReferencesFirst.append
    {known : TableName → Prop} {tables tables' : List Table}
    (h : ReferencesFirst known tables)
    (h' : ReferencesFirst (fun name => name ∈ tables.map Table.name ∨ known name) tables') :
    ReferencesFirst known (tables ++ tables') := by
  induction tables generalizing known with
  | nil =>
      simpa using h'
  | cons table tables ih =>
      refine ⟨h.1, ih h.2 (h'.mono fun _ _ name _ hknown => ?_)⟩
      rcases hknown with hmem | hknown
      · rcases List.mem_cons.mp hmem with heq | hmem
        · exact Or.inr (Or.inl heq)
        · exact Or.inl hmem
      · exact Or.inr (Or.inr hknown)

/-- It is an order of creation where the other tables refer to independent ones only. -/
theorem independentFirst_sorts
    {declared : List Table}
    (hflat : ∀ table ∈ declared, ∀ name ∈ table.references,
      name = table.name ∨ ∀ other ∈ declared, other.name = name →
        ∀ name' ∈ other.references, name' = other.name) :
    SortsByReference independentFirst declared where
  perm tables _ := by
    unfold independentFirst
    simp only [decide_not]
    exact List.filter_append_perm _ tables
  first tables hsub := by
    refine ReferencesFirst.append (referencesFirst_of_forall fun table htable name hname => ?_)
      (referencesFirst_of_forall fun table htable name hname => ?_)
    · exact Or.inl (of_decide_eq_true (List.mem_filter.mp htable).2 name hname)
    · refine (hflat table (hsub.subset (List.mem_filter.mp htable).1) name hname).imp_right
        fun hindependent => ?_
      by_cases hmem : name ∈ tables.map Table.name
      · obtain ⟨other, hother, rfl⟩ := List.mem_map.mp hmem
        refine Or.inl (List.mem_map_of_mem (List.mem_filter.mpr ⟨hother, ?_⟩))
        exact decide_eq_true (hindependent other (hsub.subset hother) rfl)
      · exact Or.inr hmem

/-! ## Creating what is missing -/

namespace Database

variable {Row : Type} {db : Database Row} {order : List Table → List Table}
  {declared : List Table}

theorem missing_sublist
    (declared : List Table) (db : Database Row) :
    (db.missing declared).Sublist declared :=
  List.filter_sublist

theorem mem_missing
    {table : Table} :
    table ∈ db.missing declared ↔ table ∈ declared ∧ db.rows table.name = none := by
  simp [missing]

/-- Nothing is missing exactly when all declared tables are there. -/
theorem missing_eq_nil_iff :
    db.missing declared = [] ↔ ∀ table ∈ declared, db.rows table.name ≠ none := by
  simp [missing, List.filter_eq_nil_iff]

/-- New tables are created one after the other if each follows those that it refers to. -/
theorem foldlM_createTable
    {tables : List Table}
    (hschemas : ∀ table ∈ tables, table.name.schema ∈ db.schemas)
    (hnew : ∀ table ∈ tables, db.rows table.name = none)
    (hnodup : (tables.map Table.name).Nodup)
    (hfirst : ReferencesFirst (fun name => db.rows name ≠ none) tables) :
    tables.foldlM (fun db table => db.createTable table) db =
      .ok (db.addTables (tables.map Table.name)) := by
  induction tables generalizing db with
  | nil =>
      simp [pure, Except.pure]
  | cons table tables ih =>
      obtain ⟨hother, hnodup'⟩ := List.nodup_cons.mp hnodup
      have hcreate : db.createTable table = .ok (db.addTables [table.name]) := by
        have hrefs : (table.references.find? fun name =>
            name ≠ table.name ∧ db.rows name = none) = none := by
          rw [List.find?_eq_none]
          rintro name hname hmissing
          obtain ⟨hne, hnone⟩ := of_decide_eq_true hmissing
          exact (hfirst.1 name hname).elim hne fun hknown => hknown hnone
        rw [createTable, if_neg (not_not.mpr (hschemas table List.mem_cons_self)),
          if_neg (by simp [hnew table List.mem_cons_self]), hrefs]
      have hrows : ∀ name, (db.addTables [table.name]).rows name =
          (db.rows name).or (if name = table.name then some [] else none) := fun name => by
        rw [rows_addTables]
        simp only [List.mem_singleton]
      have hrest : tables.foldlM (fun db table => db.createTable table)
          (db.addTables [table.name]) =
            .ok ((db.addTables [table.name]).addTables (tables.map Table.name)) := by
        refine ih (fun other h => hschemas other (List.mem_cons_of_mem table h))
          (fun other h => ?_) hnodup' (hfirst.2.mono fun _ _ name _ hknown => ?_)
        · rw [hrows, hnew other (List.mem_cons_of_mem table h), if_neg]
          · rfl
          · exact fun heq => hother (heq ▸ List.mem_map_of_mem h)
        · rw [hrows]
          rcases hknown with heq | hknown
          · simp [heq]
          · obtain ⟨rows, hrows⟩ := Option.ne_none_iff_exists'.mp hknown
            simp [hrows]
      rw [addTables_addTables] at hrest
      rw [List.foldlM_cons, hcreate]
      exact hrest

/-- The missing tables are created under their schemas, without rows. -/
theorem createAll_eq_ok
    (horder : SortsByReference order declared)
    (hnodup : (declared.map Table.name).Nodup)
    (hclosed : ∀ table ∈ declared, ∀ name ∈ table.references, name ∈ declared.map Table.name)
    (hschemas : ∀ table ∈ db.missing declared, table.name.schema ∈ db.schemas) :
    db.createAll order declared =
      .ok (db.addTables ((order (db.missing declared)).map Table.name)) := by
  have hsub := missing_sublist declared db
  have hperm := horder.perm _ hsub
  refine foldlM_createTable (fun table h => ?_) (fun table h => ?_) ?_
    ((horder.first _ hsub).mono fun table h name hname hknown hnone => ?_)
  · exact hschemas table (hperm.mem_iff.mp h)
  · exact (mem_missing.mp (hperm.mem_iff.mp h)).2
  · exact (hperm.map Table.name).nodup_iff.mpr (hnodup.sublist (hsub.map _))
  · -- A table that is referred to and not there is one of those that are created.
    obtain ⟨other, hother, rfl⟩ := List.mem_map.mp
      (hclosed table (hsub.subset (hperm.mem_iff.mp h)) name hname)
    exact hknown (List.mem_map_of_mem (mem_missing.mpr ⟨hother, hnone⟩))

/-- Without the one schema of all declared tables nothing can be created that is missing. -/
theorem createAll_eq_error
    (horder : SortsByReference order declared)
    {schema : String}
    (hschema : ∀ table ∈ declared, table.name.schema = schema)
    (hmissing : db.missing declared ≠ [])
    (hnot : schema ∉ db.schemas) :
    db.createAll order declared = .error (.undefinedSchema schema) := by
  have hsub := missing_sublist declared db
  have hperm := horder.perm _ hsub
  have hne : order (db.missing declared) ≠ [] := fun hnil => by
    rw [hnil] at hperm
    exact hmissing hperm.nil_eq.symm
  obtain ⟨table, tables, hcons⟩ := List.exists_cons_of_ne_nil hne
  have htable : table.name.schema = schema :=
    hschema table (hsub.subset (hperm.mem_iff.mp (hcons ▸ List.mem_cons_self)))
  rw [createAll, hcons, List.foldlM_cons, createTable, htable, if_pos hnot]
  rfl

/-- Which rows there are after the missing tables have been created. -/
theorem rows_addTables_missing
    (horder : SortsByReference order declared)
    (db : Database Row) (name : TableName) :
    (db.addTables ((order (db.missing declared)).map Table.name)).rows name =
      (db.rows name).or (if name ∈ declared.map Table.name then some [] else none) := by
  rw [rows_addTables]
  cases hrows : db.rows name with
  | some rows =>
      rfl
  | none =>
      have hmem : name ∈ (order (db.missing declared)).map Table.name ↔
          name ∈ declared.map Table.name := by
        rw [((horder.perm _ (missing_sublist declared db)).map Table.name).mem_iff]
        constructor
        · exact fun h => ((missing_sublist declared db).map Table.name).subset h
        · rintro h
          obtain ⟨table, htable, rfl⟩ := List.mem_map.mp h
          exact List.mem_map_of_mem (mem_missing.mpr ⟨htable, hrows⟩)
      simp only [hmem]

end Database

/-! ## The engine -/

/-- What can happen to the connection of a transaction. -/
inductive Interruption where
  | none
  /-- It is lost before the transaction is committed. -/
  | lost
  /-- It is lost after that, and nobody is told. -/
  | unanswered

/-- What is committed, and what is raised. -/
def transaction {S : Type}
    (interruption : Interruption)
    (body : S → Except SqlError S)
    (s : S) :
    S × Option SqlError :=
  match body s with
  | .error error => (s, some error)
  | .ok s' =>
      match interruption with
      | .none => (s', Option.none)
      | .lost => (s, some .connectionLost)
      | .unanswered => (s', some .connectionLost)

section MemoryEngine

variable {Row : Type} [DecidableEq Row] {db db' : Database Row}
  {order : List Table → List Table} {declared : List Table}

/-- The schemas and rows of a database. -/
def catalog (db : Database Row) : Catalog Row where
  schemas := {schema | schema ∈ db.schemas}
  rows name := (db.rows name).map (↑)

/-- The engine, with an order of creation. -/
def memoryEngine (Row : Type) [DecidableEq Row] (order : List Table → List Table) :
    Engine Row SqlError where
  Database := Database Row
  catalog := catalog
  Interruption := Interruption
  uninterrupted := .none
  execDriverSql := Database.execDriverSql
  createAll := Database.createAll order
  select := Database.select
  insert := Database.insert
  transaction := transaction
  undefinedSchema := .undefinedSchema

omit [DecidableEq Row] in
theorem rows_catalog_eq_none
    {name : TableName} :
    (catalog db).rows name = none ↔ db.rows name = none := by
  simp [catalog]

omit [DecidableEq Row] in
theorem catalog_createSchema
    (schema : String) (db : Database Row) :
    catalog (db.createSchema schema) = (catalog db).withSchema schema := by
  ext1
  · ext other
    exact Database.mem_schemas_createSchema
  · rw [Catalog.rows_withSchema]
    simp only [catalog, Database.rows_createSchema]

omit [DecidableEq Row] in
theorem catalog_addTables_missing
    (horder : SortsByReference order declared)
    (db : Database Row) :
    catalog (db.addTables ((order (db.missing declared)).map Table.name)) =
      (catalog db).withTables (declared.map Table.name) := by
  ext1
  · rfl
  · funext name
    rw [Catalog.rows_withTables]
    simp only [catalog, Database.rows_addTables_missing horder]
    cases db.rows name <;> split_ifs <;> rfl

theorem quotedAfter_append
    (start : List Char) {name : List Char}
    (hname : '"' ∉ name) :
    Database.quotedAfter start (start ++ (name ++ ['"'])) =
      if name ≠ [] then some (String.ofList name) else none := by
  have htake : (name ++ ['"']).takeWhile (· ≠ '"') = name := by
    have hne : ∀ c ∈ name, decide (c ≠ '"') = true := fun c hc =>
      decide_eq_true fun heq => hname (heq ▸ hc)
    rw [List.takeWhile_append_of_pos hne]
    simp
  unfold Database.quotedAfter
  simp only [List.drop_left, htake, List.append_assoc, true_and]

/-- A name without a quote is read back from the statement. -/
theorem createdSchema_createSchemaText
    {name : String}
    (hname : IsIdentifier name) :
    Database.createdSchema (createSchemaText name) = if name ≠ "" then some name else none := by
  have hquote : "\"".toList = ['"'] := by decide
  unfold Database.createdSchema createSchemaText
  rw [String.toList_append, String.toList_append, List.append_assoc, hquote,
    quotedAfter_append _ hname.1, String.ofList_toList]
  simp

omit [DecidableEq Row] in
/-- What has been created one after the other has been added. -/
theorem eq_addTables_of_foldlM
    {tables : List Table}
    {db db' : Database Row}
    (h : tables.foldlM (fun db table => db.createTable table) db = .ok db') :
    db' = db.addTables (tables.map Table.name) := by
  induction tables generalizing db with
  | nil =>
      cases h
      simp
  | cons table tables ih =>
      rw [List.foldlM_cons] at h
      obtain ⟨created, hcreate, hrest⟩ := Fallible.bind_eq_ok_iff.mp h
      rw [ih hrest, (Database.createTable_eq_ok hcreate).1, Database.addTables_addTables]
      rfl

omit [DecidableEq Row] in
/-- A schema with a name is created. -/
theorem execDriverSql_createSchemaText
    {name : String}
    (hname : IsIdentifier name)
    (hne : name ≠ "")
    (db : Database Row) :
    db.execDriverSql (createSchemaText name) = .ok (db.createSchema name) := by
  unfold Database.execDriverSql
  rw [createdSchema_createSchemaText hname, if_pos hne]

omit [DecidableEq Row] in
theorem catalog_execDriverSql
    {name : String}
    (hname : IsIdentifier name)
    (h : db.execDriverSql (createSchemaText name) = .ok db') :
    catalog db' = (catalog db).withSchema name := by
  by_cases hne : name = ""
  · unfold Database.execDriverSql at h
    rw [createdSchema_createSchemaText hname, if_neg (not_not.mpr hne)] at h
    cases h
  · rw [execDriverSql_createSchemaText hname hne] at h
    cases h
    exact catalog_createSchema name db

omit [DecidableEq Row] in
theorem catalog_setRows
    (table : TableName) (rows : List Row) (db : Database Row) :
    catalog (db.setRows table rows) = (catalog db).withRows table rows := by
  ext1
  · rfl
  · funext name
    rw [Catalog.rows_withRows]
    simp only [catalog, Database.rows_setRows]
    split_ifs <;> rfl

omit [DecidableEq Row] in
theorem select_eq
    {table : TableName} {rows : Multiset Row}
    (h : (catalog db).rows table = some rows)
    (p : Row → Bool) :
    ∃ found, db.select table p = .ok found ∧
      (found : Multiset Row) = rows.filter fun row => p row = true := by
  obtain ⟨rows, hrows, rfl⟩ := Option.map_eq_some_iff.mp h
  refine ⟨rows.filter p, ?_, by simp⟩
  rw [Database.select, hrows]

theorem insert_ok
    {table : TableName} {rows : Multiset Row} {row : Row}
    (h : (catalog db).rows table = some rows)
    (hnew : row ∉ rows) :
    ∃ db', db.insert table row = .ok db' ∧
      catalog db' = (catalog db).withRows table (row ::ₘ rows) := by
  obtain ⟨rows, hrows, rfl⟩ := Option.map_eq_some_iff.mp h
  refine ⟨db.setRows table (rows ++ [row]), ?_, ?_⟩
  · rw [Database.insert, hrows]
    exact if_neg (by simpa using hnew)
  · have hrows : ((rows ++ [row] : List Row) : Multiset Row) = row ::ₘ (rows : Multiset Row) :=
      Multiset.coe_eq_coe.mpr (List.perm_append_singleton row rows)
    rw [catalog_setRows, hrows]

theorem transaction_atomic {S : Type}
    (interruption : Interruption)
    (body : S → Except SqlError S)
    (s : S) :
    (transaction interruption body s).1 = s ∨
      body s = .ok (transaction interruption body s).1 := by
  unfold transaction
  cases body s with
  | error error => exact Or.inl rfl
  | ok s' =>
      cases interruption with
      | none => exact Or.inr rfl
      | lost => exact Or.inl rfl
      | unanswered => exact Or.inr rfl

theorem transaction_error {S : Type}
    {body : S → Except SqlError S}
    {s : S}
    {error : SqlError}
    (h : body s = .error error)
    (interruption : Interruption) :
    transaction interruption body s = (s, some error) := by
  rw [transaction, h]

theorem transaction_none {S : Type}
    {body : S → Except SqlError S}
    {s s' : S}
    (h : body s = .ok s') :
    transaction .none body s = (s', Option.none) := by
  rw [transaction, h]

/-- The engine does what is documented, for declared tables that refer to each other only. -/
theorem documented_memoryEngine
    (horder : SortsByReference order declared)
    (hnodup : (declared.map Table.name).Nodup)
    (hclosed : ∀ table ∈ declared, ∀ name ∈ table.references,
      name ∈ declared.map Table.name)
    (table : TableName)
    (row : Row) :
    Documented (memoryEngine Row order) declared table row where
  catalog_createSchema _ _ _ hname h := catalog_execDriverSql hname h
  catalog_createAll db db' h := by
    have hadded := eq_addTables_of_foldlM h
    change catalog db' = (catalog db).withTables _
    rw [hadded]
    exact catalog_addTables_missing horder db
  createAll_ok db h := by
    refine ⟨_, Database.createAll_eq_ok horder hnodup hclosed fun table htable => ?_⟩
    obtain ⟨hmem, hnone⟩ := Database.mem_missing.mp htable
    exact h table hmem (rows_catalog_eq_none.mpr hnone)
  createAll_error db schema hschema hmissing hnot := by
    obtain ⟨table, htable, hnone⟩ := hmissing
    refine Database.createAll_eq_error horder hschema (fun hnil => ?_) hnot
    exact Database.missing_eq_nil_iff.mp hnil table htable (rows_catalog_eq_none.mp hnone)
  select_eq _ _ p h := select_eq h p
  insert_ok _ _ h hnew := insert_ok h hnew
  transaction_atomic := transaction_atomic
  transaction_error interruption _ _ _ h := ⟨_, transaction_error h interruption⟩
  uninterrupted_error _ _ _ h := transaction_error h .none
  uninterrupted_ok _ _ _ h := transaction_none h

end MemoryEngine

end SqlMemory
