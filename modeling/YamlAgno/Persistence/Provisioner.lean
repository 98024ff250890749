import YamlAgno.Library.Runs
import YamlAgno.Library.SqlMemory

/-!
# The provisioner of the config store

`db/provisioner.py`.  `provision` runs in one transaction: it creates the schema that it was
given, creates the declared tables that are missing and records the version of the store.  The
declared tables are those of `Base.metadata`, all of them in the schema `yamlagno`, whatever
schema the provisioner was given; so a provisioner for another schema fails on a database
without that one (`provision_eq`).

The database is whatever does what is documented (`EngineDocumented`).  It is used by others too: they
create schemas and tables and write rows, the table of versions apart, which no other code writes.
Transactions are taken one after the other.  In every run the provisioner leaves to every table
the rows that the others have written (`rows_of_run`), and once an attempt has been committed the
store is complete for good (`complete_of_run`).
-/

namespace YamlAgno

open Runs SqlCatalog

/-- `CONFIG_STORE_VERSION`. -/
def configStoreVersion : String := "0.3.0"

/-- `CONFIG_STORE_SCHEMA`. -/
def configStoreSchema : String := "yamlagno"

/-- A row of the table of versions, by its primary key, or of another table. -/
inductive StoreRow (R : Type) where
  | schemaVersion (component version : String)
  | record (row : R)
deriving DecidableEq

namespace ConfigStoreProvisioner

/-! ## The declared tables -/

/-- A `__tablename__` with the schema of its `__table_args__`. -/
def tablename (name : String) : TableName :=
  ⟨"yamlagno", name⟩

/-- The table of `TenantRecord`. -/
def tenants : TableName := tablename "yamlagno_tenants"

/-- The table of `SchemaVersionRecord`. -/
def schemaVersions : TableName := tablename "yamlagno_schema_versions"

/-- A table with a foreign key to the tenants. -/
def tenantTable (name : String) : Table :=
  ⟨tablename name, [tenants]⟩

/-- `Base.metadata`. -/
def baseMetadata : List Table :=
  [tenantTable "yamlagno_agent_configs",
   tenantTable "yamlagno_config_change_log",
   tenantTable "yamlagno_di_variable_cache",
   ⟨tablename "feature_flags", []⟩,
   ⟨schemaVersions, []⟩,
   ⟨tablename "secret_audit", []⟩,
   tenantTable "yamlagno_team_configs",
   tenantTable "yamlagno_tenants",
   tenantTable "yamlagno_workflow_configs"]

theorem baseMetadata_nodup :
    (baseMetadata.map Table.name).Nodup := by
  decide

theorem baseMetadata_closed :
    ∀ table ∈ baseMetadata, ∀ name ∈ table.references,
      name ∈ baseMetadata.map Table.name := by
  decide

theorem schema_of_baseMetadata :
    ∀ table ∈ baseMetadata, table.name.schema = configStoreSchema := by
  decide

theorem schemaVersions_mem :
    schemaVersions ∈ baseMetadata.map Table.name := by
  decide

/-! ## An attempt -/

end ConfigStoreProvisioner

/-- `ConfigStoreProvisioner`. -/
structure ConfigStoreProvisioner where
  schema : String := configStoreSchema

namespace ConfigStoreProvisioner

variable {R E : Type} [DecidableEq R] (engine : Engine (StoreRow R) E)

/-- The row that `_mark_version` inserts. -/
def versionRow : StoreRow R :=
  .schemaVersion "config_store" configStoreVersion

/-- The engine does what is documented, for the declared tables and the row of the version. -/
abbrev EngineDocumented : Prop :=
  Documented engine baseMetadata schemaVersions versionRow

/-- The rows that `_mark_version` looks for. -/
def isVersion : StoreRow R → Bool
  | .schemaVersion component version =>
      component == "config_store" && version == configStoreVersion
  | .record _ => false

/-- `_mark_version`. -/
def markVersion (db : engine.Database) : Except E engine.Database := do
  let found ← engine.select schemaVersions isVersion db
  match found.head? with
  | none => engine.insert schemaVersions versionRow db
  | some _ => return db

/-- The statement that creates the schema. -/
def createSchema (provisioner : ConfigStoreProvisioner) : String :=
  "CREATE SCHEMA IF NOT EXISTS \"" ++ provisioner.schema ++ "\""

/-- The statements of `provision`. -/
def statements
    (provisioner : ConfigStoreProvisioner)
    (db : engine.Database) :
    Except E engine.Database := do
  let prepared ← engine.execDriverSql provisioner.createSchema db
  let created ← engine.createAll baseMetadata prepared
  markVersion engine created

/-- `provision`: the database afterwards, and what is raised. -/
def provision
    (provisioner : ConfigStoreProvisioner)
    (interruption : engine.Interruption)
    (db : engine.Database) :
    engine.Database × Option E :=
  engine.transaction interruption (provisioner.statements engine) db

/-- The rows of the table of versions after an attempt. -/
def marked (rows : Multiset (StoreRow R)) : Multiset (StoreRow R) :=
  if versionRow ∈ rows then rows else versionRow ::ₘ rows

/-- The database takes the statement that creates the schema. -/
def Accepted (provisioner : ConfigStoreProvisioner) (db : engine.Database) : Prop :=
  ∃ db', engine.execDriverSql provisioner.createSchema db = .ok db'

/-- The declared tables have their schema, or need none any more. -/
def CanPlace (provisioner : ConfigStoreProvisioner) (c : Catalog (StoreRow R)) : Prop :=
  provisioner.schema = configStoreSchema ∨ configStoreSchema ∈ c.schemas ∨
    ∀ table ∈ baseMetadata, c.rows table.name ≠ none

/-- What a committed attempt makes of a database. -/
structure Provisioned
    (provisioner : ConfigStoreProvisioner)
    (c c' : Catalog (StoreRow R)) :
    Prop where
  schemas : c'.schemas = insert provisioner.schema c.schemas
  versions : c'.rows schemaVersions = some (marked ((c.rows schemaVersions).getD 0))
  tables : ∀ name, name ≠ schemaVersions →
    c'.rows name =
      (c.rows name).or (if name ∈ baseMetadata.map Table.name then some 0 else none)

section Attempts

variable {engine} {provisioner : ConfigStoreProvisioner} {db db' : engine.Database}

omit [DecidableEq R] in
theorem isVersion_iff
    {row : StoreRow R} :
    isVersion row = true ↔ row = versionRow := by
  cases row with
  | schemaVersion component version => simp [isVersion, versionRow]
  | record row => simp [isVersion, versionRow]

/-- The version is recorded if it was not, and nothing else is changed. -/
theorem markVersion_eq_ok
    (h : EngineDocumented engine)
    {rows : Multiset (StoreRow R)}
    (hrows : (engine.catalog db).rows schemaVersions = some rows) :
    ∃ db', markVersion engine db = .ok db' ∧
      engine.catalog db' = (engine.catalog db).withRows schemaVersions (marked rows) := by
  obtain ⟨found, hselect, hfound⟩ := h.select_eq db rows isVersion hrows
  have hmem : ∀ row, row ∈ found ↔ row ∈ rows ∧ row = versionRow := by
    intro row
    rw [← Multiset.mem_coe, hfound, Multiset.mem_filter, isVersion_iff]
  unfold markVersion
  rw [hselect]
  cases hhead : found.head? with
  | none =>
      have hnew : versionRow ∉ rows := fun hthere => by
        rw [List.head?_eq_none_iff.mp hhead] at hmem
        exact List.not_mem_nil ((hmem versionRow).mpr ⟨hthere, rfl⟩)
      obtain ⟨db', hinsert, hcatalog⟩ := h.insert_ok db rows hrows hnew
      exact ⟨db', by simpa [bind, Except.bind, hhead] using hinsert,
        by rw [hcatalog, marked, if_neg hnew]⟩
  | some row =>
      obtain ⟨hthere, rfl⟩ := (hmem row).mp (List.mem_of_mem_head? hhead)
      refine ⟨db, by simp [bind, Except.bind, pure, Except.pure, hhead], ?_⟩
      rw [marked, if_pos hthere]
      ext1
      · rfl
      · funext name
        rw [Catalog.rows_withRows]
        split_ifs with hname
        · rw [hname, hrows]
        · rfl

omit [DecidableEq R] in
/-- The statement for an identifier. -/
theorem catalog_of_accepted
    (h : EngineDocumented engine)
    (hname : IsIdentifier provisioner.schema)
    (hok : engine.execDriverSql provisioner.createSchema db = .ok db') :
    engine.catalog db' = (engine.catalog db).withSchema provisioner.schema :=
  h.catalog_createSchema _ db db' hname hok

/-- What the statements come to after the schema is there, if the tables can be placed. -/
theorem statements_eq_ok
    (h : EngineDocumented engine)
    (hname : IsIdentifier provisioner.schema)
    (haccepted : provisioner.Accepted engine db)
    (hplace : provisioner.CanPlace (engine.catalog db)) :
    ∃ db', provisioner.statements engine db = .ok db' ∧
      provisioner.Provisioned (engine.catalog db) (engine.catalog db') := by
  obtain ⟨prepared, hprepared⟩ := haccepted
  have hschema := catalog_of_accepted h hname hprepared
  have hschemas : ∀ table ∈ baseMetadata, (engine.catalog prepared).rows table.name = none →
      table.name.schema ∈ (engine.catalog prepared).schemas := by
    intro table htable hnone
    rw [hschema, schema_of_baseMetadata table htable]
    rw [hschema, Catalog.rows_withSchema] at hnone
    rcases hplace with heq | hmem | hall
    · exact Or.inl heq.symm
    · exact Or.inr hmem
    · exact absurd hnone (hall table htable)
  obtain ⟨created, hcreated⟩ := h.createAll_ok prepared hschemas
  have htables := h.catalog_createAll prepared created hcreated
  rw [hschema] at htables
  have hsome : ∀ rows : Option (Multiset (StoreRow R)), rows.or (some 0) = some (rows.getD 0) := by
    rintro (_ | rows) <;> rfl
  have hversions : (engine.catalog created).rows schemaVersions =
      some (((engine.catalog db).rows schemaVersions).getD 0) := by
    rw [htables, Catalog.rows_withTables, if_pos schemaVersions_mem]
    exact hsome _
  obtain ⟨db', hmark, hcatalog⟩ := markVersion_eq_ok h hversions
  refine ⟨db', ?_, ?_⟩
  · unfold statements
    rw [hprepared]
    change (engine.createAll baseMetadata prepared >>= markVersion engine) = _
    rw [hcreated]
    exact hmark
  · rw [hcatalog, htables]
    exact
      { schemas := rfl
        versions := by rw [Catalog.rows_withRows, if_pos rfl]
        tables := fun name hne => by rw [Catalog.rows_withRows, if_neg hne]; rfl }

omit [DecidableEq R] in
/-- Without their schema, no tables are created. -/
theorem statements_eq_error
    (h : EngineDocumented engine)
    (hname : IsIdentifier provisioner.schema)
    (haccepted : provisioner.Accepted engine db)
    (hnot : ¬ provisioner.CanPlace (engine.catalog db)) :
    provisioner.statements engine db = .error (engine.undefinedSchema configStoreSchema) := by
  obtain ⟨hother, hundefined, hmissing⟩ :
      provisioner.schema ≠ configStoreSchema ∧
        configStoreSchema ∉ (engine.catalog db).schemas ∧
          ¬ ∀ table ∈ baseMetadata, (engine.catalog db).rows table.name ≠ none := by
    simpa only [CanPlace, not_or] using hnot
  obtain ⟨prepared, hprepared⟩ := haccepted
  have hschema := catalog_of_accepted h hname hprepared
  have herror : engine.createAll baseMetadata prepared =
      .error (engine.undefinedSchema configStoreSchema) := by
    refine h.createAll_error prepared configStoreSchema schema_of_baseMetadata ?_ ?_
    · push Not at hmissing
      rw [hschema]
      exact hmissing
    · rw [hschema]
      exact fun hmem => hmem.elim (fun heq => hother heq.symm) hundefined
  unfold statements
  rw [hprepared]
  change (engine.createAll baseMetadata prepared >>= markVersion engine) = _
  rw [herror]
  rfl

omit [DecidableEq R] in
theorem statements_of_not_accepted
    (hnot : ¬ provisioner.Accepted engine db) :
    ∃ error, provisioner.statements engine db = .error error := by
  cases hprepared : engine.execDriverSql provisioner.createSchema db with
  | error error =>
      refine ⟨error, ?_⟩
      unfold statements
      rw [hprepared]
      rfl
  | ok prepared => exact absurd ⟨prepared, hprepared⟩ hnot

theorem provisioned_of_statements
    (h : EngineDocumented engine)
    (hname : IsIdentifier provisioner.schema)
    (hok : provisioner.statements engine db = .ok db') :
    provisioner.Provisioned (engine.catalog db) (engine.catalog db') := by
  by_cases haccepted : provisioner.Accepted engine db
  · by_cases hplace : provisioner.CanPlace (engine.catalog db)
    · obtain ⟨committed, hok', hprovisioned⟩ := statements_eq_ok h hname haccepted hplace
      obtain rfl := Except.ok.inj (hok.symm.trans hok')
      exact hprovisioned
    · rw [statements_eq_error h hname haccepted hplace] at hok
      cases hok
  · obtain ⟨error, herror⟩ := statements_of_not_accepted haccepted
    rw [herror] at hok
    cases hok

/-- An attempt that is not interrupted, and whose tables can be placed. -/
theorem provision_of_canPlace
    (h : EngineDocumented engine)
    (hname : IsIdentifier provisioner.schema)
    (haccepted : provisioner.Accepted engine db)
    (hplace : provisioner.CanPlace (engine.catalog db)) :
    ∃ db', provisioner.Provisioned (engine.catalog db) (engine.catalog db') ∧
      provisioner.provision engine engine.uninterrupted db = (db', none) := by
  obtain ⟨db', hok, hprovisioned⟩ := statements_eq_ok h hname haccepted hplace
  exact ⟨db', hprovisioned, h.uninterrupted_ok _ db db' hok⟩

/--
An attempt that is not interrupted creates what is missing and records the version, exactly if
the database takes its schema, and the schema of the declared tables is there, is the one that the
provisioner creates, or is not needed.  Otherwise an attempt raises, and the database is as
before.
-/
theorem provision_eq
    (h : EngineDocumented engine)
    (hname : IsIdentifier provisioner.schema)
    (db : engine.Database) :
    (provisioner.Accepted engine db → provisioner.CanPlace (engine.catalog db) →
      ∃ db', provisioner.Provisioned (engine.catalog db) (engine.catalog db') ∧
        provisioner.provision engine engine.uninterrupted db = (db', none)) ∧
      (provisioner.Accepted engine db → ¬ provisioner.CanPlace (engine.catalog db) →
        provisioner.provision engine engine.uninterrupted db =
          (db, some (engine.undefinedSchema configStoreSchema))) ∧
      (¬ (provisioner.Accepted engine db ∧ provisioner.CanPlace (engine.catalog db)) →
        ∀ interruption, ∃ error, provisioner.provision engine interruption db =
          (db, some error)) := by
  refine ⟨provision_of_canPlace h hname, fun haccepted hplace => ?_,
    fun hnot interruption => ?_⟩
  · exact h.uninterrupted_error _ db _ (statements_eq_error h hname haccepted hplace)
  · obtain ⟨error, herror⟩ : ∃ error, provisioner.statements engine db = .error error := by
      by_cases haccepted : provisioner.Accepted engine db
      · exact ⟨_, statements_eq_error h hname haccepted fun hplace => hnot ⟨haccepted, hplace⟩⟩
      · exact statements_of_not_accepted haccepted
    exact h.transaction_error interruption _ db error herror

end Attempts

/-! ## Runs -/

/-- What happens to the database: attempts, and what others do. -/
inductive Action (engine : Engine (StoreRow R) E) where
  | provision (provisioner : ConfigStoreProvisioner) (interruption : engine.Interruption)
  | createSchema (schema : String)
  | createTable (name : TableName)
  | write (table : TableName) (update : Multiset (StoreRow R) → Multiset (StoreRow R))

/-- One transaction.  Of others it is known what they change; nobody but the provisioner writes
to the table of versions. -/
inductive Step : engine.Database → Action engine → engine.Database → Prop
  | provision
      (db : engine.Database)
      (provisioner : ConfigStoreProvisioner)
      (interruption : engine.Interruption) :
      Step db (.provision provisioner interruption)
        (provisioner.provision engine interruption db).1
  | createSchema
      {db db' : engine.Database}
      {schema : String}
      (h : engine.catalog db' = (engine.catalog db).withSchema schema) :
      Step db (.createSchema schema) db'
  | createTable
      {db db' : engine.Database}
      {name : TableName}
      (h : engine.catalog db' = (engine.catalog db).withTables [name]) :
      Step db (.createTable name) db'
  | write
      {db db' : engine.Database}
      {table : TableName}
      {update : Multiset (StoreRow R) → Multiset (StoreRow R)}
      {rows : Multiset (StoreRow R)}
      (htable : table ≠ schemaVersions)
      (hrows : (engine.catalog db).rows table = some rows)
      (h : engine.catalog db' = (engine.catalog db).withRows table (update rows)) :
      Step db (.write table update) db'

variable {engine}

/-- What an action does to the rows of a table, if it writes to the table. -/
def Action.writesTo
    (name : TableName) :
    Action engine → Option (Multiset (StoreRow R) → Multiset (StoreRow R))
  | .write table update => if table = name then some update else none
  | _ => none

/-- The writes to a table, one after the other. -/
def replay
    (name : TableName)
    (actions : List (Action engine))
    (rows : Multiset (StoreRow R)) :
    Multiset (StoreRow R) :=
  (actions.filterMap (Action.writesTo name)).foldl (fun rows update => update rows) rows

/-- The provisioners of a run create schemas with an identifier for a name. -/
def NamesSchemas (actions : List (Action engine)) : Prop :=
  ∀ provisioner interruption, .provision provisioner interruption ∈ actions →
    IsIdentifier provisioner.schema

/-- The attempt is committed, whether it is told so or not. -/
def Commits (db : engine.Database) : Action engine → Prop
  | .provision provisioner interruption =>
      provisioner.statements engine db =
        .ok (provisioner.provision engine interruption db).1
  | _ => False

/-- All declared tables are there, and the version is recorded once. -/
structure Complete (c : Catalog (StoreRow R)) : Prop where
  tables : ∀ table ∈ baseMetadata, c.rows table.name ≠ none
  version : ((c.rows schemaVersions).getD 0).count versionRow = 1

section Steps

variable {db db' : engine.Database} {action : Action engine}
  {c c' : Catalog (StoreRow R)}

theorem count_marked
    {rows : Multiset (StoreRow R)}
    (h : rows.count versionRow ≤ 1) :
    (marked rows).count versionRow = 1 := by
  rw [marked]
  split
  · next hmem => exact Nat.le_antisymm h (Multiset.count_pos.mpr hmem)
  · next hmem => rw [Multiset.count_cons_self, Multiset.count_eq_zero.mpr hmem]

/-- `c'` has the rows of `c`, some new tables and the row of the version, if it is new. -/
structure Keeps
    (action : Action engine)
    (created : List TableName)
    (c c' : Catalog (StoreRow R)) :
    Prop where
  written : ∀ name, action.writesTo name ≠ none → c.rows name ≠ none
  rows : ∀ name, name ≠ schemaVersions →
    c'.rows name = ((c.rows name).or (if name ∈ created then some 0 else none)).map
      ((action.writesTo name).getD id)
  versions :
    c'.rows schemaVersions =
        (c.rows schemaVersions).or (if schemaVersions ∈ created then some 0 else none) ∨
      c'.rows schemaVersions = some (marked ((c.rows schemaVersions).getD 0))

/-- All that a step can do to the rows. -/
theorem keeps_of_step
    (h : EngineDocumented engine)
    (hname : ∀ provisioner interruption, action = .provision provisioner interruption →
      IsIdentifier provisioner.schema)
    (hstep : Step engine db action db') :
    ∃ created, Keeps action created (engine.catalog db) (engine.catalog db') := by
  cases hstep with
  | provision provisioner interruption =>
      have hnot : ∀ name, (Action.provision provisioner interruption : Action engine).writesTo
          name ≠ none → (engine.catalog db).rows name ≠ none := fun name h => absurd rfl h
      rcases h.transaction_atomic interruption (provisioner.statements engine) db with
        hsame | hcommitted
      · refine ⟨[], hnot, fun name _ => ?_, Or.inl ?_⟩ <;>
          rw [provision, hsame] <;> simp [Action.writesTo]
      · have hprovisioned := provisioned_of_statements h (hname _ _ rfl) hcommitted
        refine ⟨baseMetadata.map Table.name, hnot, fun name hne => ?_,
          Or.inr hprovisioned.versions⟩
        rw [provision, hprovisioned.tables name hne]
        simp [Action.writesTo]
  | @createSchema _ schema hcatalog =>
      refine ⟨[], fun name h => absurd rfl h, fun name _ => ?_, Or.inl ?_⟩ <;>
        simp [hcatalog, Action.writesTo]
  | @createTable _ name hcatalog =>
      refine ⟨[name], fun name h => absurd rfl h, fun name _ => ?_, Or.inl ?_⟩ <;>
        simp [hcatalog, Action.writesTo, Catalog.rows_withTables]
  | @write _ table update rows htable hrows hcatalog =>
      refine ⟨[], fun name hwrites => ?_, fun name _ => ?_, Or.inl ?_⟩
      · by_cases heq : table = name
        · rw [← heq, hrows]
          exact Option.some_ne_none _
        · exact absurd (if_neg heq) hwrites
      · rw [hcatalog, Catalog.rows_withRows, Action.writesTo]
        by_cases heq : name = table
        · subst heq
          simp [hrows]
        · simp [heq, Ne.symm heq]
      · rw [hcatalog, Catalog.rows_withRows, if_neg (Ne.symm htable)]
        simp

section Kept

variable {created : List TableName} (h : Keeps action created c c')
include h

theorem Keeps.getD_rows
    {name : TableName}
    (hname : name ≠ schemaVersions) :
    (c'.rows name).getD 0 = ((action.writesTo name).getD id) ((c.rows name).getD 0) := by
  rw [h.rows name hname]
  cases hrows : c.rows name with
  | none =>
      have hnone : action.writesTo name = none := by
        by_contra hsome
        exact h.written name hsome hrows
      rw [hnone]
      by_cases hmem : name ∈ created <;> simp [hmem]
  | some rows =>
      simp

/-- No table is dropped. -/
theorem Keeps.there
    {name : TableName}
    (hthere : c.rows name ≠ none) :
    c'.rows name ≠ none := by
  obtain ⟨rows, hrows⟩ := Option.ne_none_iff_exists'.mp hthere
  by_cases hname : name = schemaVersions
  · subst hname
    rcases h.versions with heq | heq <;> simp [heq, hrows]
  · rw [h.rows name hname]
    simp [hrows]

/-- The version is recorded no second time. -/
theorem Keeps.count_le
    (hcount : ((c.rows schemaVersions).getD 0).count versionRow ≤ 1) :
    ((c'.rows schemaVersions).getD 0).count versionRow ≤ 1 := by
  rcases h.versions with heq | heq
  · rw [heq]
    cases hrows : c.rows schemaVersions with
    | none => split <;> simp
    | some rows => simpa [hrows] using hcount
  · rw [heq, Option.getD_some]
    exact Nat.le_of_eq (count_marked hcount)

theorem Keeps.complete
    (hcomplete : Complete c) :
    Complete c' where
  tables table htable := h.there (hcomplete.tables table htable)
  version := by
    rcases h.versions with heq | heq
    · have hversion := hcomplete.version
      cases hrows : c.rows schemaVersions with
      | none => simp [hrows] at hversion
      | some rows => simpa [heq, hrows] using hversion
    · rw [heq, Option.getD_some, count_marked (Nat.le_of_eq hcomplete.version)]

end Kept

/-- A committed attempt leaves a complete store. -/
theorem complete_of_provisioned
    {provisioner : ConfigStoreProvisioner}
    (hcount : ((c.rows schemaVersions).getD 0).count versionRow ≤ 1)
    (h : provisioner.Provisioned c c') :
    Complete c' where
  tables table htable := by
    by_cases hname : table.name = schemaVersions
    · rw [hname, h.versions]
      exact Option.some_ne_none _
    · rw [h.tables table.name hname, if_pos (List.mem_map_of_mem htable)]
      cases c.rows table.name <;> simp
  version := by
    rw [h.versions, Option.getD_some, count_marked hcount]

/-- An attempt on a complete store finds nothing to do but its schema. -/
theorem provision_of_complete
    (h : EngineDocumented engine)
    (hcomplete : Complete (engine.catalog db))
    {provisioner : ConfigStoreProvisioner}
    (hname : IsIdentifier provisioner.schema)
    (haccepted : provisioner.Accepted engine db) :
    ∃ db', provisioner.provision engine engine.uninterrupted db = (db', none) ∧
      engine.catalog db' = (engine.catalog db).withSchema provisioner.schema := by
  obtain ⟨db', hprovisioned, hcommitted⟩ := provision_of_canPlace h hname haccepted
    (Or.inr (Or.inr hcomplete.tables))
  refine ⟨db', hcommitted, ?_⟩
  ext1
  · exact hprovisioned.schemas
  · funext name
    rw [Catalog.rows_withSchema]
    by_cases hversions : name = schemaVersions
    · have hversion := hcomplete.version
      rw [hversions, hprovisioned.versions]
      cases hrows : (engine.catalog db).rows schemaVersions with
      | none => simp [hrows] at hversion
      | some rows =>
          rw [hrows, Option.getD_some] at hversion
          have hmem : versionRow ∈ rows := Multiset.count_pos.mp (by omega)
          rw [Option.getD_some, marked, if_pos hmem]
    · rw [hprovisioned.tables name hversions]
      cases hrows : (engine.catalog db).rows name with
      | some rows => rfl
      | none =>
          -- A declared table is there.
          have hnot : name ∉ baseMetadata.map Table.name := fun hmem => by
            obtain ⟨table, htable, rfl⟩ := List.mem_map.mp hmem
            exact hcomplete.tables table htable hrows
          rw [if_neg hnot, Option.none_or]

end Steps

section Runs

variable {db t : engine.Database} {actions : List (Action engine)}

omit [DecidableEq R] in
theorem NamesSchemas.of_mem
    (hnames : NamesSchemas actions)
    {action : Action engine}
    (hmem : action ∈ actions)
    (provisioner : ConfigStoreProvisioner)
    (interruption : engine.Interruption)
    (h : action = .provision provisioner interruption) :
    IsIdentifier provisioner.schema :=
  hnames provisioner interruption (h ▸ hmem)

/--
Attempts to provision leave to the tables of the store the rows that the others write: a table
has at the end what their writes alone make of the rows that it had.
-/
theorem rows_of_run
    (h : EngineDocumented engine)
    (hrun : RunsTo (Step engine) db actions t)
    (hnames : NamesSchemas actions)
    {name : TableName}
    (hname : name ≠ schemaVersions) :
    ((engine.catalog t).rows name).getD 0 =
        replay name actions (((engine.catalog db).rows name).getD 0) ∧
      ((engine.catalog db).rows name ≠ none → (engine.catalog t).rows name ≠ none) := by
  induction hrun with
  | nil => exact ⟨rfl, id⟩
  | @cons db db' t action actions hstep _ ih =>
      obtain ⟨created, hkeeps⟩ := keeps_of_step h (hnames.of_mem List.mem_cons_self) hstep
      obtain ⟨hrows, hthere⟩ := ih fun provisioner interruption hmem =>
        hnames provisioner interruption (List.mem_cons_of_mem action hmem)
      refine ⟨?_, fun hfirst => hthere (hkeeps.there hfirst)⟩
      rw [hrows, hkeeps.getD_rows hname, replay, replay]
      cases hwrites : action.writesTo name with
      | none => rw [List.filterMap_cons_none hwrites]; rfl
      | some update => rw [List.filterMap_cons_some hwrites]; rfl

/--
Once an attempt has been committed, the store is complete, with the version recorded once, after
whatever happens.  A later attempt that is not interrupted, and whose schema the database takes,
returns and changes nothing but that its schema is there.
-/
theorem complete_of_run
    (h : EngineDocumented engine)
    {before after : List (Action engine)} {action : Action engine} {s : engine.Database}
    (hnames : NamesSchemas (before ++ action :: after))
    (hcount : (((engine.catalog db).rows schemaVersions).getD 0).count versionRow ≤ 1)
    (hbefore : RunsTo (Step engine) db before s)
    (hcommits : Commits s action)
    (hafter : RunsTo (Step engine) s (action :: after) t) :
    Complete (engine.catalog t) ∧
      ∀ provisioner : ConfigStoreProvisioner, IsIdentifier provisioner.schema →
        provisioner.Accepted engine t →
          ∃ t', provisioner.provision engine engine.uninterrupted t = (t', none) ∧
            engine.catalog t' = (engine.catalog t).withSchema provisioner.schema := by
  have honce : (((engine.catalog s).rows schemaVersions).getD 0).count versionRow ≤ 1 :=
    hbefore.invariant
      (I := fun u => (((engine.catalog u).rows schemaVersions).getD 0).count versionRow ≤ 1)
      (fun u a ha u' hu hstep => by
        obtain ⟨created, hkeeps⟩ :=
          keeps_of_step h (hnames.of_mem (List.mem_append_left _ ha)) hstep
        exact hkeeps.count_le hu) hcount
  have hcomplete : Complete (engine.catalog t) := by
    cases hafter with
    | @cons _ s' _ _ _ hstep hrest =>
        refine hrest.invariant (I := fun u => Complete (engine.catalog u))
          (fun u a ha u' hu hstep => ?_) ?_
        · obtain ⟨created, hkeeps⟩ := keeps_of_step h
            (hnames.of_mem (List.mem_append_right _ (List.mem_cons_of_mem action ha))) hstep
          exact hkeeps.complete hu
        · cases hstep with
          | provision provisioner interruption =>
              have hschema := hnames provisioner interruption (by simp)
              exact complete_of_provisioned honce
                (provisioned_of_statements h hschema hcommits)
          | createSchema _ => exact hcommits.elim
          | createTable _ => exact hcommits.elim
          | write _ _ _ => exact hcommits.elim
  exact ⟨hcomplete, fun provisioner hschema haccepted =>
    provision_of_complete h hcomplete hschema haccepted⟩

end Runs

/-! ## A store in memory -/

open SqlMemory

/-- A database in memory that creates the independent tables first. -/
abbrev store : Engine (StoreRow ℕ) SqlError :=
  memoryEngine (StoreRow ℕ) independentFirst

theorem documented_store : EngineDocumented store :=
  documented_memoryEngine (independentFirst_sorts (by decide)) baseMetadata_nodup
    baseMetadata_closed schemaVersions versionRow

/-- A database without schemas. -/
def emptyDatabase : store.Database :=
  (⟨[], []⟩ : Database (StoreRow ℕ))

/-- The schemas of two provisioners, which a database in memory takes. -/
theorem accepted_store
    {schema : String}
    (h : schema = "yamlagno" ∨ schema = "reporting")
    (db : store.Database) :
    IsIdentifier schema ∧ Accepted store ⟨schema⟩ db := by
  have hname : IsIdentifier schema := by
    unfold IsIdentifier
    rcases h with rfl | rfl <;> decide
  have hne : schema ≠ "" := by
    rcases h with rfl | rfl <;> decide
  exact ⟨hname, _, execDriverSql_createSchemaText hname hne db⟩

/-- On an empty database only the provisioner of the schema `yamlagno` succeeds. -/
theorem provision_eq_empty :
    (∃ db', ({} : ConfigStoreProvisioner).Provisioned (store.catalog emptyDatabase)
        (store.catalog db') ∧
      provision store {} store.uninterrupted emptyDatabase = (db', none)) ∧
    provision store ⟨"reporting"⟩ store.uninterrupted emptyDatabase =
      (emptyDatabase, some (.undefinedSchema "yamlagno")) := by
  obtain ⟨hname, haccepted⟩ := accepted_store (Or.inl rfl) emptyDatabase
  obtain ⟨hname', haccepted'⟩ := accepted_store (Or.inr rfl) emptyDatabase
  have hnot : ¬ CanPlace ⟨"reporting"⟩ (store.catalog emptyDatabase) := by
    rintro (heq | hmem | hall)
    · exact absurd heq (by decide)
    · exact List.not_mem_nil hmem
    · exact hall ⟨schemaVersions, []⟩ (by decide) rfl
  exact ⟨(provision_eq documented_store hname emptyDatabase).1 haccepted (Or.inl rfl),
    (provision_eq documented_store hname' emptyDatabase).2.1 haccepted' hnot⟩

/-- An agent is saved between two attempts, the second of which nobody hears of. -/
def twoStarts : List (Action store) :=
  [.provision {} .none,
   .write (tablename "yamlagno_agent_configs") fun rows => .record 7 ::ₘ rows,
   .provision {} .unanswered]

/-- The first attempt is committed, and the rest of the run follows it. -/
theorem exists_twoStarts :
    ∃ t, Commits emptyDatabase (.provision {} .none : Action store) ∧
      RunsTo (Step store) emptyDatabase twoStarts t := by
  obtain ⟨hname, haccepted⟩ := accepted_store (Or.inl rfl) emptyDatabase
  obtain ⟨db, hok, hprovisioned⟩ := statements_eq_ok documented_store hname haccepted (Or.inl rfl)
  have hfirst : provision store {} .none emptyDatabase = (db, none) := transaction_none hok
  have hstep : Step store emptyDatabase (.provision {} .none) db := by
    have hprovision : Step store emptyDatabase _ (provision store {} .none emptyDatabase).1 :=
      .provision emptyDatabase {} .none
    rwa [hfirst] at hprovision
  have hrows : (store.catalog db).rows (tablename "yamlagno_agent_configs") = some 0 := by
    rw [hprovisioned.tables _ (by decide), if_pos (by decide)]
    rfl
  have hwrite : Step store db
      (.write (tablename "yamlagno_agent_configs") fun rows => .record 7 ::ₘ rows)
      (Database.setRows (tablename "yamlagno_agent_configs") [StoreRow.record 7] db) :=
    .write (by decide) hrows (catalog_setRows _ [StoreRow.record 7] db)
  have hlast : ∀ saved : store.Database, Step store saved (.provision {} .unanswered)
      (provision store {} .unanswered saved).1 := fun saved => .provision saved {} .unanswered
  refine ⟨_, ?_, .cons hstep (.cons hwrite (.cons (hlast _) (.nil _)))⟩
  change statements store {} emptyDatabase = _
  rw [hfirst]
  exact hok

theorem namesSchemas_twoStarts : NamesSchemas twoStarts := by
  intro provisioner interruption hmem
  have hschema : provisioner.schema = "yamlagno" := by
    rcases List.mem_cons.mp hmem with h | hmem
    · cases h
      rfl
    · rcases List.mem_cons.mp hmem with h | hmem
      · cases h
      · cases List.mem_singleton.mp hmem
        rfl
  rw [hschema]
  exact (accepted_store (Or.inl rfl) emptyDatabase).1

theorem rows_of_run_twoStarts :
    ∃ t, RunsTo (Step store) emptyDatabase twoStarts t ∧
      ((store.catalog t).rows (tablename "yamlagno_agent_configs")).getD 0 = {.record 7} := by
  obtain ⟨t, -, hrun⟩ := exists_twoStarts
  refine ⟨t, hrun, ?_⟩
  rw [(rows_of_run documented_store hrun namesSchemas_twoStarts (by decide)).1]
  rfl

theorem complete_of_run_twoStarts :
    ∃ t, RunsTo (Step store) emptyDatabase twoStarts t ∧ Complete (store.catalog t) ∧
      ∃ t', provision store ⟨"reporting"⟩ store.uninterrupted t = (t', none) ∧
        store.catalog t' = (store.catalog t).withSchema "reporting" := by
  obtain ⟨t, hcommits, hrun⟩ := exists_twoStarts
  obtain ⟨hname, haccepted⟩ := accepted_store (Or.inr rfl) t
  have hbefore : RunsTo (Step store) emptyDatabase [] emptyDatabase := .nil emptyDatabase
  have hcount : (((store.catalog emptyDatabase).rows schemaVersions).getD 0).count versionRow ≤
      1 := by
    decide
  have hnames : NamesSchemas ([] ++ (.provision {} .none : Action store) :: twoStarts.tail) :=
    namesSchemas_twoStarts
  obtain ⟨hcomplete, hlater⟩ := complete_of_run documented_store hnames hcount hbefore hcommits
    hrun
  exact ⟨t, hrun, hcomplete, hlater ⟨"reporting"⟩ hname haccepted⟩

end ConfigStoreProvisioner

end YamlAgno
