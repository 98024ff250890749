import YamlAgno.Library.PyValue
import YamlAgno.Library.RowStore
import YamlAgno.Library.Unwinding

/-!
# The repository of agent configs

Every operation of `AgentConfigRepository` is one transaction of a tenant on a table
that all tenants share.  Isolation is by filters only: each query names the tenant,
and `delete` removes a bare id that such a query has returned.

What a tenant sees of the table is the list of its own rows.  Other tenants'
operations do not change it, and its own depend on nothing else, up to the ids that
the store gives to new rows.  So a tenant's answers and rows in any interleaving are
those of the run of its own operations (`tenants_do_not_interfere`).
-/

namespace YamlAgno
namespace AgentConfigs

open RowStore

/-- A row of the table. -/
structure AgentConfigRecord (Tenant Id : Type) where
  id : Id
  tenantId : Tenant
  name : String
  version : ℤ
  configYaml : String
  configJsonb : PyDict
  isActive : Bool

/-- How a validated agent config is named and written out. -/
structure Serializer (Config : Type) where
  name : Config → String
  modelDump : Config → PyDict
  yamlDump : PyDict → String

/-- The database adapter: its page limit, and whether it enforces the unique
constraint on tenant and name. -/
structure Adapter where
  pageLimit : ℕ
  enforcesUnique : Bool

/-- The table, and the ids that have been given to rows so far. -/
structure Store (Tenant Id : Type) where
  rows : List (AgentConfigRecord Tenant Id)
  used : List Id

/-- What an operation answers. -/
inductive Answer (Tenant Id : Type) where
  | inserted (record : AgentConfigRecord Tenant Id)
  | integrityError
  | found (record : Option (AgentConfigRecord Tenant Id))
  | listed (records : List (AgentConfigRecord Tenant Id))
  | deleted

section Repository

variable {Tenant Id Config : Type} [DecidableEq Tenant]

/-- `get_by_name`. -/
def getByName
    (rows : List (AgentConfigRecord Tenant Id))
    (tenantId : Tenant)
    (name : String) :
    Option (AgentConfigRecord Tenant Id) :=
  (findAll (fun row => row.tenantId == tenantId && row.name == name && row.isActive == true)
    1 rows).head?

/-- `list_by_tenant`. -/
def listByTenant
    (adapter : Adapter)
    (rows : List (AgentConfigRecord Tenant Id))
    (tenantId : Tenant) :
    List (AgentConfigRecord Tenant Id) :=
  findAll (fun row => row.tenantId == tenantId) adapter.pageLimit rows

/-- The row that `save` inserts, under the id it is given. -/
def newRecord
    (serializer : Serializer Config)
    (tenantId : Tenant)
    (config : Config)
    (id : Id) :
    AgentConfigRecord Tenant Id where
  id := id
  tenantId := tenantId
  name := serializer.name config
  version := 1
  configYaml := serializer.yamlDump (serializer.modelDump config)
  configJsonb := serializer.modelDump config
  isActive := true

/-- The row breaks the unique constraint. -/
def violatesUnique
    (adapter : Adapter)
    (rows : List (AgentConfigRecord Tenant Id))
    (record : AgentConfigRecord Tenant Id) :
    Bool :=
  adapter.enforcesUnique &&
    rows.any fun row => row.tenantId == record.tenantId && row.name == record.name

/-- `save`; a refused insert rolls its transaction back. -/
def save
    (adapter : Adapter)
    (rows : List (AgentConfigRecord Tenant Id))
    (record : AgentConfigRecord Tenant Id) :
    List (AgentConfigRecord Tenant Id) × Answer Tenant Id :=
  if violatesUnique adapter rows record then (rows, .integrityError)
  else (RowStore.insert record rows, .inserted record)

variable [DecidableEq Id]

/-- `delete`. -/
def delete
    (rows : List (AgentConfigRecord Tenant Id))
    (tenantId : Tenant)
    (name : String) :
    List (AgentConfigRecord Tenant Id) :=
  match findAll (fun row => row.tenantId == tenantId && row.name == name) 1 rows with
  | [] => rows
  | row :: _ => deleteById AgentConfigRecord.id row.id rows

/-- An operation; a save comes with the id that its row is given. -/
inductive Operation (Id Config : Type) where
  | save (config : Config) (id : Id)
  | getByName (name : String)
  | listByTenant
  | delete (name : String)

/-- An operation issued by a tenant. -/
structure Event (Tenant Id Config : Type) where
  tenantId : Tenant
  operation : Operation Id Config

/-- One transaction.  The id of a new row has to be fresh. -/
def step
    (serializer : Serializer Config)
    (adapter : Adapter)
    (store : Store Tenant Id)
    (event : Event Tenant Id Config) :
    Option (Store Tenant Id × Answer Tenant Id) :=
  match event.operation with
  | .save config id =>
      if id ∈ store.used then none
      else
        let record := newRecord serializer event.tenantId config id
        let result := save adapter store.rows record
        some (⟨result.1, id :: store.used⟩, result.2)
  | .getByName name => some (store, .found (getByName store.rows event.tenantId name))
  | .listByTenant => some (store, .listed (listByTenant adapter store.rows event.tenantId))
  | .delete name => some ({ store with rows := delete store.rows event.tenantId name }, .deleted)

end Repository

/-! ## What a tenant sees -/

section Queries

variable {Tenant Id : Type} [DecidableEq Tenant]

/-- The rows of a tenant. -/
def rowsOf
    (tenantId : Tenant)
    (rows : List (AgentConfigRecord Tenant Id)) :
    List (AgentConfigRecord Tenant Id) :=
  rows.filter fun row => row.tenantId == tenantId

variable (rows : List (AgentConfigRecord Tenant Id)) (tenantId : Tenant)

theorem getByName_eq
    (name : String) :
    getByName rows tenantId name =
      (rowsOf tenantId rows).find? fun row => row.name == name && row.isActive == true := by
  rw [getByName, head?_findAll _ Nat.one_pos, rowsOf, List.find?_filter]
  simp only [Bool.decide_and, Bool.decide_eq_true, Bool.and_assoc]

theorem rowsOf_insert
    {record : AgentConfigRecord Tenant Id}
    (h : record.tenantId = tenantId) :
    rowsOf tenantId (RowStore.insert record rows) = rowsOf tenantId rows ++ [record] := by
  simp [rowsOf, RowStore.insert, h]

theorem rowsOf_deleteById
    [DecidableEq Id]
    (id : Id) :
    rowsOf tenantId (deleteById AgentConfigRecord.id id rows) =
      deleteById AgentConfigRecord.id id (rowsOf tenantId rows) :=
  filter_deleteById id rows _

theorem listByTenant_eq
    (adapter : Adapter) :
    listByTenant adapter rows tenantId = (rowsOf tenantId rows).take adapter.pageLimit := by
  rfl

theorem violatesUnique_eq
    (adapter : Adapter)
    (record : AgentConfigRecord Tenant Id) :
    violatesUnique adapter rows record =
      (adapter.enforcesUnique &&
        (rowsOf record.tenantId rows).any fun row => row.name == record.name) := by
  simp only [violatesUnique, rowsOf, List.any_filter]

/-- The row a delete removes is one of the tenant's. -/
theorem mem_of_find?_rowsOf
    {meets : AgentConfigRecord Tenant Id → Bool}
    {row : AgentConfigRecord Tenant Id}
    (h : (rowsOf tenantId rows).find? meets = some row) :
    row ∈ rows ∧ row.tenantId = tenantId := by
  have hmem := List.mem_filter.mp (List.mem_of_find?_eq_some h)
  exact ⟨hmem.1, by simpa using hmem.2⟩

/-- A delete removes the id of the tenant's first row of the name, if there is one. -/
theorem delete_eq
    [DecidableEq Id]
    (name : String) :
    delete rows tenantId name =
      match (rowsOf tenantId rows).find? (fun row => row.name == name) with
      | none => rows
      | some row => deleteById AgentConfigRecord.id row.id rows := by
  have hhead := head?_findAll (fun row : AgentConfigRecord Tenant Id =>
    row.tenantId == tenantId && row.name == name) Nat.one_pos rows
  have hfind : (rowsOf tenantId rows).find? (fun row => row.name == name) =
      rows.find? fun row => row.tenantId == tenantId && row.name == name := by
    simp only [rowsOf, List.find?_filter, Bool.decide_and, Bool.decide_eq_true]
  rw [hfind, ← hhead, delete]
  cases findAll (fun row : AgentConfigRecord Tenant Id =>
      row.tenantId == tenantId && row.name == name) 1 rows <;> rfl

end Queries

/-- Ids are unique in the table and have been given to it. -/
structure Store.WellFormed {Tenant Id : Type} (store : Store Tenant Id) : Prop where
  ids_nodup : (store.rows.map AgentConfigRecord.id).Nodup
  ids_used : ∀ row ∈ store.rows, row.id ∈ store.used

section Steps

variable {Tenant Id Config : Type} [DecidableEq Tenant] [DecidableEq Id]
  {serializer : Serializer Config} {adapter : Adapter}

/-- What an operation does to the table: nothing, one new row under a fresh id, or one
row of the tenant deleted by its id. -/
theorem step_rows_cases
    {s t : Store Tenant Id}
    {e : Event Tenant Id Config}
    {o : Answer Tenant Id}
    (hstep : step serializer adapter s e = some (t, o)) :
    t.rows = s.rows ∧ s.used ⊆ t.used ∨
    (∃ config id, id ∉ s.used ∧ t.used = id :: s.used ∧
      t.rows = RowStore.insert (newRecord serializer e.tenantId config id) s.rows) ∨
    ∃ row ∈ s.rows, row.tenantId = e.tenantId ∧ t.used = s.used ∧
      t.rows = deleteById AgentConfigRecord.id row.id s.rows := by
  obtain ⟨tenantId, operation⟩ := e
  cases operation with
  | save config id =>
      simp only [step] at hstep
      split_ifs at hstep with hused
      cases hstep
      simp only [save]
      split_ifs
      · exact Or.inl ⟨rfl, List.subset_cons_self id s.used⟩
      · exact Or.inr (Or.inl ⟨config, id, hused, rfl, rfl⟩)
  | getByName name =>
      cases hstep
      exact Or.inl ⟨rfl, List.Subset.refl _⟩
  | listByTenant =>
      cases hstep
      exact Or.inl ⟨rfl, List.Subset.refl _⟩
  | delete name =>
      cases hstep
      simp only [delete_eq]
      cases hfind : (rowsOf tenantId s.rows).find? (fun row => row.name == name) with
      | none =>
          exact Or.inl ⟨rfl, List.Subset.refl _⟩
      | some row =>
          obtain ⟨hmem, htenant⟩ := mem_of_find?_rowsOf s.rows tenantId hfind
          exact Or.inr (Or.inr ⟨row, hmem, htenant, trivial, rfl⟩)

theorem Store.WellFormed.step
    {s t : Store Tenant Id}
    {e : Event Tenant Id Config}
    {o : Answer Tenant Id}
    (hs : s.WellFormed)
    (hstep : step serializer adapter s e = some (t, o)) :
    t.WellFormed := by
  rcases step_rows_cases hstep with
    ⟨hrows, hused⟩ | ⟨config, id, hfresh, hused, hrows⟩ | ⟨row, -, -, hused, hrows⟩
  · refine ⟨hrows ▸ hs.ids_nodup, fun row hrow => ?_⟩
    rw [hrows] at hrow
    exact hused (hs.ids_used row hrow)
  · have hnew : id ∉ s.rows.map AgentConfigRecord.id := by
      intro hmem
      obtain ⟨row, hrow, rfl⟩ := List.mem_map.mp hmem
      exact hfresh (hs.ids_used row hrow)
    refine ⟨?_, fun row hrow => ?_⟩
    · rw [hrows, RowStore.insert, List.map_append]
      refine List.nodup_append'.mpr ⟨hs.ids_nodup, List.nodup_singleton _, ?_⟩
      simpa [newRecord] using hnew
    · rw [hrows, RowStore.insert] at hrow
      rw [hused]
      rcases List.mem_append.mp hrow with hrow | hrow
      · exact List.mem_cons_of_mem id (hs.ids_used row hrow)
      · rw [List.mem_singleton.mp hrow]
        exact List.mem_cons_self
  · refine ⟨hrows ▸ nodup_deleteById hs.ids_nodup row.id, fun other hother => ?_⟩
    rw [hrows] at hother
    rw [hused]
    exact hs.ids_used other (List.mem_of_mem_filter hother)

/-- An operation of another tenant leaves the tenant's rows as they are. -/
theorem rowsOf_step_of_ne
    {s t : Store Tenant Id}
    {e : Event Tenant Id Config}
    {o : Answer Tenant Id}
    {tenantId : Tenant}
    (hs : s.WellFormed)
    (hne : e.tenantId ≠ tenantId)
    (hstep : step serializer adapter s e = some (t, o)) :
    rowsOf tenantId t.rows = rowsOf tenantId s.rows := by
  rcases step_rows_cases hstep with
    ⟨hrows, -⟩ | ⟨config, id, -, -, hrows⟩ | ⟨row, hrow, htenant, -, hrows⟩
  · rw [hrows]
  · rw [hrows]
    simp [rowsOf, RowStore.insert, newRecord, hne]
  · rw [hrows]
    exact filter_deleteById_of_not hs.ids_nodup hrow (by simpa [htenant] using hne)

end Steps

/-! ## The same, up to the choice of ids -/

section Renaming

variable {Tenant Id Config : Type} (ρ : Id → Id)

def AgentConfigRecord.rename (row : AgentConfigRecord Tenant Id) : AgentConfigRecord Tenant Id :=
  { row with id := ρ row.id }

def Answer.rename : Answer Tenant Id → Answer Tenant Id
  | inserted record => inserted (record.rename ρ)
  | integrityError => integrityError
  | found record => found (record.map (AgentConfigRecord.rename ρ))
  | listed records => listed (records.map (AgentConfigRecord.rename ρ))
  | deleted => deleted

def Operation.rename : Operation Id Config → Operation Id Config
  | save config id => save config (ρ id)
  | getByName name => getByName name
  | listByTenant => listByTenant
  | delete name => delete name

def Event.rename (e : Event Tenant Id Config) : Event Tenant Id Config :=
  { e with operation := e.operation.rename ρ }

theorem Event.rename_same (e : Event Tenant Id Config) :
    e.rename (fun id => id) = e := by
  obtain ⟨tenantId, operation⟩ := e
  cases operation <;> rfl

theorem rename_rows_same (rows : List (AgentConfigRecord Tenant Id)) :
    rows.map (AgentConfigRecord.rename fun id => id) = rows :=
  List.map_id rows

theorem rename_answers_same (os : List (Answer Tenant Id)) :
    os.map (Answer.rename fun id => id) = os := by
  refine (List.map_congr_left (fun o _ => ?_)).trans (List.map_id os)
  cases o with
  | found record =>
      cases record <;> rfl
  | listed records =>
      exact congrArg Answer.listed (rename_rows_same records)
  | inserted _ | integrityError | deleted =>
      rfl

variable {ρ}

/-- Matching answers, with their events left out. -/
theorem map_snd_of_forall₂
    {R : Event Tenant Id Config → Event Tenant Id Config → Prop}
    {os os' : List (Event Tenant Id Config × Answer Tenant Id)}
    (h : List.Forall₂ (fun a b => R a.1 b.1 ∧ b.2 = a.2.rename ρ) os os') :
    os'.map Prod.snd = (os.map Prod.snd).map (Answer.rename ρ) := by
  induction h with
  | nil =>
      rfl
  | cons hab _ ih =>
      simp only [List.map_cons, hab.2, ih]

end Renaming

section View

variable {Tenant Id Config : Type} [DecidableEq Tenant]

/-- Two stores that are the same to a tenant, up to the ids of its rows. -/
structure SameView
    (tenantId : Tenant)
    (ρ : Id → Id)
    (s s' : Store Tenant Id) : Prop where
  wellFormed : s.WellFormed
  wellFormed' : s'.WellFormed
  rows_eq : rowsOf tenantId s'.rows = (rowsOf tenantId s.rows).map (AgentConfigRecord.rename ρ)

/-- The renaming keeps the ids of the tenant's rows apart. -/
theorem SameView.apart
    {tenantId : Tenant}
    {ρ : Id → Id}
    {s s' : Store Tenant Id}
    (h : SameView tenantId ρ s s')
    {row row' : AgentConfigRecord Tenant Id}
    (hrow : row ∈ rowsOf tenantId s.rows)
    (hrow' : row' ∈ rowsOf tenantId s.rows)
    (hid : ρ row.id = ρ row'.id) :
    row.id = row'.id := by
  have hnodup : ((rowsOf tenantId s.rows).map (ρ ∘ AgentConfigRecord.id)).Nodup := by
    have hids : ((rowsOf tenantId s'.rows).map AgentConfigRecord.id).Nodup :=
      h.wellFormed'.ids_nodup.sublist (List.filter_sublist.map _)
    rw [h.rows_eq, List.map_map] at hids
    exact hids
  rw [List.inj_on_of_nodup_map hnodup hrow hrow' hid]

/-- A query by the tenant finds the same row in both stores. -/
theorem SameView.find?_eq
    {tenantId : Tenant}
    {ρ : Id → Id}
    {s s' : Store Tenant Id}
    (h : SameView tenantId ρ s s')
    (meets : AgentConfigRecord Tenant Id → Bool)
    (hmeets : ∀ row, meets (row.rename ρ) = meets row) :
    (rowsOf tenantId s'.rows).find? meets =
      ((rowsOf tenantId s.rows).find? meets).map (AgentConfigRecord.rename ρ) := by
  have hcomp : meets ∘ AgentConfigRecord.rename ρ = meets := funext hmeets
  rw [h.rows_eq, List.find?_map, hcomp]

/-- A save by the tenant is refused in both stores or in none. -/
theorem SameView.violatesUnique_eq
    {tenantId : Tenant}
    {ρ : Id → Id}
    {s s' : Store Tenant Id}
    (h : SameView tenantId ρ s s')
    (serializer : Serializer Config)
    (adapter : Adapter)
    (config : Config)
    (id : Id) :
    violatesUnique adapter s'.rows (newRecord serializer tenantId config (ρ id)) =
      violatesUnique adapter s.rows (newRecord serializer tenantId config id) := by
  simp only [AgentConfigs.violatesUnique_eq, newRecord, h.rows_eq, List.any_map]
  rfl

/-- A save by the tenant adds the same row to what it sees of both stores. -/
theorem SameView.rowsOf_insert
    {tenantId : Tenant}
    {ρ : Id → Id}
    {s s' : Store Tenant Id}
    (h : SameView tenantId ρ s s')
    (serializer : Serializer Config)
    (config : Config)
    (id : Id) :
    rowsOf tenantId (RowStore.insert (newRecord serializer tenantId config (ρ id)) s'.rows) =
      (rowsOf tenantId (RowStore.insert (newRecord serializer tenantId config id) s.rows)).map
        (AgentConfigRecord.rename ρ) := by
  have hinsert : ∀ (rows : List (AgentConfigRecord Tenant Id)) (id : Id),
      rowsOf tenantId (RowStore.insert (newRecord serializer tenantId config id) rows) =
        rowsOf tenantId rows ++ [newRecord serializer tenantId config id] :=
    fun rows id => AgentConfigs.rowsOf_insert rows tenantId rfl
  simp only [hinsert, h.rows_eq, List.map_append]
  rfl

variable [DecidableEq Id] {serializer : Serializer Config} {adapter : Adapter}

/-- A delete by the tenant removes the same row from what it sees of both stores. -/
theorem SameView.rowsOf_delete
    {tenantId : Tenant}
    {ρ : Id → Id}
    {s s' : Store Tenant Id}
    (h : SameView tenantId ρ s s')
    (name : String) :
    rowsOf tenantId (delete s'.rows tenantId name) =
      (rowsOf tenantId (delete s.rows tenantId name)).map (AgentConfigRecord.rename ρ) := by
  have hfind := h.find?_eq (fun row => row.name == name) (fun _ => rfl)
  simp only [delete_eq, hfind]
  cases hrow : (rowsOf tenantId s.rows).find? (fun row => row.name == name) with
  | none =>
      exact h.rows_eq
  | some row =>
      have hmem := List.mem_of_find?_eq_some hrow
      have hdelete :
          deleteById AgentConfigRecord.id (ρ row.id)
              ((rowsOf tenantId s.rows).map (AgentConfigRecord.rename ρ)) =
            (deleteById AgentConfigRecord.id row.id (rowsOf tenantId s.rows)).map
              (AgentConfigRecord.rename ρ) :=
        deleteById_map (AgentConfigRecord.rename ρ) ρ (fun _ => rfl)
          (fun other hother hid => h.apart hother hmem hid)
      simp only [Option.map_some, rowsOf_deleteById, h.rows_eq]
      exact hdelete

/-- The tenant's own operation keeps the stores the same to it, and answers the same. -/
theorem SameView.step_own
    {tenantId : Tenant}
    {ρ : Id → Id}
    {s s' t t' : Store Tenant Id}
    {e : Event Tenant Id Config}
    {o o' : Answer Tenant Id}
    (h : SameView tenantId ρ s s')
    (hown : e.tenantId = tenantId)
    (hstep : step serializer adapter s e = some (t, o))
    (hstep' : step serializer adapter s' (e.rename ρ) = some (t', o')) :
    SameView tenantId ρ t t' ∧ o' = o.rename ρ := by
  have hwf := h.wellFormed.step hstep
  have hwf' := h.wellFormed'.step hstep'
  suffices hsuff : rowsOf tenantId t'.rows =
      (rowsOf tenantId t.rows).map (AgentConfigRecord.rename ρ) ∧ o' = o.rename ρ from
    ⟨⟨hwf, hwf', hsuff.1⟩, hsuff.2⟩
  obtain ⟨e_tenant, operation⟩ := e
  dsimp only at hown
  subst hown
  cases operation with
  | getByName name =>
      simp only [step, Event.rename, Operation.rename] at hstep hstep'
      cases hstep
      cases hstep'
      refine ⟨h.rows_eq, ?_⟩
      simp only [getByName_eq, Answer.rename]
      rw [← h.find?_eq (fun row => row.name == name && row.isActive == true) (fun _ => rfl)]
  | listByTenant =>
      simp only [step, Event.rename, Operation.rename] at hstep hstep'
      cases hstep
      cases hstep'
      refine ⟨h.rows_eq, ?_⟩
      simp only [listByTenant_eq, Answer.rename, List.map_take]
      rw [← h.rows_eq]
  | delete name =>
      simp only [step, Event.rename, Operation.rename] at hstep hstep'
      cases hstep
      cases hstep'
      exact ⟨h.rowsOf_delete name, rfl⟩
  | save config id =>
      simp only [step, Event.rename, Operation.rename] at hstep hstep'
      split_ifs at hstep hstep' with hused hused'
      cases hstep
      cases hstep'
      simp only [save, h.violatesUnique_eq]
      split_ifs
      · exact ⟨h.rows_eq, rfl⟩
      · exact ⟨h.rowsOf_insert serializer config id, rfl⟩

/-- Whatever the ids, the rules of unwinding hold for the tenant's view. -/
theorem unwinding_sameView
    (serializer : Serializer Config)
    (adapter : Adapter)
    (tenantId : Tenant)
    (ρ : Id → Id) :
    Unwinding (step serializer adapter) (fun e => e.tenantId == tenantId)
      (SameView tenantId ρ) (fun e e' => e' = e.rename ρ) (fun o o' => o' = o.rename ρ) where
  hidden s s' e t o hother h hstep := by
    have hne : e.tenantId ≠ tenantId := by simpa using hother
    refine ⟨h.wellFormed.step hstep, h.wellFormed', ?_⟩
    rw [rowsOf_step_of_ne h.wellFormed hne hstep]
    exact h.rows_eq
  visible s s' e e' t o t' o' hown hsame h hstep hstep' := by
    subst hsame
    exact h.step_own (by simpa using hown) hstep hstep'

end View

/-! ## The ids a run draws -/

section Ids

variable {Tenant Id Config : Type}

/-- The ids of the rows that the events save. -/
def savedIds (es : List (Event Tenant Id Config)) : List Id :=
  es.filterMap fun e =>
    match e.operation with
    | .save _ id => some id
    | _ => none

/-- The events differ at most in the ids of the rows they save. -/
def SameButIds (e e' : Event Tenant Id Config) : Prop :=
  ∃ ρ : Id → Id, e' = e.rename ρ

/-- Events that differ in ids only are renamed by any map that takes the one's ids to
the other's. -/
theorem eq_rename_of_sameButIds
    {es es' : List (Event Tenant Id Config)}
    (h : List.Forall₂ SameButIds es es')
    {ρ : Id → Id}
    (hρ : (savedIds es).map ρ = savedIds es') :
    List.Forall₂ (fun e e' => e' = e.rename ρ) es es' := by
  induction h with
  | nil =>
      exact .nil
  | @cons e e' es es' hsame _ ih =>
      obtain ⟨tenantId, operation⟩ := e
      obtain ⟨σ, rfl⟩ := hsame
      cases operation with
      | save config id =>
          have hcons : ρ id :: (savedIds es).map ρ = σ id :: savedIds es' := hρ
          obtain ⟨hid, hrest⟩ := List.cons_eq_cons.mp hcons
          refine .cons ?_ (ih hrest)
          simp only [Event.rename, Operation.rename, hid]
      | getByName _ | listByTenant | delete _ =>
          exact .cons rfl (ih hρ)

theorem savedIds_length_eq
    {es es' : List (Event Tenant Id Config)}
    (h : List.Forall₂ SameButIds es es') :
    (savedIds es).length = (savedIds es').length := by
  induction h with
  | nil =>
      rfl
  | @cons e e' es es' hsame _ ih =>
      obtain ⟨tenantId, operation⟩ := e
      obtain ⟨σ, rfl⟩ := hsame
      cases operation with
      | save config id =>
          simpa [savedIds, Event.rename, Operation.rename] using ih
      | getByName _ | listByTenant | delete _ =>
          exact ih

/-- Distinct ids can be taken to any others one by one, all else staying as it is. -/
theorem exists_renaming
    [DecidableEq Id]
    {ids ids' : List Id}
    (hnodup : ids.Nodup)
    (hlength : ids.length = ids'.length) :
    ∃ ρ : Id → Id, ids.map ρ = ids' ∧ ∀ id ∉ ids, ρ id = id := by
  induction ids generalizing ids' with
  | nil =>
      cases ids' with
      | nil =>
          exact ⟨fun id => id, rfl, fun _ _ => rfl⟩
      | cons id' ids' =>
          cases hlength
  | cons id ids ih =>
      cases ids' with
      | nil =>
          cases hlength
      | cons id' ids' =>
          obtain ⟨hnot, hnodup⟩ := List.nodup_cons.mp hnodup
          obtain ⟨ρ, hmap, hkeep⟩ := ih hnodup (Nat.succ.inj hlength)
          refine ⟨Function.update ρ id id', ?_, fun other hother => ?_⟩
          · have hrest : ids.map (Function.update ρ id id') = ids.map ρ :=
              List.map_congr_left (fun other hother =>
                Function.update_of_ne (fun heq : other = id => hnot (heq ▸ hother)) id' ρ)
            rw [List.map_cons, Function.update_self, hrest, hmap]
          · rw [List.mem_cons, not_or] at hother
            rw [Function.update_of_ne hother.1, hkeep other hother.2]

variable [DecidableEq Tenant] [DecidableEq Id] {serializer : Serializer Config}
  {adapter : Adapter}

/-- The ids that a run draws are distinct and were not used before. -/
theorem fresh_of_answers
    {s t : Store Tenant Id}
    {es : List (Event Tenant Id Config)}
    {os : List (Event Tenant Id Config × Answer Tenant Id)}
    (hrun : answers (step serializer adapter) s es = some (t, os)) :
    (savedIds es).Nodup ∧ ∀ id ∈ savedIds es, id ∉ s.used := by
  induction es generalizing s os with
  | nil =>
      simp [savedIds]
  | cons e es ih =>
      obtain ⟨u, o, os', hstep, hrest, rfl⟩ := answers_cons_eq_some.mp hrun
      obtain ⟨hnodup, hfresh⟩ := ih hrest
      obtain ⟨tenantId, operation⟩ := e
      cases operation with
      | save config id =>
          simp only [step] at hstep
          split_ifs at hstep with hused
          cases hstep
          have hnot : id ∉ savedIds es := fun hmem => hfresh id hmem List.mem_cons_self
          refine ⟨List.nodup_cons.mpr ⟨hnot, hnodup⟩, fun other hother => ?_⟩
          rcases List.mem_cons.mp hother with rfl | hother
          · exact hused
          · exact fun hmem => hfresh other hother (List.mem_cons_of_mem id hmem)
      | getByName _ | listByTenant | delete _ =>
          cases hstep
          exact ⟨hnodup, hfresh⟩

end Ids

/-! ## Noninterference -/

section Noninterference

variable {Tenant Id Config : Type} [DecidableEq Tenant] [DecidableEq Id]

/-- The events of a tenant. -/
def eventsOf
    (tenantId : Tenant)
    (es : List (Event Tenant Id Config)) :
    List (Event Tenant Id Config) :=
  es.filter fun e => e.tenantId == tenantId

/-- What a tenant has been answered, operation by operation. -/
def answersTo
    (tenantId : Tenant)
    (os : List (Event Tenant Id Config × Answer Tenant Id)) :
    List (Answer Tenant Id) :=
  (os.filter fun a => a.1.tenantId == tenantId).map Prod.snd

/-- The ids a tenant meets: of its rows at the start, and of the rows it saves. -/
def idsOf
    (tenantId : Tenant)
    (s : Store Tenant Id)
    (es : List (Event Tenant Id Config)) :
    List Id :=
  (rowsOf tenantId s.rows).map AgentConfigRecord.id ++ savedIds (eventsOf tenantId es)

variable {serializer : Serializer Config} {adapter : Adapter}

/-- Two stores that are the same to a tenant, the second without foreign ids. -/
def OwnView
    (tenantId : Tenant)
    (s s' : Store Tenant Id) : Prop :=
  SameView tenantId (fun id => id) s s' ∧ s'.used ⊆ s.used

theorem used_subset_of_step
    {s t : Store Tenant Id}
    {e : Event Tenant Id Config}
    {o : Answer Tenant Id}
    (hstep : step serializer adapter s e = some (t, o)) :
    s.used ⊆ t.used := by
  rcases step_rows_cases hstep with ⟨-, hused⟩ | ⟨_, id, -, hused, -⟩ | ⟨_, -, -, hused, -⟩
  · exact hused
  · rw [hused]
    exact List.subset_cons_self id s.used
  · rw [hused]
    exact List.Subset.refl _

/-- What is possible with more ids used is possible with fewer. -/
theorem step_of_used_subset
    {s s' t : Store Tenant Id}
    {e : Event Tenant Id Config}
    {o : Answer Tenant Id}
    (hused : s'.used ⊆ s.used)
    (hstep : step serializer adapter s e = some (t, o)) :
    ∃ t' o', step serializer adapter s' e = some (t', o') ∧ t'.used ⊆ t.used := by
  obtain ⟨tenantId, operation⟩ := e
  cases operation with
  | save config id =>
      simp only [step] at hstep
      split_ifs at hstep with hfresh
      cases hstep
      have hfresh' : id ∉ s'.used := fun hmem => hfresh (hused hmem)
      simp only [step, if_neg hfresh']
      exact ⟨_, _, rfl, List.cons_subset_cons id hused⟩
  | getByName _ | listByTenant | delete _ =>
      cases hstep
      exact ⟨_, _, rfl, hused⟩

theorem unwinding_ownView
    (serializer : Serializer Config)
    (adapter : Adapter)
    (tenantId : Tenant) :
    Unwinding (step serializer adapter) (fun e : Event Tenant Id Config => e.tenantId == tenantId)
      (OwnView tenantId) Eq (fun o o' => o' = o.rename fun id => id) where
  hidden s s' e t o hother h hstep :=
    ⟨(unwinding_sameView serializer adapter tenantId _).hidden s s' e t o hother h.1 hstep,
      fun _ hid => used_subset_of_step hstep (h.2 hid)⟩
  visible s s' e e' t o t' o' hown hsame h hstep hstep' := by
    subst hsame
    obtain ⟨hview, hanswer⟩ :=
      (unwinding_sameView serializer adapter tenantId fun id => id).visible s s' e e t o t' o' hown
        (e.rename_same).symm h.1 hstep hstep'
    obtain ⟨u, o'', hstep'', hused⟩ := step_of_used_subset h.2 hstep
    cases hstep'.symm.trans hstep''
    exact ⟨⟨hview, hused⟩, hanswer⟩

/-- The run of the tenant's own operations, with the same ids. -/
theorem exists_own_answers
    {tenantId : Tenant}
    {s t : Store Tenant Id}
    (hs : s.WellFormed)
    {es : List (Event Tenant Id Config)}
    {os : List (Event Tenant Id Config × Answer Tenant Id)}
    (hrun : answers (step serializer adapter) s es = some (t, os)) :
    ∃ t' os', answers (step serializer adapter) s (eventsOf tenantId es) = some (t', os') ∧
      os'.map Prod.snd = answersTo tenantId os ∧
      rowsOf tenantId t'.rows = rowsOf tenantId t.rows := by
  have hview : OwnView tenantId s s :=
    ⟨⟨hs, hs, (rename_rows_same _).symm⟩, List.Subset.refl _⟩
  have hunwind : Unwinding (step serializer adapter)
      (fun e : Event Tenant Id Config => e.tenantId == tenantId) (OwnView tenantId) Eq
      (fun o o' => o' = o.rename fun id => id) :=
    unwinding_ownView serializer adapter tenantId
  obtain ⟨t', os', hrun'⟩ := hunwind.exists_own_run
    (fun u u' e v o _ hrel hstep => by
      obtain ⟨v', o', hstep', -⟩ := step_of_used_subset hrel.2 hstep
      exact ⟨v', o', hstep'⟩)
    hview hrun
  obtain ⟨hend, hanswers⟩ :=
    hunwind.matched (List.forall₂_same.mpr fun _ _ => rfl) hview hrun hrun'
  refine ⟨t', os', hrun', ?_, ?_⟩
  · rw [map_snd_of_forall₂ hanswers, rename_answers_same]
    rfl
  · rw [hend.1.rows_eq, rename_rows_same]

/--
A renaming of the saved ids that keeps the ids at the start, and gives the ids of
another run, is injective on the tenant's ids.
-/
theorem inj_on_idsOf
    {tenantId : Tenant}
    {s t' : Store Tenant Id}
    (hs : s.WellFormed)
    {es es' : List (Event Tenant Id Config)}
    {os' : List (Event Tenant Id Config × Answer Tenant Id)}
    (hrun' : answers (step serializer adapter) s es' = some (t', os'))
    {ρ : Id → Id}
    (hstart : ∀ row ∈ rowsOf tenantId s.rows, ρ row.id = row.id)
    (hmap : (savedIds (eventsOf tenantId es)).map ρ = savedIds es') :
    ∀ id ∈ idsOf tenantId s es, ∀ id' ∈ idsOf tenantId s es, ρ id = ρ id' → id = id' := by
  have hfresh' := fresh_of_answers hrun'
  have hids : ((idsOf tenantId s es).map ρ).Nodup := by
    have hold : ((rowsOf tenantId s.rows).map AgentConfigRecord.id).map ρ =
        (rowsOf tenantId s.rows).map AgentConfigRecord.id := by
      rw [List.map_map]
      exact List.map_congr_left hstart
    rw [idsOf, List.map_append, hold, hmap]
    refine List.nodup_append'.mpr
      ⟨hs.ids_nodup.sublist (List.filter_sublist.map _), hfresh'.1, ?_⟩
    intro id hid hid'
    obtain ⟨row, hrow, rfl⟩ := List.mem_map.mp hid
    exact hfresh'.2 row.id hid' (hs.ids_used row (List.mem_of_mem_filter hrow))
  exact fun id hid id' hid' heq => List.inj_on_of_nodup_map hids hid hid' heq

/--
In any interleaving of the tenants' operations, a tenant is answered, and its rows
end, as in the run of its own operations alone: exactly so if that run draws the same
ids, and up to an injective renaming of its ids if it draws others.
-/
theorem tenants_do_not_interfere
    (serializer : Serializer Config)
    (adapter : Adapter)
    (tenantId : Tenant)
    {s t : Store Tenant Id}
    (hs : s.WellFormed)
    (es : List (Event Tenant Id Config))
    {os : List (Event Tenant Id Config × Answer Tenant Id)}
    (hrun : answers (step serializer adapter) s es = some (t, os)) :
    (∃ t' os', answers (step serializer adapter) s (eventsOf tenantId es) = some (t', os') ∧
      os'.map Prod.snd = answersTo tenantId os ∧
      rowsOf tenantId t'.rows = rowsOf tenantId t.rows) ∧
    ∀ es' t' os', List.Forall₂ SameButIds (eventsOf tenantId es) es' →
      answers (step serializer adapter) s es' = some (t', os') →
      ∃ ρ : Id → Id,
        (∀ id ∈ idsOf tenantId s es, ∀ id' ∈ idsOf tenantId s es, ρ id = ρ id' → id = id') ∧
        (∀ row ∈ rowsOf tenantId s.rows, ρ row.id = row.id) ∧
        os'.map Prod.snd = (answersTo tenantId os).map (Answer.rename ρ) ∧
        rowsOf tenantId t'.rows = (rowsOf tenantId t.rows).map (AgentConfigRecord.rename ρ) := by
  refine ⟨exists_own_answers hs hrun, fun es' t' os' hsame hrun' => ?_⟩
  have hfresh := fresh_of_answers hrun
  have hsub : (savedIds (eventsOf tenantId es)).Sublist (savedIds es) :=
    List.filter_sublist.filterMap _
  obtain ⟨ρ, hmap, hkeep⟩ :=
    exists_renaming (hfresh.1.sublist hsub) (savedIds_length_eq hsame)
  have hstart : ∀ row ∈ rowsOf tenantId s.rows, ρ row.id = row.id := by
    intro row hrow
    refine hkeep row.id (fun hmem => ?_)
    exact hfresh.2 row.id (hsub.subset hmem) (hs.ids_used row (List.mem_of_mem_filter hrow))
  have hrows : (rowsOf tenantId s.rows).map (AgentConfigRecord.rename ρ) =
      rowsOf tenantId s.rows := by
    refine (List.map_congr_left (fun row hrow => ?_)).trans (List.map_id _)
    simp only [AgentConfigRecord.rename, hstart row hrow, id_eq]
  obtain ⟨hend, hanswers⟩ := (unwinding_sameView serializer adapter tenantId ρ).matched
    (eq_rename_of_sameButIds hsame hmap) ⟨hs, hs, hrows.symm⟩ hrun hrun'
  refine ⟨ρ, inj_on_idsOf hs hrun' hstart hmap, hstart, ?_, hend.rows_eq⟩
  exact map_snd_of_forall₂ (R := fun e e' => e' = e.rename ρ) hanswers

end Noninterference

/-- Configs that are just a name. -/
def nameOnly : Serializer String where
  name config := config
  modelDump config := [("name", .str config)]
  yamlDump _ := ""

/-- Tenants `1` and `2` save a config of one name, and tenant `1` deletes its own. -/
def twoTenants : List (Event ℕ ℕ String) :=
  [⟨1, .save "helper" 0⟩, ⟨2, .save "helper" 1⟩, ⟨1, .delete "helper"⟩,
    ⟨1, .getByName "helper"⟩, ⟨2, .listByTenant⟩]

/-- What they are answered. -/
def twoTenantsAnswers : List (Event ℕ ℕ String × Answer ℕ ℕ) :=
  [(⟨1, .save "helper" 0⟩, .inserted (newRecord nameOnly 1 "helper" 0)),
    (⟨2, .save "helper" 1⟩, .inserted (newRecord nameOnly 2 "helper" 1)),
    (⟨1, .delete "helper"⟩, .deleted),
    (⟨1, .getByName "helper"⟩, .found none),
    (⟨2, .listByTenant⟩, .listed [newRecord nameOnly 2 "helper" 1])]

theorem tenants_do_not_interfere_two :
    ∃ t' os',
      answers (step nameOnly ⟨100, true⟩) ⟨[], []⟩ (eventsOf 2 twoTenants) = some (t', os') ∧
        os'.map Prod.snd = answersTo 2 twoTenantsAnswers ∧
        rowsOf 2 t'.rows = [newRecord nameOnly 2 "helper" 1] := by
  have hrun : answers (step nameOnly ⟨100, true⟩) ⟨[], []⟩ twoTenants =
      some (⟨[newRecord nameOnly 2 "helper" 1], [1, 0]⟩, twoTenantsAnswers) := rfl
  have hempty : Store.WellFormed (⟨[], []⟩ : Store ℕ ℕ) := ⟨List.nodup_nil, by simp⟩
  exact (tenants_do_not_interfere nameOnly ⟨100, true⟩ 2 hempty twoTenants hrun).1

end AgentConfigs
end YamlAgno
