import YamlAgno.Persistence.AgentConfigRepository

/-!
# Listing and deleting over whole runs

A save inserts a row whatever the table holds, a listing is one page of a query, and
a delete removes the first row of its query.  So two promises of the repository hold
of some tables only.

A listing is complete exactly for tenants whose rows fit one page
(`listByTenant_complete_iff`).  A deleted name is gone exactly if the tenant had at
most one row of it (`delete_gone_iff`); the unique constraint of the database, where
the adapter enforces it, keeps every table of a run that way.
-/

namespace YamlAgno
namespace AgentConfigs

open RowStore

section Promises

variable {Tenant Id : Type} [DecidableEq Tenant]

/-- The rows of a tenant under a name, active or not. -/
def rowsNamed
    (tenantId : Tenant)
    (name : String)
    (rows : List (AgentConfigRecord Tenant Id)) :
    List (AgentConfigRecord Tenant Id) :=
  rows.filter fun row => row.tenantId == tenantId && row.name == name

/-- The listing has all rows of the tenant, each once, and no other row. -/
structure ListsAll
    (tenantId : Tenant)
    (rows listed : List (AgentConfigRecord Tenant Id)) : Prop where
  once : (listed.map AgentConfigRecord.id).Nodup
  mem_iff : ∀ row, row ∈ listed ↔ row ∈ rows ∧ row.tenantId = tenantId

/-- After the delete the name is gone, and all other rows are as before. -/
structure Gone
    (adapter : Adapter)
    (tenantId : Tenant)
    (name : String)
    (before after : List (AgentConfigRecord Tenant Id)) : Prop where
  getByName_eq : getByName after tenantId name = none
  not_listed : ∀ row ∈ listByTenant adapter after tenantId, row.name ≠ name
  others_eq :
    after.filter (fun row => !(row.tenantId == tenantId && row.name == name)) =
      before.filter (fun row => !(row.tenantId == tenantId && row.name == name))

variable {rows : List (AgentConfigRecord Tenant Id)} {tenantId : Tenant} {name : String}

theorem mem_rowsOf
    {row : AgentConfigRecord Tenant Id} :
    row ∈ rowsOf tenantId rows ↔ row ∈ rows ∧ row.tenantId = tenantId := by
  simp [rowsOf]

theorem mem_rowsNamed
    {row : AgentConfigRecord Tenant Id} :
    row ∈ rowsNamed tenantId name rows ↔
      row ∈ rows ∧ row.tenantId = tenantId ∧ row.name = name := by
  simp [rowsNamed]

/-- In a table whose ids are distinct, a listing is complete if the page is not exceeded. -/
theorem listsAll_iff
    (adapter : Adapter)
    (hids : (rows.map AgentConfigRecord.id).Nodup) :
    ListsAll tenantId rows (listByTenant adapter rows tenantId) ↔
      (rowsOf tenantId rows).length ≤ adapter.pageLimit := by
  have hfit : (∀ row ∈ rows, row.tenantId == tenantId →
      row ∈ findAll (fun row => row.tenantId == tenantId) adapter.pageLimit rows) ↔
      (rowsOf tenantId rows).length ≤ adapter.pageLimit :=
    subset_findAll_iff (hids.of_map.filter _)
  have hsub : (listByTenant adapter rows tenantId).Sublist (rowsOf tenantId rows) :=
    List.take_sublist _ _
  rw [← hfit]
  constructor
  · intro hall row hrow htenant
    exact (hall.mem_iff row).mpr ⟨hrow, by simpa using htenant⟩
  · intro hall
    refine ⟨hids.sublist ((hsub.trans List.filter_sublist).map _), fun row => ?_⟩
    refine ⟨fun hrow => mem_rowsOf.mp (hsub.subset hrow), fun hrow => ?_⟩
    exact hall row hrow.1 (by simpa using hrow.2)

/-- Among active rows, a name that is not found has no row. -/
theorem getByName_eq_none_iff
    (hactive : ∀ row ∈ rows, row.isActive = true) :
    getByName rows tenantId name = none ↔ rowsNamed tenantId name rows = [] := by
  rw [getByName_eq, List.find?_eq_none, List.eq_nil_iff_forall_not_mem]
  constructor
  · intro hnone row hrow
    obtain ⟨hmem, htenant, hname⟩ := mem_rowsNamed.mp hrow
    have hnot := hnone row (mem_rowsOf.mpr ⟨hmem, htenant⟩)
    simp [hname, hactive row hmem] at hnot
  · intro hnone row hrow
    obtain ⟨hmem, htenant⟩ := mem_rowsOf.mp hrow
    have hname : row.name ≠ name := fun hname =>
      hnone row (mem_rowsNamed.mpr ⟨hmem, htenant, hname⟩)
    simp [hname]

/-- An adapter that enforces the unique constraint refuses a second row of a name. -/
theorem rowsNamed_save_length_le
    {adapter : Adapter}
    (hunique : adapter.enforcesUnique = true)
    (h : ∀ tenantId name, (rowsNamed tenantId name rows).length ≤ 1)
    (record : AgentConfigRecord Tenant Id)
    (tenantId : Tenant)
    (name : String) :
    (rowsNamed tenantId name (save adapter rows record).1).length ≤ 1 := by
  rw [save]
  split_ifs with hviolates
  · exact h tenantId name
  · rw [RowStore.insert, rowsNamed, List.filter_append, List.length_append]
    by_cases hrecord : record.tenantId = tenantId ∧ record.name = name
    · obtain ⟨rfl, rfl⟩ := hrecord
      have hnone : rowsNamed record.tenantId record.name rows = [] := by
        simpa [violatesUnique, hunique, rowsNamed] using hviolates
      rw [rowsNamed] at hnone
      simp [hnone]
    · have hnot : (record.tenantId == tenantId && record.name == name) = false := by
        simpa using hrecord
      simpa [List.filter_cons, hnot, rowsNamed] using h tenantId name

variable [DecidableEq Id]

/-- A delete takes the first row of the name out of the table, if there is one. -/
theorem delete_cases
    (rows : List (AgentConfigRecord Tenant Id))
    (tenantId : Tenant)
    (name : String) :
    (rowsNamed tenantId name rows = [] ∧ delete rows tenantId name = rows) ∨
    ∃ row rest, rowsNamed tenantId name rows = row :: rest ∧
      delete rows tenantId name = deleteById AgentConfigRecord.id row.id rows := by
  rw [delete, findAll, rowsNamed]
  cases rows.filter fun row => row.tenantId == tenantId && row.name == name with
  | nil =>
      exact Or.inl ⟨rfl, rfl⟩
  | cons row rest =>
      exact Or.inr ⟨row, rest, rfl, rfl⟩

/-- All rows of the name but the first are left. -/
theorem rowsNamed_delete
    (hids : (rows.map AgentConfigRecord.id).Nodup) :
    rowsNamed tenantId name (delete rows tenantId name) =
      (rowsNamed tenantId name rows).tail := by
  rcases delete_cases rows tenantId name with ⟨hnone, hdelete⟩ | ⟨row, rest, hfirst, hdelete⟩
  · rw [hdelete, hnone]
    rfl
  · rw [hdelete, hfirst]
    exact filter_deleteById_first hids hfirst

/-- No row of another tenant or another name is touched. -/
theorem filter_delete_others
    (hids : (rows.map AgentConfigRecord.id).Nodup) :
    (delete rows tenantId name).filter
        (fun row => !(row.tenantId == tenantId && row.name == name)) =
      rows.filter (fun row => !(row.tenantId == tenantId && row.name == name)) := by
  rcases delete_cases rows tenantId name with ⟨-, hdelete⟩ | ⟨row, rest, hfirst, hdelete⟩
  · rw [hdelete]
  · have hrow : row ∈ rowsNamed tenantId name rows := hfirst ▸ List.mem_cons_self
    obtain ⟨hmem, htenant, hname⟩ := mem_rowsNamed.mp hrow
    rw [hdelete]
    exact filter_deleteById_of_not hids hmem (by simp [htenant, hname])

/-- Among active rows with distinct ids, a delete leaves none of a name that had one row. -/
theorem gone_iff
    (adapter : Adapter)
    (hids : (rows.map AgentConfigRecord.id).Nodup)
    (hactive : ∀ row ∈ rows, row.isActive = true) :
    Gone adapter tenantId name rows (delete rows tenantId name) ↔
      (rowsNamed tenantId name rows).length ≤ 1 := by
  have hactive' : ∀ row ∈ delete rows tenantId name, row.isActive = true := by
    intro row hrow
    rcases delete_cases rows tenantId name with ⟨-, hdelete⟩ | ⟨_, _, -, hdelete⟩
    · exact hactive row (hdelete ▸ hrow)
    · rw [hdelete] at hrow
      exact hactive row (List.mem_of_mem_filter hrow)
  have hnone : getByName (delete rows tenantId name) tenantId name = none ↔
      (rowsNamed tenantId name rows).length ≤ 1 := by
    rw [getByName_eq_none_iff hactive', rowsNamed_delete hids, ← List.length_eq_zero_iff,
      List.length_tail]
    omega
  rw [← hnone]
  refine ⟨Gone.getByName_eq, fun h => ⟨h, fun row hrow hname => ?_, filter_delete_others hids⟩⟩
  have hof : row ∈ rowsOf tenantId (delete rows tenantId name) := List.mem_of_mem_take hrow
  obtain ⟨hmem, htenant⟩ := mem_rowsOf.mp hof
  have hempty := (getByName_eq_none_iff hactive').mp h
  exact List.eq_nil_iff_forall_not_mem.mp hempty row (mem_rowsNamed.mpr ⟨hmem, htenant, hname⟩)

end Promises

section Listings

variable {Tenant Id Config : Type} [DecidableEq Tenant] [DecidableEq Id]
  {serializer : Serializer Config} {adapter : Adapter}
  {s : Store Tenant Id}
  {es : List (Event Tenant Id Config)}
  {os : List (Event Tenant Id Config × Answer Tenant Id)}

/-- The ids of a table that was empty once are distinct. -/
theorem wellFormed_of_answers
    (hrun : answers (step serializer adapter) ⟨[], []⟩ es = some (s, os)) :
    s.WellFormed := by
  have hempty : Store.WellFormed (⟨[], []⟩ : Store Tenant Id) := ⟨List.nodup_nil, by simp⟩
  exact answers_invariant (fun _ _ _ _ h hstep => h.step hstep) hempty hrun

/-- Only saves bring rows into a table, so all are active. -/
theorem isActive_of_answers
    (hrun : answers (step serializer adapter) ⟨[], []⟩ es = some (s, os)) :
    ∀ row ∈ s.rows, row.isActive = true := by
  refine answers_invariant (I := fun s => ∀ row ∈ s.rows, row.isActive = true)
    (fun s e t o h hstep => ?_) (by simp) hrun
  rcases step_rows_cases hstep with
    ⟨hrows, -⟩ | ⟨config, id, -, -, hrows⟩ | ⟨row, -, -, -, hrows⟩
  · rw [hrows]
    exact h
  · rw [hrows, RowStore.insert]
    intro row hrow
    rcases List.mem_append.mp hrow with hrow | hrow
    · exact h row hrow
    · rw [List.mem_singleton.mp hrow]
      rfl
  · rw [hrows]
    exact fun other hother => h other (List.mem_of_mem_filter hother)

/--
In every table that a run of saves, deletes and queries reaches, the listing of a tenant
is complete exactly if its rows fit one page.
-/
theorem listByTenant_complete_iff
    (hrun : answers (step serializer adapter) ⟨[], []⟩ es = some (s, os))
    (tenantId : Tenant) :
    ListsAll tenantId s.rows (listByTenant adapter s.rows tenantId) ↔
      (rowsOf tenantId s.rows).length ≤ adapter.pageLimit :=
  listsAll_iff adapter (wellFormed_of_answers hrun).ids_nodup

end Listings

/-- Two tenants save a config of one name, over an adapter that enforces the constraint. -/
theorem listByTenant_complete_two :
    ListsAll 2 [newRecord nameOnly 1 "helper" 0, newRecord nameOnly 2 "helper" 1]
      (listByTenant ⟨100, true⟩
        [newRecord nameOnly 1 "helper" 0, newRecord nameOnly 2 "helper" 1] 2) := by
  have hrun : answers (step nameOnly ⟨100, true⟩) ⟨[], []⟩
      [⟨1, .save "helper" 0⟩, ⟨2, .save "helper" 1⟩] =
      some (⟨[newRecord nameOnly 1 "helper" 0, newRecord nameOnly 2 "helper" 1], [1, 0]⟩,
        [(⟨1, .save "helper" 0⟩, .inserted (newRecord nameOnly 1 "helper" 0)),
          (⟨2, .save "helper" 1⟩, .inserted (newRecord nameOnly 2 "helper" 1))]) := rfl
  exact (listByTenant_complete_iff hrun 2).mpr (by decide)

/-- A name of two letters for each number below 676. -/
def twoLetters (number : ℕ) : String :=
  String.ofList [Char.ofNat (97 + number / 26), Char.ofNat (97 + number % 26)]

/-- Configs that are numbers, with names of two letters. -/
def numbered : Serializer ℕ where
  name config := twoLetters config
  modelDump config := [("name", .str (twoLetters config))]
  yamlDump _ := ""

/-- One tenant saves 101 configs under distinct names. -/
def overfull : List (Event ℕ ℕ ℕ) :=
  (List.range 101).map fun number => ⟨1, .save number number⟩

theorem listByTenant_not_always_complete :
    ¬ ∀ (es : List (Event ℕ ℕ ℕ)) s os,
      answers (step numbered ⟨100, false⟩) ⟨[], []⟩ es = some (s, os) →
      ∀ tenantId, ListsAll tenantId s.rows (listByTenant ⟨100, false⟩ s.rows tenantId) := by
  intro hall
  have hlength : ((answers (step numbered ⟨100, false⟩) ⟨[], []⟩ overfull).map fun p =>
      (rowsOf 1 p.1.rows).length) = some 101 := by
    decide +kernel
  obtain ⟨⟨s, os⟩, hrun, hcount⟩ := Option.map_eq_some_iff.mp hlength
  have hrows : (rowsOf 1 s.rows).length = 101 := hcount
  have hfits : (rowsOf 1 s.rows).length ≤ 100 :=
    (listsAll_iff ⟨100, false⟩ (wellFormed_of_answers hrun).ids_nodup).mp
      (hall overfull s os hrun 1)
  omega

section Deletes

variable {Tenant Id Config : Type} [DecidableEq Tenant] [DecidableEq Id]
  {serializer : Serializer Config} {adapter : Adapter}
  {s : Store Tenant Id}
  {es : List (Event Tenant Id Config)}
  {os : List (Event Tenant Id Config × Answer Tenant Id)}

/-- Where the constraint is enforced, no run leaves two rows of a name to a tenant. -/
theorem rowsNamed_length_le_of_answers
    (hunique : adapter.enforcesUnique = true)
    (hrun : answers (step serializer adapter) ⟨[], []⟩ es = some (s, os))
    (tenantId : Tenant)
    (name : String) :
    (rowsNamed tenantId name s.rows).length ≤ 1 := by
  refine answers_invariant
    (I := fun s => ∀ tenantId name, (rowsNamed tenantId name s.rows).length ≤ 1)
    (fun s e t o h hstep => ?_) (by simp [rowsNamed]) hrun tenantId name
  obtain ⟨caller, operation⟩ := e
  cases operation with
  | save config id =>
      simp only [step] at hstep
      split_ifs at hstep
      cases hstep
      exact rowsNamed_save_length_le hunique h _
  | getByName _ | listByTenant =>
      cases hstep
      exact h
  | delete removed =>
      cases hstep
      intro tenantId name
      have hsub : (delete s.rows caller removed).Sublist s.rows := by
        rcases delete_cases s.rows caller removed with ⟨-, hdelete⟩ | ⟨_, _, -, hdelete⟩
        · rw [hdelete]
        · rw [hdelete]
          exact List.filter_sublist
      exact (hsub.filter _).length_le.trans (h tenantId name)

/--
In every table that such a run reaches, a delete leaves nothing of the name exactly if
the tenant has at most one row of it.  An adapter that enforces the unique constraint
lets no run reach any other table.
-/
theorem delete_gone_iff
    (hrun : answers (step serializer adapter) ⟨[], []⟩ es = some (s, os))
    (tenantId : Tenant)
    (name : String) :
    (Gone adapter tenantId name s.rows (delete s.rows tenantId name) ↔
      (rowsNamed tenantId name s.rows).length ≤ 1) ∧
    (adapter.enforcesUnique = true → (rowsNamed tenantId name s.rows).length ≤ 1) :=
  ⟨gone_iff adapter (wellFormed_of_answers hrun).ids_nodup (isActive_of_answers hrun),
    fun hunique => rowsNamed_length_le_of_answers hunique hrun tenantId name⟩

end Deletes

/-- With one row of the name, the delete is complete over the same adapter. -/
theorem delete_gone_one :
    Gone ⟨100, false⟩ 1 "helper" [newRecord nameOnly 1 "helper" 0]
      (delete [newRecord nameOnly 1 "helper" 0] 1 "helper") := by
  have hrun : answers (step nameOnly ⟨100, false⟩) ⟨[], []⟩ [⟨1, .save "helper" 0⟩] =
      some (⟨[newRecord nameOnly 1 "helper" 0], [0]⟩,
        [(⟨1, .save "helper" 0⟩, .inserted (newRecord nameOnly 1 "helper" 0))]) := rfl
  exact (delete_gone_iff hrun 1 "helper").1.mpr (by decide)

/-- A tenant saves a name twice, over an adapter that does not enforce the constraint. -/
theorem delete_not_always_gone :
    ¬ ∀ (es : List (Event ℕ ℕ String)) s os,
      answers (step nameOnly ⟨100, false⟩) ⟨[], []⟩ es = some (s, os) →
      ∀ tenantId name, Gone ⟨100, false⟩ tenantId name s.rows (delete s.rows tenantId name) := by
  intro hall
  have hrun : answers (step nameOnly ⟨100, false⟩) ⟨[], []⟩
      [⟨1, .save "helper" 0⟩, ⟨1, .save "helper" 1⟩] =
      some (⟨[newRecord nameOnly 1 "helper" 0, newRecord nameOnly 1 "helper" 1], [1, 0]⟩,
        [(⟨1, .save "helper" 0⟩, .inserted (newRecord nameOnly 1 "helper" 0)),
          (⟨1, .save "helper" 1⟩, .inserted (newRecord nameOnly 1 "helper" 1))]) := rfl
  have hnone := (hall _ _ _ hrun 1 "helper").getByName_eq
  have hfound : getByName
      (delete [newRecord nameOnly 1 "helper" 0, newRecord nameOnly 1 "helper" 1] 1 "helper")
      1 "helper" = some (newRecord nameOnly 1 "helper" 1) := rfl
  cases hfound.symm.trans hnone

end AgentConfigs
end YamlAgno
