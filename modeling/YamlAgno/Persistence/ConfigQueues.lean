import YamlAgno.Persistence.TenantRows

/-!
# A queue for every name

The table of agent configs is one list for all tenants and names.  What it is to a caller is
simpler: for every tenant and name a queue (`queueStep`).  `save` puts a config in at the end,
`get_by_name` looks at the head and `delete` takes the head away, so that the oldest config is
the one that counts; over an adapter that enforces the unique constraint a queue holds one
config at most.

`queue_of_answers` says that the table is nothing but these queues: in every run, the events
about a name are answered as its own queue answers them, whatever the other events are.  And
no config is lost, doubled or overtaken by another one (`rowsNamed_suffix_of_answers`).
-/

namespace YamlAgno
namespace AgentConfigs

open RowStore

variable {Tenant Id Config : Type} [DecidableEq Tenant]

/-- The event asks for the config `name` of the tenant, or changes it. -/
def Event.isAbout
    (serializer : Serializer Config)
    (tenantId : Tenant)
    (name : String)
    (e : Event Tenant Id Config) :
    Bool :=
  e.tenantId == tenantId &&
    match e.operation with
    | .save config _ => serializer.name config == name
    | .getByName asked => asked == name
    | .delete deleted => deleted == name
    | .listByTenant => false

/-- What an event is to the queue of the name that it is about. -/
def queueStep
    (serializer : Serializer Config)
    (adapter : Adapter)
    (queue : List (AgentConfigRecord Tenant Id))
    (e : Event Tenant Id Config) :
    Option (List (AgentConfigRecord Tenant Id) × Answer Tenant Id) :=
  match e.operation with
  | .save config id =>
      let record := newRecord serializer e.tenantId config id
      if adapter.enforcesUnique = true ∧ queue ≠ [] then some (queue, .integrityError)
      else some (queue ++ [record], .inserted record)
  | .getByName _ => some (queue, .found queue.head?)
  | .delete _ => some (queue.tail, .deleted)
  | .listByTenant => none

/-- The configs that have been inserted under a name. -/
def insertedAs
    (tenantId : Tenant)
    (name : String)
    (os : List (Event Tenant Id Config × Answer Tenant Id)) :
    List (AgentConfigRecord Tenant Id) :=
  os.filterMap fun
    | (_, .inserted record) =>
        if record.tenantId = tenantId ∧ record.name = name then some record else none
    | _ => none

section Queues

variable {serializer : Serializer Config} {adapter : Adapter}
  {rows : List (AgentConfigRecord Tenant Id)} {tenantId : Tenant} {name : String}

/-- Among active rows, the row that is found is the first one of the name. -/
theorem getByName_eq_head?
    (hactive : ∀ row ∈ rows, row.isActive = true) :
    getByName rows tenantId name = (rowsNamed tenantId name rows).head? := by
  rw [getByName, head?_findAll _ Nat.one_pos, ← List.head?_filter, rowsNamed]
  refine congrArg List.head? (List.filter_congr fun row hrow => ?_)
  simp [hactive row hrow]

theorem violatesUnique_iff
    (record : AgentConfigRecord Tenant Id) :
    violatesUnique adapter rows record = true ↔
      adapter.enforcesUnique = true ∧ rowsNamed record.tenantId record.name rows ≠ [] := by
  rw [violatesUnique, Bool.and_eq_true, List.any_eq_true, rowsNamed, Ne,
    List.filter_eq_nil_iff]
  simp

theorem rowsNamed_insert
    (record : AgentConfigRecord Tenant Id) :
    rowsNamed tenantId name (RowStore.insert record rows) =
      if record.tenantId = tenantId ∧ record.name = name then
        rowsNamed tenantId name rows ++ [record]
      else rowsNamed tenantId name rows := by
  rw [RowStore.insert, rowsNamed, List.filter_append]
  split
  · next h => simp [rowsNamed, h]
  · next h =>
      have hnot : (record.tenantId == tenantId && record.name == name) = false := by
        simpa using h
      simp [rowsNamed, hnot]

variable [DecidableEq Id] {s t : Store Tenant Id} {e : Event Tenant Id Config}
  {o : Answer Tenant Id}

/-- A delete under another name leaves the rows of the name. -/
theorem rowsNamed_delete_of_ne
    (hids : (rows.map AgentConfigRecord.id).Nodup)
    {tenantId' : Tenant} {name' : String}
    (hne : ¬ (tenantId' = tenantId ∧ name' = name)) :
    rowsNamed tenantId name (delete rows tenantId' name') = rowsNamed tenantId name rows := by
  rcases delete_cases rows tenantId' name' with ⟨-, hdelete⟩ | ⟨row, rest, hfirst, hdelete⟩
  · rw [hdelete]
  · have hrow : row ∈ rowsNamed tenantId' name' rows := hfirst ▸ List.mem_cons_self
    obtain ⟨hmem, htenant, hname⟩ := mem_rowsNamed.mp hrow
    rw [hdelete]
    refine filter_deleteById_of_not hids hmem ?_
    rw [htenant, hname]
    simpa using hne

/-- An event about another name leaves the queue alone. -/
theorem rowsNamed_of_hidden
    (hids : (s.rows.map AgentConfigRecord.id).Nodup)
    (hown : e.isAbout serializer tenantId name = false)
    (hstep : step serializer adapter s e = some (t, o)) :
    rowsNamed tenantId name t.rows = rowsNamed tenantId name s.rows := by
  obtain ⟨caller, operation⟩ := e
  cases operation with
  | save config id =>
      simp only [step] at hstep
      split_ifs at hstep
      cases hstep
      simp only [save]
      split_ifs
      · rfl
      · rw [rowsNamed_insert, if_neg]
        simpa [Event.isAbout, newRecord] using hown
  | getByName _ | listByTenant =>
      cases hstep
      rfl
  | delete deleted =>
      cases hstep
      refine rowsNamed_delete_of_ne hids ?_
      simpa [Event.isAbout] using hown

/-- An event about the name does to the table what it does to the queue. -/
theorem queueStep_of_visible
    (hids : (s.rows.map AgentConfigRecord.id).Nodup)
    (hactive : ∀ row ∈ s.rows, row.isActive = true)
    (hown : e.isAbout serializer tenantId name = true)
    (hstep : step serializer adapter s e = some (t, o)) :
    queueStep serializer adapter (rowsNamed tenantId name s.rows) e =
      some (rowsNamed tenantId name t.rows, o) := by
  obtain ⟨caller, operation⟩ := e
  cases operation with
  | save config id =>
      obtain ⟨rfl, rfl⟩ : caller = tenantId ∧ serializer.name config = name := by
        simpa [Event.isAbout] using hown
      simp only [step] at hstep
      split_ifs at hstep
      cases hstep
      have hviolates : violatesUnique adapter s.rows (newRecord serializer caller config id) =
          true ↔ adapter.enforcesUnique = true ∧
            rowsNamed caller (serializer.name config) s.rows ≠ [] :=
        violatesUnique_iff (newRecord serializer caller config id)
      by_cases hviolated :
          violatesUnique adapter s.rows (newRecord serializer caller config id) = true
      · have hqueue := hviolates.mp hviolated
        simp only [queueStep, save, if_pos hviolated]
        rw [if_pos hqueue]
      · have hqueue := fun h => hviolated (hviolates.mpr h)
        simp only [queueStep, save, if_neg hviolated]
        rw [if_neg hqueue, rowsNamed_insert, if_pos ⟨rfl, rfl⟩]
  | getByName asked =>
      obtain ⟨rfl, rfl⟩ : caller = tenantId ∧ asked = name := by
        simpa [Event.isAbout] using hown
      cases hstep
      rw [queueStep, getByName_eq_head? hactive]
  | delete deleted =>
      obtain ⟨rfl, rfl⟩ : caller = tenantId ∧ deleted = name := by
        simpa [Event.isAbout] using hown
      cases hstep
      rw [queueStep, rowsNamed_delete hids]
  | listByTenant =>
      simp [Event.isAbout] at hown

variable {es : List (Event Tenant Id Config)}
  {os : List (Event Tenant Id Config × Answer Tenant Id)}

/-- What a run keeps of every table: distinct ids, and active rows only. -/
theorem sound_of_step
    (h : s.WellFormed ∧ ∀ row ∈ s.rows, row.isActive = true)
    (hstep : step serializer adapter s e = some (t, o)) :
    t.WellFormed ∧ ∀ row ∈ t.rows, row.isActive = true := by
  refine ⟨h.1.step hstep, ?_⟩
  rcases step_rows_cases hstep with
    ⟨hrows, -⟩ | ⟨config, id, -, -, hrows⟩ | ⟨row, -, -, -, hrows⟩
  · rw [hrows]
    exact h.2
  · rw [hrows, RowStore.insert]
    intro row hrow
    rcases List.mem_append.mp hrow with hrow | hrow
    · exact h.2 row hrow
    · rw [List.mem_singleton.mp hrow]
      rfl
  · rw [hrows]
    exact fun other hother => h.2 other (List.mem_of_mem_filter hother)

/--
In every run from the empty table, the events about a name of a tenant are answered as a queue
answers them that sees no other event, and the rows of the name are what is in that queue.
-/
theorem queue_of_answers
    (hrun : answers (step serializer adapter) ⟨[], []⟩ es = some (s, os))
    (tenantId : Tenant)
    (name : String) :
    answers (queueStep serializer adapter) []
        (es.filter (Event.isAbout serializer tenantId name)) =
      some (rowsNamed tenantId name s.rows,
        os.filter fun a => a.1.isAbout serializer tenantId name) := by
  have hempty : Store.WellFormed (⟨[], []⟩ : Store Tenant Id) := ⟨List.nodup_nil, by simp⟩
  exact answers_projection (fun s => rowsNamed tenantId name s.rows)
    (fun _ _ _ _ h hstep => sound_of_step h hstep)
    (fun _ _ _ _ h hown hstep => rowsNamed_of_hidden h.1.ids_nodup hown hstep)
    (fun _ _ _ _ h hown hstep => queueStep_of_visible h.1.ids_nodup h.2 hown hstep)
    ⟨hempty, by simp⟩ hrun

/-- An event takes the head of the queue, or puts what it inserts at its end, or neither. -/
theorem rowsNamed_append_of_step
    (h : s.WellFormed ∧ ∀ row ∈ s.rows, row.isActive = true)
    (hstep : step serializer adapter s e = some (t, o)) :
    rowsNamed tenantId name t.rows <:+
      rowsNamed tenantId name s.rows ++ insertedAs tenantId name [(e, o)] := by
  obtain ⟨caller, operation⟩ := e
  cases operation with
  | save config id =>
      simp only [step] at hstep
      split_ifs at hstep
      cases hstep
      simp only [save]
      split_ifs
      · simp [insertedAs]
      · rw [rowsNamed_insert]
        split
        · next hrecord => simp [insertedAs, hrecord]
        · next hrecord => simp [insertedAs, hrecord]
  | getByName _ | listByTenant =>
      cases hstep
      simp [insertedAs]
  | delete deleted =>
      cases hstep
      have hnone : insertedAs tenantId name
          [((⟨caller, .delete deleted⟩ : Event Tenant Id Config), .deleted)] = [] := rfl
      rw [hnone, List.append_nil]
      by_cases hown : caller = tenantId ∧ deleted = name
      · obtain ⟨rfl, rfl⟩ := hown
        rw [rowsNamed_delete h.1.ids_nodup]
        exact List.tail_suffix _
      · exact ⟨[], rowsNamed_delete_of_ne h.1.ids_nodup hown⟩

/--
The rows of a name are the configs that were inserted under it last, in their order: what is
missing was deleted before them, and nothing is there that was not inserted.
-/
theorem rowsNamed_suffix_of_answers
    (hrun : answers (step serializer adapter) ⟨[], []⟩ es = some (s, os))
    (tenantId : Tenant)
    (name : String) :
    rowsNamed tenantId name s.rows <:+ insertedAs tenantId name os := by
  have hempty : Store.WellFormed (⟨[], []⟩ : Store Tenant Id) ∧
      ∀ row ∈ (⟨[], []⟩ : Store Tenant Id).rows, row.isActive = true :=
    ⟨⟨List.nodup_nil, by simp⟩, by simp⟩
  have hgeneral : ∀ {s t : Store Tenant Id} {es os},
      (s.WellFormed ∧ ∀ row ∈ s.rows, row.isActive = true) →
      answers (step serializer adapter) s es = some (t, os) →
        rowsNamed tenantId name t.rows <:+
          rowsNamed tenantId name s.rows ++ insertedAs tenantId name os := by
    intro s t es
    induction es generalizing s with
    | nil =>
        intro os h hrun
        cases hrun
        simp [insertedAs]
    | cons e es ih =>
        intro os h hrun
        obtain ⟨u, o, os', hstep, hrest, rfl⟩ := answers_cons_eq_some.mp hrun
        have hhead : rowsNamed tenantId name u.rows <:+
            rowsNamed tenantId name s.rows ++ insertedAs tenantId name [(e, o)] :=
          rowsNamed_append_of_step h hstep
        have htail := ih (sound_of_step h hstep) hrest
        have hsplit : insertedAs tenantId name ((e, o) :: os') =
            insertedAs tenantId name [(e, o)] ++ insertedAs tenantId name os' := by
          rw [insertedAs, insertedAs, insertedAs, ← List.filterMap_append]
          rfl
        rw [hsplit, ← List.append_assoc]
        obtain ⟨gone, hgone⟩ := hhead
        exact htail.trans ⟨gone, by rw [← List.append_assoc, hgone]⟩
  simpa [rowsNamed] using hgeneral hempty hrun

end Queues

/-- A name saved twice by a tenant and once by another, and deleted once. -/
def savedTwice : List (Event ℕ ℕ String) :=
  [⟨1, .save "helper" 0⟩, ⟨2, .save "helper" 1⟩, ⟨1, .save "helper" 2⟩, ⟨1, .delete "helper"⟩,
    ⟨1, .getByName "helper"⟩]

/-- The second config of the first tenant comes to the front. -/
theorem queue_of_answers_savedTwice :
    ∃ s os, answers (step nameOnly ⟨100, false⟩) ⟨[], []⟩ savedTwice = some (s, os) ∧
      answers (queueStep nameOnly ⟨100, false⟩) []
          (savedTwice.filter (Event.isAbout nameOnly 1 "helper")) =
        some (rowsNamed 1 "helper" s.rows,
          os.filter fun a => a.1.isAbout nameOnly 1 "helper") := by
  obtain ⟨p, hp⟩ : ∃ p, answers (step nameOnly ⟨100, false⟩) ⟨[], []⟩ savedTwice = some p :=
    ⟨_, rfl⟩
  exact ⟨p.1, p.2, hp, queue_of_answers hp 1 "helper"⟩

theorem rowsNamed_suffix_of_answers_savedTwice :
    ∃ s os, answers (step nameOnly ⟨100, false⟩) ⟨[], []⟩ savedTwice = some (s, os) ∧
      rowsNamed 1 "helper" s.rows <:+ insertedAs 1 "helper" os := by
  obtain ⟨p, hp⟩ : ∃ p, answers (step nameOnly ⟨100, false⟩) ⟨[], []⟩ savedTwice = some p :=
    ⟨_, rfl⟩
  exact ⟨p.1, p.2, hp, rowsNamed_suffix_of_answers hp 1 "helper"⟩

end AgentConfigs
end YamlAgno
