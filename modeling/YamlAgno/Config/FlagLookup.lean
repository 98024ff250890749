import YamlAgno.Config.FlagRepository

/-!
# Flag lookup past the page

`get_flag` asks the store for the rows of one name and resolves them in Python.  The store
answers with its first `limit` rows of that name, so the resolution sees a page of them.
On a table with one row for a name and a tenant, the lookup is exact as long as the row
that should win is on that page; else it silently falls back to the global row, or to
nothing.
-/

namespace YamlAgno
namespace Flags

open RowStore

variable {Tenant : Type}

/-- What the documented order, tenant-exact before global, resolves a name to. -/
inductive Resolution
    (rows : List (FeatureFlagRecord Tenant))
    (tenantId : Option Tenant)
    (name : String) : Option (FeatureFlagRecord Tenant) → Prop where
  | exact {row : FeatureFlagRecord Tenant}
      (hmem : row ∈ rows)
      (hname : row.name = name)
      (htenant : row.tenantId = tenantId) :
      Resolution rows tenantId name (some row)
  | globally {row : FeatureFlagRecord Tenant}
      (hexact : ∀ other ∈ rows, other.name = name → other.tenantId ≠ tenantId)
      (hmem : row ∈ rows)
      (hname : row.name = name)
      (hglobal : row.tenantId = none) :
      Resolution rows tenantId name (some row)
  | unknown
      (hexact : ∀ other ∈ rows, other.name = name → other.tenantId ≠ tenantId)
      (hglobal : ∀ other ∈ rows, other.name = name → other.tenantId ≠ none) :
      Resolution rows tenantId name none

/-- The rows of a name that the store answers with. -/
def page
    (limit : ℕ)
    (rows : List (FeatureFlagRecord Tenant))
    (name : String) : List (FeatureFlagRecord Tenant) :=
  (rows.filter fun row => row.name == name).take limit

section Page

variable {limit : ℕ} {rows : List (FeatureFlagRecord Tenant)} {name : String}

theorem mem_of_mem_page
    {row : FeatureFlagRecord Tenant}
    (h : row ∈ page limit rows name) :
    row ∈ rows ∧ row.name = name := by
  have hfilter := List.mem_of_mem_take h
  simpa using hfilter

theorem uniqueRows_page
    (hunique : UniqueRows rows) :
    UniqueRows (page limit rows name) :=
  hunique.sublist (((List.take_sublist _ _).trans List.filter_sublist).map _)

variable {tenantId : Option Tenant} {answer : Option (FeatureFlagRecord Tenant)}

/-- Every name resolves. -/
theorem exists_resolution
    (rows : List (FeatureFlagRecord Tenant))
    (tenantId : Option Tenant)
    (name : String) :
    ∃ answer, Resolution rows tenantId name answer := by
  by_cases hexact : ∃ row ∈ rows, row.name = name ∧ row.tenantId = tenantId
  · obtain ⟨row, hmem, hname, htenant⟩ := hexact
    exact ⟨some row, .exact hmem hname htenant⟩
  · have hother : ∀ other ∈ rows, other.name = name → other.tenantId ≠ tenantId :=
      fun other hmem hname htenant => hexact ⟨other, hmem, hname, htenant⟩
    by_cases hglobal : ∃ row ∈ rows, row.name = name ∧ row.tenantId = none
    · obtain ⟨row, hmem, hname, hnone⟩ := hglobal
      exact ⟨some row, .globally hother hmem hname hnone⟩
    · exact ⟨none, .unknown hother
        fun other hmem hname hnone => hglobal ⟨other, hmem, hname, hnone⟩⟩

theorem Resolution.mem
    {row : FeatureFlagRecord Tenant}
    (h : Resolution rows tenantId name (some row)) :
    row ∈ rows := by
  cases h with
  | exact hmem => exact hmem
  | globally _ hmem => exact hmem

/-- On a table with unique rows a name resolves in one way. -/
theorem Resolution.unique
    {answer' : Option (FeatureFlagRecord Tenant)}
    (hunique : UniqueRows rows)
    (h : Resolution rows tenantId name answer)
    (h' : Resolution rows tenantId name answer') :
    answer = answer' := by
  have hsame : ∀ {row row' : FeatureFlagRecord Tenant}, row ∈ rows → row' ∈ rows →
      row.name = name → row'.name = name → row.tenantId = row'.tenantId → row = row' := by
    intro row row' hmem hmem' hname hname' htenant
    exact List.inj_on_of_nodup_map hunique hmem hmem' (by rw [hname, hname', htenant])
  cases h with
  | exact hmem hname htenant =>
      cases h' with
      | exact hmem' hname' htenant' =>
          rw [hsame hmem hmem' hname hname' (htenant.trans htenant'.symm)]
      | globally hexact => exact absurd htenant (hexact _ hmem hname)
      | unknown hexact => exact absurd htenant (hexact _ hmem hname)
  | globally hexact hmem hname hglobal =>
      cases h' with
      | exact hmem' hname' htenant' => exact absurd htenant' (hexact _ hmem' hname')
      | globally _ hmem' hname' hglobal' =>
          rw [hsame hmem hmem' hname hname' (hglobal.trans hglobal'.symm)]
      | unknown _ hnone => exact absurd hglobal (hnone _ hmem hname)
  | unknown hexact hnone =>
      cases h' with
      | exact hmem' hname' htenant' => exact absurd htenant' (hexact _ hmem' hname')
      | globally _ hmem' hname' hglobal' => exact absurd hglobal' (hnone _ hmem' hname')
      | unknown => rfl

/-- What the whole table resolves to, its page resolves to as well if the page has that row. -/
theorem Resolution.on_page
    (h : Resolution rows tenantId name answer)
    (hpage : ∀ row, answer = some row → row ∈ page limit rows name) :
    Resolution (page limit rows name) tenantId name answer := by
  have hsub : ∀ other ∈ page limit rows name, other ∈ rows :=
    fun other hother => (mem_of_mem_page hother).1
  cases h with
  | exact _ hname htenant => exact .exact (hpage _ rfl) hname htenant
  | globally hexact _ hname hglobal =>
      exact .globally (fun other hmem => hexact other (hsub other hmem)) (hpage _ rfl)
        hname hglobal
  | unknown hexact hglobal =>
      exact .unknown (fun other hmem => hexact other (hsub other hmem))
        (fun other hmem => hglobal other (hsub other hmem))

end Page

section Lookup

variable [DecidableEq Tenant]

/-- The lookup resolves the name among the rows of the page. -/
theorem resolution_getFlag
    (limit : ℕ)
    (rows : List (FeatureFlagRecord Tenant))
    (tenantId : Option Tenant)
    (name : String) :
    Resolution (page limit rows name) tenantId name (getFlag limit rows tenantId name) := by
  have hname : ∀ row ∈ page limit rows name, row.name = name :=
    fun row hrow => (mem_of_mem_page hrow).2
  have hanswer : getFlag limit rows tenantId name =
      ((page limit rows name).find? (tenantExact tenantId)).or
        ((page limit rows name).find? fun row => row.tenantId.isNone) := by
    have hpage : findAll (fun row => row.name == name) limit rows = page limit rows name := rfl
    dsimp only [getFlag]
    rw [hpage]
    cases (page limit rows name).find? (tenantExact tenantId) <;> rfl
  rw [hanswer]
  cases hown : (page limit rows name).find? (tenantExact tenantId) with
  | some row =>
      have hmem := List.mem_of_find?_eq_some hown
      exact .exact hmem (hname row hmem) (tenantExact_iff.mp (List.find?_some hown)).2
  | none =>
      rw [List.find?_eq_none] at hown
      have hexact : tenantId ≠ none → ∀ other ∈ page limit rows name,
          other.name = name → other.tenantId ≠ tenantId := by
        intro hsome other hmem _ htenant
        refine hown other hmem (tenantExact_iff.mpr ⟨?_, htenant⟩)
        rw [htenant]
        exact Option.isSome_iff_ne_none.mpr hsome
      cases hglobal : (page limit rows name).find? fun row => row.tenantId.isNone with
      | some row =>
          have hmem := List.mem_of_find?_eq_some hglobal
          have hnone : row.tenantId = none := by simpa using List.find?_some hglobal
          by_cases hasked : tenantId = none
          · exact .exact hmem (hname row hmem) (hnone.trans hasked.symm)
          · exact .globally (hexact hasked) hmem (hname row hmem) hnone
      | none =>
          have hnone : ∀ other ∈ page limit rows name,
              other.name = name → other.tenantId ≠ none := by
            intro other hmem _
            simpa using List.find?_eq_none.mp hglobal other hmem
          by_cases hasked : tenantId = none
          · rw [hasked]
            exact .unknown hnone hnone
          · exact .unknown (hexact hasked) hnone

/--
On a table with unique rows the lookup is exact if and only if the row that the name
resolves to, where there is one, is among the first `limit` rows of the name.
-/
theorem getFlag_exact_iff
    (limit : ℕ)
    (rows : List (FeatureFlagRecord Tenant))
    (hunique : UniqueRows rows)
    (tenantId : Option Tenant)
    (name : String) :
    Resolution rows tenantId name (getFlag limit rows tenantId name) ↔
      ∀ row, Resolution rows tenantId name (some row) → row ∈ page limit rows name := by
  have hanswer := resolution_getFlag limit rows tenantId name
  constructor
  · intro hexact row hrow
    have hgot : getFlag limit rows tenantId name = some row := hexact.unique hunique hrow
    rw [hgot] at hanswer
    exact hanswer.mem
  · intro hpage
    obtain ⟨answer, hresolved⟩ := exists_resolution rows tenantId name
    have hseen : Resolution (page limit rows name) tenantId name answer := by
      refine hresolved.on_page fun row hrow => ?_
      subst hrow
      exact hpage row hresolved
    have hgot : getFlag limit rows tenantId name = answer :=
      hanswer.unique (uniqueRows_page hunique) hseen
    rw [hgot]
    exact hresolved

/-- A global row, and then rows of the tenants below `n`. -/
def rollout (n : ℕ) : List (FeatureFlagRecord ℕ) :=
  ⟨"beta", none, false⟩ :: (List.range n).map fun tenant => ⟨"beta", some tenant, true⟩

theorem uniqueRows_rollout (n : ℕ) : UniqueRows (rollout n) := by
  have htenants : ((List.range n).map fun tenant => ("beta", some tenant)).Nodup :=
    List.nodup_range.map fun tenant tenant' h => by simpa using h
  unfold UniqueRows rollout
  simpa [Function.comp_def] using htenants

theorem getFlag_exact_iff_rollout :
    UniqueRows (rollout 2) ∧
    (Resolution (rollout 2) (some 1) "beta" (getFlag 100 (rollout 2) (some 1) "beta") ↔
      ∀ row, Resolution (rollout 2) (some 1) "beta" (some row) →
        row ∈ page 100 (rollout 2) "beta") :=
  ⟨uniqueRows_rollout 2, getFlag_exact_iff 100 (rollout 2) (uniqueRows_rollout 2) (some 1) "beta"⟩

/-- The hundredth tenant to override a flag gets the global value. -/
theorem override_lost_past_page :
    UniqueRows (rollout 100) ∧
    Resolution (rollout 100) (some 99) "beta" (some ⟨"beta", some 99, true⟩) ∧
    getFlag 100 (rollout 100) (some 99) "beta" = some ⟨"beta", none, false⟩ ∧
    ¬ Resolution (rollout 100) (some 99) "beta"
      (getFlag 100 (rollout 100) (some 99) "beta") := by
  have hown : Resolution (rollout 100) (some 99) "beta" (some ⟨"beta", some 99, true⟩) :=
    .exact (by simp [rollout]) rfl rfl
  have hgot : getFlag 100 (rollout 100) (some 99) "beta" = some ⟨"beta", none, false⟩ := by
    decide +kernel
  refine ⟨uniqueRows_rollout 100, hown, hgot, fun h => ?_⟩
  rw [hgot] at h
  cases h.unique (uniqueRows_rollout 100) hown

end Lookup

end Flags
end YamlAgno
