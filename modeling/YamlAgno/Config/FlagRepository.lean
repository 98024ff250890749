import YamlAgno.Library.OrderedDict
import YamlAgno.Library.RowStore

/-!
# Feature flags: looking up and seeding

The flag table holds rows of single tenants and global rows.  `getFlag` looks one
name up in two stages, the tenant's own row and then the global one.  `seedFlags`
makes one pass over all rows and keeps one for each name: the first, unless that is
global and a row of the requested tenant comes later.

The pass takes the first row whatever its tenant.  So it agrees with the lookup
exactly when no name's first row belongs to another tenant (`seed_agrees_iff`).
-/

namespace YamlAgno
namespace Flags

open RowStore

variable {Tenant : Type} [DecidableEq Tenant]

/-- The columns of a flag row that are read; a global row has no tenant. -/
structure FeatureFlagRecord (Tenant : Type) where
  name : String
  tenantId : Option Tenant
  enabled : Bool
deriving DecidableEq

/-- A flag definition of the core manager; its other fields keep their defaults. -/
structure FeatureFlag where
  key : String
  enabled : Bool
deriving DecidableEq

/-! ## The repository -/

section Repository

variable (limit : ℕ) (rows : List (FeatureFlagRecord Tenant)) (tenantId : Option Tenant)

/-- `row.tenant_id is not None and row.tenant_id == tenant_id`. -/
def tenantExact (row : FeatureFlagRecord Tenant) : Bool :=
  row.tenantId.isSome && row.tenantId == tenantId

/-- `get_flag`. -/
def getFlag (name : String) : Option (FeatureFlagRecord Tenant) :=
  let rows := findAll (fun row => row.name == name) limit rows
  match rows.find? (tenantExact tenantId) with
  | some tenantMatch => some tenantMatch
  | none => rows.find? (fun row => row.tenantId.isNone)

/-- What the loop of `seed_flags` does with one row. -/
def seedRow
    (effective : List (String × FeatureFlagRecord Tenant))
    (row : FeatureFlagRecord Tenant) :
    List (String × FeatureFlagRecord Tenant) :=
  match effective.lookup row.name with
  | none => OrderedDict.set row.name row effective
  | some current =>
      if row.tenantId.isSome && current.tenantId.isNone && tenantId.isSome &&
          row.tenantId == tenantId then
        OrderedDict.set row.name row effective
      else effective

/-- The dictionary that the loop of `seed_flags` fills. -/
def effectiveRows : List (String × FeatureFlagRecord Tenant) :=
  (findAll (fun _ => true) limit rows).foldl (seedRow tenantId) []

/-- `seed_flags`: the flags it registers, one `set_flag` call each. -/
def seedFlags : List FeatureFlag :=
  (effectiveRows limit rows tenantId).map fun item => ⟨item.1, item.2.enabled⟩

end Repository

/-! ## One name at a time -/

section OneName

variable (tenantId : Option Tenant) (name : String)

/-- What the loop does with a row, seen from one name. -/
def seedOne
    (current : Option (FeatureFlagRecord Tenant))
    (row : FeatureFlagRecord Tenant) :
    Option (FeatureFlagRecord Tenant) :=
  if row.name = name then
    match current with
    | none => some row
    | some c => if c.tenantId.isNone && tenantExact tenantId row then some row else some c
  else current

theorem lookup_seedRow
    (effective : List (String × FeatureFlagRecord Tenant))
    (row : FeatureFlagRecord Tenant) :
    (seedRow tenantId effective row).lookup name =
      seedOne tenantId name (effective.lookup name) row := by
  unfold seedRow seedOne
  by_cases hname : row.name = name
  · subst hname
    cases hcurrent : effective.lookup row.name with
    | none =>
        simp
    | some current =>
        have hcondition : (row.tenantId.isSome && current.tenantId.isNone && tenantId.isSome &&
            row.tenantId == tenantId) = (current.tenantId.isNone && tenantExact tenantId row) := by
          unfold tenantExact
          cases row.tenantId <;> cases tenantId <;> cases current.tenantId <;> simp
        simp only [hcondition, if_true]
        split_ifs
        · exact OrderedDict.lookup_set_self row.name row effective
        · exact hcurrent
  · have hset : (OrderedDict.set row.name row effective).lookup name = effective.lookup name :=
      OrderedDict.lookup_set_of_ne (Ne.symm hname) row effective
    cases effective.lookup row.name with
    | none =>
        simp [hname, hset]
    | some current =>
        simp only [hname, if_false]
        split_ifs
        · exact hset
        · rfl

/-- The loop's dictionary at a name is the loop of that name's rows. -/
theorem lookup_effective
    (rows : List (FeatureFlagRecord Tenant))
    (effective : List (String × FeatureFlagRecord Tenant)) :
    (rows.foldl (seedRow tenantId) effective).lookup name =
      rows.foldl (seedOne tenantId name) (effective.lookup name) := by
  induction rows generalizing effective with
  | nil =>
      rfl
  | cons row rows ih =>
      rw [List.foldl_cons, List.foldl_cons, ih, lookup_seedRow]

/-- A row that has a tenant stays. -/
theorem foldl_seedOne_of_tenant
    {current : FeatureFlagRecord Tenant}
    (h : current.tenantId.isSome)
    (rows : List (FeatureFlagRecord Tenant)) :
    rows.foldl (seedOne tenantId name) (some current) = some current := by
  induction rows with
  | nil =>
      rfl
  | cons row rows ih =>
      have hnone : current.tenantId.isNone = false := by
        simpa [Option.isNone_eq_false_iff] using h
      simp only [List.foldl_cons, seedOne, hnone, Bool.false_and, Bool.false_eq_true, if_false,
        ite_self]
      exact ih

/-- A global row stays until the first row of the requested tenant. -/
theorem foldl_seedOne_of_global
    {current : FeatureFlagRecord Tenant}
    (h : current.tenantId = none)
    (rows : List (FeatureFlagRecord Tenant)) :
    rows.foldl (seedOne tenantId name) (some current) =
      some ((rows.find? (fun row => row.name == name && tenantExact tenantId row)).getD
        current) := by
  induction rows with
  | nil =>
      rfl
  | cons row rows ih =>
      rw [List.foldl_cons]
      by_cases hname : row.name = name
      · by_cases hexact : tenantExact tenantId row = true
        · have hsome : row.tenantId.isSome = true := (Bool.and_eq_true_iff.mp hexact).1
          simp only [seedOne, hname, h, hexact, Option.isNone_none, Bool.and_self, if_true]
          rw [foldl_seedOne_of_tenant tenantId name hsome]
          simp [hname, hexact]
        · simp [seedOne, hname, hexact, ih]
      · simp [seedOne, hname, ih]

end OneName

/-! ## Whose row comes first -/

/-- The row belongs to a tenant that was not asked for. -/
def Foreign
    (tenantId : Option Tenant)
    (row : FeatureFlagRecord Tenant) : Prop :=
  row.tenantId.isSome ∧ row.tenantId ≠ tenantId

/-- No name's first row, in the order of the store, is foreign. -/
def FirstRowsOwn
    (rows : List (FeatureFlagRecord Tenant))
    (tenantId : Option Tenant) : Prop :=
  ∀ name row, rows.find? (fun row => row.name == name) = some row → ¬ Foreign tenantId row

/-- Each tenant, and the global scope, has one row for a name. -/
def UniqueRows (rows : List (FeatureFlagRecord Tenant)) : Prop :=
  (rows.map fun row => (row.name, row.tenantId)).Nodup

instance (rows : List (FeatureFlagRecord Tenant)) : Decidable (UniqueRows rows) :=
  inferInstanceAs (Decidable (List.Nodup _))

section Agreement

variable {limit : ℕ} {rows : List (FeatureFlagRecord Tenant)} {tenantId : Option Tenant}

theorem tenantExact_iff
    {row : FeatureFlagRecord Tenant} :
    tenantExact tenantId row = true ↔ row.tenantId.isSome ∧ row.tenantId = tenantId := by
  simp [tenantExact]

/-- On a page that holds all rows, the lookup takes the tenant's first row of the name,
else the first global one. -/
theorem getFlag_eq
    (hpage : rows.length ≤ limit)
    (name : String) :
    getFlag limit rows tenantId name =
      match rows.find? (fun row => row.name == name && tenantExact tenantId row) with
      | some tenantMatch => some tenantMatch
      | none => rows.find? (fun row => row.name == name && row.tenantId.isNone) := by
  simp only [getFlag, findAll_of_length_le hpage, List.find?_filter, Bool.decide_and,
    Bool.decide_eq_true]

/-- The row the loop keeps for a name. -/
theorem lookup_effectiveRows
    (hpage : rows.length ≤ limit)
    (name : String) :
    (effectiveRows limit rows tenantId).lookup name =
      rows.foldl (seedOne tenantId name) none := by
  rw [effectiveRows, findAll_of_length_le hpage, lookup_effective]
  simp

/-- A foreign first row is kept. -/
theorem effective_of_foreign
    {name : String}
    {row : FeatureFlagRecord Tenant}
    (hfind : rows.find? (fun row => row.name == name) = some row)
    (hforeign : Foreign tenantId row) :
    rows.foldl (seedOne tenantId name) none = some row := by
  induction rows with
  | nil =>
      cases hfind
  | cons first rows ih =>
      rw [List.foldl_cons]
      by_cases hname : first.name = name
      · simp only [List.find?_cons, hname, beq_self_eq_true, Option.some.injEq] at hfind
        subst hfind
        simp only [seedOne, hname, if_true]
        exact foldl_seedOne_of_tenant tenantId name hforeign.1 rows
      · have hne : (first.name == name) = false := by simpa using hname
        simp only [List.find?_cons, hne] at hfind
        simp only [seedOne, hname, if_false]
        exact ih hfind

/-- If the first row is not foreign, the loop keeps the row that the lookup finds. -/
theorem effective_eq_getFlag
    {name : String}
    (hfirst : ∀ row, rows.find? (fun row => row.name == name) = some row →
      ¬ Foreign tenantId row) :
    rows.foldl (seedOne tenantId name) none =
      match rows.find? (fun row => row.name == name && tenantExact tenantId row) with
      | some tenantMatch => some tenantMatch
      | none => rows.find? (fun row => row.name == name && row.tenantId.isNone) := by
  induction rows with
  | nil =>
      rfl
  | cons first rows ih =>
      rw [List.foldl_cons]
      by_cases hname : first.name = name
      · have hown := hfirst first (by simp [hname])
        simp only [seedOne, hname, if_true]
        cases htenant : first.tenantId with
        | none =>
            have hexact : tenantExact tenantId first = false := by
              simp [tenantExact, htenant]
            rw [foldl_seedOne_of_global tenantId name htenant]
            simp only [List.find?_cons, hname, hexact, htenant, beq_self_eq_true,
              Bool.and_false, Option.isNone_none, Bool.and_self]
            cases rows.find? (fun row => row.name == name && tenantExact tenantId row) <;> rfl
        | some tenant =>
            have hsame : first.tenantId = tenantId := by
              by_contra hne
              exact hown ⟨by simp [htenant], hne⟩
            have hexact : tenantExact tenantId first = true :=
              tenantExact_iff.mpr ⟨by simp [htenant], hsame⟩
            rw [foldl_seedOne_of_tenant tenantId name (by simp [htenant])]
            simp [hname, hexact]
      · have hne : (first.name == name) = false := by simpa using hname
        simp only [seedOne, hname, if_false]
        rw [ih (fun row hrow => hfirst row (by simpa [List.find?_cons, hne] using hrow))]
        simp [hne]

/-- The lookup never answers with another tenant's row. -/
theorem not_foreign_of_getFlag
    (hpage : rows.length ≤ limit)
    {name : String}
    {row : FeatureFlagRecord Tenant}
    (h : getFlag limit rows tenantId name = some row) :
    ¬ Foreign tenantId row := by
  rintro ⟨hsome, hne⟩
  rw [getFlag_eq hpage] at h
  split at h
  case h_1 tenantMatch htenant =>
    cases h
    have hmeets := List.find?_some htenant
    simp only [Bool.and_eq_true, tenantExact_iff] at hmeets
    exact hne hmeets.2.2
  case h_2 =>
    have hmeets := List.find?_some h
    simp only [Bool.and_eq_true, Option.isNone_iff_eq_none] at hmeets
    rw [hmeets.2] at hsome
    cases hsome

/-- What one lookup decides does not depend on the order of the rows. -/
theorem getFlag_perm
    {rows' : List (FeatureFlagRecord Tenant)}
    (hunique : UniqueRows rows)
    (hperm : rows.Perm rows')
    (hpage : rows.length ≤ limit)
    (name : String) :
    getFlag limit rows tenantId name = getFlag limit rows' tenantId name := by
  have hkey : ∀ scope row row', row ∈ rows → row' ∈ rows →
      row.name = name ∧ row.tenantId = scope → row'.name = name ∧ row'.tenantId = scope →
        row = row' := by
    rintro scope row row' hrow hrow' ⟨hn, ht⟩ ⟨hn', ht'⟩
    exact List.inj_on_of_nodup_map hunique hrow hrow' (by rw [hn, ht, hn', ht'])
  rw [getFlag_eq hpage, getFlag_eq (hperm.length_eq ▸ hpage)]
  have htenant := find?_perm_of_unique
    (fun row => row.name == name && tenantExact tenantId row) hperm
    (fun row hrow row' hrow' h h' => by
      simp only [Bool.and_eq_true, beq_iff_eq, tenantExact_iff] at h h'
      exact hkey tenantId row row' hrow hrow' ⟨h.1, h.2.2⟩ ⟨h'.1, h'.2.2⟩)
  have hglobal := find?_perm_of_unique
    (fun row => row.name == name && row.tenantId.isNone) hperm
    (fun row hrow row' hrow' h h' => by
      simp only [Bool.and_eq_true, beq_iff_eq, Option.isNone_iff_eq_none] at h h'
      exact hkey none row row' hrow hrow' h h')
  rw [htenant, hglobal]

theorem nodup_keys_effective
    (rows : List (FeatureFlagRecord Tenant))
    {effective : List (String × FeatureFlagRecord Tenant)}
    (h : (effective.map Prod.fst).Nodup) :
    ((rows.foldl (seedRow tenantId) effective).map Prod.fst).Nodup := by
  induction rows generalizing effective with
  | nil =>
      exact h
  | cons row rows ih =>
      rw [List.foldl_cons]
      refine ih ?_
      unfold seedRow
      split
      · exact OrderedDict.nodup_keys_set row.name row h
      · split_ifs
        · exact OrderedDict.nodup_keys_set row.name row h
        · exact h

/-- A flag is registered for each name that has an effective row, with its value. -/
theorem mem_seedFlags_iff
    {flag : FeatureFlag} :
    flag ∈ seedFlags limit rows tenantId ↔
      ∃ row, (effectiveRows limit rows tenantId).lookup flag.key = some row ∧
        flag.enabled = row.enabled := by
  have hnodup : ((effectiveRows limit rows tenantId).map Prod.fst).Nodup :=
    nodup_keys_effective _ List.nodup_nil
  simp only [seedFlags, List.mem_map, Prod.exists]
  constructor
  · rintro ⟨name, row, hmem, rfl⟩
    exact ⟨row, (OrderedDict.mem_iff_lookup hnodup).mp hmem, rfl⟩
  · rintro ⟨row, hlookup, henabled⟩
    refine ⟨flag.key, row, (OrderedDict.mem_iff_lookup hnodup).mpr hlookup, ?_⟩
    rw [← henabled]

end Agreement

/-- Seeding registers what the lookup finds, once for each name, and no effective row
is another tenant's. -/
structure SeedingAgrees
    (limit : ℕ)
    (rows : List (FeatureFlagRecord Tenant))
    (tenantId : Option Tenant) : Prop where
  registered :
    ∀ flag, flag ∈ seedFlags limit rows tenantId ↔
      ∃ row, getFlag limit rows tenantId flag.key = some row ∧ flag.enabled = row.enabled
  once : ((seedFlags limit rows tenantId).map FeatureFlag.key).Nodup
  own : ∀ item ∈ effectiveRows limit rows tenantId, ¬ Foreign tenantId item.2

/--
Seeding agrees with the lookup exactly when no name's first row is foreign, and any
two orders of the rows for which this is so register the same flags.
-/
theorem seed_agrees_iff
    (limit : ℕ)
    (rows : List (FeatureFlagRecord Tenant))
    (hunique : UniqueRows rows)
    (hpage : rows.length ≤ limit)
    (tenantId : Option Tenant) :
    (SeedingAgrees limit rows tenantId ↔ FirstRowsOwn rows tenantId) ∧
      ∀ rows', rows.Perm rows' → FirstRowsOwn rows tenantId → FirstRowsOwn rows' tenantId →
        ∀ flag, flag ∈ seedFlags limit rows tenantId ↔ flag ∈ seedFlags limit rows' tenantId := by
  have hregistered : ∀ rows' : List (FeatureFlagRecord Tenant), rows'.length ≤ limit →
      FirstRowsOwn rows' tenantId → ∀ flag, flag ∈ seedFlags limit rows' tenantId ↔
        ∃ row, getFlag limit rows' tenantId flag.key = some row ∧ flag.enabled = row.enabled := by
    intro rows' hpage' hfirst flag
    rw [mem_seedFlags_iff, lookup_effectiveRows hpage', getFlag_eq hpage',
      effective_eq_getFlag (hfirst flag.key)]
  have hnodup : ((effectiveRows limit rows tenantId).map Prod.fst).Nodup :=
    nodup_keys_effective _ List.nodup_nil
  refine ⟨⟨fun hagrees name row hfind hforeign => ?_, fun hfirst => ?_⟩, ?_⟩
  · -- The foreign first row is the effective one.
    have hlookup : (effectiveRows limit rows tenantId).lookup name = some row := by
      rw [lookup_effectiveRows hpage, effective_of_foreign hfind hforeign]
    exact hagrees.own _ ((OrderedDict.mem_iff_lookup hnodup).mpr hlookup) hforeign
  · refine ⟨hregistered rows hpage hfirst, ?_, fun item hitem => ?_⟩
    · simpa [seedFlags, Function.comp_def] using hnodup
    · have hlookup := (OrderedDict.mem_iff_lookup hnodup).mp (show (item.1, item.2) ∈ _ from hitem)
      rw [lookup_effectiveRows hpage, effective_eq_getFlag (hfirst item.1),
        ← getFlag_eq hpage] at hlookup
      exact not_foreign_of_getFlag hpage hlookup
  · intro rows' hperm hfirst hfirst' flag
    rw [hregistered rows hpage hfirst, hregistered rows' (hperm.length_eq ▸ hpage) hfirst',
      getFlag_perm hunique hperm hpage]

/-- A global row, then the row of tenant `1`. -/
def overridden : List (FeatureFlagRecord ℕ) :=
  [⟨"beta", none, false⟩, ⟨"beta", some 1, true⟩]

theorem seed_agrees_overridden :
    (SeedingAgrees 100 overridden (some 1) ↔ FirstRowsOwn overridden (some 1)) ∧
      ∀ rows', overridden.Perm rows' → FirstRowsOwn overridden (some 1) →
        FirstRowsOwn rows' (some 1) →
        ∀ flag, flag ∈ seedFlags 100 overridden (some 1) ↔ flag ∈ seedFlags 100 rows' (some 1) :=
  seed_agrees_iff 100 overridden (by decide) (by decide) (some 1)

/-- A row of tenant `2` that comes first is registered for tenant `1`. -/
theorem foreign_flag_seeded :
    ¬ ∀ (rows : List (FeatureFlagRecord ℕ)) (tenantId : Option ℕ), UniqueRows rows →
        rows.length ≤ 100 → SeedingAgrees 100 rows tenantId := by
  intro hall
  have hagrees := hall [⟨"beta", some 2, true⟩, ⟨"beta", none, false⟩] (some 1)
    (by decide) (by decide)
  obtain ⟨row, hrow, henabled⟩ := (hagrees.registered ⟨"beta", true⟩).mp (by decide)
  have hglobal : getFlag 100 [⟨"beta", some 2, true⟩, ⟨"beta", none, false⟩] (some 1) "beta" =
      some ⟨"beta", none, false⟩ := by decide
  rw [hglobal] at hrow
  cases hrow
  cases henabled

end Flags
end YamlAgno
