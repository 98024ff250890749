import YamlAgno.Library.NestedDict

/-!
# The merge of a tenant's override

`_deep_merge` walks the override key by key and sets each key on a copy of the base,
recursing where both hold a dictionary.  Its result is settled path by path: what the
two dictionaries hold at a path decides what the merge holds there, except below a leaf
of the override, where the base is lost (`valueAt_mergeLoop`).

The laws of the merge follow: the empty dictionary is neutral on both sides, a second
merge of the same override changes nothing, and what the override leaves alone stays
(`deepMerge_laws`).
-/

namespace YamlAgno
namespace TenantMerge

open NestedDict

universe u v

variable {K : Type u} {V : Type v} [DecidableEq K]

mutual

/-- The loop of `_deep_merge` over the items of the override. -/
def mergeLoop : Items K V → Items K V → Items K V
  | out, [] => out
  | out, (key, value) :: items =>
      mergeLoop (OrderedDict.set key (mergedValue (out.lookup key) value) out) items

/-- What a key is set to, given what it has had. -/
def mergedValue : Option (Tree K V) → Tree K V → Tree K V
  | _, .leaf value => .leaf value
  | some (.dict old), .dict items => .dict (mergeLoop old items)
  | _, .dict items => .dict items

end

theorem mergeLoop_cons
    (out : Items K V)
    (key : K)
    (value : Tree K V)
    (items : Items K V) :
    mergeLoop out ((key, value) :: items) =
      mergeLoop (OrderedDict.set key (mergedValue (out.lookup key) value) out) items := by
  rw [mergeLoop]

@[simp] theorem mergeLoop_nil
    (out : Items K V) :
    mergeLoop out [] = out := by
  rw [mergeLoop]

@[simp] theorem mergedValue_leaf
    (old : Option (Tree K V))
    (value : V) :
    mergedValue old (.leaf value) = .leaf value := by
  rw [mergedValue]

@[simp] theorem mergedValue_dict_dict
    (old items : Items K V) :
    mergedValue (some (.dict old)) (.dict items) = .dict (mergeLoop old items) := by
  rw [mergedValue]

/-- A dictionary replaces what is not a dictionary. -/
theorem mergedValue_of_not_dict
    {old : Option (Tree K V)}
    (h : ∀ items, old ≠ some (.dict items))
    (value : Tree K V) :
    mergedValue old value = value := by
  cases value with
  | leaf value =>
      rw [mergedValue_leaf]
  | dict items =>
      rw [mergedValue]
      exact fun old' heq => h old' heq

/-- What a path holds after the merge, given what it holds in base and override. -/
def mergedAt (old : Option (Tree K V)) : Option (Tree K V) → Option (Tree K V)
  | none => old
  | some value => some (mergedValue old value)

theorem mergedAt_none_left
    (value : Option (Tree K V)) :
    mergedAt none value = value := by
  cases value with
  | none =>
      rfl
  | some value =>
      rw [mergedAt, mergedValue_of_not_dict (by simp)]

/-- The loop sets the keys of the override, each from what the base has there. -/
theorem lookup_mergeLoop
    {items : Items K V}
    (hkeys : (items.map Prod.fst).Nodup)
    (out : Items K V)
    (key : K) :
    (mergeLoop out items).lookup key = mergedAt (out.lookup key) (items.lookup key) := by
  induction items generalizing out with
  | nil =>
      rw [mergeLoop_nil]
      rfl
  | cons item items ih =>
      obtain ⟨key', value⟩ := item
      rw [List.map_cons, List.nodup_cons] at hkeys
      rw [mergeLoop_cons, ih hkeys.2, List.lookup_cons]
      by_cases hkey : key = key'
      · subst hkey
        have hnone : items.lookup key = none := by
          rw [List.lookup_eq_none_iff]
          intro item hitem
          have hne : key ≠ item.1 := fun heq =>
            hkeys.1 (List.mem_map.mpr ⟨item, hitem, heq.symm⟩)
          simpa using hne
        simp [hnone, mergedAt]
      · have hne : (key == key') = false := by simpa using hkey
        rw [hne, OrderedDict.lookup_set_of_ne hkey]

/-! ## Paths -/

/-- Unless the override has a leaf above the path, base and override decide at it. -/
theorem valueAt_mergedValue
    {value : Tree K V}
    (hdistinct : value.Distinct)
    (old : Option (Tree K V))
    {path : List K}
    (habove : ¬ value.LeafAbove path) :
    (mergedValue old value).valueAt path =
      mergedAt (old.bind fun old => old.valueAt path) (value.valueAt path) := by
  induction path generalizing old value with
  | nil =>
      simp [mergedAt]
  | cons key path ih =>
      cases value with
      | leaf value =>
          exact absurd (Tree.leafAbove_leaf_iff.mpr (List.cons_ne_nil key path)) habove
      | dict items =>
          match old with
          | none | some (.leaf _) =>
              rw [mergedValue_of_not_dict (by simp)]
              exact (mergedAt_none_left _).symm
          | some (.dict base) =>
              rw [mergedValue_dict_dict, Option.bind_some]
              simp only [Tree.valueAt_dict_cons, lookup_mergeLoop hdistinct.keys]
              cases hchild : items.lookup key with
              | none =>
                  rfl
              | some child =>
                  have hbelow : ¬ child.LeafAbove path := fun h =>
                    habove (Tree.leafAbove_dict_cons_iff.mpr ⟨child, hchild, h⟩)
                  exact ih (hdistinct.of_lookup hchild) (base.lookup key) hbelow

/-- Below a leaf of the override the merge has nothing. -/
theorem valueAt_mergedValue_of_leafAbove
    {value : Tree K V}
    (hdistinct : value.Distinct)
    (old : Option (Tree K V))
    {path : List K}
    (habove : value.LeafAbove path) :
    (mergedValue old value).valueAt path = none := by
  obtain ⟨above, hprefix, hne, leaf, hleaf⟩ := habove
  have hnot : ¬ value.LeafAbove above := fun h => by
    cases h.valueAt_eq_none.symm.trans hleaf
  have hmerged : (mergedValue old value).valueAt above = some (.leaf leaf) := by
    rw [valueAt_mergedValue hdistinct old hnot, hleaf, mergedAt, mergedValue_leaf]
  exact Tree.LeafAbove.valueAt_eq_none ⟨above, hprefix, hne, leaf, hmerged⟩

/-! ## The merge as a dictionary -/

/-- Keys stay distinct if they do in each value that is set. -/
theorem distinct_mergeLoop
    {items out : Items K V}
    (hvalues : ∀ item ∈ items, ∀ old : Option (Tree K V),
      (∀ tree, old = some tree → tree.Distinct) → (mergedValue old item.2).Distinct)
    (hout : (Tree.dict out).Distinct) :
    (Tree.dict (mergeLoop out items)).Distinct := by
  induction items generalizing out with
  | nil =>
      rw [mergeLoop_nil]
      exact hout
  | cons item items ih =>
      obtain ⟨key, value⟩ := item
      rw [mergeLoop_cons]
      have hvalue : (mergedValue (out.lookup key) value).Distinct :=
        hvalues (key, value) List.mem_cons_self _ fun _ hold => hout.of_lookup hold
      exact ih (fun item hitem => hvalues item (List.mem_cons_of_mem _ hitem))
        (hout.set key hvalue)

/-- A merge of dictionaries with distinct keys has distinct keys. -/
theorem distinct_mergedValue
    {value : Tree K V}
    (hvalue : value.Distinct)
    {old : Option (Tree K V)}
    (hold : ∀ tree, old = some tree → tree.Distinct) :
    (mergedValue old value).Distinct := by
  induction value using Tree.induction_items generalizing old with
  | leaf value =>
      rw [mergedValue_leaf]
      exact hvalue
  | dict items ih =>
      match old with
      | none | some (.leaf _) =>
          rw [mergedValue_of_not_dict (by simp)]
          exact hvalue
      | some (.dict base) =>
          rw [mergedValue_dict_dict]
          exact distinct_mergeLoop (fun item hitem old hold =>
            ih item hitem (hvalue.values item hitem) hold) (hold _ rfl)

/-- `_deep_merge`. -/
def deepMerge (base override : Dict K V) : Dict K V where
  items := mergeLoop base.items override.items
  distinct := by
    have hold : ∀ tree, some (Tree.dict base.items) = some tree → tree.Distinct :=
      fun tree htree => Option.some.inj htree ▸ base.distinct
    have hmerged := distinct_mergedValue override.distinct hold
    rwa [mergedValue_dict_dict] at hmerged

/-- `_merge_tenant`: no override and an empty one are falsy. -/
def mergeTenant (default : Dict K V) (tenant : Option (Dict K V)) : Dict K V :=
  match tenant with
  | none => default
  | some tenant => if tenant.items.isEmpty then default else deepMerge default tenant

theorem tree_deepMerge
    (base override : Dict K V) :
    (deepMerge base override).tree = mergedValue (some base.tree) override.tree := by
  rw [Dict.tree, Dict.tree, Dict.tree, mergedValue_dict_dict]
  rfl

/-! ## Neutral and repeated overrides -/

/-- Items under new keys are put last. -/
theorem mergeLoop_of_new
    {items out : Items K V}
    (hkeys : ((out ++ items).map Prod.fst).Nodup) :
    mergeLoop out items = out ++ items := by
  induction items generalizing out with
  | nil =>
      rw [mergeLoop_nil, List.append_nil]
  | cons item items ih =>
      obtain ⟨key, value⟩ := item
      have hnew : key ∉ out.map Prod.fst := by
        rw [List.map_append, List.nodup_append] at hkeys
        exact fun hmem => hkeys.2.2 key hmem key (by simp) rfl
      have hnone : out.lookup key = none := by
        rw [List.lookup_eq_none_iff]
        intro item hitem
        have hne : key ≠ item.1 := fun heq => hnew (List.mem_map.mpr ⟨item, hitem, heq.symm⟩)
        simpa using hne
      have hset : OrderedDict.set key (mergedValue (out.lookup key) value) out =
          out ++ [(key, value)] := by
        rw [OrderedDict.set_of_not_mem _ hnew, hnone, mergedValue_of_not_dict (by simp)]
      rw [mergeLoop_cons, hset, ih (by simpa using hkeys), List.append_assoc]
      rfl

/-- Items that set what is there already change nothing. -/
theorem mergeLoop_of_set
    {items out : Items K V}
    (hset : ∀ item ∈ items, out.lookup item.1 = some (mergedValue (out.lookup item.1) item.2)) :
    mergeLoop out items = out := by
  induction items with
  | nil =>
      rw [mergeLoop_nil]
  | cons item items ih =>
      obtain ⟨key, value⟩ := item
      rw [mergeLoop_cons, OrderedDict.set_of_lookup (hset (key, value) List.mem_cons_self)]
      exact ih fun item hitem => hset item (List.mem_cons_of_mem _ hitem)

/-- A value that has been merged is not changed by merging it again. -/
theorem mergedValue_again
    {value : Tree K V}
    (hdistinct : value.Distinct)
    (old : Option (Tree K V)) :
    mergedValue (some (mergedValue old value)) value = mergedValue old value := by
  induction value using Tree.induction_items generalizing old with
  | leaf value =>
      simp
  | dict items ih =>
      have hagain : ∀ out : Items K V,
          mergeLoop (mergeLoop out items) items = mergeLoop out items := by
        intro out
        refine mergeLoop_of_set (fun item hitem => ?_)
        have hitem' : items.lookup item.1 = some item.2 :=
          (OrderedDict.mem_iff_lookup hdistinct.keys).mp hitem
        rw [lookup_mergeLoop hdistinct.keys, hitem', mergedAt,
          ih item hitem (hdistinct.values item hitem)]
      match old with
      | none | some (.leaf _) =>
          have hself : mergeLoop items items = items := by
            have hnew : mergeLoop [] items = items := mergeLoop_of_new hdistinct.keys
            have htwice := hagain []
            rwa [hnew] at htwice
          have hvalue : ∀ old : Option (Tree K V), (∀ base, old ≠ some (.dict base)) →
              mergedValue (some (mergedValue old (.dict items))) (.dict items) =
                mergedValue old (.dict items) := by
            intro old hold
            rw [mergedValue_of_not_dict hold, mergedValue_dict_dict, hself]
          exact hvalue _ (by simp)
      | some (.dict base) =>
          rw [mergedValue_dict_dict, mergedValue_dict_dict, hagain]

theorem deepMerge_empty_right
    (base : Dict K V) :
    deepMerge base Dict.empty = base :=
  Dict.ext_items (mergeLoop_nil base.items)

theorem deepMerge_empty_left
    (override : Dict K V) :
    deepMerge Dict.empty override = override :=
  Dict.ext_items (mergeLoop_of_new override.distinct.keys)

theorem deepMerge_again
    (base override : Dict K V) :
    deepMerge (deepMerge base override) override = deepMerge base override := by
  have htree := mergedValue_again override.distinct (some base.tree)
  rw [← Dict.tree, ← tree_deepMerge, ← tree_deepMerge] at htree
  exact Dict.ext_items (Tree.dict.inj htree)

/-- A falsy override is read as the empty dictionary. -/
theorem mergeTenant_eq
    (default : Dict K V)
    (tenant : Option (Dict K V)) :
    mergeTenant default tenant = deepMerge default (tenant.getD Dict.empty) := by
  cases tenant with
  | none =>
      exact (deepMerge_empty_right default).symm
  | some tenant =>
      rw [mergeTenant, Option.getD_some]
      split_ifs with hempty
      · have htenant : tenant = Dict.empty :=
          Dict.ext_items (List.isEmpty_iff.mp hempty)
        rw [htenant, deepMerge_empty_right]
      · rfl

/-! ## What the merge holds at each path -/

/-- The dictionary holds at every path what base and override make of it. -/
structure MergedByPath (base override merged : Dict K V) : Prop where
  /-- A leaf of the override wins. -/
  leaf :
    ∀ path value, override.valueAt path = some (.leaf value) →
      merged.valueAt path = some (.leaf value)
  /-- So does a dictionary where the base has none. -/
  dict_over_other :
    ∀ path items, override.valueAt path = some (.dict items) →
      (∀ old, base.valueAt path ≠ some (.dict old)) →
      merged.valueAt path = some (.dict items)
  /-- Two dictionaries are merged. -/
  dict_over_dict :
    ∀ path (old new : Dict K V), base.valueAt path = some old.tree →
      override.valueAt path = some new.tree →
      merged.valueAt path = some (deepMerge old new).tree
  /-- What the override does not touch, neither at the path nor by a leaf above it, stays. -/
  untouched :
    ∀ path, override.valueAt path = none → ¬ override.tree.LeafAbove path →
      merged.valueAt path = base.valueAt path
  /-- So does what is under a key that a dictionary of the override leaves out. -/
  sibling :
    ∀ path items key rest, override.valueAt path = some (.dict items) →
      items.lookup key = none →
      merged.valueAt (path ++ key :: rest) = base.valueAt (path ++ key :: rest)
  /-- Below a leaf of the override nothing is left. -/
  below_leaf :
    ∀ path, override.tree.LeafAbove path → merged.valueAt path = none

theorem mergedByPath_deepMerge
    (base override : Dict K V) :
    MergedByPath base override (deepMerge base override) := by
  have hat : ∀ path, ¬ override.tree.LeafAbove path →
      (deepMerge base override).valueAt path =
        mergedAt (base.valueAt path) (override.valueAt path) := by
    intro path habove
    rw [Dict.valueAt, tree_deepMerge, valueAt_mergedValue override.tree_distinct _ habove]
    rfl
  have hset : ∀ path value, override.valueAt path = some value →
      (deepMerge base override).valueAt path = some (mergedValue (base.valueAt path) value) := by
    intro path value hvalue
    have habove : ¬ override.tree.LeafAbove path := fun h => by
      cases h.valueAt_eq_none.symm.trans hvalue
    rw [hat path habove, hvalue, mergedAt]
  have huntouched : ∀ path, override.valueAt path = none → ¬ override.tree.LeafAbove path →
      (deepMerge base override).valueAt path = base.valueAt path := by
    intro path hnone habove
    rw [hat path habove, hnone, mergedAt]
  constructor
  · intro path value hleaf
    rw [hset path _ hleaf, mergedValue_leaf]
  · intro path items hdict hbase
    rw [hset path _ hdict, mergedValue_of_not_dict hbase]
  · intro path old new hold hnew
    rw [hset path _ hnew, hold, ← tree_deepMerge]
  · exact huntouched
  · intro path items key rest hdict hkey
    exact huntouched _ (Tree.valueAt_of_missing hdict hkey rest)
      (Tree.not_leafAbove_of_missing hdict hkey rest)
  · intro path habove
    rw [Dict.valueAt, tree_deepMerge]
    exact valueAt_mergedValue_of_leafAbove override.tree_distinct _ habove

/--
The merge is settled path by path; the empty dictionary is neutral on both sides; a
second merge of the same override changes nothing; and a tenant without an override is
one with the empty override.
-/
theorem deepMerge_laws
    (base override : Dict K V) :
    MergedByPath base override (deepMerge base override) ∧
    deepMerge base Dict.empty = base ∧
    deepMerge Dict.empty override = override ∧
    deepMerge (deepMerge base override) override = deepMerge base override ∧
    ∀ tenant : Option (Dict K V),
      mergeTenant base tenant = deepMerge base (tenant.getD Dict.empty) :=
  ⟨mergedByPath_deepMerge base override, deepMerge_empty_right base,
    deepMerge_empty_left override, deepMerge_again base override, mergeTenant_eq base⟩

/-- The tenant's pool size wins, the siblings stay. -/
example :
    mergeLoop
      [("app", .dict [("env", .leaf 0)]),
        ("persistence", .dict [("pool_size", .leaf 20), ("pool_max_overflow", .leaf 5)])]
      [("persistence", .dict [("pool_size", .leaf 50)])] =
      [("app", .dict [("env", .leaf 0)]),
        ("persistence", .dict [("pool_size", .leaf 50), ("pool_max_overflow", .leaf 5)])] := by
  rfl

end TenantMerge
end YamlAgno
