import YamlAgno.Config.Merge

/-!
# Overrides over overrides

Two overrides can be merged over a base one after the other, or into one override first.  The
two ways differ where the first override replaces a dictionary of the base by a leaf and the
second has a dictionary there again: one after the other the leaf has cut off what the base
had, while in one override the leaf is gone before the base sees it.  `deepMerge_assoc_iff`
says that this is the only difference, the order of the keys included.
-/

namespace YamlAgno
namespace TenantMerge

open NestedDict

universe u v

variable {K : Type u} {V : Type v} [DecidableEq K]

/-! ## The keys of a merge -/

/-- The merge has the keys of the base, and then the new ones of the override. -/
theorem keys_mergeLoop
    {items : Items K V}
    (hkeys : (items.map Prod.fst).Nodup)
    (out : Items K V) :
    (mergeLoop out items).map Prod.fst =
      out.map Prod.fst ++ (items.map Prod.fst).filter fun key => key ∉ out.map Prod.fst := by
  induction items generalizing out with
  | nil =>
      simp
  | cons item items ih =>
      obtain ⟨key, value⟩ := item
      obtain ⟨hnew, hrest⟩ := List.nodup_cons.mp hkeys
      rw [mergeLoop_cons, ih hrest]
      by_cases hmem : key ∈ out.map Prod.fst
      · rw [OrderedDict.keys_set_of_mem _ hmem]
        simp [hmem]
      · have hput : (OrderedDict.set key (mergedValue (out.lookup key) value) out).map Prod.fst =
            out.map Prod.fst ++ [key] := by
          rw [OrderedDict.set_of_not_mem _ hmem, List.map_append]
          rfl
        have hfilter : (((key, value) :: items).map Prod.fst).filter
            (fun key => key ∉ out.map Prod.fst) =
              key :: (items.map Prod.fst).filter fun key => key ∉ out.map Prod.fst :=
          List.filter_cons_of_pos (decide_eq_true hmem)
        rw [hput, hfilter, List.append_assoc, List.singleton_append]
        refine congrArg _ (congrArg _ (List.filter_congr fun key' hkey' => ?_))
        have hne : key' ≠ key := fun heq => hnew (heq ▸ hkey')
        simp [hne]

/-- The order of the keys does not depend on how the layers are grouped. -/
theorem keys_mergeLoop_assoc
    {middle top : Items K V}
    (hmiddle : (Tree.dict middle).Distinct)
    (htop : (Tree.dict top).Distinct)
    (hmerged : (Tree.dict (mergeLoop middle top)).Distinct)
    (base : Items K V) :
    (mergeLoop (mergeLoop base middle) top).map Prod.fst =
      (mergeLoop base (mergeLoop middle top)).map Prod.fst := by
  rw [keys_mergeLoop htop.keys, keys_mergeLoop hmiddle.keys, keys_mergeLoop hmerged.keys,
    keys_mergeLoop htop.keys, List.filter_append, List.append_assoc, List.filter_filter]
  refine congrArg _ (congrArg _ (List.filter_congr fun key _ => ?_))
  simp only [List.mem_append, List.mem_filter, decide_eq_true_eq, not_or]
  by_cases hbase : key ∈ base.map Prod.fst <;> simp [hbase]

/-! ## Where the grouping matters -/

/-- At the path, a dictionary of the base is cut off by a leaf, and a dictionary comes back. -/
structure CutOff (base middle top : Tree K V) (path : List K) (old new : Items K V) : Prop where
  base_eq : base.valueAt path = some (.dict old)
  middle_eq : ∃ value, middle.valueAt path = some (.leaf value)
  top_eq : top.valueAt path = some (.dict new)

theorem cutOff_cons_iff
    {base middle top old new : Items K V}
    {key : K} {path : List K} :
    CutOff (.dict base) (.dict middle) (.dict top) (key :: path) old new ↔
      ∃ below between above, base.lookup key = some below ∧ middle.lookup key = some between ∧
        top.lookup key = some above ∧ CutOff below between above path old new := by
  constructor
  · rintro ⟨hbase, ⟨value, hmiddle⟩, htop⟩
    rw [Tree.valueAt_dict_cons, Option.bind_eq_some_iff] at hbase hmiddle htop
    obtain ⟨below, hbelow, hbase⟩ := hbase
    obtain ⟨between, hbetween, hmiddle⟩ := hmiddle
    obtain ⟨above, habove, htop⟩ := htop
    exact ⟨below, between, above, hbelow, hbetween, habove, hbase, ⟨value, hmiddle⟩, htop⟩
  · rintro ⟨below, between, above, hbelow, hbetween, habove, hbase, ⟨value, hmiddle⟩, htop⟩
    refine ⟨?_, ⟨value, ?_⟩, ?_⟩
    · rw [Tree.valueAt_dict_cons, hbelow, Option.bind_some, hbase]
    · rw [Tree.valueAt_dict_cons, hbetween, Option.bind_some, hmiddle]
    · rw [Tree.valueAt_dict_cons, habove, Option.bind_some, htop]

/-- Under one key the grouping matters only if all three layers have it. -/
theorem mergedAt_assoc_iff
    {base middle top : Option (Tree K V)} :
    mergedAt (mergedAt base middle) top = mergedAt base (mergedAt middle top) ↔
      ∀ below between above, base = some below → middle = some between → top = some above →
        mergedValue (some (mergedValue (some below) between)) above =
          mergedValue (some below) (mergedValue (some between) above) := by
  cases top with
  | none =>
      exact iff_of_true rfl (by simp)
  | some above =>
      cases middle with
      | none =>
          rw [mergedAt_none_left]
          exact iff_of_true rfl (by simp)
      | some between =>
          cases base with
          | none =>
              rw [mergedAt_none_left, mergedAt_none_left]
              exact iff_of_true rfl (by simp)
          | some below =>
              simp only [mergedAt, Option.some.injEq]
              constructor
              · rintro h _ _ _ rfl rfl rfl
                exact h
              · intro h
                exact h below between above rfl rfl rfl

theorem distinct_merge
    {middle top : Items K V}
    (hmiddle : (Tree.dict middle).Distinct)
    (htop : (Tree.dict top).Distinct) :
    (Tree.dict (mergeLoop middle top)).Distinct := by
  rw [← mergedValue_dict_dict]
  exact distinct_mergedValue htop fun tree htree => Option.some.inj htree ▸ hmiddle

/-- Dictionaries can be grouped if what they have under each key can. -/
theorem mergeLoop_assoc_iff
    {base middle top : Items K V}
    (hbase : (Tree.dict base).Distinct)
    (hmiddle : (Tree.dict middle).Distinct)
    (htop : (Tree.dict top).Distinct) :
    mergeLoop (mergeLoop base middle) top = mergeLoop base (mergeLoop middle top) ↔
      ∀ key, mergedAt (mergedAt (base.lookup key) (middle.lookup key)) (top.lookup key) =
        mergedAt (base.lookup key) (mergedAt (middle.lookup key) (top.lookup key)) := by
  have hmerged := distinct_merge hmiddle htop
  have hleft : ∀ key, (mergeLoop (mergeLoop base middle) top).lookup key =
      mergedAt (mergedAt (base.lookup key) (middle.lookup key)) (top.lookup key) := fun key => by
    rw [lookup_mergeLoop htop.keys, lookup_mergeLoop hmiddle.keys]
  have hright : ∀ key, (mergeLoop base (mergeLoop middle top)).lookup key =
      mergedAt (base.lookup key) (mergedAt (middle.lookup key) (top.lookup key)) := fun key => by
    rw [lookup_mergeLoop hmerged.keys, lookup_mergeLoop htop.keys]
  constructor
  · intro h key
    rw [← hleft, ← hright, h]
  · intro h
    refine OrderedDict.ext_lookup (distinct_merge (distinct_merge hbase hmiddle) htop).keys
      (keys_mergeLoop_assoc hmiddle htop hmerged base) fun key => ?_
    rw [hleft, hright, h]

theorem mergedValue_over_leaf
    (value : V)
    (tree : Tree K V) :
    mergedValue (some (.leaf value)) tree = tree :=
  mergedValue_of_not_dict (by simp) tree

theorem mergedValue_assoc_iff
    {base middle top : Tree K V}
    (hbase : base.Distinct)
    (hmiddle : middle.Distinct)
    (htop : top.Distinct) :
    mergedValue (some (mergedValue (some base) middle)) top =
        mergedValue (some base) (mergedValue (some middle) top) ↔
      ∀ path old new, CutOff base middle top path old new → mergeLoop old new = new := by
  induction top using Tree.induction_items generalizing base middle with
  | leaf value =>
      simp only [mergedValue_leaf, true_iff]
      rintro path old new ⟨-, -, htop⟩
      cases path <;> simp at htop
  | dict top ih =>
      cases middle with
      | leaf value =>
          rw [mergedValue_leaf, mergedValue_over_leaf]
          cases base with
          | leaf value' =>
              rw [mergedValue_over_leaf]
              simp only [true_iff]
              rintro path old new ⟨hbase, -, -⟩
              cases path <;> simp at hbase
          | dict base =>
              rw [mergedValue_dict_dict, Tree.dict.injEq]
              constructor
              · rintro h path old new ⟨hold, ⟨value', hvalue⟩, hnew⟩
                cases path with
                | nil =>
                    cases hold
                    cases hnew
                    exact h.symm
                | cons key path => simp at hvalue
              · intro h
                exact (h [] base top ⟨rfl, ⟨value, rfl⟩, rfl⟩).symm
      | dict middle =>
          cases base with
          | leaf value =>
              rw [mergedValue_over_leaf, mergedValue_dict_dict, mergedValue_over_leaf]
              simp only [true_iff]
              rintro path old new ⟨hbase, -, -⟩
              cases path <;> simp at hbase
          | dict base =>
              simp only [mergedValue_dict_dict, Tree.dict.injEq]
              rw [mergeLoop_assoc_iff hbase hmiddle htop]
              have hkey : ∀ key below between above, base.lookup key = some below →
                  middle.lookup key = some between → top.lookup key = some above →
                  (mergedValue (some (mergedValue (some below) between)) above =
                      mergedValue (some below) (mergedValue (some between) above) ↔
                    ∀ path old new, CutOff below between above path old new →
                      mergeLoop old new = new) :=
                fun key below between above hbelow hbetween habove =>
                  ih (key, above) ((OrderedDict.mem_iff_lookup htop.keys).mpr habove)
                    (hbase.of_lookup hbelow) (hmiddle.of_lookup hbetween) (htop.of_lookup habove)
              constructor
              · intro h path old new hcut
                cases path with
                | nil =>
                    obtain ⟨value, hvalue⟩ := hcut.middle_eq
                    simp at hvalue
                | cons key path =>
                    obtain ⟨below, between, above, hbelow, hbetween, habove, hcut⟩ :=
                      cutOff_cons_iff.mp hcut
                    have hassoc := mergedAt_assoc_iff.mp (h key) below between above
                      hbelow hbetween habove
                    exact (hkey key below between above hbelow hbetween habove).mp hassoc
                      path old new hcut
              · intro h key
                refine mergedAt_assoc_iff.mpr fun below between above hbelow hbetween habove => ?_
                refine (hkey key below between above hbelow hbetween habove).mpr ?_
                intro path old new hcut
                exact h (key :: path) old new (cutOff_cons_iff.mpr
                  ⟨below, between, above, hbelow, hbetween, habove, hcut⟩)

/--
Two overrides can be merged into one first exactly when, wherever the first has a leaf between a
dictionary of the base and one of the second, that of the base adds nothing to that of the second.
-/
theorem deepMerge_assoc_iff
    (base first second : Dict K V) :
    deepMerge (deepMerge base first) second = deepMerge base (deepMerge first second) ↔
      ∀ path old new, CutOff base.tree first.tree second.tree path old new →
        mergeLoop old new = new := by
  rw [← mergedValue_assoc_iff base.tree_distinct first.tree_distinct second.tree_distinct,
    ← tree_deepMerge, ← tree_deepMerge, ← tree_deepMerge, ← tree_deepMerge]
  constructor
  · intro h
    rw [h]
  · intro h
    exact Dict.ext_items (Tree.dict.inj h)

/-- A pool that the first override switches off and the second configures again. -/
example :
    mergeLoop (mergeLoop [("pool", .dict [("size", .leaf 20)])] [("pool", .leaf 0)])
        [("pool", .dict [("timeout", .leaf 5)])] =
      [("pool", .dict [("timeout", .leaf 5)])] ∧
    mergeLoop [("pool", .dict [("size", .leaf 20)])]
        (mergeLoop [("pool", .leaf 0)] [("pool", .dict [("timeout", .leaf 5)])]) =
      [("pool", .dict [("size", .leaf 20), ("timeout", .leaf 5)])] :=
  ⟨rfl, rfl⟩

end TenantMerge
end YamlAgno
