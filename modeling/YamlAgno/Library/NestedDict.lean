import Mathlib.Algebra.Order.Group.Nat
import YamlAgno.Library.OrderedDict

/-!
# Nested dictionaries

A nested dictionary is a tree: its values are leaves or dictionaries again.  A path
of keys leads to at most one value of it.  Keys are distinct at every level, which the
bundled type `Dict` carries along.
-/

namespace NestedDict

universe u v

/-- A value: a leaf, or a dictionary. -/
inductive Tree (K : Type u) (V : Type v) where
  | leaf (value : V)
  | dict (items : List (K × Tree K V))

/-- The items of a dictionary, oldest first. -/
abbrev Items (K : Type u) (V : Type v) : Type (max u v) :=
  List (K × Tree K V)

namespace Tree

variable {K : Type u} {V : Type v}

/-- Keys are distinct at every level. -/
inductive Distinct : Tree K V → Prop
  | leaf
      (value : V) :
      Distinct (leaf value)
  | dict
      (items : Items K V)
      (hkeys : (items.map Prod.fst).Nodup)
      (hvalues : ∀ item ∈ items, Distinct item.2) :
      Distinct (dict items)

/-- Induction through dictionaries. -/
theorem induction_items
    {P : Tree K V → Prop}
    (leaf : ∀ value, P (leaf value))
    (dict : ∀ items : Items K V, (∀ item ∈ items, P item.2) → P (dict items))
    (tree : Tree K V) :
    P tree := by
  induction hn : sizeOf tree using Nat.strong_induction_on generalizing tree with
  | _ n ih =>
      subst hn
      cases tree with
      | leaf value =>
          exact leaf value
      | dict items =>
          refine dict items (fun item hitem => ih _ ?_ item.2 rfl)
          have hlt : sizeOf item < sizeOf items := List.sizeOf_lt_of_mem hitem
          obtain ⟨key, value⟩ := item
          simp only [Prod.mk.sizeOf_spec, Tree.dict.sizeOf_spec] at hlt ⊢
          omega

theorem Distinct.keys
    {items : Items K V}
    (h : Distinct (.dict items)) :
    (items.map Prod.fst).Nodup := by
  cases h with
  | dict _ hkeys _ =>
      exact hkeys

theorem Distinct.values
    {items : Items K V}
    (h : Distinct (.dict items)) :
    ∀ item ∈ items, Distinct item.2 := by
  cases h with
  | dict _ _ hvalues =>
      exact hvalues

variable [DecidableEq K]

theorem Distinct.of_lookup
    {items : Items K V}
    (h : Distinct (.dict items))
    {key : K}
    {value : Tree K V}
    (hlookup : items.lookup key = some value) :
    Distinct value :=
  h.values (key, value) ((OrderedDict.mem_iff_lookup h.keys).mpr hlookup)

theorem Distinct.set
    {items : Items K V}
    (h : Distinct (.dict items))
    (key : K)
    {value : Tree K V}
    (hvalue : Distinct value) :
    Distinct (.dict (OrderedDict.set key value items)) := by
  refine .dict _ (OrderedDict.nodup_keys_set key value h.keys) (fun item hitem => ?_)
  rcases OrderedDict.mem_of_mem_set hitem with rfl | hold
  · exact hvalue
  · exact h.values item hold

/-- The value at a path of keys. -/
def valueAt : Tree K V → List K → Option (Tree K V)
  | tree, [] => some tree
  | leaf _, _ :: _ => none
  | dict items, key :: path =>
      match items.lookup key with
      | none => none
      | some value => value.valueAt path

@[simp] theorem valueAt_nil
    (tree : Tree K V) :
    tree.valueAt [] = some tree := by
  cases tree <;> rfl

@[simp] theorem valueAt_leaf_cons
    (value : V)
    (key : K)
    (path : List K) :
    (leaf value : Tree K V).valueAt (key :: path) = none := by
  rfl

theorem valueAt_dict_cons
    (items : Items K V)
    (key : K)
    (path : List K) :
    (dict items).valueAt (key :: path) =
      (items.lookup key).bind fun value => value.valueAt path := by
  rw [valueAt]
  cases items.lookup key <;> rfl

theorem valueAt_append
    (tree : Tree K V)
    (path rest : List K) :
    tree.valueAt (path ++ rest) =
      (tree.valueAt path).bind fun value => value.valueAt rest := by
  induction path generalizing tree with
  | nil =>
      simp
  | cons key path ih =>
      cases tree with
      | leaf value =>
          rfl
      | dict items =>
          rw [List.cons_append, valueAt_dict_cons, valueAt_dict_cons, Option.bind_assoc]
          exact congrArg _ (funext fun value => ih value)

/-- Some value on the way to the end of the path is a leaf. -/
def LeafAbove (tree : Tree K V) (path : List K) : Prop :=
  ∃ above, above <+: path ∧ above ≠ path ∧ ∃ value, tree.valueAt above = some (leaf value)

/-- Below a leaf there is nothing. -/
theorem LeafAbove.valueAt_eq_none
    {tree : Tree K V}
    {path : List K}
    (h : LeafAbove tree path) :
    tree.valueAt path = none := by
  obtain ⟨above, ⟨rest, rfl⟩, hne, value, hleaf⟩ := h
  rw [valueAt_append, hleaf, Option.bind_some]
  cases rest with
  | nil =>
      exact absurd (List.append_nil above).symm hne
  | cons key rest =>
      rfl

theorem leafAbove_leaf_iff
    {value : V}
    {path : List K} :
    LeafAbove (leaf value) path ↔ path ≠ [] := by
  constructor
  · rintro ⟨above, hprefix, hne, -⟩ rfl
    exact hne (List.prefix_nil.mp hprefix)
  · intro hne
    exact ⟨[], List.nil_prefix, hne.symm, value, rfl⟩

/-- The leaf above lies under the first key of the path. -/
theorem leafAbove_dict_cons_iff
    {items : Items K V}
    {key : K}
    {path : List K} :
    LeafAbove (dict items) (key :: path) ↔
      ∃ value, items.lookup key = some value ∧ LeafAbove value path := by
  constructor
  · rintro ⟨above, hprefix, hne, value, hleaf⟩
    cases above with
    | nil =>
        simp at hleaf
    | cons head above =>
        obtain ⟨rfl, htail⟩ := List.cons_prefix_cons.mp hprefix
        rw [valueAt_dict_cons, Option.bind_eq_some_iff] at hleaf
        obtain ⟨child, hchild, hleaf⟩ := hleaf
        exact ⟨child, hchild, above, htail, fun heq => hne (heq ▸ rfl), value, hleaf⟩
  · rintro ⟨child, hchild, above, hprefix, hne, value, hleaf⟩
    refine ⟨key :: above, List.cons_prefix_cons.mpr ⟨rfl, hprefix⟩, ?_, value, ?_⟩
    · intro heq
      exact hne (List.cons.inj heq).2
    · rw [valueAt_dict_cons, hchild, Option.bind_some, hleaf]

/-- A key missing from a dictionary is not missing because of a leaf. -/
theorem not_leafAbove_of_missing
    {tree : Tree K V}
    {path : List K}
    {items : Items K V}
    (hdict : tree.valueAt path = some (dict items))
    {key : K}
    (hkey : items.lookup key = none)
    (rest : List K) :
    ¬ LeafAbove tree (path ++ key :: rest) := by
  rintro ⟨above, hprefix, -, value, hleaf⟩
  rcases List.prefix_or_prefix_of_prefix hprefix (List.prefix_append path (key :: rest)) with
    habove | ⟨below, rfl⟩
  · by_cases heq : above = path
    · subst heq
      cases hdict.symm.trans hleaf
    · have hnone : tree.valueAt path = none :=
        LeafAbove.valueAt_eq_none ⟨above, habove, heq, value, hleaf⟩
      cases hdict.symm.trans hnone
  · rw [valueAt_append, hdict, Option.bind_some] at hleaf
    cases below with
    | nil =>
        simp at hleaf
    | cons head below =>
        obtain ⟨rfl, -⟩ := List.cons_prefix_cons.mp ((List.prefix_append_right_inj path).mp hprefix)
        rw [valueAt_dict_cons, hkey] at hleaf
        cases hleaf

theorem valueAt_of_missing
    {tree : Tree K V}
    {path : List K}
    {items : Items K V}
    (hdict : tree.valueAt path = some (dict items))
    {key : K}
    (hkey : items.lookup key = none)
    (rest : List K) :
    tree.valueAt (path ++ key :: rest) = none := by
  rw [valueAt_append, hdict, Option.bind_some, valueAt_dict_cons, hkey, Option.bind_none]

end Tree

/-- A dictionary whose keys are distinct at every level. -/
structure Dict (K : Type u) (V : Type v) where
  items : Items K V
  distinct : (Tree.dict items).Distinct

namespace Dict

variable {K : Type u} {V : Type v}

/-- The dictionary as a value. -/
def tree (d : Dict K V) : Tree K V :=
  .dict d.items

theorem ext_items
    {d e : Dict K V}
    (h : d.items = e.items) :
    d = e := by
  cases d
  cases e
  cases h
  rfl

theorem tree_distinct
    (d : Dict K V) :
    d.tree.Distinct :=
  d.distinct

/-- `{}`. -/
def empty : Dict K V where
  items := []
  distinct := .dict [] List.nodup_nil (by simp)

/-- The value at a path of keys. -/
def valueAt [DecidableEq K] (d : Dict K V) (path : List K) : Option (Tree K V) :=
  d.tree.valueAt path

end Dict

end NestedDict
