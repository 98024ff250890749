import Mathlib.Algebra.Order.Group.Nat
import Mathlib.Algebra.BigOperators.Group.List.Basic
import Mathlib.Algebra.GroupWithZero.Nat

/-!
# Python values and the fields of a schema

A `PyValue` is what a loaded document or a caller's argument may be: the
scalars, lists and dictionaries a schema looks into, and any other object, of
which only its identity and its truth value are seen.

A schema reads such values field by field.  How a scalar is taken for a string,
a truth value or an integer is the schema library's own affair (`Coercions`);
the readers below add what is around it: required, nullable and defaulted
fields, lists and dictionaries.  The only fact needed of them is that what is
read out of a dictionary is smaller than the dictionary.
-/

/-- A Python object. -/
inductive PyValue where
  | none
  | bool (value : Bool)
  | int (value : ℤ)
  | str (value : String)
  | list (items : List PyValue)
  | dict (entries : List (PyValue × PyValue))
  | object (identity : ℕ) (truthy : Bool)

/-- A dictionary whose keys have been read as strings. -/
abbrev PyDict : Type :=
  List (String × PyValue)

namespace PyValue

/-- Truth value of an object, as `if x:` sees it. -/
def truthy : PyValue → Bool
  | none => false
  | bool value => value
  | int value => value != 0
  | str value => value != ""
  | list items => !items.isEmpty
  | dict entries => !entries.isEmpty
  | object _ truthy => truthy

/-- `x is True`. -/
def isTrue : PyValue → Bool
  | bool value => value
  | _ => false

theorem isTrue_iff
    (x : PyValue) :
    x.isTrue = true ↔ x = bool true := by
  cases x <;> simp [isTrue]

/-- Induction through lists; every other value is a leaf. -/
theorem induction_items
    {P : PyValue → Prop}
    (list : ∀ items, (∀ item ∈ items, P item) → P (.list items))
    (other : ∀ value, (∀ items, value ≠ .list items) → P value)
    (value : PyValue) :
    P value := by
  induction hn : sizeOf value using Nat.strong_induction_on generalizing value with
  | _ n ih =>
      subst hn
      cases value with
      | list items =>
          refine list items (fun item hitem => ih _ ?_ item rfl)
          have hlt := List.sizeOf_lt_of_mem hitem
          simp only [PyValue.list.sizeOf_spec]
          omega
      | none | bool _ | int _ | str _ | dict _ | object _ _ =>
          exact other _ (by simp)

/-- The object `True` is truthy. -/
theorem truthy_of_isTrue
    {x : PyValue}
    (h : x.isTrue = true) :
    x.truthy = true := by
  rw [(isTrue_iff x).mp h]
  rfl

/-- The value of an entry under a string key. -/
def entryAt
    (key : String)
    (entry : PyValue × PyValue) :
    Option PyValue :=
  match entry.1 with
  | str k => if k = key then some entry.2 else Option.none
  | _ => Option.none

/-- `value[key]`, if `value` is a dictionary that has the key. -/
def item
    (value : PyValue)
    (key : String) :
    Option PyValue :=
  match value with
  | dict entries => entries.findSome? (entryAt key)
  | _ => Option.none

theorem item_dict
    (entries : List (PyValue × PyValue))
    (key : String) :
    (dict entries).item key = entries.findSome? (entryAt key) := by
  rfl

/-- A dictionary with string keys, as a value. -/
def ofDict (raw : PyDict) : PyValue :=
  dict (raw.map fun entry => (str entry.1, entry.2))

@[simp] theorem item_ofDict
    (raw : PyDict)
    (key : String) :
    (ofDict raw).item key = raw.lookup key := by
  rw [ofDict, item_dict]
  induction raw with
  | nil =>
      rfl
  | cons entry raw ih =>
      obtain ⟨k, v⟩ := entry
      rw [List.map_cons, List.findSome?_cons, List.lookup_cons]
      by_cases hk : k = key
      · subst hk
        simp [entryAt]
      · rw [show (key == k) = false by simpa using Ne.symm hk]
        simpa [entryAt, hk] using ih

end PyValue

/-- How a schema library takes scalars for field values (`none`: it refuses). -/
structure Coercions where
  str : PyValue → Option String
  bool : PyValue → Option Bool
  int : PyValue → Option ℤ

/-- The coercions that take a value of the very type only. -/
def Coercions.exact : Coercions where
  str
    | .str value => some value
    | _ => none
  bool
    | .bool value => some value
    | _ => none
  int
    | .int value => some value
    | _ => none

namespace PyField

variable {α : Type} {β : Type}

/-- A field that must be there. -/
def required
    (read : PyValue → Option α)
    (raw : PyDict)
    (key : String) :
    Option α :=
  (raw.lookup key).bind read

/-- A field with a default. -/
def withDefault
    (default : α)
    (read : PyValue → Option α)
    (raw : PyDict)
    (key : String) :
    Option α :=
  match raw.lookup key with
  | none => some default
  | some value => read value

/-- A value that may also be `None`. -/
def nullable
    (read : PyValue → Option α) :
    PyValue → Option (Option α)
  | .none => some none
  | value => (read value).map some

/-- A field that may be missing or `None`. -/
def optional
    (read : PyValue → Option α)
    (raw : PyDict)
    (key : String) :
    Option (Option α) :=
  withDefault none (nullable read) raw key

/-- A list of values. -/
def listOf
    (read : PyValue → Option α) :
    PyValue → Option (List α)
  | .list items => items.mapM read
  | _ => none

/-- A dictionary, key by key. -/
def dictOf
    (readKey : PyValue → Option α)
    (readValue : PyValue → Option β) :
    PyValue → Option (List (α × β))
  | .dict entries => entries.mapM fun entry => do
      return (← readKey entry.1, ← readValue entry.2)
  | _ => none

/-- A value that must pass a check. -/
def checked
    (p : α → Prop) [DecidablePred p]
    (read : PyValue → Option α)
    (value : PyValue) :
    Option {a // p a} :=
  (read value).bind fun a => if h : p a then some ⟨a, h⟩ else none

theorem checked_eq_some
    {p : α → Prop} [DecidablePred p]
    {read : PyValue → Option α}
    {value : PyValue}
    {a : {a // p a}}
    (h : checked p read value = some a) :
    read value = some a.1 := by
  rw [checked, Option.bind_eq_some_iff] at h
  obtain ⟨a', hread, h⟩ := h
  split_ifs at h with hp
  cases h
  exact hread

theorem required_eq_some_iff
    {read : PyValue → Option α}
    {raw : PyDict}
    {key : String}
    {a : α} :
    required read raw key = some a ↔
      ∃ value, raw.lookup key = some value ∧ read value = some a := by
  exact Option.bind_eq_some_iff

/-- Reading the keys of a dictionary as strings keeps its items. -/
theorem lookup_of_dictOf
    {value : PyValue}
    {raw : PyDict}
    (h : dictOf Coercions.exact.str some value = some raw)
    (key : String) :
    raw.lookup key = value.item key := by
  cases value with
  | dict entries =>
      simp only [dictOf] at h
      rw [PyValue.item_dict]
      induction entries generalizing raw with
      | nil =>
          cases h
          rfl
      | cons entry entries ih =>
          obtain ⟨k, v⟩ := entry
          simp only [List.mapM_cons, Option.bind_eq_bind, Option.bind_eq_some_iff,
            Option.pure_def, Option.some.injEq] at h
          obtain ⟨e, ⟨k', hk', v', rfl, rfl⟩, rest, hrest, rfl⟩ := h
          cases k with
          | str k =>
              cases hk'
              rw [List.lookup_cons, List.findSome?_cons]
              by_cases hk : k' = key
              · subst hk
                simp [PyValue.entryAt]
              · rw [show (key == k') = false by simpa using Ne.symm hk]
                simpa [PyValue.entryAt, hk] using ih hrest
          | _ =>
              cases hk'
  | none | bool _ | int _ | str _ | list _ | object _ _ =>
      simp [dictOf] at h

/-! ## Written fields -/

section Written

variable {γ : Type} {value : γ → PyValue} {fields : List (String × Option γ)} {key : String}

/-- The fields that are not `None`, as items of a dictionary. -/
def present
    (value : γ → PyValue)
    (fields : List (String × Option γ)) :
    PyDict :=
  fields.filterMap fun field => field.2.map fun content => (field.1, value content)

theorem keys_present_sublist
    (value : γ → PyValue)
    (fields : List (String × Option γ)) :
    ((present value fields).map Prod.fst).Sublist (fields.map Prod.fst) := by
  induction fields with
  | nil =>
      exact .slnil
  | cons field fields ih =>
      obtain ⟨key, content⟩ := field
      cases content with
      | none => exact ih.cons key
      | some content => exact ih.cons_cons key

/-- A field that is `None` is not among the items. -/
theorem lookup_present
    (hnodup : (fields.map Prod.fst).Nodup)
    {content : Option γ}
    (hfield : fields.lookup key = some content) :
    (present value fields).lookup key = content.map value := by
  induction fields with
  | nil =>
      simp at hfield
  | cons field fields ih =>
      obtain ⟨key', content'⟩ := field
      obtain ⟨hnew, hnodup'⟩ := List.nodup_cons.mp hnodup
      by_cases hkey : key = key'
      · subst hkey
        obtain rfl : content' = content := by simpa using hfield
        cases content' with
        | none =>
            have hmissing : key ∉ (present value fields).map Prod.fst :=
              fun hmem => hnew ((keys_present_sublist value fields).subset hmem)
            change (present value fields).lookup key = none
            rw [List.lookup_eq_none_iff]
            intro item hitem
            simpa using fun heq : key = item.1 =>
              hmissing (List.mem_map.mpr ⟨item, hitem, heq.symm⟩)
        | some content =>
            simp [present]
      · have hne : (key == key') = false := by simpa using hkey
        rw [List.lookup_cons, hne] at hfield
        have hrest := ih hnodup' hfield
        cases content' with
        | none =>
            exact hrest
        | some content' =>
            change List.lookup key ((key', value content') :: present value fields) = _
            rw [List.lookup_cons, hne]
            exact hrest

variable {read : PyValue → Option α}

theorem required_present
    (hnodup : (fields.map Prod.fst).Nodup)
    {content : γ} {a : α}
    (hfield : fields.lookup key = some (some content))
    (hread : read (value content) = some a) :
    required read (present value fields) key = some a := by
  rw [required, lookup_present hnodup hfield]
  exact hread

theorem withDefault_present
    (hnodup : (fields.map Prod.fst).Nodup)
    {content : γ} {a default : α}
    (hfield : fields.lookup key = some (some content))
    (hread : read (value content) = some a) :
    withDefault default read (present value fields) key = some a := by
  rw [withDefault, lookup_present hnodup hfield]
  exact hread

/-- A field that may be `None` is read as it was written. -/
theorem optional_present
    (hnodup : (fields.map Prod.fst).Nodup)
    {write : α → γ} {a? : Option α}
    (hfield : fields.lookup key = some (a?.map write))
    (hread : ∀ a, read (value (write a)) = some a)
    (hne : ∀ a, value (write a) ≠ .none) :
    optional read (present value fields) key = some a? := by
  rw [optional, withDefault, lookup_present hnodup hfield]
  cases a? with
  | none =>
      rfl
  | some a =>
      have hnullable : nullable read (value (write a)) = (read (value (write a))).map some := by
        have hvalue := hne a
        generalize value (write a) = written at hvalue
        cases written <;> first | rfl | exact absurd rfl hvalue
      change nullable read (value (write a)) = some (some a)
      rw [hnullable, hread]
      rfl

theorem checked_of_eq
    {p : α → Prop} [DecidablePred p]
    {written : PyValue} {a : {a // p a}}
    (hread : read written = some a.1) :
    checked p read written = some a := by
  rw [checked, hread, Option.bind_some, dif_pos a.2]

theorem dictOf_ofDict
    {readKey : PyValue → Option String}
    (hkey : ∀ s, readKey (.str s) = some s)
    (raw : PyDict) :
    dictOf readKey some (.ofDict raw) = some raw := by
  rw [PyValue.ofDict, dictOf, List.mapM_map]
  induction raw with
  | nil =>
      rfl
  | cons entry raw ih =>
      simp only [List.mapM_cons, Function.comp_apply, hkey] at ih ⊢
      rw [ih]
      rfl

theorem listOf_map
    {write : α → PyValue}
    (hread : ∀ a, read (write a) = some a)
    (items : List α) :
    listOf read (.list (items.map write)) = some items := by
  rw [listOf, List.mapM_map]
  induction items with
  | nil =>
      rfl
  | cons a items ih =>
      simp only [List.mapM_cons, Function.comp_apply, hread] at ih ⊢
      rw [ih]
      rfl

end Written

/-! ## Sizes -/

/-- Size of the values of a dictionary. -/
noncomputable def valuesSize (raw : PyDict) : ℕ :=
  (raw.map fun entry => sizeOf entry.2).sum

theorem sizeOf_le_valuesSize
    {raw : PyDict}
    {key : String}
    {value : PyValue}
    (h : raw.lookup key = some value) :
    sizeOf value ≤ valuesSize raw := by
  induction raw with
  | nil =>
      simp at h
  | cons entry raw ih =>
      obtain ⟨k, v⟩ := entry
      rw [List.lookup_cons] at h
      cases hk : key == k with
      | true =>
          simp only [hk] at h
          cases h
          simp [valuesSize]
      | false =>
          simp only [hk] at h
          have hle := ih h
          simp only [valuesSize, List.map_cons, List.sum_cons] at hle ⊢
          omega

/-- The values read out of a dictionary are smaller than it. -/
theorem valuesSize_lt_of_dictOf
    {readKey : PyValue → Option String}
    {value : PyValue}
    {raw : PyDict}
    (h : dictOf readKey some value = some raw) :
    valuesSize raw < sizeOf value := by
  cases value with
  | dict entries =>
      simp only [dictOf] at h
      have hle : valuesSize raw ≤ sizeOf entries := by
        induction entries generalizing raw with
        | nil =>
            simp only [List.mapM_nil, Option.pure_def, Option.some.injEq] at h
            subst h
            simp [valuesSize]
        | cons entry entries ih =>
            obtain ⟨k, v⟩ := entry
            simp only [List.mapM_cons, Option.bind_eq_bind, Option.bind_eq_some_iff,
              Option.pure_def, Option.some.injEq] at h
            obtain ⟨e, ⟨k', _, v', rfl, rfl⟩, rest, hrest, rfl⟩ := h
            have hle := ih hrest
            simp only [valuesSize, List.map_cons, List.sum_cons, List.cons.sizeOf_spec,
              Prod.mk.sizeOf_spec] at hle ⊢
            omega
      simp only [PyValue.dict.sizeOf_spec]
      omega
  | none | bool _ | int _ | str _ | list _ | object _ _ =>
      simp [dictOf] at h

/-- The dictionaries read out of a list are smaller than it, taken together. -/
theorem valuesSize_sum_le_of_listOf
    {readKey : PyValue → Option String}
    {value : PyValue}
    {raws : List PyDict}
    (h : listOf (dictOf readKey some) value = some raws) :
    (raws.map fun raw => valuesSize raw + 1).sum < sizeOf value := by
  cases value with
  | list items =>
      simp only [listOf] at h
      have hle : (raws.map fun raw => valuesSize raw + 1).sum ≤ sizeOf items := by
        induction items generalizing raws with
        | nil =>
            simp only [List.mapM_nil, Option.pure_def, Option.some.injEq] at h
            subst h
            simp
        | cons item items ih =>
            simp only [List.mapM_cons, Option.bind_eq_bind, Option.bind_eq_some_iff,
              Option.pure_def, Option.some.injEq] at h
            obtain ⟨raw, hraw, rest, hrest, rfl⟩ := h
            have hlt := valuesSize_lt_of_dictOf hraw
            have hle := ih hrest
            simp only [List.map_cons, List.sum_cons, List.cons.sizeOf_spec]
            omega
      simp only [PyValue.list.sizeOf_spec]
      omega
  | none | bool _ | int _ | str _ | dict _ | object _ _ =>
      simp [listOf] at h

end PyField
