import YamlAgno.Library.JsonText
import Mathlib.Data.List.Sort
import Mathlib.Data.String.Basic

/-!
# JSON with sorted keys

`json.dumps(tree, sort_keys=True)`: the members of every object are written in the order of their
names.

Two trees are the same (`Same`) if they agree at every scalar, item by item in their arrays and
name by name in their objects, wherever a member stands.  Sorting the names brings exactly the
trees that are the same into one form (`sortKeys_eq_iff`), and their texts are equal
(`dumpsSorted_eq_iff`).
-/

namespace PyDocument
namespace Json

open Fallible

/-! ## The order of the members -/

/-- Members in the order of their names. -/
def byName {α : Type} (members : List (String × α)) : List (String × α) :=
  members.insertionSort fun a b => a.1 ≤ b.1

theorem byName_perm
    {α : Type}
    (members : List (String × α)) :
    (byName members).Perm members :=
  List.perm_insertionSort _ members

/-- Members of distinct names are sorted into one list exactly if they are the same members. -/
theorem byName_eq_iff
    {α : Type}
    {members members' : List (String × α)}
    (names : (members.map Prod.fst).Nodup) :
    byName members = byName members' ↔ members.Perm members' := by
  constructor
  · intro h
    exact (byName_perm members).symm.trans (h ▸ byName_perm members')
  · intro h
    have hperm : (byName members).Perm (byName members') :=
      ((byName_perm members).trans h).trans (byName_perm members').symm
    have hsorted : ∀ members : List (String × α),
        (byName members).Pairwise fun a b => a.1 ≤ b.1 := by
      intro members
      have : IsTrans (String × α) fun a b => a.1 ≤ b.1 := ⟨fun _ _ _ => le_trans⟩
      have : Std.Total fun a b : String × α => a.1 ≤ b.1 := ⟨fun a b => le_total a.1 b.1⟩
      exact List.pairwise_insertionSort _ members
    refine hperm.eq_of_pairwise ?_ (hsorted members) (hsorted members')
    intro a b ha hb hab hba
    have ha : a ∈ members := (byName_perm members).mem_iff.mp ha
    have hb : b ∈ members := ((byName_perm members').trans h.symm).mem_iff.mp hb
    exact List.inj_on_of_nodup_map names ha hb (le_antisymm hab hba)

/-- Members of one name stand at one place, where the names are the same. -/
theorem mem_zip_of_fst_eq
    {α : Type}
    {members members' : List (String × α)}
    (names : (members.map Prod.fst).Nodup)
    (hnames : members.map Prod.fst = members'.map Prod.fst)
    {m m' : String × α}
    (hm : m ∈ members)
    (hm' : m' ∈ members')
    (hname : m.1 = m'.1) :
    (m, m') ∈ members.zip members' := by
  induction members generalizing members' with
  | nil => cases hm
  | cons first rest ih =>
      cases members' with
      | nil => cases hm'
      | cons first' rest' =>
          rw [List.map_cons, List.nodup_cons] at names
          rw [List.map_cons, List.map_cons, List.cons.injEq] at hnames
          rw [List.zip_cons_cons, List.mem_cons]
          rcases List.mem_cons.mp hm with rfl | hm
          · rcases List.mem_cons.mp hm' with rfl | hm'
            · exact .inl rfl
            · exact absurd (hnames.2 ▸ hname ▸ List.mem_map_of_mem hm') names.1
          · rcases List.mem_cons.mp hm' with rfl | hm'
            · exact absurd (hnames.1 ▸ hname ▸ List.mem_map_of_mem hm) names.1
            · exact .inr (ih names.2 hnames.2 hm hm')

section Values

variable {α β : Type} {f : α → β} {members members' : List (String × α)}

theorem names_map_values
    (f : α → β)
    (members : List (String × α)) :
    (members.map fun m => (m.1, f m.2)).map Prod.fst = members.map Prod.fst := by
  rw [List.map_map]
  rfl

/-- Members that are the same but for their order have the same value under each name. -/
theorem value_eq_of_perm
    (names : (members.map Prod.fst).Nodup)
    (h : (members.map fun m => (m.1, f m.2)).Perm (members'.map fun m => (m.1, f m.2)))
    {m m' : String × α}
    (hm : m ∈ members)
    (hm' : m' ∈ members')
    (hname : m.1 = m'.1) :
    f m.2 = f m'.2 := by
  -- The member of that name in the other list is one of this list.
  have hmem : (m'.1, f m'.2) ∈ members.map fun m => (m.1, f m.2) :=
    h.mem_iff.mpr (List.mem_map_of_mem hm')
  obtain ⟨m'', hm'', heq⟩ := List.mem_map.mp hmem
  obtain rfl := List.inj_on_of_nodup_map names hm hm''
    (hname.trans (congrArg Prod.fst heq).symm)
  exact congrArg Prod.snd heq

/-- Members with the same names and the same value under each are the same but for their
order. -/
theorem perm_of_value_eq
    (hnodup : (members.map Prod.fst).Nodup)
    (hnodup' : (members'.map Prod.fst).Nodup)
    (names : ∀ name, name ∈ members.map Prod.fst ↔ name ∈ members'.map Prod.fst)
    (h : ∀ m ∈ members, ∀ m' ∈ members', m.1 = m'.1 → f m.2 = f m'.2) :
    (members.map fun m => (m.1, f m.2)).Perm (members'.map fun m => (m.1, f m.2)) := by
  rw [List.perm_ext_iff_of_nodup (.of_map Prod.fst (by rwa [names_map_values]))
    (.of_map Prod.fst (by rwa [names_map_values]))]
  intro member
  rw [List.mem_map, List.mem_map]
  constructor
  · rintro ⟨m, hm, rfl⟩
    obtain ⟨m', hm', hname⟩ := List.mem_map.mp ((names m.1).mp (List.mem_map_of_mem hm))
    exact ⟨m', hm', by rw [hname, h m hm m' hm' hname.symm]⟩
  · rintro ⟨m', hm', rfl⟩
    obtain ⟨m, hm, hname⟩ := List.mem_map.mp ((names m'.1).mpr (List.mem_map_of_mem hm'))
    exact ⟨m, hm, by rw [hname, h m hm m' hm' hname]⟩

end Values

mutual

/-- The tree with the members of its objects in the order of their names, at every depth. -/
def sortKeys : Json → Json
  | .array items => .array (sortKeysItems items)
  | .object members => .object (byName (sortKeysMembers members))
  | j => j

def sortKeysItems : List Json → List Json
  | [] => []
  | item :: items => sortKeys item :: sortKeysItems items

def sortKeysMembers : List (String × Json) → List (String × Json)
  | [] => []
  | (name, member) :: members => (name, sortKeys member) :: sortKeysMembers members

end

theorem sortKeysItems_eq
    (items : List Json) :
    sortKeysItems items = items.map sortKeys := by
  induction items with
  | nil => rfl
  | cons item items ih => rw [sortKeysItems, ih, List.map_cons]

theorem sortKeysMembers_eq
    (members : List (String × Json)) :
    sortKeysMembers members = members.map fun member => (member.1, sortKeys member.2) := by
  induction members with
  | nil => rfl
  | cons member members ih =>
      obtain ⟨name, member⟩ := member
      rw [sortKeysMembers, ih, List.map_cons]

theorem sortKeys_array
    (items : List Json) :
    sortKeys (.array items) = .array (items.map sortKeys) := by
  rw [sortKeys, sortKeysItems_eq]

theorem sortKeys_object
    (members : List (String × Json)) :
    sortKeys (.object members) =
      .object (byName (members.map fun member => (member.1, sortKeys member.2))) := by
  rw [sortKeys, sortKeysMembers_eq]

theorem mem_sorted_members
    {members : List (String × Json)}
    {member : String × Json} :
    member ∈ byName (members.map fun member => (member.1, sortKeys member.2)) ↔
      ∃ m ∈ members, (m.1, sortKeys m.2) = member := by
  rw [(byName_perm _).mem_iff, List.mem_map]

theorem valid_sortKeys
    {j : Json}
    (h : Valid j) :
    Valid (sortKeys j) := by
  induction h with
  | null => exact .null
  | bool value => exact .bool value
  | int value => exact .int value
  | float h => exact .float h
  | string value => exact .string value
  | array _ ih =>
      rw [sortKeys_array]
      refine .array fun sorted hsorted => ?_
      obtain ⟨item, hitem, rfl⟩ := List.mem_map.mp hsorted
      exact ih item hitem
  | @object members names _ ih =>
      rw [sortKeys_object]
      refine .object ?_ fun sorted hsorted => ?_
      · rw [((byName_perm _).map Prod.fst).nodup_iff, names_map_values]
        exact names
      · obtain ⟨member, hmember, rfl⟩ := mem_sorted_members.mp hsorted
        exact ih member hmember

/-! ## Trees that are the same -/

/-- The tree is neither an array nor an object. -/
def IsScalar : Json → Prop
  | .array _ | .object _ => False
  | _ => True

/-- Two trees are the same, as far as scalars that `eq` relates are. -/
inductive Same (eq : Json → Json → Prop) : Json → Json → Prop where
  | scalar
      {j j' : Json}
      (hj : IsScalar j)
      (hj' : IsScalar j')
      (h : eq j j') :
      Same eq j j'
  | array
      {items items' : List Json}
      (length : items.length = items'.length)
      (h : ∀ pair ∈ items.zip items', Same eq pair.1 pair.2) :
      Same eq (.array items) (.array items')
  | object
      {members members' : List (String × Json)}
      (names : ∀ name, name ∈ members.map Prod.fst ↔ name ∈ members'.map Prod.fst)
      (h : ∀ m ∈ members, ∀ m' ∈ members', m.1 = m'.1 → Same eq m.2 m'.2) :
      Same eq (.object members) (.object members')

namespace Same

variable {eq : Json → Json → Prop}

theorem related
    {j j' : Json}
    (hj : IsScalar j)
    (h : Same eq j j') :
    eq j j' := by
  cases h with
  | scalar _ _ h => exact h
  | array _ _ => cases hj
  | object _ _ => cases hj

theorem items
    {items items' : List Json}
    (h : Same eq (.array items) (.array items')) :
    ∀ pair ∈ items.zip items', Same eq pair.1 pair.2 := by
  cases h with
  | scalar hj _ _ => cases hj
  | array _ h => exact h

theorem members
    {members members' : List (String × Json)}
    (h : Same eq (.object members) (.object members')) :
    ∀ m ∈ members, ∀ m' ∈ members', m.1 = m'.1 → Same eq m.2 m'.2 := by
  cases h with
  | scalar hj _ _ => cases hj
  | object _ h => exact h

/-- Objects with the same distinct names in one order are compared member by member. -/
theorem object_of_zip
    {members members' : List (String × Json)}
    (names : (members.map Prod.fst).Nodup)
    (hnames : members.map Prod.fst = members'.map Prod.fst)
    (h : ∀ pair ∈ members.zip members', Same eq pair.1.2 pair.2.2) :
    Same eq (.object members) (.object members') :=
  .object (fun name => by rw [hnames]) fun m hm m' hm' hname =>
    h (m, m') (mem_zip_of_fst_eq names hnames hm hm' hname)

end Same

/-- Lists have one sorted form exactly if they have item by item. -/
theorem map_sortKeys_eq_iff
    {items items' : List Json} :
    items.map sortKeys = items'.map sortKeys ↔
      items.length = items'.length ∧
        ∀ pair ∈ items.zip items', sortKeys pair.1 = sortKeys pair.2 := by
  rw [← List.forall₂_eq_eq_eq, List.forall₂_map_left_iff, List.forall₂_map_right_iff,
    List.forall₂_iff_zip]
  exact and_congr_right fun _ => ⟨fun h pair hpair => h hpair, fun h _ _ hpair => h _ hpair⟩

/-- A scalar is the sorted form of itself only. -/
theorem same_of_scalar
    {j j' : Json}
    (hj : IsScalar j)
    (h : j = sortKeys j') :
    Same (· = ·) j j' := by
  cases j' with
  | array items =>
      rw [sortKeys_array] at h
      subst h
      cases hj
  | object members =>
      rw [sortKeys_object] at h
      subst h
      cases hj
  | _ =>
      obtain rfl : j = _ := h
      exact .scalar hj hj rfl

theorem same_of_sortKeys_eq
    {j j' : Json}
    (hj : Valid j)
    (h : sortKeys j = sortKeys j') :
    Same (· = ·) j j' := by
  induction hj generalizing j' with
  | null => exact same_of_scalar trivial h
  | bool value => exact same_of_scalar trivial h
  | int value => exact same_of_scalar trivial h
  | float _ => exact same_of_scalar trivial h
  | string value => exact same_of_scalar trivial h
  | array _ ih =>
      rw [sortKeys_array] at h
      cases j' with
      | array items' =>
          rw [sortKeys_array, JsonTree.array.injEq, map_sortKeys_eq_iff] at h
          exact .array h.1 fun pair hpair =>
            ih pair.1 (List.of_mem_zip hpair).1 (h.2 pair hpair)
      | object members' =>
          rw [sortKeys_object] at h
          cases h
      | _ => cases h
  | @object members names _ ih =>
      rw [sortKeys_object] at h
      cases j' with
      | array items' =>
          rw [sortKeys_array] at h
          cases h
      | object members' =>
          rw [sortKeys_object, JsonTree.object.injEq,
            byName_eq_iff (by rwa [names_map_values])] at h
          refine .object (fun name => ?_) fun m hm m' hm' hname =>
            ih m hm (value_eq_of_perm names h hm hm' hname)
          have hnames := (h.map Prod.fst).mem_iff (a := name)
          rwa [names_map_values, names_map_values] at hnames
      | _ => cases h

theorem sortKeys_eq_of_same
    {j j' : Json}
    (hj : Valid j)
    (hj' : Valid j')
    (h : Same (· = ·) j j') :
    sortKeys j = sortKeys j' := by
  induction h with
  | scalar _ _ h => rw [h]
  | array length _ ih =>
      cases hj with
      | array hitems =>
          cases hj' with
          | array hitems' =>
              rw [sortKeys_array, sortKeys_array, map_sortKeys_eq_iff.mpr]
              refine ⟨length, fun pair hpair => ?_⟩
              have hmem := List.of_mem_zip hpair
              exact ih pair hpair (hitems _ hmem.1) (hitems' _ hmem.2)
  | @object members members' names _ ih =>
      cases hj with
      | object hnames hmembers =>
          cases hj' with
          | object hnames' hmembers' =>
              have hvalues : ∀ m ∈ members, ∀ m' ∈ members', m.1 = m'.1 →
                  m.2.sortKeys = m'.2.sortKeys := fun m hm m' hm' hname =>
                ih m hm m' hm' hname (hmembers m hm) (hmembers' m' hm')
              rw [sortKeys_object, sortKeys_object,
                (byName_eq_iff (by rwa [names_map_values])).mpr
                  (perm_of_value_eq hnames hnames' names hvalues)]

/-- Sorting the names brings two trees into one form exactly if they are the same. -/
theorem sortKeys_eq_iff
    {j j' : Json}
    (hj : Valid j)
    (hj' : Valid j') :
    sortKeys j = sortKeys j' ↔ Same (· = ·) j j' :=
  ⟨same_of_sortKeys_eq hj, sortKeys_eq_of_same hj hj'⟩

/-! ## Writing -/

mutual

/-- The integers in a tree. -/
def ints : Json → List ℤ
  | .int n => [n]
  | .array items => intsItems items
  | .object members => intsMembers members
  | _ => []

def intsItems : List Json → List ℤ
  | [] => []
  | item :: items => ints item ++ intsItems items

def intsMembers : List (String × Json) → List ℤ
  | [] => []
  | (_, member) :: members => ints member ++ intsMembers members

end

theorem ints_array
    (items : List Json) :
    ints (.array items) = items.flatMap ints := by
  rw [ints]
  induction items with
  | nil => rfl
  | cons item items ih => rw [intsItems, ih, List.flatMap_cons]

theorem ints_object
    (members : List (String × Json)) :
    ints (.object members) = members.flatMap fun member => ints member.2 := by
  rw [ints]
  induction members with
  | nil => rfl
  | cons member members ih =>
      obtain ⟨name, member⟩ := member
      rw [intsMembers, ih, List.flatMap_cons]

theorem mem_ints_sortKeys
    {j : Json}
    (hj : Valid j)
    (n : ℤ) :
    n ∈ ints (sortKeys j) ↔ n ∈ ints j := by
  induction hj with
  | array _ ih =>
      rw [sortKeys_array, ints_array, ints_array, List.mem_flatMap, List.mem_flatMap]
      constructor
      · rintro ⟨sorted, hsorted, hn⟩
        obtain ⟨item, hitem, rfl⟩ := List.mem_map.mp hsorted
        exact ⟨item, hitem, (ih item hitem).mp hn⟩
      · rintro ⟨item, hitem, hn⟩
        exact ⟨item.sortKeys, List.mem_map_of_mem hitem, (ih item hitem).mpr hn⟩
  | object _ _ ih =>
      rw [sortKeys_object, ints_object, ints_object, List.mem_flatMap, List.mem_flatMap]
      constructor
      · rintro ⟨sorted, hsorted, hn⟩
        obtain ⟨member, hmember, rfl⟩ := mem_sorted_members.mp hsorted
        exact ⟨member, hmember, (ih member hmember).mp hn⟩
      · rintro ⟨member, hmember, hn⟩
        exact ⟨_, mem_sorted_members.mpr ⟨member, hmember, rfl⟩, (ih member hmember).mpr hn⟩
  | _ => rfl

/-- `json.dumps(tree, sort_keys=True, separators=(",", ":"))`. -/
def dumpsSorted (j : Json) : Except CodecError (List Char) := do
  let sorted := sortKeys j
  -- Every integer is written by `int.__repr__`.
  let _ ← (ints sorted).mapM intRepr
  return text sorted

theorem dumpsSorted_eq_ok_iff
    {j : Json}
    (hj : Valid j)
    {chars : List Char} :
    dumpsSorted j = .ok chars ↔ (∀ n ∈ ints j, Printable n) ∧ text (sortKeys j) = chars := by
  have hprintable : (∃ ns, (ints (sortKeys j)).mapM intRepr = .ok ns) ↔
      ∀ n ∈ ints j, Printable n := by
    rw [← errorOf?_eq_none_iff, errorOf?_mapM, List.findSome?_eq_none_iff]
    refine forall_congr' fun n => ?_
    rw [mem_ints_sortKeys hj, errorOf?_eq_none_iff]
    refine imp_congr_right fun _ => ⟨?_, fun h => ⟨n, intRepr_eq_ok_iff.mpr ⟨rfl, h⟩⟩⟩
    rintro ⟨m, hm⟩
    exact (intRepr_eq_ok_iff.mp hm).2
  rw [dumpsSorted, bind_eq_ok_iff, ← hprintable]
  constructor
  · rintro ⟨ns, hns, htext⟩
    exact ⟨⟨ns, hns⟩, Except.ok.inj htext⟩
  · rintro ⟨⟨ns, hns⟩, rfl⟩
    exact ⟨ns, hns, rfl⟩

/-- Two trees are written alike exactly if they are the same, and their integers can be
written. -/
theorem dumpsSorted_eq_iff
    {j j' : Json}
    (hj : Valid j)
    (hj' : Valid j') :
    (∃ chars, dumpsSorted j = .ok chars ∧ dumpsSorted j' = .ok chars) ↔
      Same (· = ·) j j' ∧ ∀ n ∈ ints j, Printable n := by
  rw [← sortKeys_eq_iff hj hj']
  constructor
  · rintro ⟨chars, h, h'⟩
    obtain ⟨hprintable, rfl⟩ := (dumpsSorted_eq_ok_iff hj).mp h
    have htext := ((dumpsSorted_eq_ok_iff hj').mp h').2
    exact ⟨text_injective (valid_sortKeys hj) (valid_sortKeys hj') htext.symm, hprintable⟩
  · rintro ⟨hsorted, hprintable⟩
    have h := (dumpsSorted_eq_ok_iff hj).mpr ⟨hprintable, rfl⟩
    have heq : dumpsSorted j = dumpsSorted j' := by rw [dumpsSorted, dumpsSorted, hsorted]
    exact ⟨_, h, heq ▸ h⟩

end Json
end PyDocument
