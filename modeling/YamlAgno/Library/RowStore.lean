import Mathlib.Data.List.Nodup
import Mathlib.Data.List.Perm.Subperm

/-!
# Stores of rows

A table is the list of its rows in the order of insertion.  A query keeps the rows
that meet all its filters, up to the page limit; rows are inserted last and deleted
by id.

A query for a single row does not depend on the order of the table when at most one
row meets it (`find?_perm_of_unique`).
-/

namespace RowStore

universe u

variable {Row : Type u}

/-- `find_all(filters=..., limit=...)`, given what meets the filters. -/
def findAll (meets : Row → Bool) (limit : ℕ) (rows : List Row) : List Row :=
  (rows.filter meets).take limit

/-- `insert(row)`. -/
def insert (row : Row) (rows : List Row) : List Row :=
  rows ++ [row]

/-- A table that fits the page is queried in full. -/
theorem findAll_of_length_le
    {limit : ℕ} {rows : List Row}
    (h : rows.length ≤ limit) (meets : Row → Bool) :
    findAll meets limit rows = rows.filter meets :=
  List.take_of_length_le (Nat.le_trans (List.length_filter_le meets rows) h)

/-- A query misses nothing exactly when what meets it fits the page. -/
theorem subset_findAll_iff
    {meets : Row → Bool} {limit : ℕ} {rows : List Row}
    (hnodup : (rows.filter meets).Nodup) :
    (∀ row ∈ rows, meets row → row ∈ findAll meets limit rows) ↔
      (rows.filter meets).length ≤ limit := by
  constructor
  · intro hall
    have hsub : rows.filter meets ⊆ findAll meets limit rows := fun row hrow =>
      hall row (List.mem_of_mem_filter hrow) (List.mem_filter.mp hrow).2
    have hle : (rows.filter meets).length ≤ (findAll meets limit rows).length :=
      (hnodup.subperm hsub).length_le
    exact Nat.le_trans hle (List.length_take_le limit _)
  · intro hle row hrow hmeets
    rw [findAll, List.take_of_length_le hle]
    exact List.mem_filter.mpr ⟨hrow, hmeets⟩

/-- The first row of a query is the first row that meets it. -/
theorem head?_findAll
    (meets : Row → Bool) {limit : ℕ} (hlimit : 0 < limit) (rows : List Row) :
    (findAll meets limit rows).head? = rows.find? meets := by
  rw [findAll, List.head?_take, if_neg (by omega), List.head?_filter]

/-- What at most one row meets is found in any order of the rows. -/
theorem find?_perm_of_unique
    (meets : Row → Bool) {rows rows' : List Row}
    (hperm : rows.Perm rows')
    (hunique : ∀ row ∈ rows, ∀ row' ∈ rows, meets row → meets row' → row = row') :
    rows.find? meets = rows'.find? meets := by
  cases h : rows.find? meets with
  | none =>
      rw [List.find?_eq_none] at h
      exact (List.find?_eq_none.mpr (fun row hrow => h row (hperm.mem_iff.mpr hrow))).symm
  | some row =>
      have hrow := List.mem_of_find?_eq_some h
      have hmeets := List.find?_some h
      cases h' : rows'.find? meets with
      | none =>
          rw [List.find?_eq_none] at h'
          exact absurd hmeets (h' row (hperm.mem_iff.mp hrow))
      | some row' =>
          have hrow' := hperm.mem_iff.mpr (List.mem_of_find?_eq_some h')
          rw [hunique row hrow row' hrow' hmeets (List.find?_some h')]

/-! ## Deletion by id -/

section Ids

variable {Id : Type*} [DecidableEq Id] (idOf : Row → Id)

/-- `delete(id)`. -/
def deleteById (id : Id) (rows : List Row) : List Row :=
  rows.filter fun row => idOf row ≠ id

variable {idOf}

/-- Deleting a row by its id leaves all rows that the row is not one of. -/
theorem filter_deleteById_of_not
    {rows : List Row} (hids : (rows.map idOf).Nodup)
    {row : Row} (hrow : row ∈ rows)
    {meets : Row → Bool} (hnot : meets row = false) :
    (deleteById idOf (idOf row) rows).filter meets = rows.filter meets := by
  rw [deleteById, List.filter_filter]
  refine List.filter_congr (fun other hother => ?_)
  by_cases hid : idOf other = idOf row
  · have hsame : other = row := List.inj_on_of_nodup_map hids hother hrow hid
    simp [hsame, hnot]
  · simp [hid]

/-- Deletion and selection commute. -/
theorem filter_deleteById
    (id : Id) (rows : List Row) (meets : Row → Bool) :
    (deleteById idOf id rows).filter meets = deleteById idOf id (rows.filter meets) := by
  simp only [deleteById, List.filter_filter, Bool.and_comm]

/-- Deleting the first row that meets a query leaves the others that do. -/
theorem filter_deleteById_first
    {rows rest : List Row} (hids : (rows.map idOf).Nodup)
    {row : Row} {meets : Row → Bool} (hfirst : rows.filter meets = row :: rest) :
    (deleteById idOf (idOf row) rows).filter meets = rest := by
  have hnot : idOf row ∉ rest.map idOf := by
    have hfound : ((rows.filter meets).map idOf).Nodup :=
      hids.sublist (List.filter_sublist.map idOf)
    rw [hfirst, List.map_cons] at hfound
    exact (List.nodup_cons.mp hfound).1
  rw [filter_deleteById, hfirst, deleteById, List.filter_cons_of_neg (by simp)]
  refine List.filter_eq_self.mpr (fun other hother => ?_)
  have hne : idOf other ≠ idOf row := fun heq =>
    hnot (heq ▸ List.mem_map_of_mem hother)
  simpa using hne

/-- Deletion follows a change of ids that keeps the ids of the table apart. -/
theorem deleteById_map
    (change : Row → Row) (rename : Id → Id)
    (hchange : ∀ row, idOf (change row) = rename (idOf row))
    {id : Id} {rows : List Row}
    (hapart : ∀ row ∈ rows, rename (idOf row) = rename id → idOf row = id) :
    deleteById idOf (rename id) (rows.map change) = (deleteById idOf id rows).map change := by
  simp only [deleteById, List.filter_map]
  congr 1
  refine List.filter_congr (fun row hrow => ?_)
  simp only [Function.comp_apply, hchange, ne_eq, decide_not]
  have hiff : rename (idOf row) = rename id ↔ idOf row = id :=
    ⟨hapart row hrow, fun h => by rw [h]⟩
  simp only [hiff]

theorem nodup_deleteById
    {rows : List Row} (h : (rows.map idOf).Nodup) (id : Id) :
    ((deleteById idOf id rows).map idOf).Nodup :=
  h.sublist (List.filter_sublist.map idOf)

end Ids

end RowStore
