import YamlAgno.Library.PyString
import Mathlib.Algebra.Order.Group.Nat
import Mathlib.Data.List.Nodup

/-!
# Python values that a document holds

What a loaded document is made of: scalars, lists, tuples, sets, dictionaries, and references
back to a collection that is still open, which is how a document contains itself.  The keys of
a dictionary and the members of a set are scalars.  The type `S` of the strings is open.

Three things about such a value are said by recursion on it: that the keys of its dictionaries
are distinct (`WellFormed`), that it does not contain itself (`circular`), and what its parts
are (`Part`).
-/

namespace PyDocument

open PyString

/--
A scalar.  A float is given by its `repr`, a date and a time by their ISO form, so that two of
them are the same object here exactly if they are written the same.
-/
inductive Scalar (S : Type) where
  | none
  | bool (value : Bool)
  | int (value : ℤ)
  | float (repr : String)
  | str (value : S)
  | bytes (value : List UInt8)
  | date (iso : String)
  | datetime (iso : String)
deriving DecidableEq

/-- A value; `enclosing n` is the collection that is `n` levels up. -/
inductive Value (S : Type) where
  | scalar (value : Scalar S)
  | list (items : List (Value S))
  | tuple (items : List (Value S))
  | set (members : List (Scalar S))
  | dict (entries : List (Scalar S × Value S))
  | enclosing (levels : ℕ)

section Scalars

variable {S : Type}

/-- `type(value).__name__`. -/
def Scalar.typeName : Scalar S → String
  | none => "NoneType"
  | bool _ => "bool"
  | int _ => "int"
  | float _ => "float"
  | str _ => "str"
  | bytes _ => "bytes"
  | date _ => "date"
  | datetime _ => "datetime"

end Scalars

/-- An error of writing a value out or of reading one in. -/
inductive CodecError where
  | typeError (message : String)
  | valueError (message : String)
deriving DecidableEq

/-! ## The decimal text of an integer -/

/-- `int.__repr__` refuses integers of more than 4300 digits. -/
def Printable (n : ℤ) : Prop :=
  (Nat.toDigits 10 n.natAbs).length ≤ 4300

instance (n : ℤ) : Decidable (Printable n) :=
  inferInstanceAs (Decidable (_ ≤ 4300))

/-- The integer, if its text can be computed. -/
def intRepr (n : ℤ) : Except CodecError ℤ :=
  if Printable n then .ok n
  else .error (.valueError ("Exceeds the limit (4300 digits) for integer string conversion; " ++
    "use sys.set_int_max_str_digits() to increase the limit"))

theorem intRepr_eq_ok_iff
    {n m : ℤ} :
    intRepr n = .ok m ↔ n = m ∧ Printable n := by
  unfold intRepr
  split_ifs with h
  · simp [h]
  · simp [h]

/-- The scalar can be written out: every one but an integer that is too long. -/
def Scalar.Printable {S : Type} : Scalar S → Prop
  | int n => PyDocument.Printable n
  | _ => True

namespace Value

variable {S : Type}

/-! ## Induction -/

/-- Induction through the items of lists and tuples and the values of dictionaries. -/
theorem induction_parts
    {P : Value S → Prop}
    (scalar : ∀ value, P (.scalar value))
    (list : ∀ items, (∀ item ∈ items, P item) → P (.list items))
    (tuple : ∀ items, (∀ item ∈ items, P item) → P (.tuple items))
    (set : ∀ members, P (.set members))
    (dict : ∀ entries, (∀ entry ∈ entries, P entry.2) → P (.dict entries))
    (enclosing : ∀ levels, P (.enclosing levels))
    (value : Value S) :
    P value := by
  induction hn : sizeOf value using Nat.strong_induction_on generalizing value with
  | _ n ih =>
      subst hn
      cases value with
      | scalar value => exact scalar value
      | list items =>
          refine list items fun item hitem => ih _ ?_ item rfl
          have hlt := List.sizeOf_lt_of_mem hitem
          simp only [Value.list.sizeOf_spec]
          omega
      | tuple items =>
          refine tuple items fun item hitem => ih _ ?_ item rfl
          have hlt := List.sizeOf_lt_of_mem hitem
          simp only [Value.tuple.sizeOf_spec]
          omega
      | set members => exact set members
      | dict entries =>
          refine dict entries fun entry hentry => ih _ ?_ entry.2 rfl
          have hlt := List.sizeOf_lt_of_mem hentry
          obtain ⟨key, value⟩ := entry
          simp only [Prod.mk.sizeOf_spec] at hlt
          simp only [Value.dict.sizeOf_spec]
          omega
      | enclosing levels => exact enclosing levels

/-! ## Values that contain themselves -/

mutual

/-- The value refers to a collection around it. -/
def circular : Value S → Bool
  | scalar _ => false
  | list items => circularItems items
  | tuple items => circularItems items
  | set _ => false
  | dict entries => circularEntries entries
  | enclosing _ => true

def circularItems : List (Value S) → Bool
  | [] => false
  | item :: items => circular item || circularItems items

def circularEntries : List (Scalar S × Value S) → Bool
  | [] => false
  | (_, value) :: entries => circular value || circularEntries entries

end

theorem circularItems_eq
    (items : List (Value S)) :
    circularItems items = items.any circular := by
  induction items with
  | nil => rfl
  | cons item items ih => rw [circularItems, ih, List.any_cons]

theorem circularEntries_eq
    (entries : List (Scalar S × Value S)) :
    circularEntries entries = entries.any fun entry => circular entry.2 := by
  induction entries with
  | nil => rfl
  | cons entry entries ih => rw [circularEntries, ih, List.any_cons]

/-! ## Distinct keys -/

/-- The members of each set and the keys of each dictionary are distinct, at every depth. -/
inductive WellFormed : Value S → Prop where
  | scalar (value : Scalar S) : WellFormed (.scalar value)
  | list {items : List (Value S)} (h : ∀ item ∈ items, WellFormed item) : WellFormed (.list items)
  | tuple {items : List (Value S)} (h : ∀ item ∈ items, WellFormed item) : WellFormed (.tuple items)
  | set {members : List (Scalar S)} (h : members.Nodup) : WellFormed (.set members)
  | dict
      {entries : List (Scalar S × Value S)}
      (keys : (entries.map Prod.fst).Nodup)
      (values : ∀ entry ∈ entries, WellFormed entry.2) :
      WellFormed (.dict entries)
  | enclosing (levels : ℕ) : WellFormed (.enclosing levels)

/-! ## Parts -/

/-- The value `part` stands somewhere in a value, or is it. -/
inductive Part (part : Value S) : Value S → Prop where
  | self : Part part part
  | list {items : List (Value S)} {item : Value S} (h : item ∈ items) (rest : Part part item) :
      Part part (.list items)
  | tuple {items : List (Value S)} {item : Value S} (h : item ∈ items) (rest : Part part item) :
      Part part (.tuple items)
  | set {members : List (Scalar S)} {member : Scalar S} (h : member ∈ members)
      (rest : Part part (.scalar member)) :
      Part part (.set members)
  | key
      {entries : List (Scalar S × Value S)}
      {entry : Scalar S × Value S}
      (h : entry ∈ entries)
      (rest : Part part (.scalar entry.1)) :
      Part part (.dict entries)
  | dict
      {entries : List (Scalar S × Value S)}
      {entry : Scalar S × Value S}
      (h : entry ∈ entries)
      (rest : Part part entry.2) :
      Part part (.dict entries)

/-- A scalar has no part but itself. -/
theorem Part.of_scalar
    {part : Value S}
    {value : Scalar S}
    (h : Part part (.scalar value)) :
    part = .scalar value := by
  cases h
  rfl

/-- A value contains itself if it has a reference to a collection around it. -/
theorem circular_of_part
    {value : Value S}
    {levels : ℕ}
    (h : Part (.enclosing levels) value) :
    value.circular = true := by
  induction h with
  | self => rfl
  | list hitem _ ih | tuple hitem _ ih =>
      rw [circular, circularItems_eq, List.any_eq_true]
      exact ⟨_, hitem, ih⟩
  | set _ hpart _ | key _ hpart _ => cases hpart.of_scalar
  | dict hentry _ ih =>
      rw [circular, circularEntries_eq, List.any_eq_true]
      exact ⟨_, hentry, ih⟩

end Value

end PyDocument
