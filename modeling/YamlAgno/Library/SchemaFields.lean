import YamlAgno.Library.JsonFormat

/-!
# The fields of a schema

A schema library takes a value for a field according to the annotation of the field, and writes
the field out as a plain value again.  A string is taken for a string, surrogates included, and
an integer for an integer; what else is taken for them is the library's own affair (`LaxMode`).
A string whose length is checked has to be free of surrogates (`readText`).  What is in an
opaque dictionary is kept as it is.

A reader of a field undoes the writer of the same annotation (`Undoes`).  A property that passes
from a value to its parts passes to all that a reader holds of the value (`Preserves`), and one
that passes from the parts to the value passes to what a writer makes of them (`Writes`).
-/

namespace PyDocument

open PyString Value

variable {S : Type}

/-- How the library takes other values for strings, which are texts then, and for integers
(`none`: it refuses). -/
structure LaxMode (S : Type) where
  str : Value S → Option String
  int : Value S → Option ℤ

/-- The mode that takes nothing else. -/
def LaxMode.strict : LaxMode S where
  str _ := none
  int _ := none

/-- A dictionary with string keys. -/
structure StrDict (S : Type) where
  entries : List (S × Value S)
  nodup : (entries.map Prod.fst).Nodup

def StrDict.empty : StrDict S := ⟨[], List.nodup_nil⟩

/-! ## Writing fields -/

/-- The entries of a dictionary with string keys. -/
def ofEntries (entries : List (S × Value S)) : List (Scalar S × Value S) :=
  entries.map fun entry => (.str entry.1, entry.2)

/-- The entries of the fields of a schema. -/
def ofFields [StringType S] (fields : List (String × Value S)) : List (Scalar S × Value S) :=
  ofEntries (fields.map fun field => (ofString field.1, field.2))

theorem ofFields_cons
    [StringType S]
    (field : String × Value S)
    (fields : List (String × Value S)) :
    ofFields (field :: fields) = (.str (ofString field.1), field.2) :: ofFields fields := by
  rfl

section Writers

variable {α : Type}

def dumpStr (s : S) : Value S :=
  .scalar (.str s)

def dumpText [StringType S] (text : String) : Value S :=
  .scalar (.str (ofString text))

def dumpInt (n : ℤ) : Value S :=
  .scalar (.int n)

def dumpNullable (dump : α → Value S) : Option α → Value S
  | none => .scalar .none
  | some a => dump a

def dumpList (dump : α → Value S) (items : List α) : Value S :=
  .list (items.map dump)

def dumpDict (d : StrDict S) : Value S :=
  .dict (ofEntries d.entries)

end Writers

/-! ## Reading fields -/

section Readers

variable {α : Type} [DecidableEq S] [StringType S] (lax : LaxMode S)

/-- `str`. -/
def readStr : Value S → Option S
  | .scalar (.str s) => some s
  | value => (lax.str value).map ofString

/-- `str` with a constraint on its length. -/
def readText (value : Value S) : Option String :=
  (readStr lax value).bind text?

/-- `int`. -/
def readInt : Value S → Option ℤ
  | .scalar (.int n) => some n
  | value => lax.int value

/-- `X | None`. -/
def readNullable (read : Value S → Option α) : Value S → Option (Option α)
  | .scalar .none => some none
  | value => (read value).map some

/-- A value that must pass a check. -/
def readChecked
    (p : α → Prop) [DecidablePred p]
    (read : Value S → Option α)
    (value : Value S) :
    Option {a // p a} :=
  (read value).bind fun a => if h : p a then some ⟨a, h⟩ else none

/-- The items of what is taken for a list. -/
def listItems : Value S → Option (List (Value S))
  | .list items => some items
  | .tuple items => some items
  | .set members => some (members.map Value.scalar)
  | _ => none

/-- `list[X]`. -/
def readList (read : Value S → Option α) (value : Value S) : Option (List α) := do
  let items ← listItems value
  items.mapM read

/-- An entry of a `dict[str, Any]`. -/
def readEntry (entry : Scalar S × Value S) : Option (S × Value S) := do
  return (← readStr lax (.scalar entry.1), entry.2)

/-- `dict[str, Any]`. -/
def readDict : Value S → Option (StrDict S)
  | .dict entries => do
      let pairs ← entries.mapM (readEntry lax)
      return ⟨OrderedDict.ofPairs pairs, OrderedDict.nodup_keys_ofPairs pairs⟩
  | _ => none

/-- A field that must be there. -/
def required
    (read : Value S → Option α)
    (entries : List (Scalar S × Value S))
    (key : String) :
    Option α :=
  (entries.lookup (.str (ofString key))).bind read

/-- A field with a default, which is not checked. -/
def withDefault
    (default : α)
    (read : Value S → Option α)
    (entries : List (Scalar S × Value S))
    (key : String) :
    Option α :=
  match entries.lookup (.str (ofString key)) with
  | none => some default
  | some value => read value

end Readers

/-! ## Readers undo writers -/

/-- What is written is read as it was. -/
def Undoes {α : Type} (read : Value S → Option α) (dump : α → Value S) : Prop :=
  ∀ a, read (dump a) = some a

namespace Undoes

variable {α : Type} {read : Value S → Option α} {dump : α → Value S}

theorem str [StringType S] (lax : LaxMode S) : Undoes (readStr lax) dumpStr := by
  intro s
  rfl

theorem text [StringType S] (lax : LaxMode S) : Undoes (readText lax) dumpText := by
  intro text
  exact text?_ofString text

theorem int (lax : LaxMode S) : Undoes (readInt lax) dumpInt := by
  intro n
  rfl

theorem nullable
    (h : Undoes read dump)
    (hdump : ∀ a, dump a ≠ .scalar .none) :
    Undoes (readNullable read) (dumpNullable dump) := by
  intro a
  cases a with
  | none => rfl
  | some a =>
      rw [dumpNullable, readNullable, h a]
      · rfl
      · exact hdump a

theorem checked
    {p : α → Prop} [DecidablePred p]
    (h : Undoes read dump) :
    Undoes (readChecked p read) (fun a : {a // p a} => dump a.1) := by
  rintro ⟨a, ha⟩
  simp [readChecked, h a, ha]

theorem list
    (h : Undoes read dump) :
    Undoes (readList read) (dumpList dump) := by
  intro items
  induction items with
  | nil => rfl
  | cons item items ih =>
      simp only [readList, dumpList, listItems, List.map_cons, Option.bind_eq_bind,
        Option.bind_some, List.mapM_cons] at ih ⊢
      rw [h item, ih]
      rfl

theorem dict
    [DecidableEq S] [StringType S]
    (lax : LaxMode S) :
    Undoes (readDict lax) dumpDict := by
  rintro ⟨entries, hnodup⟩
  have hread : (ofEntries entries).mapM (readEntry lax) = some entries := by
    clear hnodup
    induction entries with
    | nil => rfl
    | cons entry entries ih =>
        rw [ofEntries, List.map_cons, List.mapM_cons]
        rw [ofEntries] at ih
        rw [ih]
        rfl
  rw [dumpDict, readDict, hread]
  simp [OrderedDict.ofPairs_of_nodup hnodup]

end Undoes

theorem dumpText_ne_none [StringType S] (text : String) :
    (dumpText text : Value S) ≠ .scalar .none := by
  intro h
  cases h

theorem dumpStr_ne_none (s : S) : dumpStr s ≠ .scalar .none := by
  intro h
  cases h

theorem dumpInt_ne_none (n : ℤ) : (dumpInt n : Value S) ≠ .scalar .none := by
  intro h
  cases h

theorem dumpDict_ne_none (d : StrDict S) : dumpDict d ≠ .scalar .none := by
  intro h
  cases h

/-! ## Reading a written dictionary -/

section Fields

variable {α : Type} [DecidableEq S] [StringType S] {read : Value S → Option α}
  {dump : α → Value S} {a : α} {fields : List (String × Value S)} {key : String}

theorem lookup_ofFields
    (fields : List (String × Value S))
    (key : String) :
    (ofFields fields).lookup (.str (ofString key)) = fields.lookup key := by
  induction fields with
  | nil => rfl
  | cons field fields ih =>
      have hkey : ((.str (ofString key) : Scalar S) == .str (ofString field.1)) =
          (key == field.1) := by
        rw [Bool.eq_iff_iff, beq_iff_eq, beq_iff_eq, Scalar.str.injEq, ofString_injective.eq_iff]
      rw [ofFields_cons, List.lookup_cons, List.lookup_cons, hkey, ih]

theorem required_ofFields
    (h : Undoes read dump)
    (hfield : fields.lookup key = some (dump a)) :
    required read (ofFields fields) key = some a := by
  rw [required, lookup_ofFields, hfield]
  exact h a

theorem withDefault_ofFields
    (h : Undoes read dump)
    (hfield : fields.lookup key = some (dump a))
    (default : α) :
    withDefault default read (ofFields fields) key = some a := by
  rw [withDefault, lookup_ofFields, hfield]
  exact h a

end Fields

/-! ## What a reader keeps -/

/-- The keys and values of a dictionary. -/
def StrDict.held (d : StrDict S) : List (Value S) :=
  d.entries.flatMap fun entry => [.scalar (.str entry.1), entry.2]

theorem exists_of_mem_mapM
    {α β : Type}
    {f : α → Option β}
    {xs : List α}
    {ys : List β}
    (h : xs.mapM f = some ys)
    {y : β}
    (hy : y ∈ ys) :
    ∃ x ∈ xs, f x = some y := by
  induction xs generalizing ys with
  | nil =>
      cases h
      cases hy
  | cons x xs ih =>
      simp only [List.mapM_cons, Option.bind_eq_bind, Option.bind_eq_some_iff, Option.pure_def,
        Option.some.injEq] at h
      obtain ⟨first, hfirst, rest, hrest, rfl⟩ := h
      rcases List.mem_cons.mp hy with rfl | hy
      · exact ⟨x, List.mem_cons_self, hfirst⟩
      · obtain ⟨x', hmem, hx'⟩ := ih hrest hy
        exact ⟨x', List.mem_cons_of_mem x hmem, hx'⟩

/-- What a traversal keeps of each item, it keeps of all. -/
theorem map_eq_of_mapM
    {α β γ : Type}
    {f : α → Option β}
    {g : β → γ}
    {h : α → γ}
    (hkeeps : ∀ x y, f x = some y → g y = h x)
    {xs : List α}
    {ys : List β}
    (hread : xs.mapM f = some ys) :
    ys.map g = xs.map h := by
  induction xs generalizing ys with
  | nil =>
      cases hread
      rfl
  | cons x xs ih =>
      simp only [List.mapM_cons, Option.bind_eq_bind, Option.bind_eq_some_iff, Option.pure_def,
        Option.some.injEq] at hread
      obtain ⟨first, hfirst, rest, hrest, rfl⟩ := hread
      rw [List.map_cons, List.map_cons, hkeeps x first hfirst, ih hrest]

/-- A property that texts have, and that passes from a value to its parts. -/
structure Hereditary [StringType S] (P : Value S → Prop) : Prop where
  text : ∀ text, P (.scalar (.str (ofString text)))
  items : ∀ value items, P value → listItems value = some items → ∀ item ∈ items, P item
  dict : ∀ entries, P (.dict entries) → ∀ entry ∈ entries, P (.scalar entry.1) ∧ P entry.2

theorem hereditary_jsonNative : Hereditary JsonNative where
  text text := .scalar (unpaired_ofString text)
  items value items h hitems := by
    cases h with
    | scalar _ | dict _ _ => cases hitems
    | list h =>
        cases hitems
        exact h
  dict entries h entry hentry := by
    cases h with
    | dict hkeys hvalues =>
        obtain ⟨key, hkey, hunpaired⟩ := hkeys entry hentry
        rw [hkey]
        exact ⟨.scalar hunpaired, hvalues entry hentry⟩

theorem hereditary_wellFormed [StringType S] : Hereditary (WellFormed : Value S → Prop) where
  text text := .scalar _
  items value items h hitems := by
    cases h with
    | scalar _ | dict _ _ | enclosing _ => cases hitems
    | list h | tuple h =>
        cases hitems
        exact h
    | set _ =>
        cases hitems
        intro item hitem
        obtain ⟨member, -, rfl⟩ := List.mem_map.mp hitem
        exact .scalar member
  dict entries h entry hentry := by
    cases h with
    | dict _ hvalues => exact ⟨.scalar entry.1, hvalues entry hentry⟩

/-- What the result of a reader holds has the property if the value that was read has it. -/
def Preserves
    {α : Type}
    (P : Value S → Prop)
    (read : Value S → Option α)
    (held : α → List (Value S)) : Prop :=
  ∀ value a, P value → read value = some a → ∀ part ∈ held a, P part

namespace Preserves

variable {α : Type} {P : Value S → Prop} {read : Value S → Option α} {held : α → List (Value S)}

theorem nullable
    (h : Preserves P read held) :
    Preserves P (readNullable read) (fun a => a.elim [] held) := by
  intro value a hvalue hread part hpart
  unfold readNullable at hread
  split at hread
  · cases hread
    cases hpart
  · obtain ⟨b, hb, rfl⟩ := Option.map_eq_some_iff.mp hread
    exact h value b hvalue hb part hpart

theorem checked
    {p : α → Prop} [DecidablePred p]
    (h : Preserves P read held) :
    Preserves P (readChecked p read) (fun a : {a // p a} => held a.1) := by
  intro value a hvalue hread part hpart
  obtain ⟨b, hb, hcheck⟩ := Option.bind_eq_some_iff.mp hread
  split_ifs at hcheck
  cases hcheck
  exact h value b hvalue hb part hpart

variable [StringType S]

theorem str
    (hP : Hereditary P)
    (lax : LaxMode S) :
    Preserves P (readStr lax) (fun s => [.scalar (.str s)]) := by
  intro value s hvalue hread part hpart
  rw [List.mem_singleton] at hpart
  subst hpart
  unfold readStr at hread
  split at hread
  · cases hread
    exact hvalue
  · obtain ⟨text, -, rfl⟩ := Option.map_eq_some_iff.mp hread
    exact hP.text text

theorem list
    (hP : Hereditary P)
    (h : Preserves P read held) :
    Preserves P (readList read) (fun items => items.flatMap held) := by
  intro value as hvalue hread part hpart
  obtain ⟨items, hitems, hread⟩ := Option.bind_eq_some_iff.mp hread
  obtain ⟨a, ha, hpart⟩ := List.mem_flatMap.mp hpart
  obtain ⟨item, hmem, hitem⟩ := exists_of_mem_mapM hread ha
  exact h item a (hP.items value items hvalue hitems item hmem) hitem part hpart

variable [DecidableEq S]

theorem dict
    (hP : Hereditary P)
    (lax : LaxMode S) :
    Preserves P (readDict lax) StrDict.held := by
  intro value d hvalue hread part hpart
  cases value with
  | dict entries =>
      obtain ⟨pairs, hpairs, hd⟩ := Option.bind_eq_some_iff.mp hread
      cases hd
      obtain ⟨pair, hpair, hpart⟩ := List.mem_flatMap.mp hpart
      obtain ⟨entry, hentry, hread⟩ :=
        exists_of_mem_mapM hpairs (OrderedDict.mem_of_mem_ofPairs hpair)
      obtain ⟨key, hkey, hpair⟩ := Option.bind_eq_some_iff.mp hread
      cases hpair
      obtain ⟨hkeyP, hvalueP⟩ := hP.dict entries hvalue entry hentry
      rcases List.mem_cons.mp hpart with rfl | hpart
      · exact str hP lax _ key hkeyP hkey _ (List.mem_singleton_self _)
      · rw [List.mem_singleton.mp hpart]
        exact hvalueP
  | scalar _ | list _ | tuple _ | set _ | enclosing _ => cases hread

theorem required
    (hP : Hereditary P)
    (h : Preserves P read held)
    {a : α}
    {entries : List (Scalar S × Value S)}
    (hentries : P (.dict entries))
    {key : String}
    (hread : PyDocument.required read entries key = some a)
    {part : Value S}
    (hpart : part ∈ held a) :
    P part := by
  obtain ⟨value, hvalue, hvalueRead⟩ := Option.bind_eq_some_iff.mp hread
  obtain ⟨before, after, rfl, -⟩ := List.lookup_eq_some_iff.mp hvalue
  exact h value a (hP.dict _ hentries _ (List.mem_append_right before List.mem_cons_self)).2
    hvalueRead part hpart

theorem withDefault
    (hP : Hereditary P)
    (h : Preserves P read held)
    {default a : α}
    (hdefault : held default = [])
    {entries : List (Scalar S × Value S)}
    (hentries : P (.dict entries))
    {key : String}
    (hread : PyDocument.withDefault default read entries key = some a)
    {part : Value S}
    (hpart : part ∈ held a) :
    P part := by
  unfold PyDocument.withDefault at hread
  split at hread
  · cases hread
    rw [hdefault] at hpart
    cases hpart
  · next value hvalue =>
      obtain ⟨before, after, rfl, -⟩ := List.lookup_eq_some_iff.mp hvalue
      exact h value a (hP.dict _ hentries _ (List.mem_append_right before List.mem_cons_self)).2
        hread part hpart

end Preserves

/-! ## What a writer keeps -/

/-- A property that texts and `None` have, and that passes from parts to collections. -/
structure Closed [StringType S] (P : Value S → Prop) : Prop where
  text : ∀ text, P (.scalar (.str (ofString text)))
  none : P (.scalar .none)
  list : ∀ items : List (Value S), (∀ item ∈ items, P item) → P (.list items)
  dict : ∀ entries : List (S × Value S), (entries.map Prod.fst).Nodup →
    (∀ entry ∈ entries, P (.scalar (.str entry.1)) ∧ P entry.2) → P (.dict (ofEntries entries))

theorem closed_jsonNative : Closed JsonNative where
  text text := .scalar (unpaired_ofString text)
  none := .scalar trivial
  list _ h := .list h
  dict entries _ h := by
    refine .dict (fun entry hentry => ?_) fun entry hentry => ?_
    · obtain ⟨field, hfield, rfl⟩ := List.mem_map.mp hentry
      cases (h field hfield).1 with
      | scalar hunpaired => exact ⟨field.1, rfl, hunpaired⟩
    · obtain ⟨field, hfield, rfl⟩ := List.mem_map.mp hentry
      exact (h field hfield).2

theorem closed_wellFormed [StringType S] : Closed (WellFormed : Value S → Prop) where
  text text := .scalar _
  none := .scalar .none
  list _ h := .list h
  dict entries hnodup h := by
    refine .dict ?_ fun entry hentry => ?_
    · have hkeys : (ofEntries entries).map Prod.fst = (entries.map Prod.fst).map Scalar.str := by
        simp [ofEntries]
      rw [hkeys]
      exact hnodup.map fun _ _ hsame => Scalar.str.inj hsame
    · obtain ⟨field, hfield, rfl⟩ := List.mem_map.mp hentry
      exact (h field hfield).2

/-- The fields of a schema make a dictionary with the property if each of them has it. -/
theorem Closed.fields
    [StringType S]
    {P : Value S → Prop}
    (hP : Closed P)
    {fields : List (String × Value S)}
    (hnodup : (fields.map Prod.fst).Nodup)
    (h : ∀ field ∈ fields, P field.2) :
    P (.dict (ofFields fields)) := by
  refine hP.dict _ ?_ fun entry hentry => ?_
  · have hkeys : (fields.map fun field => ((ofString field.1 : S), field.2)).map Prod.fst =
        (fields.map Prod.fst).map ofString := by
      simp
    rw [hkeys]
    exact hnodup.map ofString_injective
  · obtain ⟨field, hfield, rfl⟩ := List.mem_map.mp hentry
    exact ⟨hP.text field.1, h field hfield⟩

/-- What is written has the property if what the field holds has it. -/
def Writes
    {α : Type}
    (P : Value S → Prop)
    (dump : α → Value S)
    (held : α → List (Value S)) : Prop :=
  ∀ a, (∀ part ∈ held a, P part) → P (dump a)

namespace Writes

variable {α : Type} {P : Value S → Prop} {dump : α → Value S} {held : α → List (Value S)}

theorem str : Writes P dumpStr (fun s => [.scalar (.str s)]) :=
  fun _ h => h _ (List.mem_singleton_self _)

variable [StringType S]

theorem nullable
    (hP : Closed P)
    (h : Writes P dump held) :
    Writes P (dumpNullable dump) (fun a => a.elim [] held) := by
  intro a ha
  cases a with
  | none => exact hP.none
  | some a => exact h a ha

theorem list
    (hP : Closed P)
    (h : Writes P dump held) :
    Writes P (dumpList dump) (fun items => items.flatMap held) := by
  intro items hitems
  refine hP.list _ fun item hitem => ?_
  obtain ⟨a, ha, rfl⟩ := List.mem_map.mp hitem
  exact h a fun part hpart => hitems part (List.mem_flatMap.mpr ⟨a, ha, hpart⟩)

theorem dict (hP : Closed P) : Writes P dumpDict StrDict.held := by
  intro d hd
  refine hP.dict d.entries d.nodup fun entry hentry => ⟨hd _ ?_, hd _ ?_⟩
  · exact List.mem_flatMap.mpr ⟨entry, hentry, List.mem_cons_self⟩
  · exact List.mem_flatMap.mpr ⟨entry, hentry, List.mem_cons_of_mem _ List.mem_cons_self⟩

end Writes

end PyDocument
