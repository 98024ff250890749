import YamlAgno.Library.Fallible
import YamlAgno.Library.OrderedDict
import YamlAgno.Library.PyDocument

/-!
# Python values as JSON

`json.dumps` and `json.loads`, between Python values and the tree that the text stands for.
Writing is not faithful: a tuple becomes an array, a key that is a number, a truth value or
`None` becomes its text, and dates, times, bytes and sets are refused.  A string is written in
ASCII, by its UTF-16 units, and two surrogates that make a pair are read as one character.

So exactly the values without these come back as they were (`loads_dumps`), and nothing that
has been read contains any of them (`jsonNative_of_loads`).
-/

namespace PyDocument

open Fallible PyString

/-- A JSON tree with strings in `S`.  A number with a fraction or an exponent is given by the
float it reads as. -/
inductive JsonTree (S : Type) where
  | null
  | bool (value : Bool)
  | int (value : ℤ)
  | float (repr : String)
  | string (value : S)
  | array (items : List (JsonTree S))
  | object (members : List (S × JsonTree S))

/-- Trees whose strings have no surrogates in them. -/
abbrev Json : Type :=
  JsonTree String

/-- Trees whose strings are given by the UTF-16 units that are written of them. -/
abbrev WrittenJson : Type :=
  JsonTree (List PyChar)

/-! ## Writing -/

/-- The text of a float, which for the three special ones is not its `repr`. -/
def jsonFloat (repr : String) : String :=
  if repr = "nan" then "NaN"
  else if repr = "inf" then "Infinity"
  else if repr = "-inf" then "-Infinity"
  else repr

/-- The name of a class in C code, which is not always its `__name__`. -/
def Scalar.tpName : Scalar PyStr → String
  | date _ => "datetime.date"
  | datetime _ => "datetime.datetime"
  | value => value.typeName

/-- The member name that a dictionary key becomes. -/
def Scalar.keyText : Scalar PyStr → Except CodecError PyStr
  | str value => .ok value
  | float repr => .ok (ofString (jsonFloat repr))
  | bool value => .ok (ofString (if value then "true" else "false"))
  | none => .ok (ofString "null")
  | int value => do return ofString (toString (← intRepr value))
  | key =>
      .error (.typeError ("keys must be str, int, float, bool or None, not " ++ key.tpName))

def Scalar.dumps : Scalar PyStr → Except CodecError WrittenJson
  | none => .ok .null
  | bool value => .ok (.bool value)
  | int value => do return .int (← intRepr value)
  | float repr => .ok (.float repr)
  | str value => .ok (.string (units value))
  | scalar =>
      .error (.typeError ("Object of type " ++ scalar.typeName ++ " is not JSON serializable"))

mutual

/-- `json.dumps`. -/
def dumps : Value PyStr → Except CodecError WrittenJson
  | .scalar value => value.dumps
  | .list items => do return .array (← dumpsItems items)
  | .tuple items => do return .array (← dumpsItems items)
  | .set _ => .error (.typeError "Object of type set is not JSON serializable")
  | .dict entries => do return .object (← dumpsEntries entries)
  | .enclosing _ => .error (.valueError "Circular reference detected")

def dumpsItems : List (Value PyStr) → Except CodecError (List WrittenJson)
  | [] => pure []
  | item :: items => do
      let first ← dumps item
      let rest ← dumpsItems items
      return first :: rest

def dumpsEntries :
    List (Scalar PyStr × Value PyStr) → Except CodecError (List (List PyChar × WrittenJson))
  | [] => pure []
  | (key, value) :: entries => do
      let name ← key.keyText
      let member ← dumps value
      let rest ← dumpsEntries entries
      return (units name, member) :: rest

end

/-- One entry of a dictionary. -/
def dumpsEntry
    (entry : Scalar PyStr × Value PyStr) :
    Except CodecError (List PyChar × WrittenJson) := do
  let name ← entry.1.keyText
  let member ← dumps entry.2
  return (units name, member)

theorem dumpsItems_eq
    (items : List (Value PyStr)) :
    dumpsItems items = items.mapM dumps := by
  induction items with
  | nil => rfl
  | cons item items ih => rw [dumpsItems, ih, List.mapM_cons]

theorem dumpsEntries_eq
    (entries : List (Scalar PyStr × Value PyStr)) :
    dumpsEntries entries = entries.mapM dumpsEntry := by
  induction entries with
  | nil => rfl
  | cons entry entries ih =>
      rw [dumpsEntries, ih, List.mapM_cons, dumpsEntry]
      simp only [bind_assoc, pure_bind]

/-- A dictionary is written only if each of its values is. -/
theorem exists_dumps_of_mem
    {entries : List (Scalar PyStr × Value PyStr)}
    {json : WrittenJson}
    (h : dumps (.dict entries) = .ok json)
    {entry : Scalar PyStr × Value PyStr}
    (hentry : entry ∈ entries) :
    ∃ member, dumps entry.2 = .ok member := by
  rw [dumps, dumpsEntries_eq] at h
  obtain ⟨members, hmembers, -⟩ := bind_eq_ok_iff.mp h
  have hnone := (errorOf?_mapM (f := dumpsEntry) entries).symm.trans
    (errorOf?_eq_none_iff.mpr ⟨members, hmembers⟩)
  obtain ⟨member, hmember⟩ :=
    errorOf?_eq_none_iff.mp (List.findSome?_eq_none_iff.mp hnone entry hentry)
  obtain ⟨name, -, hdumps⟩ := bind_eq_ok_iff.mp hmember
  obtain ⟨value, hvalue, -⟩ := bind_eq_ok_iff.mp hdumps
  exact ⟨value, hvalue⟩

/-! ## Reading -/

mutual

/-- `json.loads`; the last of several members of one name is kept. -/
def loads : WrittenJson → Except CodecError (Value PyStr)
  | .null => .ok (.scalar .none)
  | .bool value => .ok (.scalar (.bool value))
  | .int value => do return .scalar (.int (← intRepr value))
  | .float repr => .ok (.scalar (.float repr))
  | .string value => .ok (.scalar (.str (ofUnits value)))
  | .array items => do return .list (← loadsItems items)
  | .object members => do return .dict (OrderedDict.ofPairs (← loadsMembers members))

def loadsItems : List WrittenJson → Except CodecError (List (Value PyStr))
  | [] => pure []
  | item :: items => do
      let first ← loads item
      let rest ← loadsItems items
      return first :: rest

def loadsMembers :
    List (List PyChar × WrittenJson) → Except CodecError (List (Scalar PyStr × Value PyStr))
  | [] => pure []
  | (name, member) :: members => do
      let value ← loads member
      let rest ← loadsMembers members
      return (.str (ofUnits name), value) :: rest

end

/-- One member of an object. -/
def loadsMember
    (member : List PyChar × WrittenJson) :
    Except CodecError (Scalar PyStr × Value PyStr) := do
  let value ← loads member.2
  return (.str (ofUnits member.1), value)

theorem loadsItems_eq
    (items : List WrittenJson) :
    loadsItems items = items.mapM loads := by
  induction items with
  | nil => rfl
  | cons item items ih => rw [loadsItems, ih, List.mapM_cons]

theorem loadsMembers_eq
    (members : List (List PyChar × WrittenJson)) :
    loadsMembers members = members.mapM loadsMember := by
  induction members with
  | nil => rfl
  | cons member members ih =>
      rw [loadsMembers, ih, List.mapM_cons, loadsMember]
      simp only [bind_assoc, pure_bind]

/-! ## The values that JSON has -/

/-- The scalar is one of JSON, and can be written out; in a string there is no pair of
surrogates. -/
def Scalar.JsonNative : Scalar PyStr → Prop
  | none | bool _ | float _ => True
  | str value => Unpaired value
  | int n => PyDocument.Printable n
  | bytes _ | date _ | datetime _ => False

/-- Lists and dictionaries with string keys, of such values and of scalars of JSON. -/
inductive JsonNative : Value PyStr → Prop where
  | scalar {value : Scalar PyStr} (h : value.JsonNative) : JsonNative (.scalar value)
  | list {items : List (Value PyStr)} (h : ∀ item ∈ items, JsonNative item) :
      JsonNative (.list items)
  | dict
      {entries : List (Scalar PyStr × Value PyStr)}
      (keys : ∀ entry ∈ entries, ∃ key, entry.1 = .str key ∧ Unpaired key)
      (values : ∀ entry ∈ entries, JsonNative entry.2) :
      JsonNative (.dict entries)

/-- A value of JSON does not contain itself. -/
theorem JsonNative.not_circular
    {value : Value PyStr}
    (h : JsonNative value) :
    value.circular = false := by
  induction h with
  | scalar _ => rfl
  | list _ ih =>
      rw [Value.circular, Value.circularItems_eq, List.any_eq_false]
      intro item hitem
      simp [ih item hitem]
  | dict _ _ ih =>
      rw [Value.circular, Value.circularEntries_eq, List.any_eq_false]
      intro entry hentry
      simp [ih entry hentry]

/-- Such a scalar is read back as it was. -/
theorem Scalar.loads_dumps
    {value : Scalar PyStr}
    (h : value.JsonNative) :
    ∃ json, value.dumps = .ok json ∧ loads json = .ok (.scalar value) := by
  cases value with
  | none => exact ⟨_, rfl, by rw [loads]⟩
  | bool value => exact ⟨_, rfl, by rw [loads]⟩
  | float repr => exact ⟨_, rfl, by rw [loads]⟩
  | str value => exact ⟨_, rfl, by rw [loads, (ofUnits_units_iff value).mpr h]⟩
  | int value =>
      have hrepr : intRepr value = .ok value := intRepr_eq_ok_iff.mpr ⟨rfl, h⟩
      refine ⟨.int value, ?_, ?_⟩
      · rw [Scalar.dumps, hrepr]
        rfl
      · rw [loads, hrepr]
        rfl
  | bytes value => exact h.elim
  | date iso => exact h.elim
  | datetime iso => exact h.elim

/-- An entry with a string key is read back from its member. -/
theorem loadsMember_dumpsEntry
    {entry : Scalar PyStr × Value PyStr}
    (hkey : ∃ key, entry.1 = .str key ∧ Unpaired key)
    (hvalue : ∃ json, dumps entry.2 = .ok json ∧ loads json = .ok entry.2) :
    ∃ member, dumpsEntry entry = .ok member ∧ loadsMember member = .ok entry := by
  obtain ⟨key, value⟩ := entry
  obtain ⟨name, hname, hunpaired⟩ := hkey
  obtain ⟨json, hdumps, hloads⟩ := hvalue
  cases hname
  refine ⟨(units name, json), ?_, ?_⟩
  · rw [dumpsEntry, hdumps]
    rfl
  · rw [loadsMember, hloads, (ofUnits_units_iff name).mpr hunpaired]
    rfl

/-- What JSON has is read back as it was. -/
theorem loads_dumps
    {value : Value PyStr}
    (hnative : JsonNative value)
    (hwell : value.WellFormed) :
    ∃ json, dumps value = .ok json ∧ loads json = .ok value := by
  induction hnative with
  | scalar h =>
      obtain ⟨json, hdumps, hloads⟩ := Scalar.loads_dumps h
      exact ⟨json, by rw [dumps, hdumps], hloads⟩
  | list _ ih =>
      cases hwell with
      | list hitems =>
          obtain ⟨json, hdumps, hloads⟩ :=
            exists_mapM_of_inverse fun item hitem => ih item hitem (hitems item hitem)
          refine ⟨.array json, ?_, ?_⟩
          · rw [dumps, dumpsItems_eq, hdumps]
            rfl
          · rw [loads, loadsItems_eq, hloads]
            rfl
  | dict hkeys _ ih =>
      cases hwell with
      | dict hnodup hvalues =>
          obtain ⟨members, hdumps, hloads⟩ := exists_mapM_of_inverse fun entry hmem =>
            loadsMember_dumpsEntry (hkeys entry hmem) (ih entry hmem (hvalues entry hmem))
          refine ⟨.object members, ?_, ?_⟩
          · rw [dumps, dumpsEntries_eq, hdumps]
            rfl
          · rw [loads, loadsMembers_eq, hloads]
            exact congrArg (fun d => Except.ok (Value.dict d)) (OrderedDict.ofPairs_of_nodup hnodup)

mutual

/-- Whatever is read is a value of JSON. -/
theorem jsonNative_of_loads :
    (json : WrittenJson) → {value : Value PyStr} → loads json = .ok value → JsonNative value
  | .null, _, h | .bool _, _, h | .float _, _, h => by
      rw [loads] at h
      cases h
      exact .scalar trivial
  | .string value, _, h => by
      rw [loads] at h
      cases h
      exact .scalar (unpaired_ofUnits value)
  | .int n, value, h => by
      rw [loads] at h
      obtain ⟨m, hm, hvalue⟩ := bind_eq_ok_iff.mp h
      cases hvalue
      obtain ⟨rfl, hprintable⟩ := intRepr_eq_ok_iff.mp hm
      exact .scalar hprintable
  | .array items, value, h => by
      rw [loads] at h
      obtain ⟨values, hvalues, hvalue⟩ := bind_eq_ok_iff.mp h
      cases hvalue
      exact .list (jsonNative_of_loadsItems items hvalues)
  | .object members, value, h => by
      rw [loads] at h
      obtain ⟨entries, hentries, hvalue⟩ := bind_eq_ok_iff.mp h
      cases hvalue
      have hall := jsonNative_of_loadsMembers members hentries
      exact .dict (fun entry hmem => (hall entry (OrderedDict.mem_of_mem_ofPairs hmem)).1)
        fun entry hmem => (hall entry (OrderedDict.mem_of_mem_ofPairs hmem)).2

theorem jsonNative_of_loadsItems :
    (items : List WrittenJson) → {values : List (Value PyStr)} → loadsItems items = .ok values →
      ∀ value ∈ values, JsonNative value
  | [], _, h => by
      cases h
      simp
  | item :: items, values, h => by
      rw [loadsItems] at h
      obtain ⟨first, hfirst, h⟩ := bind_eq_ok_iff.mp h
      obtain ⟨rest, hrest, hvalues⟩ := bind_eq_ok_iff.mp h
      cases hvalues
      exact List.forall_mem_cons.mpr
        ⟨jsonNative_of_loads item hfirst, jsonNative_of_loadsItems items hrest⟩

theorem jsonNative_of_loadsMembers :
    (members : List (List PyChar × WrittenJson)) → {entries : List (Scalar PyStr × Value PyStr)} →
      loadsMembers members = .ok entries →
      ∀ entry ∈ entries, (∃ key, entry.1 = .str key ∧ Unpaired key) ∧ JsonNative entry.2
  | [], _, h => by
      cases h
      simp
  | (name, member) :: members, entries, h => by
      rw [loadsMembers] at h
      obtain ⟨value, hvalue, h⟩ := bind_eq_ok_iff.mp h
      obtain ⟨rest, hrest, hentries⟩ := bind_eq_ok_iff.mp h
      cases hentries
      exact List.forall_mem_cons.mpr
        ⟨⟨⟨_, rfl, unpaired_ofUnits name⟩, jsonNative_of_loads member hvalue⟩,
          jsonNative_of_loadsMembers members hrest⟩

end

end PyDocument
