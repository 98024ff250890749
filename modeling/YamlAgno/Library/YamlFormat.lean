import YamlAgno.Library.SchemaFields

/-!
# Python values as YAML texts

`yaml.dump` and `yaml.safe_load` are a pair of functions between values and texts
(`TextFormat`).  Nothing is known of them but what `Documented` says of a value: it is loaded
from its text again, unless an integer in it is too long to be written, or a tuple in it gets a
tag that the safe loader refuses.  `YamlPlain` is the condition that neither is the case, and
that the value does not contain itself.
-/

namespace PyDocument

open PyString Value

/-- A `YAMLError`. -/
structure YamlError where
  problem : String
deriving DecidableEq

/-- `yaml.dump` and `yaml.safe_load`.  In what is loaded the keys of a dictionary are
distinct. -/
structure TextFormat (S : Type) where
  dump : Value S → Except CodecError String
  safeLoad : String → Except YamlError {value : Value S // value.WellFormed}

variable {S : Type}

/-! ## Plain values -/

/-- The value itself is no tuple, no reference to a collection around it, and no integer that
is too long. -/
def Value.Simple : Value S → Prop
  | .scalar value => value.Printable
  | .tuple _ | .enclosing _ => False
  | .list _ | .set _ | .dict _ => True

/-- At every depth there are such values only. -/
def YamlPlain (value : Value S) : Prop :=
  ∀ part, Part part value → part.Simple

theorem yamlPlain_scalar
    {value : Scalar S}
    (h : value.Printable) :
    YamlPlain (.scalar value) := by
  intro part hpart
  rw [hpart.of_scalar]
  exact h

theorem closed_yamlPlain [StringType S] : Closed (YamlPlain : Value S → Prop) where
  text _ := yamlPlain_scalar trivial
  none := yamlPlain_scalar trivial
  list items h part hpart := by
    cases hpart with
    | self => trivial
    | list hitem hpart => exact h _ hitem part hpart
  dict entries _ h part hpart := by
    cases hpart with
    | self => trivial
    | key hentry hpart =>
        obtain ⟨entry, hmem, rfl⟩ := List.mem_map.mp hentry
        exact (h entry hmem).1 part hpart
    | dict hentry hpart =>
        obtain ⟨entry, hmem, rfl⟩ := List.mem_map.mp hentry
        exact (h entry hmem).2 part hpart

/-- A plain value does not contain itself. -/
theorem YamlPlain.not_circular
    {value : Value S}
    (h : YamlPlain value) :
    value.circular = false := by
  induction value using Value.induction_parts with
  | scalar _ => rfl
  | list items ih =>
      rw [circular, circularItems_eq, List.any_eq_false]
      intro item hitem
      simp [ih item hitem fun part hpart => h part (.list hitem hpart)]
  | tuple items _ => exact (h _ .self).elim
  | set _ => rfl
  | dict entries ih =>
      rw [circular, circularEntries_eq, List.any_eq_false]
      intro entry hentry
      simp [ih entry hentry fun part hpart => h part (.dict hentry hpart)]
  | enclosing levels => exact (h _ .self).elim

/-- What JSON has is plain. -/
theorem JsonNative.yamlPlain
    {value : Value PyStr}
    (h : JsonNative value) :
    YamlPlain value := by
  intro part hpart
  induction hpart with
  | self =>
      cases h with
      | @scalar value h =>
          cases value with
          | int n => exact h
          | none | bool _ | float _ | str _ | bytes _ | date _ | datetime _ => trivial
      | list _ | dict _ _ => trivial
  | list hitem _ ih =>
      cases h with
      | list hitems => exact ih (hitems _ hitem)
  | tuple _ _ _ | set _ _ _ => cases h
  | key hentry hpart _ =>
      cases h with
      | dict hkeys _ =>
          obtain ⟨key, hkey, -⟩ := hkeys _ hentry
          rw [hkey] at hpart
          rw [hpart.of_scalar]
          trivial
  | dict hentry _ ih =>
      cases h with
      | dict _ hvalues => exact ih (hvalues _ hentry)

/-! ## What is documented -/

/-- What is documented of the text of a value that does not contain itself. -/
structure TextFormat.Documented (text : TextFormat S) (value : Value S) : Prop where
  /-- An integer that is too long has no text. -/
  long_int : ∀ n, Part (.scalar (.int n)) value → ¬ Printable n →
    ∃ error, text.dump value = .error error
  /-- The safe loader refuses the tag of a tuple. -/
  tuple : ∀ items, Part (.tuple items) value → ∀ source, text.dump value = .ok source →
    ∃ error, text.safeLoad source = .error error
  /-- Any other value is loaded as it was. -/
  plain : ∀ hwell : value.WellFormed, YamlPlain value →
    ∃ source, text.dump value = .ok source ∧ text.safeLoad source = .ok ⟨value, hwell⟩

/-- A value that is loaded from its text, and does not contain itself, is plain. -/
theorem TextFormat.Documented.yamlPlain
    {text : TextFormat S}
    {value : Value S}
    (h : text.Documented value)
    (hcircular : value.circular = false)
    {source : String}
    (hdump : text.dump value = .ok source)
    {loaded : {value : Value S // value.WellFormed}}
    (hload : text.safeLoad source = .ok loaded) :
    YamlPlain value := by
  intro part hpart
  cases part with
  | list _ | set _ | dict _ => trivial
  | tuple items =>
      obtain ⟨error, herror⟩ := h.tuple items hpart source hdump
      cases herror.symm.trans hload
  | enclosing levels => cases (circular_of_part hpart).symm.trans hcircular
  | scalar value =>
      cases value with
      | none | bool _ | float _ | str _ | bytes _ | date _ | datetime _ => trivial
      | int n =>
          by_contra hlong
          obtain ⟨error, herror⟩ := h.long_int n hpart hlong
          cases herror.symm.trans hdump

/-- A text and what it is the text of; no other text is looked at. -/
def TextFormat.single
    (source : String)
    (document : {value : Value S // value.WellFormed}) :
    TextFormat S where
  dump _ := .ok source
  safeLoad text := if text = source then .ok document else .error ⟨"could not find expected ':'"⟩

theorem TextFormat.safeLoad_single
    (source : String)
    (document : {value : Value S // value.WellFormed}) :
    (single source document).safeLoad source = .ok document :=
  if_pos rfl

/-- A plain value can have that text. -/
theorem TextFormat.documented_single
    (source : String)
    {value : Value S}
    (hwell : value.WellFormed)
    (hplain : YamlPlain value) :
    (single source ⟨value, hwell⟩).Documented value where
  long_int _ hpart hlong := (hlong (hplain _ hpart)).elim
  tuple _ hpart := (hplain _ hpart).elim
  plain _ _ := ⟨source, rfl, safeLoad_single source _⟩

end PyDocument
