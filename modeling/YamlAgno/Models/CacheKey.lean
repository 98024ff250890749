import YamlAgno.Library.JsonKeys
import YamlAgno.Library.SchemaFields
import YamlAgno.Models.SpecDump

/-!
# The key of an invocation

`CacheKeyBuilder.build` of `models/cache_key.py`: the digest of a JSON text with sorted keys, which
has the dump of the specification and three hashes of the caller in it.

The text is that of one tree, but for the order of the members of its objects.  So two
invocations have one key exactly if their dumps are the same trees and their hashes are equal
(`one_key_iff`).  Python takes `1` and `True` for equal values and JSON does not, and
`json.dumps` refuses an integer of more than 4300 digits, so neither equality of Python values
nor identity is what the key stands for (`not_identifiesInvocations`).
-/

namespace YamlAgno

open Fallible PyDocument PyDocument.Json

/-- The texts of floats: of those in the fields, and of those among other objects. -/
structure FloatTexts (F : Type) where
  repr : F → {text : String // IsFloatRepr text}
  ofObject : ℕ → Option {text : String // IsFloatRepr text}

section Trees

variable {F : Type} (T : FloatTexts F)

/-- An object whose names are distinct, as those of a dictionary are. -/
def distinctObject (members : List (String × Json)) : Option Json :=
  if (members.map Prod.fst).Nodup then some (.object members) else none

mutual

/-- A value as a JSON tree; dictionaries have string keys only. -/
def jsonOf : PyValue → Option Json
  | .none => some .null
  | .bool value => some (.bool value)
  | .int value => some (.int value)
  | .str value => some (.string value)
  | .list items => do return .array (← jsonItems items)
  | .dict entries => do distinctObject (← jsonEntries entries)
  | .object identity _ => (T.ofObject identity).map fun text => .float text.1

def jsonItems : List PyValue → Option (List Json)
  | [] => some []
  | item :: items => do return (← jsonOf item) :: (← jsonItems items)

def jsonEntries : List (PyValue × PyValue) → Option (List (String × Json))
  | [] => some []
  | (.str name, value) :: entries => do return (name, ← jsonOf value) :: (← jsonEntries entries)
  | _ :: _ => none

end

/-- An entry of `fallback_models`. -/
def FallbackEntry.json : FallbackEntry → Option Json
  | .str text => some (.string text)
  | .dict fields => jsonOf T (.ofDict fields)

/-- `FallbackConfig.model_dump(exclude_none=True)`; what is `None` in an entry stays. -/
def FallbackConfig.json (config : FallbackConfig) : Option Json := do
  let fallbackModels ← config.fallbackModels.mapM (FallbackEntry.json T)
  return .object
    ([("fallback_models", .array fallbackModels),
      ("on_rate_limit", .string config.onRateLimit),
      ("on_context_overflow", .string config.onContextOverflow),
      ("on_error", .string config.onError)] ++
    (config.fallbackCallback.map fun text => ("fallback_callback", .string text)).toList ++
    [("max_fallback_hops", .int config.maxFallbackHops),
      ("propagate_session", .bool config.propagateSession)])

def SpecValue.json : SpecValue F → Option Json
  | .str text => some (.string text)
  | .bool value => some (.bool value)
  | .int value => some (.int value)
  | .float value => some (.float (T.repr value).1)
  | .texts items => some (.array (items.map .string))
  | .fallback config => config.json T

variable {P : SpecCoercions F}

/-- A field of the dump. -/
def jsonMember (field : String × SpecValue F) : Option (String × Json) := do
  return (field.1, ← field.2.json T)

/-- The dump of a specification whose fallback entries are JSON values with string keys. -/
def FullModelSpec.json (spec : FullModelSpec P) : Option Json := do
  return .object (← spec.dump.mapM (jsonMember T))

variable {T}

theorem valid_distinctObject
    {members : List (String × Json)}
    (hmembers : ∀ member ∈ members, Valid member.2)
    {j : Json}
    (h : distinctObject members = some j) :
    Valid j := by
  rw [distinctObject] at h
  split_ifs at h with hnames
  obtain rfl := Option.some.inj h
  exact .object hnames hmembers

mutual

theorem valid_jsonOf :
    ∀ (value : PyValue) (j : Json), jsonOf T value = some j → Valid j
  | .none, _, rfl => .null
  | .bool value, _, rfl => .bool value
  | .int value, _, rfl => .int value
  | .str value, _, rfl => .string value
  | .list items, j, h => by
      rw [jsonOf, Option.bind_eq_bind, Option.bind_eq_some_iff] at h
      obtain ⟨js, hjs, hj⟩ := h
      obtain rfl := Option.some.inj hj
      exact .array (valid_jsonItems items js hjs)
  | .dict entries, j, h => by
      rw [jsonOf, Option.bind_eq_bind, Option.bind_eq_some_iff] at h
      obtain ⟨members, hmembers, hj⟩ := h
      exact valid_distinctObject (valid_jsonEntries entries members hmembers) hj
  | .object identity _, j, h => by
      rw [jsonOf, Option.map_eq_some_iff] at h
      obtain ⟨text, -, rfl⟩ := h
      exact .float text.2

theorem valid_jsonItems :
    ∀ (items : List PyValue) (js : List Json), jsonItems T items = some js → ∀ j ∈ js, Valid j
  | [], _, rfl, j, hj => by cases hj
  | item :: items, js, h, j, hj => by
      simp only [jsonItems, Option.bind_eq_bind, Option.bind_eq_some_iff, Option.pure_def,
        Option.some.injEq] at h
      obtain ⟨first, hfirst, rest, hrest, rfl⟩ := h
      rcases List.mem_cons.mp hj with rfl | hj
      · exact valid_jsonOf item j hfirst
      · exact valid_jsonItems items rest hrest j hj

theorem valid_jsonEntries :
    ∀ (entries : List (PyValue × PyValue)) (members : List (String × Json)),
      jsonEntries T entries = some members → ∀ member ∈ members, Valid member.2
  | [], _, rfl, member, hmember => by cases hmember
  | (key, value) :: entries, members, h, member, hmember => by
      cases key with
      | str name =>
          simp only [jsonEntries, Option.bind_eq_bind, Option.bind_eq_some_iff, Option.pure_def,
            Option.some.injEq] at h
          obtain ⟨first, hfirst, rest, hrest, rfl⟩ := h
          rcases List.mem_cons.mp hmember with rfl | hmember
          · exact valid_jsonOf value first hfirst
          · exact valid_jsonEntries entries rest hrest member hmember
      | _ => cases h

end

theorem valid_fallbackEntry
    {entry : FallbackEntry}
    {j : Json}
    (h : entry.json T = some j) :
    Valid j := by
  cases entry with
  | str text =>
      obtain rfl := Option.some.inj h
      exact .string text
  | dict fields => exact valid_jsonOf _ j h

theorem valid_fallbackConfig
    {config : FallbackConfig}
    {j : Json}
    (h : config.json T = some j) :
    Valid j := by
  rw [FallbackConfig.json, Option.bind_eq_bind, Option.bind_eq_some_iff] at h
  obtain ⟨fallbackModels, hmodels, hj⟩ := h
  obtain rfl := Option.some.inj hj
  have harray : Valid (.array fallbackModels) := by
    refine .array fun item hitem => ?_
    obtain ⟨entry, -, hentry⟩ := exists_of_mem_mapM hmodels hitem
    exact valid_fallbackEntry hentry
  refine .object ?_ ?_
  · cases config.fallbackCallback <;> simp
  · cases config.fallbackCallback <;>
      simp [harray, Valid.string, Valid.int, Valid.bool]

theorem valid_specValue
    {value : SpecValue F}
    {j : Json}
    (h : value.json T = some j) :
    Valid j := by
  cases value with
  | str text =>
      obtain rfl := Option.some.inj h
      exact .string text
  | bool value =>
      obtain rfl := Option.some.inj h
      exact .bool value
  | int value =>
      obtain rfl := Option.some.inj h
      exact .int value
  | float value =>
      obtain rfl := Option.some.inj h
      exact .float (T.repr value).2
  | texts items =>
      obtain rfl := Option.some.inj h
      refine .array fun item hitem => ?_
      obtain ⟨text, -, rfl⟩ := List.mem_map.mp hitem
      exact .string text
  | fallback config => exact valid_fallbackConfig h

/-- The dump is a tree with distinct names at every depth. -/
theorem valid_spec
    {spec : FullModelSpec P}
    {dump : Json}
    (h : spec.json T = some dump) :
    Valid dump := by
  rw [FullModelSpec.json, Option.bind_eq_bind, Option.bind_eq_some_iff] at h
  obtain ⟨members, hmembers, hdump⟩ := h
  obtain rfl := Option.some.inj hdump
  have hmember : ∀ (field : String × SpecValue F) (member : String × Json),
      jsonMember T field = some member → member.1 = field.1 ∧ Valid member.2 := by
    intro field member h
    rw [jsonMember, Option.bind_eq_bind, Option.bind_eq_some_iff] at h
    obtain ⟨j, hj, hmember⟩ := h
    obtain rfl := Option.some.inj hmember
    exact ⟨rfl, valid_specValue hj⟩
  refine .object ?_ fun member hmem => ?_
  · rw [map_eq_of_mapM (fun field member h => (hmember field member h).1) hmembers]
    exact spec.nodup_keys_dump
  · obtain ⟨field, -, hfield⟩ := exists_of_mem_mapM hmembers hmem
    exact (hmember field member hfield).2

end Trees

namespace CacheKeyBuilder

/-- The hashes that the caller supplies. -/
structure Hashes where
  messagesHash : String
  toolDefsHash : String := ""
  responseModelHash : String := ""

/-- What the digest is over. -/
def payload (dump : Json) (hashes : Hashes) : Json :=
  .object
    [("spec", dump),
      ("messages_hash", .string hashes.messagesHash),
      ("tool_defs_hash", .string hashes.toolDefsHash),
      ("response_model_hash", .string hashes.responseModelHash)]

section Keys

variable {F : Type} {P : SpecCoercions F} (T : FloatTexts F) (sha256 : List Char → String)

/-- `CacheKeyBuilder.build`; `sha256` is the hexadecimal digest of a text in UTF-8. -/
def build (spec : FullModelSpec P) (hashes : Hashes) : Option (Except CodecError String) :=
  (spec.json T).map fun dump => do
    let serialized ← dumpsSorted (payload dump hashes)
    return "ya:ck:v1:" ++ sha256 serialized

theorem valid_payload
    {dump : Json}
    (hdump : Valid dump)
    (hashes : Hashes) :
    Valid (payload dump hashes) := by
  refine .object ?_ ?_
  · simp
  · simp [hdump, Valid.string]

theorem ints_payload
    (dump : Json)
    (hashes : Hashes) :
    ints (payload dump hashes) = ints dump := by
  simp [payload, ints, intsMembers]

/-- No value of a field can stand for one of another. -/
theorem same_payload_iff
    {dump dump' : Json}
    {hashes hashes' : Hashes} :
    Same (· = ·) (payload dump hashes) (payload dump' hashes') ↔
      Same (· = ·) dump dump' ∧ hashes = hashes' := by
  constructor
  · intro h
    have hspec := h.members ("spec", dump) (by simp) ("spec", dump') (by simp) rfl
    have hstring : ∀ name text text',
        (name, JsonTree.string text) ∈ [("messages_hash", .string hashes.messagesHash),
          ("tool_defs_hash", .string hashes.toolDefsHash),
          ("response_model_hash", .string hashes.responseModelHash)] →
        (name, JsonTree.string text') ∈ [("messages_hash", .string hashes'.messagesHash),
          ("tool_defs_hash", .string hashes'.toolDefsHash),
          ("response_model_hash", .string hashes'.responseModelHash)] → text = text' := by
      intro name text text' hmem hmem'
      have hsame := h.members (name, .string text) (List.mem_cons_of_mem _ hmem)
        (name, .string text') (List.mem_cons_of_mem _ hmem') rfl
      exact JsonTree.string.inj (hsame.related trivial)
    obtain ⟨messages, toolDefs, responseModel⟩ := hashes
    obtain ⟨messages', toolDefs', responseModel'⟩ := hashes'
    obtain rfl := hstring "messages_hash" messages messages' (by simp) (by simp)
    obtain rfl := hstring "tool_defs_hash" toolDefs toolDefs' (by simp) (by simp)
    obtain rfl := hstring "response_model_hash" responseModel responseModel' (by simp) (by simp)
    exact ⟨hspec, rfl⟩
  · rintro ⟨hspec, rfl⟩
    refine .object_of_zip (by simp) rfl fun pair hpair => ?_
    simp only [List.zip_cons_cons, List.zip_nil_right, List.mem_cons, List.not_mem_nil,
      or_false] at hpair
    rcases hpair with rfl | rfl | rfl | rfl
    · exact hspec
    · exact .scalar trivial trivial rfl
    · exact .scalar trivial trivial rfl
    · exact .scalar trivial trivial rfl

/-- Two keys are one if they are of one text. -/
theorem exists_key_iff
    {sha256 : List Char → String}
    (hsha : Function.Injective sha256)
    {spec spec' : FullModelSpec P}
    {dump dump' : Json}
    (hdump : spec.json T = some dump)
    (hdump' : spec'.json T = some dump')
    (hashes hashes' : Hashes) :
    (∃ key, build T sha256 spec hashes = some (.ok key) ∧
        build T sha256 spec' hashes' = some (.ok key)) ↔
      ∃ serialized, dumpsSorted (payload dump hashes) = .ok serialized ∧
        dumpsSorted (payload dump' hashes') = .ok serialized := by
  have hbuild : ∀ {spec : FullModelSpec P} {dump : Json} (hashes : Hashes) (key : String),
      spec.json T = some dump →
      (build T sha256 spec hashes = some (.ok key) ↔
        ∃ serialized, dumpsSorted (payload dump hashes) = .ok serialized ∧
          "ya:ck:v1:" ++ sha256 serialized = key) := by
    intro spec dump hashes key hdump
    rw [build, hdump, Option.map_some, Option.some.injEq, bind_eq_ok_iff]
    simp only [pure, Except.pure, Except.ok.injEq]
  constructor
  · rintro ⟨key, hkey, hkey'⟩
    obtain ⟨serialized, hserialized, rfl⟩ := (hbuild hashes key hdump).mp hkey
    obtain ⟨serialized', hserialized', hsame⟩ := (hbuild hashes' _ hdump').mp hkey'
    obtain rfl := hsha ((String.append_right_inj _).mp hsame)
    exact ⟨serialized', hserialized, hserialized'⟩
  · rintro ⟨serialized, hserialized, hserialized'⟩
    exact ⟨_, (hbuild hashes _ hdump).mpr ⟨serialized, hserialized, rfl⟩,
      (hbuild hashes' _ hdump').mpr ⟨serialized, hserialized', rfl⟩⟩

end Keys

/-- Texts of floats among which one is the only number. -/
def oneText : FloatTexts ℚ where
  repr x := if x = 1 then ⟨"1.0", by decide⟩ else ⟨"nan", by decide⟩
  ofObject _ := none

/-- A specification with a mapping as its only fallback entry. -/
def withEntry (fields : PyDict) : FullModelSpec SpecCoercions.exact :=
  { FullModelSpec.gpt4o with
    temperature := some ⟨1, by decide⟩
    fallback := some
      { fallbackModels := [.dict fields]
        length_le := ⟨Nat.le_refl 1, Nat.le_add_left 1 9⟩ } }

/-- The dump of `fallback` then. -/
def entryFallback (entry : List (String × Json)) : Json :=
  .object
    [("fallback_models", .array [.object entry]),
      ("on_rate_limit", .string "route_fallback"),
      ("on_context_overflow", .string "route_fallback"),
      ("on_error", .string "retry_then_fallback"),
      ("max_fallback_hops", .int 3),
      ("propagate_session", .bool true)]

/-- The dump of such a specification. -/
def entryDump (entry : List (String × Json)) : Json :=
  .object
    [("provider", .string "openai"), ("id", .string "gpt-4o"), ("temperature", .float "1.0"),
      ("fallback", entryFallback entry)]

/-- The number that a value counts as; `exact` is the number that a float is. -/
def number (exact : String → Option ℚ) : Json → Option ℚ
  | .bool value => some (if value = true then 1 else 0)
  | .int value => some value
  | .float repr => exact repr
  | _ => none

/-- `==` between scalars: numbers are equal across their types, and NaN is equal to nothing. -/
def PyEq (exact : String → Option ℚ) (j j' : Json) : Prop :=
  (∃ q, number exact j = some q ∧ number exact j' = some q) ∨
    (number exact j = none ∧ number exact j' = none ∧ j = j' ∧ j ≠ .float "nan")

/-- The key identifies the invocation, where dumps are equal as far as `eq` says. -/
def IdentifiesInvocations (eq : Json → Json → Prop) : Prop :=
  ∀ (F : Type) (P : SpecCoercions F) (T : FloatTexts F) (sha256 : List Char → String),
    Function.Injective sha256 → ∀ (spec spec' : FullModelSpec P) (dump dump' : Json),
      spec.json T = some dump → spec'.json T = some dump' → ∀ hashes hashes' : Hashes,
        ((∃ key, build T sha256 spec hashes = some (.ok key) ∧
            build T sha256 spec' hashes' = some (.ok key)) ↔
          Same eq dump dump' ∧ hashes = hashes')

theorem length_toDigits_pow_le_iff
    {bound : ℕ}
    (hbound : 0 < bound)
    (k : ℕ) :
    (Nat.toDigits 10 (10 ^ k)).length ≤ bound ↔ k < bound := by
  rw [Nat.length_toDigits_le_iff (by decide) hbound]
  exact Nat.pow_lt_pow_iff_right (by decide)

/-- The powers of ten that can be written. -/
theorem printable_pow_iff
    (k : ℕ) :
    Printable ((10 ^ k : ℕ) : ℤ) ↔ k < 4300 :=
  length_toDigits_pow_le_iff (by decide) k

/-- A specification with an integer of 4301 digits. -/
def longSeed : FullModelSpec SpecCoercions.exact :=
  { FullModelSpec.gpt4o with seed := some ((10 ^ 4300 : ℕ) : ℤ) }

def longSeedDump : Json :=
  .object [("provider", .string "openai"), ("id", .string "gpt-4o"),
    ("seed", .int ((10 ^ 4300 : ℕ) : ℤ))]

/-- An integer of 4301 digits has no key, and so no key in common with itself. -/
theorem not_identifies_identical :
    ¬ IdentifiesInvocations (· = ·) := by
  intro hall
  have hdump : longSeed.json oneText = some longSeedDump := rfl
  have hinj : Function.Injective String.ofList := fun _ _ => String.ofList_inj.mp
  have hvalid := valid_spec hdump
  have hkey := (hall ℚ .exact oneText String.ofList hinj longSeed longSeed longSeedDump
    longSeedDump hdump hdump ⟨"", "", ""⟩ ⟨"", "", ""⟩).mpr
      ⟨(sortKeys_eq_iff hvalid hvalid).mp rfl, rfl⟩
  rw [exists_key_iff oneText hinj hdump hdump,
    dumpsSorted_eq_iff (valid_payload hvalid _) (valid_payload hvalid _), ints_payload] at hkey
  have hints : ints longSeedDump = [((10 ^ 4300 : ℕ) : ℤ)] := rfl
  have hprintable := hkey.2 _ (hints ▸ List.mem_singleton_self _)
  exact absurd ((printable_pow_iff 4300).mp hprintable) (by decide)

theorem pyEq_refl
    (exact : String → Option ℚ)
    {j : Json}
    (h : j ≠ .float "nan") :
    PyEq exact j j := by
  cases hnumber : number exact j with
  | none => exact .inr ⟨hnumber, hnumber, rfl, h⟩
  | some q => exact .inl ⟨q, hnumber, hnumber⟩

/-- A fallback entry with a value for `thinking`. -/
def thinkingEntry (value : PyValue) : PyDict :=
  [("provider", .str "openai"), ("id", .str "o3"), ("thinking", value)]

/-- The members of such an entry in the dump. -/
def thinkingMembers (value : Json) : List (String × Json) :=
  [("provider", .string "openai"), ("id", .string "o3"), ("thinking", value)]

/-- The value reaches the dump, whatever scalars are equal. -/
theorem same_thinking_iff
    {eq : Json → Json → Prop}
    (heq : ∀ j, IsScalar j → j ≠ .float "nan" → eq j j)
    (value value' : Json) :
    Same eq (entryDump (thinkingMembers value)) (entryDump (thinkingMembers value')) ↔
      Same eq value value' := by
  constructor
  · intro h
    have hfallback := h.members ("fallback", _) (.tail _ (.tail _ (.tail _ (.head _))))
      ("fallback", _) (.tail _ (.tail _ (.tail _ (.head _)))) rfl
    have hmodels := hfallback.members ("fallback_models", _) (.head _) ("fallback_models", _)
      (.head _) rfl
    have hentry := hmodels.items (_, _) (.head _)
    exact hentry.members ("thinking", _) (.tail _ (.tail _ (.head _))) ("thinking", _)
      (.tail _ (.tail _ (.head _))) rfl
  · intro h
    have hstring : ∀ text, Same eq (.string text) (.string text) := fun text =>
      .scalar trivial trivial (heq _ trivial (by simp))
    have hint : ∀ n, Same eq (.int n) (.int n) := fun n =>
      .scalar trivial trivial (heq _ trivial (by simp))
    have hbool : ∀ b, Same eq (.bool b) (.bool b) := fun b =>
      .scalar trivial trivial (heq _ trivial (by simp))
    have hfloat : Same eq (.float "1.0") (.float "1.0") :=
      .scalar trivial trivial (heq _ trivial (by simp))
    have hentry : Same eq (.object (thinkingMembers value)) (.object (thinkingMembers value')) :=
      .object_of_zip (by simp [thinkingMembers]) rfl (by simp [thinkingMembers, hstring, h])
    have hmodels : Same eq (.array [.object (thinkingMembers value)])
        (.array [.object (thinkingMembers value')]) :=
      .array rfl (by simp [hentry])
    have hfallback : Same eq (entryFallback (thinkingMembers value))
        (entryFallback (thinkingMembers value')) :=
      .object_of_zip (by simp) rfl (by simp [hstring, hint, hbool, hmodels])
    exact .object_of_zip (by simp) rfl (by simp [hstring, hfloat, hfallback])

/-- One and `True` are equal in Python, and have two keys. -/
theorem not_identifies_pyEq
    (exact : String → Option ℚ) :
    ¬ IdentifiesInvocations (PyEq exact) := by
  intro hall
  have hdump : (withEntry (thinkingEntry (.int 1))).json oneText =
      some (entryDump (thinkingMembers (.int 1))) := rfl
  have hdump' : (withEntry (thinkingEntry (.bool true))).json oneText =
      some (entryDump (thinkingMembers (.bool true))) := rfl
  have hinj : Function.Injective String.ofList := fun _ _ => String.ofList_inj.mp
  have hone : Same (PyEq exact) (.int 1) (.bool true) :=
    .scalar trivial trivial (.inl ⟨1, by simp [number], by simp [number]⟩)
  have hsame := (same_thinking_iff (fun j _ => pyEq_refl exact) _ _).mpr hone
  have hkey := (hall ℚ .exact oneText String.ofList hinj _ _ _ _ hdump hdump' ⟨"", "", ""⟩
    ⟨"", "", ""⟩).mpr ⟨hsame, rfl⟩
  rw [exists_key_iff oneText hinj hdump hdump',
    dumpsSorted_eq_iff (valid_payload (valid_spec hdump) _) (valid_payload (valid_spec hdump') _),
    same_payload_iff, same_thinking_iff (fun _ _ _ => rfl)] at hkey
  have hvalue : JsonTree.int 1 = .bool true := hkey.1.1.related trivial
  cases hvalue

end CacheKeyBuilder
end YamlAgno
