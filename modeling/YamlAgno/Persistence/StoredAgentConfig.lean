import YamlAgno.Library.SchemaFields
import YamlAgno.Library.YamlFormat
import YamlAgno.Models.ModelSpec

/-!
# What is stored of an agent config

`AgentConfigRepository.save` stores a validated `AgentConfig` twice: the dictionary of
`model_dump` goes into a JSON column, and its `yaml.dump` into a text column.  The blocks of
the config that are validated elsewhere are opaque dictionaries, so whatever a YAML document
may hold reaches both columns.

A dumped config is validated as the same config (`modelValidate_dictOfFields`), and what a
validated one holds has the properties of the parts of the document
(`holds_of_modelValidate`).  So what becomes of a stored config is decided by the two formats:
it comes back from both columns exactly if JSON has everything that stands in it
(`decodesToSaved_iff`).
-/

namespace YamlAgno

open PyDocument PyRegex PyString

namespace AgentConfig

/-- The class `[A-Za-z0-9_-]`. -/
def isNameChar (c : Char) : Bool :=
  isWordChar c ∨ c = '-'

/-- `validate_name_characters`. -/
def validateNameCharacters (v : String) : Except String String :=
  if matchLine [.many isNameChar] v.toList then .ok v
  else .error ("Invalid agent name: " ++ v ++
    ". Only alphanumeric, underscore and hyphen allowed.")

/-- The checks of the field `name`. -/
def ValidName (v : String) : Prop :=
  1 ≤ v.length ∧ v.length ≤ 100 ∧ validateNameCharacters v = .ok v

/-- The check of the field `model`, in a string that may have surrogates in it: the text before
the first colon is not empty, nor is the text after it. -/
def ValidModel {S : Type} [StringType S] (v : S) : Prop :=
  (chars v).takeWhile (· ≠ .char ':') ≠ [] ∧
    2 ≤ ((chars v).dropWhile (· ≠ .char ':')).length

instance : DecidablePred ValidName := fun v =>
  inferInstanceAs (Decidable (_ ∧ _ ∧ validateNameCharacters v = .ok v))

instance {S : Type} [StringType S] : DecidablePred (ValidModel : S → Prop) := fun _ =>
  inferInstanceAs (Decidable (_ ∧ _))

end AgentConfig

/-- `AgentConfig`, with strings in `S`.  The library refuses surrogates in the two fields whose
length is checked. -/
structure AgentConfig (S : Type) [StringType S] where
  name : {v : String // AgentConfig.ValidName v}
  model : {v : S // AgentConfig.ValidModel v}
  instructions : Option {v : String // v.length ≤ 50000}
  description : Option S
  toolCallLimit : Option {n : ℤ // 1 ≤ n}
  tools : {tools : List (StrDict S) // tools.length ≤ 50}
  knowledge : Option (StrDict S)
  memory : Option (StrDict S)
  session : Option (StrDict S)
  reasoning : Option (StrDict S)
  skills : Option (StrDict S)
  humanReview : Option (StrDict S)
  culture : Option (StrDict S)
  persistence : Option (StrDict S)
  tags : {tags : List S // tags.length ≤ 20}
  metadata : StrDict S

namespace AgentConfig

/-- Where there are no surrogates, the check is that of `validate_model_format`. -/
theorem validModel_iff
    (v : String) :
    ValidModel v ↔ validateModelFormat v = .ok v := by
  have hsplit : ∀ cs : List Char,
      ((cs.map PyChar.char).takeWhile (· ≠ .char ':') ≠ [] ∧
        2 ≤ ((cs.map PyChar.char).dropWhile (· ≠ .char ':')).length) ↔
      ∃ provider id, PyText.splitFirst ':' cs = some (provider, id) ∧ provider ≠ [] ∧ id ≠ [] := by
    intro cs
    have hcolon : (fun c : PyChar => decide (c ≠ .char ':')) ∘ PyChar.char =
        fun c => decide (c ≠ ':') := by
      funext c
      simp
    rw [List.takeWhile_map, List.dropWhile_map, hcolon, Ne, List.map_eq_nil_iff, List.length_map]
    simp only [PyText.splitFirst_eq_some_iff]
    constructor
    · rintro ⟨hprovider, hrest⟩
      obtain ⟨first, id, hsplit⟩ : ∃ first id, cs.dropWhile (fun c => decide (c ≠ ':')) = first :: id :=
        List.exists_cons_of_length_pos (by omega)
      have hfirst : first = ':' := by
        have hhead := List.head?_dropWhile_not (fun c => decide (c ≠ ':')) cs
        rw [hsplit] at hhead
        simpa using hhead
      rw [hsplit, List.length_cons] at hrest
      rw [hfirst] at hsplit
      refine ⟨cs.takeWhile fun c => decide (c ≠ ':'), id, ⟨?_, fun hmem => ?_⟩, hprovider, ?_⟩
      · rw [← hsplit, List.takeWhile_append_dropWhile]
      · simpa using List.mem_takeWhile_imp hmem
      · rintro rfl
        simp at hrest
    · rintro ⟨provider, id, ⟨rfl, hnot⟩, hprovider, hid⟩
      have hall : ∀ c ∈ provider, decide (c ≠ ':') = true := fun c hc => by
        simpa using fun h : c = ':' => hnot (h ▸ hc)
      rw [List.takeWhile_append_of_pos hall, List.dropWhile_append_of_pos hall]
      have hpos := List.length_pos_of_ne_nil hid
      simp [hprovider]
      omega
  exact (hsplit v.toList).trans validateModelFormat_eq_ok_iff.symm

variable {S : Type} [StringType S]

/-! ## Dumping and validating -/

def fieldNames : List String :=
  ["name", "model", "instructions", "description", "tool_call_limit", "tools", "knowledge",
    "memory", "session", "reasoning", "skills", "human_review", "culture", "persistence",
    "tags", "metadata"]

/-- The fields in the order of their declaration. -/
def modelFields (config : AgentConfig S) : List (String × Value S) :=
  [("name", dumpText config.name.1),
    ("model", dumpStr config.model.1),
    ("instructions", dumpNullable (fun v => dumpText v.1) config.instructions),
    ("description", dumpNullable dumpStr config.description),
    ("tool_call_limit", dumpNullable (fun n => dumpInt n.1) config.toolCallLimit),
    ("tools", dumpList dumpDict config.tools.1),
    ("knowledge", dumpNullable dumpDict config.knowledge),
    ("memory", dumpNullable dumpDict config.memory),
    ("session", dumpNullable dumpDict config.session),
    ("reasoning", dumpNullable dumpDict config.reasoning),
    ("skills", dumpNullable dumpDict config.skills),
    ("human_review", dumpNullable dumpDict config.humanReview),
    ("culture", dumpNullable dumpDict config.culture),
    ("persistence", dumpNullable dumpDict config.persistence),
    ("tags", dumpList dumpStr config.tags.1),
    ("metadata", dumpDict config.metadata)]

/-- The dictionary of the fields. -/
def dictOfFields (config : AgentConfig S) : Value S :=
  .dict (ofFields config.modelFields)

/-- `config.model_dump()`. -/
def modelDump (config : AgentConfig S) : Except CodecError (Value S) :=
  if config.dictOfFields.circular then
    .error (.valueError "Circular reference detected (id repeated)")
  else .ok config.dictOfFields

section Reading

variable [DecidableEq S]

/-- An opaque block. -/
def readSlot
    (lax : LaxMode S)
    (entries : List (Scalar S × Value S))
    (key : String) :
    Option (Option (StrDict S)) :=
  withDefault none (readNullable (readDict lax)) entries key

/-- The fields, each for itself. -/
def readFields (lax : LaxMode S) (entries : List (Scalar S × Value S)) :
    Option (AgentConfig S) := do
  let name ← required (readChecked ValidName (readText lax)) entries "name"
  let model ← required (readChecked ValidModel (readStr lax)) entries "model"
  let instructions ← withDefault none
    (readNullable (readChecked (fun v : String => v.length ≤ 50000) (readText lax))) entries
    "instructions"
  let description ← withDefault none (readNullable (readStr lax)) entries "description"
  let toolCallLimit ← withDefault none
    (readNullable (readChecked (fun n : ℤ => 1 ≤ n) (readInt lax))) entries "tool_call_limit"
  let tools ← withDefault ⟨[], Nat.zero_le 50⟩
    (readChecked (fun tools : List (StrDict S) => tools.length ≤ 50) (readList (readDict lax)))
    entries "tools"
  let knowledge ← readSlot lax entries "knowledge"
  let memory ← readSlot lax entries "memory"
  let session ← readSlot lax entries "session"
  let reasoning ← readSlot lax entries "reasoning"
  let skills ← readSlot lax entries "skills"
  let humanReview ← readSlot lax entries "human_review"
  let culture ← readSlot lax entries "culture"
  let persistence ← readSlot lax entries "persistence"
  let tags ← withDefault ⟨[], Nat.zero_le 20⟩
    (readChecked (fun tags : List S => tags.length ≤ 20) (readList (readStr lax))) entries "tags"
  let metadata ← withDefault .empty (readDict lax) entries "metadata"
  return ⟨name, model, instructions, description, toolCallLimit, tools, knowledge, memory,
    session, reasoning, skills, humanReview, culture, persistence, tags, metadata⟩

/-- `AgentConfig.model_validate` (`none`: a validation error); other keys are forbidden. -/
def modelValidate (lax : LaxMode S) : Value S → Option (AgentConfig S)
  | .dict entries =>
      if entries.all fun entry => fieldNames.any fun name => entry.1 = .str (ofString name) then
        readFields lax entries
      else none
  | _ => none

end Reading

/-! ## Saving -/

/-- The row that `save` inserts, but for the id that it is given. -/
structure Record (Tenant S : Type) where
  tenantId : Tenant
  name : String
  version : ℤ
  configYaml : String
  configJsonb : Value S
  isActive : Bool

/-- `save`, up to the insertion. -/
def record
    {Tenant : Type}
    (text : TextFormat S)
    (tenantId : Tenant)
    (config : AgentConfig S) :
    Except CodecError (Record Tenant S) := do
  let configDict ← config.modelDump
  let configYamlStr ← text.dump configDict
  return ⟨tenantId, config.name.1, 1, configYamlStr, configDict, true⟩

/-! ## Validating what has been dumped -/

section Validating

variable [DecidableEq S]

/-- A config that is dumped and validated is the same config. -/
theorem readFields_modelFields
    (lax : LaxMode S)
    (config : AgentConfig S) :
    readFields lax (ofFields config.modelFields) = some config := by
  have hstr := Undoes.str lax
  have htext := Undoes.text lax
  have hdict := Undoes.dict lax
  have hslot := hdict.nullable dumpDict_ne_none
  have hinstructions := Undoes.nullable (htext.checked (p := fun v : String => v.length ≤ 50000))
    fun v => dumpText_ne_none v.1
  have hlimit := Undoes.nullable ((Undoes.int lax).checked (p := fun n : ℤ => 1 ≤ n))
    fun n => dumpInt_ne_none n.1
  have htools := hdict.list.checked (p := fun tools : List (StrDict S) => tools.length ≤ 50)
  have htags := hstr.list.checked (p := fun tags : List S => tags.length ≤ 20)
  unfold readFields readSlot
  rw [required_ofFields (a := config.name) htext.checked rfl,
    required_ofFields (a := config.model) hstr.checked rfl,
    withDefault_ofFields (a := config.instructions) hinstructions rfl,
    withDefault_ofFields (a := config.description) (hstr.nullable dumpStr_ne_none) rfl,
    withDefault_ofFields (a := config.toolCallLimit) hlimit rfl,
    withDefault_ofFields (a := config.tools) htools rfl,
    withDefault_ofFields (a := config.knowledge) hslot rfl,
    withDefault_ofFields (a := config.memory) hslot rfl,
    withDefault_ofFields (a := config.session) hslot rfl,
    withDefault_ofFields (a := config.reasoning) hslot rfl,
    withDefault_ofFields (a := config.skills) hslot rfl,
    withDefault_ofFields (a := config.humanReview) hslot rfl,
    withDefault_ofFields (a := config.culture) hslot rfl,
    withDefault_ofFields (a := config.persistence) hslot rfl,
    withDefault_ofFields (a := config.tags) htags rfl,
    withDefault_ofFields (a := config.metadata) hdict rfl]
  rfl

/-- The keys of a dumped config are those of the schema. -/
theorem modelValidate_dictOfFields
    (lax : LaxMode S)
    (config : AgentConfig S) :
    modelValidate lax config.dictOfFields = some config := by
  have hkeys : (ofFields config.modelFields).all (fun entry =>
      fieldNames.any fun name => entry.1 = .str (ofString name)) = true := by
    simp [ofFields, ofEntries, modelFields, fieldNames]
  rw [dictOfFields, modelValidate, if_pos hkeys]
  exact readFields_modelFields lax config

end Validating

/-! ## What a config holds -/

/-- What an opaque block holds. -/
def slotHeld (slot : Option (StrDict S)) : List (Value S) :=
  slot.elim [] StrDict.held

/-- The blocks that other schemas validate. -/
def slots (config : AgentConfig S) : List (Option (StrDict S)) :=
  [config.knowledge, config.memory, config.session, config.reasoning, config.skills,
    config.humanReview, config.culture, config.persistence]

/-- The strings that may have surrogates in them, and the keys and values of the opaque
dictionaries. -/
def held (config : AgentConfig S) : List (Value S) :=
  (dumpStr config.model.1 :: config.description.elim [] fun v => [dumpStr v]) ++
    config.tools.1.flatMap StrDict.held ++ config.slots.flatMap slotHeld ++
    config.tags.1.flatMap (fun tag => [dumpStr tag]) ++ config.metadata.held

/-- What a validated config holds has the property if the document has it. -/
theorem holds_of_modelValidate
    [DecidableEq S]
    {P : Value S → Prop}
    (hP : Hereditary P)
    {lax : LaxMode S}
    {document : Value S}
    {config : AgentConfig S}
    (h : modelValidate lax document = some config)
    (hdocument : P document)
    {value : Value S}
    (hvalue : value ∈ config.held) :
    P value := by
  cases document with
  | dict entries =>
      rw [modelValidate] at h
      split_ifs at h
      unfold readFields readSlot at h
      obtain ⟨name, -, h⟩ := Option.bind_eq_some_iff.mp h
      obtain ⟨model, hmodel, h⟩ := Option.bind_eq_some_iff.mp h
      obtain ⟨instructions, -, h⟩ := Option.bind_eq_some_iff.mp h
      obtain ⟨description, hdescription, h⟩ := Option.bind_eq_some_iff.mp h
      obtain ⟨toolCallLimit, -, h⟩ := Option.bind_eq_some_iff.mp h
      obtain ⟨tools, htools, h⟩ := Option.bind_eq_some_iff.mp h
      obtain ⟨knowledge, hknowledge, h⟩ := Option.bind_eq_some_iff.mp h
      obtain ⟨memory, hmemory, h⟩ := Option.bind_eq_some_iff.mp h
      obtain ⟨session, hsession, h⟩ := Option.bind_eq_some_iff.mp h
      obtain ⟨reasoning, hreasoning, h⟩ := Option.bind_eq_some_iff.mp h
      obtain ⟨skills, hskills, h⟩ := Option.bind_eq_some_iff.mp h
      obtain ⟨humanReview, hhumanReview, h⟩ := Option.bind_eq_some_iff.mp h
      obtain ⟨culture, hculture, h⟩ := Option.bind_eq_some_iff.mp h
      obtain ⟨persistence, hpersistence, h⟩ := Option.bind_eq_some_iff.mp h
      obtain ⟨tags, htags, h⟩ := Option.bind_eq_some_iff.mp h
      obtain ⟨metadata, hmetadata, h⟩ := Option.bind_eq_some_iff.mp h
      cases h
      have hstr := Preserves.str hP lax
      have hdict := Preserves.dict hP lax
      simp only [held, List.mem_append, List.mem_cons, List.mem_flatMap] at hvalue
      rcases hvalue with (((((rfl | hvalue) | hvalue) | ⟨slot, hslot, hvalue⟩) | hvalue) | hvalue)
      · exact hstr.checked.required hP hdocument hmodel (List.mem_singleton_self _)
      · exact hstr.nullable.withDefault hP rfl hdocument hdescription hvalue
      · exact (hdict.list hP).checked.withDefault hP rfl hdocument htools
          (List.mem_flatMap.mpr hvalue)
      · simp only [slots, List.mem_cons, List.not_mem_nil, or_false] at hslot
        rcases hslot with rfl | rfl | rfl | rfl | rfl | rfl | rfl | rfl
        · exact hdict.nullable.withDefault hP rfl hdocument hknowledge hvalue
        · exact hdict.nullable.withDefault hP rfl hdocument hmemory hvalue
        · exact hdict.nullable.withDefault hP rfl hdocument hsession hvalue
        · exact hdict.nullable.withDefault hP rfl hdocument hreasoning hvalue
        · exact hdict.nullable.withDefault hP rfl hdocument hskills hvalue
        · exact hdict.nullable.withDefault hP rfl hdocument hhumanReview hvalue
        · exact hdict.nullable.withDefault hP rfl hdocument hculture hvalue
        · exact hdict.nullable.withDefault hP rfl hdocument hpersistence hvalue
      · obtain ⟨tag, htag, htagValue⟩ := hvalue
        exact (hstr.list hP).checked.withDefault hP rfl hdocument htags
          (List.mem_flatMap.mpr ⟨tag, htag, by simpa [dumpStr] using htagValue⟩)
      · exact hdict.withDefault hP rfl hdocument hmetadata hvalue
  | scalar _ | list _ | tuple _ | set _ | enclosing _ => cases h

/-- The dumped dictionary has a property if what the config holds has it. -/
theorem holds_dictOfFields
    {P : Value S → Prop}
    (hP : Closed P)
    {config : AgentConfig S}
    (hlimit : ∀ n ∈ config.toolCallLimit, P (dumpInt n.1))
    (hheld : ∀ value ∈ config.held, P value) :
    P config.dictOfFields := by
  simp only [held, List.forall_mem_append, List.forall_mem_cons] at hheld
  obtain ⟨⟨⟨⟨⟨hmodel, hdescription⟩, htools⟩, hslots⟩, htags⟩, hmetadata⟩ := hheld
  have hslot : ∀ slot ∈ config.slots, P (dumpNullable dumpDict slot) := fun slot hslot =>
    (Writes.dict hP).nullable hP slot fun value hvalue =>
      hslots value (List.mem_flatMap.mpr ⟨slot, hslot, hvalue⟩)
  have hinstructions : P (dumpNullable (fun v => dumpText v.1) config.instructions) := by
    cases config.instructions with
    | none => exact hP.none
    | some v => exact hP.text v.1
  have htoolCallLimit : P (dumpNullable (fun n => dumpInt n.1) config.toolCallLimit) := by
    cases hn : config.toolCallLimit with
    | none => exact hP.none
    | some n => exact hlimit n hn
  simp only [slots, List.forall_mem_cons, List.not_mem_nil, false_implies, implies_true,
    and_true] at hslot
  obtain ⟨hknowledge, hmemory, hsession, hreasoning, hskills, hhumanReview, hculture,
    hpersistence⟩ := hslot
  refine hP.fields (by simp [modelFields]) ?_
  simp only [modelFields, List.forall_mem_cons, List.not_mem_nil, false_implies, implies_true,
    and_true]
  exact ⟨hP.text _, hmodel, hinstructions, Writes.str.nullable hP _ hdescription, htoolCallLimit,
    (Writes.dict hP).list hP _ htools, hknowledge, hmemory, hsession, hreasoning, hskills,
    hhumanReview, hculture, hpersistence, Writes.str.list hP _ htags, Writes.dict hP _ hmetadata⟩

/-! ## Decoding what is stored -/

/-- JSON has everything that stands in the config. -/
structure JsonNative (config : AgentConfig PyStr) : Prop where
  limit : ∀ n ∈ config.toolCallLimit, Printable n.1
  held : ∀ value ∈ config.held, PyDocument.JsonNative value

/-- Both columns of the saved row can be decoded, and are validated as the saved config. -/
def DecodesToSaved
    {Tenant : Type}
    (lax : LaxMode PyStr)
    (text : TextFormat PyStr)
    (tenantId : Tenant)
    (config : AgentConfig PyStr) : Prop :=
  ∃ record, config.record text tenantId = .ok record ∧
    (∃ json payload, dumps record.configJsonb = .ok json ∧ loads json = .ok payload ∧
      modelValidate lax payload = some config) ∧
    ∃ payload, text.safeLoad record.configYaml = .ok payload ∧
      modelValidate lax payload.1 = some config

/-- What `save` writes, if it gets to the insertion. -/
theorem record_eq_ok_iff
    {Tenant : Type}
    {text : TextFormat S}
    {tenantId : Tenant}
    {config : AgentConfig S}
    {record : Record Tenant S} :
    config.record text tenantId = .ok record ↔
      config.dictOfFields.circular = false ∧
        ∃ source, text.dump config.dictOfFields = .ok source ∧
          record = ⟨tenantId, config.name.1, 1, source, config.dictOfFields, true⟩ := by
  unfold AgentConfig.record modelDump
  cases hcircular : config.dictOfFields.circular with
  | true => simp [bind, Except.bind]
  | false =>
      cases hdump : text.dump config.dictOfFields with
      | error error => simp [bind, Except.bind, hdump]
      | ok source => simp [bind, Except.bind, pure, Except.pure, hdump, eq_comm]

/-- A limit that has been written as JSON is not too long. -/
theorem printable_of_dumps
    {config : AgentConfig PyStr}
    {json : WrittenJson}
    (h : dumps config.dictOfFields = .ok json)
    {n : {n : ℤ // 1 ≤ n}}
    (hn : config.toolCallLimit = some n) :
    Printable n.1 := by
  have hfield : (Scalar.str (ofString "tool_call_limit"), dumpInt n.1) ∈
      ofFields config.modelFields := by
    simp [ofFields, ofEntries, modelFields, hn, dumpNullable]
  obtain ⟨member, hmember⟩ := exists_dumps_of_mem h hfield
  obtain ⟨m, hm, -⟩ := Fallible.bind_eq_ok_iff.mp hmember
  exact (intRepr_eq_ok_iff.mp hm).2

/--
A validated config is decoded from both columns as it was saved if and only if JSON has
everything that stands in it: no dates, times, bytes, sets or tuples, no keys but strings, no
string in which a high surrogate stands right before a low one, no integer of more than 4300
digits, and nothing that contains itself, at any depth.
-/
theorem decodesToSaved_iff
    {Tenant : Type}
    {lax : LaxMode PyStr}
    {document : {value : Value PyStr // value.WellFormed}}
    {config : AgentConfig PyStr}
    (hvalid : modelValidate lax document.1 = some config)
    {text : TextFormat PyStr}
    (hyaml : text.Documented config.dictOfFields)
    (tenantId : Tenant) :
    DecodesToSaved lax text tenantId config ↔ config.JsonNative := by
  constructor
  · rintro ⟨record, hrecord, ⟨json, payload, hdumps, hloads, hread⟩, -⟩
    obtain ⟨-, yaml, -, rfl⟩ := record_eq_ok_iff.mp hrecord
    exact
      { limit := fun n hn => printable_of_dumps hdumps hn
        held := fun value hvalue =>
          holds_of_modelValidate hereditary_jsonNative hread (jsonNative_of_loads json hloads)
            hvalue }
  · intro hnative
    have hjson : PyDocument.JsonNative config.dictOfFields :=
      holds_dictOfFields closed_jsonNative (fun n hn => .scalar (hnative.limit n hn)) hnative.held
    have hwell : config.dictOfFields.WellFormed :=
      holds_dictOfFields closed_wellFormed (fun n _ => .scalar (.int n.1)) fun value hvalue =>
        holds_of_modelValidate hereditary_wellFormed hvalid document.2 hvalue
    obtain ⟨json, hdumps, hloads⟩ := loads_dumps hjson hwell
    obtain ⟨yaml, hdump, hload⟩ := hyaml.plain hwell hjson.yamlPlain
    have hvalidate := modelValidate_dictOfFields lax config
    exact ⟨_, record_eq_ok_iff.mpr ⟨hjson.not_circular, yaml, hdump, rfl⟩,
      ⟨json, _, hdumps, hloads, hvalidate⟩, _, hload, hvalidate⟩

/-! ## Two configs -/

theorem validModel_gpt4o : ValidModel (ofString "openai:gpt-4o" : S) := by
  rw [ValidModel, chars_ofString]
  decide

/-- A config with a name, a model and free-form metadata. -/
def helper (metadata : StrDict S) : AgentConfig S where
  name := ⟨"helper", by decide⟩
  model := ⟨ofString "openai:gpt-4o", validModel_gpt4o⟩
  instructions := none
  description := none
  toolCallLimit := none
  tools := ⟨[], Nat.zero_le 50⟩
  knowledge := none
  memory := none
  session := none
  reasoning := none
  skills := none
  humanReview := none
  culture := none
  persistence := none
  tags := ⟨[], Nat.zero_le 20⟩
  metadata := metadata

/-- What stands in such a config is its model and its metadata. -/
theorem held_helper
    (metadata : StrDict S) :
    (helper metadata).held = dumpText "openai:gpt-4o" :: metadata.held := by
  rfl

/-- The dictionary of such a config has a property if the metadata have it. -/
theorem holds_helper
    {P : Value S → Prop}
    (hP : Closed P)
    {metadata : StrDict S}
    (h : ∀ value ∈ metadata.held, P value) :
    P (helper metadata).dictOfFields := by
  refine holds_dictOfFields hP (fun n hn => by cases hn) ?_
  rw [held_helper, List.forall_mem_cons]
  exact ⟨hP.text _, h⟩

/-- Metadata with one entry. -/
def oneEntry (key : String) (value : Value S) : StrDict S :=
  ⟨[(ofString key, value)], List.nodup_singleton _⟩

theorem holds_oneEntry
    {P : Value S → Prop}
    (hP : Closed P)
    (key : String)
    {value : Value S}
    (h : P value) :
    P (helper (oneEntry key value)).dictOfFields :=
  holds_helper hP (by simp [oneEntry, StrDict.held, hP.text, h])

/-- The text of a config with the given metadata. -/
def helperText (metadata : String) : String :=
  "name: helper\nmodel: openai:gpt-4o\ninstructions: null\ndescription: null\n" ++
    "tool_call_limit: null\ntools: []\nknowledge: null\nmemory: null\nsession: null\n" ++
    "reasoning: null\nskills: null\nhuman_review: null\nculture: null\npersistence: null\n" ++
    "tags: []\nmetadata:\n  " ++ metadata ++ "\n"

/-- `metadata: {team: search}`. -/
def team (S : Type) [StringType S] : AgentConfig S :=
  helper (oneEntry "team" (dumpText "search"))

theorem wellFormed_team : (team S).dictOfFields.WellFormed :=
  holds_oneEntry closed_wellFormed "team" (.scalar _)

theorem yamlPlain_team : YamlPlain (team S).dictOfFields :=
  holds_oneEntry closed_yamlPlain "team" (closed_yamlPlain.text _)

theorem decodesToSaved_team :
    DecodesToSaved LaxMode.strict
      (.single (helperText "team: search") ⟨_, wellFormed_team⟩) () (team PyStr) := by
  let document : {value : Value PyStr // value.WellFormed} := ⟨_, wellFormed_team⟩
  have hvalid : modelValidate LaxMode.strict document.1 = some (team PyStr) :=
    modelValidate_dictOfFields LaxMode.strict (team PyStr)
  have hnative : (team PyStr).JsonNative :=
    { limit := fun n hn => by cases hn
      held := by
        rw [team, held_helper]
        simp [oneEntry, StrDict.held, dumpText, closed_jsonNative.text] }
  exact (decodesToSaved_iff hvalid
    (TextFormat.documented_single _ wellFormed_team yamlPlain_team) ()).mpr hnative

/-- `metadata: {released: 2024-01-01}`. -/
def dated : AgentConfig PyStr :=
  helper (oneEntry "released" (.scalar (.date "2024-01-01")))

/-- A date among the metadata is not written as JSON, so the config is not stored. -/
theorem dated_config_not_stored :
    dumps dated.dictOfFields =
        .error (.typeError "Object of type date is not JSON serializable") ∧
      ¬ ∀ (lax : LaxMode PyStr) (text : TextFormat PyStr) (source : String)
          (document : {value : Value PyStr // value.WellFormed}) (config : AgentConfig PyStr),
        text.safeLoad source = .ok document → modelValidate lax document.1 = some config →
          text.Documented config.dictOfFields → DecodesToSaved lax text () config := by
  have hrefused : dumps dated.dictOfFields =
      .error (.typeError "Object of type date is not JSON serializable") := rfl
  refine ⟨hrefused, fun hall => ?_⟩
  have hwell : dated.dictOfFields.WellFormed :=
    holds_oneEntry closed_wellFormed "released" (.scalar _)
  have hplain : YamlPlain dated.dictOfFields :=
    holds_oneEntry closed_yamlPlain "released" (yamlPlain_scalar trivial)
  obtain ⟨record, hrecord, ⟨json, payload, hdumps, -⟩, -⟩ :=
    hall LaxMode.strict (.single (helperText "released: 2024-01-01") ⟨_, hwell⟩) _ _ dated
      (TextFormat.safeLoad_single _ _) (modelValidate_dictOfFields _ _)
      (TextFormat.documented_single _ hwell hplain)
  obtain ⟨-, yaml, -, rfl⟩ := record_eq_ok_iff.mp hrecord
  rw [hrefused] at hdumps
  cases hdumps

end AgentConfig
end YamlAgno
