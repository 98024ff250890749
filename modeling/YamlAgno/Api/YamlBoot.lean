import YamlAgno.Api.App
import YamlAgno.Factories.AgentBuilds

/-!
# Starting from a file

`YamlAgentOS(config_path=...)` reads the agent definitions of a YAML file, validates each by
`AgentConfig` and hands it to `AgentFactory.build`, which gets neither a resolver nor a
provider factory.  Here the startup of `Api.App` has these parts in the place of its
parameters.

The startup is the traversal of the entries of the file (`resolveAgents_file`): an app that
starts has one agent for each of them, with the model as it is written and without tools, and
a startup that fails has failed at the first entry that no agent can be built from
(`starts_or_fails`).  Configs that are written to a file start as they are exactly if nothing in
them is a tuple or an integer that is too long to be written (`startsAsWritten_iff`).  Strings
are texts without surrogates here.
-/

namespace YamlAgno
namespace YamlBoot

open Authorization Calling Fallible PyDocument

/-- What is outside: the files and their texts, the factory's surroundings, and Agno's
application object. -/
structure Surroundings (F : Type) where
  agents : AgentHost F
  Instance : Type
  NativeApp : Type
  Extra : Type
  Error : Type
  lax : LaxMode String
  text : TextFormat String
  /-- The text of the file under a path. -/
  file : String → Except Error String
  init : Option (List agents.Agent) → PyValue → Option AuthorizationConfig → Extra →
    Except Error Instance
  authorizationOf : Instance → PyValue
  getApp : Instance → Except Error NativeApp
  serve : NativeApp → String → ℤ → Except Error Unit

variable {F : Type}

/-- What the parts of a startup raise. -/
inductive BootError (S : Surroundings F) where
  | yaml (error : YamlError)
  /-- The `ValidationError` of an entry. -/
  | validation
  | agent (failure : AgentFailure S.agents)
  | outside (error : S.Error)

variable (S : Surroundings F)

/-- The document in a file. -/
def load (path : String) : Except (BootError S) (Value String) := do
  let source ← (S.file path).mapError .outside
  let document ← (S.text.safeLoad source).mapError .yaml
  return document.1

variable (P : SpecCoercions F)

/-- The loop body of `_resolve_agents`. -/
def buildEntry (entry : Value String) : Calling S.agents.Call (BootError S) S.agents.Agent :=
  match AgentConfig.modelValidate S.lax entry with
  | none => ofExcept (.error .validation)
  | some cfg => within id some .agent (AgentFactory.build S.agents P {} cfg)

/-- The class name of a document. -/
def typeName : Value String → String
  | .scalar value => value.typeName
  | .list _ => "list"
  | .tuple _ => "tuple"
  | .set _ => "set"
  | .dict _ => "dict"
  | .enclosing _ => ""

/-- A document as the startup sees it: `None`, a list of numbered entries, or something else. -/
def seen : Value String → PyValue
  | .scalar .none => .none
  | .list entries => .list ((List.range entries.length).map fun n => .object n true)
  | _ => .object 0 true

/-- The entries of a file. -/
def entriesOf (path : String) : List (Value String) :=
  match load S path with
  | .ok (.list entries) => entries
  | _ => []

/-- The host of a startup from a file: an entry is built after the calls that those before it
have made. -/
def host (path : String) : App.Host where
  Agent := S.agents.Agent
  Instance := S.Instance
  NativeApp := S.NativeApp
  Extra := S.Extra
  Error := BootError S
  loadYaml path := (load S path).map seen
  buildEntry
    | .object n _ =>
        (buildEntry S P ((entriesOf S path).getD n (.scalar .none))
          (callsBefore (buildEntry S P) (entriesOf S path) [] n)).result
    | _ => .error .validation
  typeName _ := ((load S path).toOption.map typeName).getD ""
  repr := S.agents.repr
  init agents authorization config extra :=
    (S.init agents authorization config extra).mapError .outside
  authorizationOf := S.authorizationOf
  getApp native := (S.getApp native).mapError .outside
  serve native address port := (S.serve native address port).mapError .outside

/-- Arguments that name a file and pass no agents. -/
structure FromFile {path : String} (args : App.Arguments (host S P path)) : Prop where
  no_agents : args.agents = none
  configPath : args.configPath = some path

variable {S P}

/-! ## The agents of a file -/

/-- The exception for a document that is no list. -/
def noListError
    (path kind : String) :
    Except (App.StartupError (BootError S)) (Option (List S.agents.Agent)) :=
  .error (.valueError
    ("YAML config at " ++ S.agents.repr path ++ " must be a top-level list of " ++
      "agent definitions; got " ++ kind ++ "."))

/-- The agents that a document stands for, or the first exception. -/
def agentsOf (path : String) :
    Value String → Except (App.StartupError (BootError S)) (Option (List S.agents.Agent))
  | .scalar .none => .ok (some [])
  | .list entries =>
      ((entries.mapM (buildEntry S P) []).result.mapError .propagated).map some
  | other => noListError path (typeName other)

/-- The loop over the entries of a document is the traversal of them. -/
theorem mapM_seen
    {path : String}
    {entries : List (Value String)}
    (hload : load S path = .ok (.list entries)) :
    (((List.range entries.length).map fun n => PyValue.object n true).mapM fun entry =>
        App.lift ((host S P path).buildEntry entry)) =
      (entries.mapM (buildEntry S P) []).result.mapError App.StartupError.propagated := by
  have hentries : entriesOf S path = entries := by
    rw [entriesOf, hload]
  have hbuild : ∀ n, (host S P path).buildEntry (.object n true) =
      (buildEntry S P (entries.getD n (.scalar .none))
        (callsBefore (buildEntry S P) entries [] n)).result := by
    intro n
    rw [← hentries]
    rfl
  simp only [App.lift, List.mapM_map, Function.comp_def, hbuild]
  rw [result_mapM _ (.scalar .none)]
  exact mapM_mapError _ _

/-- The startup goes through the document of the file. -/
theorem resolveAgents_file
    {path : String}
    {args : App.Arguments (host S P path)}
    (hargs : FromFile S P args) :
    App.resolveAgents args =
      (load S path).mapError .propagated >>= agentsOf (P := P) path := by
  have hloadYaml : (host S P path).loadYaml path = (load S path).map seen := rfl
  rw [App.resolveAgents, hargs.no_agents, hargs.configPath]
  simp only [hloadYaml, App.lift]
  cases hload : load S path with
  | error error => rfl
  | ok document =>
      have htypeName : (host S P path).typeName (.object 0 true) = typeName document := by
        show ((load S path).toOption.map typeName).getD "" = _
        rw [hload]
        rfl
      cases document with
      | scalar value =>
          cases value with
          | none => rfl
          | bool _ | int _ | float _ | str _ | bytes _ | date _ | datetime _ =>
              exact congrArg (noListError path) htypeName
      | list entries =>
          have hloop := congrArg (fun agents => agents >>= fun agents => .ok (some agents))
            (mapM_seen (P := P) hload)
          refine Eq.trans hloop ?_
          show _ = agentsOf (P := P) path (.list entries)
          rw [agentsOf]
          cases (entries.mapM (buildEntry S P) []).result <;> rfl
      | tuple _ | set _ | dict _ | enclosing _ =>
          exact congrArg (noListError path) htypeName

/-! ## What a startup comes to -/

/-- An agent of an entry: `Agent` has been called with what its config says. -/
def BuiltFrom (P : SpecCoercions F) (entry : Value String) (agent : S.agents.Agent) : Prop :=
  ∃ cfg before history args, AgentConfig.modelValidate S.lax entry = some cfg ∧
    AgentFactory.Passes P {} cfg before args ∧ S.agents.agent history args = .ok agent

/-- The agents that an app with a document starts with. -/
inductive StartsAs (P : SpecCoercions F) : Value String → List S.agents.Agent → Prop
  | empty : StartsAs P (.scalar .none) []
  | entries
      {entries : List (Value String)}
      {agents : List S.agents.Agent}
      (h : List.Forall₂ (BuiltFrom P) entries agents) :
      StartsAs P (.list entries) agents

variable (S P) in
/-- Why there are no agents for a file. -/
inductive Fails (path : String) : App.StartupError (BootError S) → Prop
  | unreadable
      {error : BootError S}
      (h : load S path = .error error) :
      Fails path (.propagated error)
  | noList
      {document : Value String}
      (h : load S path = .ok document)
      (hnone : document ≠ .scalar .none)
      (hlist : ∀ entries, document ≠ .list entries) :
      Fails path (.valueError
        ("YAML config at " ++ S.agents.repr path ++ " must be a top-level list of " ++
          "agent definitions; got " ++ typeName document ++ "."))
  /-- The first entry that no agent is built from, after the calls of those before it. -/
  | entry
      {entries : List (Value String)}
      {entry : Value String}
      {history : List S.agents.Call}
      {error : BootError S}
      (h : load S path = .ok (.list entries))
      (hreaches : Reaches (buildEntry S P) entries [] entry history)
      (hfails : (buildEntry S P entry history).result = .error error) :
      Fails path (.propagated error)

/-- An entry that is built is validated, and `Agent` has been called for it. -/
theorem builtFrom_of_buildEntry
    {entry : Value String}
    {before : List S.agents.Call}
    {agent : S.agents.Agent}
    (h : (buildEntry S P entry before).result = .ok agent) :
    BuiltFrom P entry agent := by
  rw [buildEntry] at h
  cases hvalid : AgentConfig.modelValidate S.lax entry with
  | none =>
      rw [hvalid] at h
      cases h
  | some cfg =>
      rw [hvalid] at h
      obtain ⟨history, args, hpasses, hagent⟩ :=
        AgentFactory.exists_of_build (mapError_eq_ok_iff.mp h)
      exact ⟨cfg, before.filterMap some, history, args, hvalid, hpasses, hagent⟩

/-- A traversal of entries that returns has built an agent from each. -/
theorem forall₂_builtFrom
    {entries : List (Value String)}
    {before : List S.agents.Call}
    {agents : List S.agents.Agent}
    (h : Traversed (buildEntry S P) entries before agents) :
    List.Forall₂ (BuiltFrom P) entries agents := by
  induction h with
  | nil => exact .nil
  | cons hentry _ ih => exact .cons (builtFrom_of_buildEntry hentry) ih

theorem startsAs_of_agentsOf
    {path : String}
    {document : Value String}
    {agents : Option (List S.agents.Agent)}
    (h : agentsOf (P := P) path document = .ok agents) :
    ∃ built, agents = some built ∧ StartsAs P document built := by
  unfold agentsOf at h
  split at h
  · cases h
    exact ⟨[], rfl, .empty⟩
  · obtain ⟨built, hbuilt, rfl⟩ := map_eq_ok_iff.mp h
    exact ⟨built, rfl, .entries
      (forall₂_builtFrom (traversed_of_mapM (mapError_eq_ok_iff.mp hbuilt)))⟩
  · cases h

/-- A document that there are no agents for has no list in it, or an entry that fails. -/
theorem fails_of_agentsOf
    {path : String}
    {document : Value String}
    (hload : load S path = .ok document)
    {error : App.StartupError (BootError S)}
    (h : agentsOf (P := P) path document = .error error) :
    Fails S P path error := by
  unfold agentsOf at h
  split at h
  · cases h
  · next entries =>
      cases hresult : (entries.mapM (buildEntry S P) []).result with
      | error failure =>
          rw [hresult] at h
          cases h
          obtain ⟨entry, history, hreaches, hfails⟩ := mapM_error_iff.mp hresult
          exact .entry hload hreaches hfails
      | ok agents =>
          rw [hresult] at h
          cases h
  · next hnone hlist =>
      cases h
      exact .noList hload hnone hlist

/-- A startup that fails has failed for one of the three reasons, and for each of them it
does. -/
theorem resolveAgents_eq_error_iff
    {path : String}
    {args : App.Arguments (host S P path)}
    (hargs : FromFile S P args)
    {error : App.StartupError (BootError S)} :
    App.resolveAgents args = .error error ↔ Fails S P path error := by
  rw [resolveAgents_file hargs]
  constructor
  · intro h
    cases hload : load S path with
    | error failure =>
        rw [hload] at h
        cases h
        exact .unreadable hload
    | ok document =>
        rw [hload] at h
        exact fails_of_agentsOf hload h
  · intro h
    cases h with
    | unreadable hload =>
        rw [hload]
        rfl
    | @noList document hload hnone hlist =>
        rw [hload]
        show agentsOf (P := P) path document = _
        unfold agentsOf
        split
        · exact absurd rfl hnone
        · exact absurd rfl (hlist _)
        · rfl
    | entry hload hreaches hfails =>
        have hresult := mapM_error_iff.mpr ⟨_, _, hreaches, hfails⟩
        rw [hload]
        show (((_ : Calling _ _ _) []).result.mapError _).map some = _
        rw [hresult]
        rfl

/-- What a constructed object has been made with. -/
theorem exists_of_construct
    {H : App.Host}
    {args : App.Arguments H}
    {os : App.YamlAgentOS H}
    (h : App.construct args = .ok os) :
    ∃ agents, App.resolveAgents args = .ok agents ∧
      H.init agents args.authorizationValue args.authorizationConfigValue args.extra =
        .ok os.native := by
  unfold App.construct at h
  split_ifs at h
  split at h
  · cases h
  · obtain ⟨agents, hagents, h⟩ := bind_eq_ok_iff.mp h
    obtain ⟨native, hnative, h⟩ := bind_eq_ok_iff.mp h
    cases h
    exact ⟨agents, hagents, mapError_eq_ok_iff.mp hnative⟩

/--
An app that starts from a file has an agent for each entry of the file, in their order: each
entry has been validated, and `Agent` has been called for it with the model as it is written
and without tools.  There are no agents for a file exactly if it cannot be read, has no list in
it, or has an entry that no agent can be built from; the first such entry is the last one that
is looked at.
-/
theorem starts_or_fails
    {path : String}
    {args : App.Arguments (host S P path)}
    (hargs : FromFile S P args) :
    (∀ os, App.construct args = .ok os →
      ∃ document agents, load S path = .ok document ∧ StartsAs P document agents ∧
        S.init (some agents) args.authorizationValue args.authorizationConfigValue args.extra =
          .ok os.native) ∧
      ∀ error, App.resolveAgents args = .error error ↔ Fails S P path error := by
  refine ⟨fun os hos => ?_, fun error => resolveAgents_eq_error_iff hargs⟩
  obtain ⟨agents, hagents, hinit⟩ := exists_of_construct hos
  rw [resolveAgents_file hargs] at hagents
  obtain ⟨document, hload, hagents⟩ := bind_eq_ok_iff.mp hagents
  obtain ⟨built, rfl, hstarts⟩ := startsAs_of_agentsOf hagents
  exact ⟨document, built, mapError_eq_ok_iff.mp hload, hstarts, mapError_eq_ok_iff.mp hinit⟩

/-! ## Written configs -/

/-- The configs as one document. -/
def written (configs : List (AgentConfig String)) : Value String :=
  .list (configs.map AgentConfig.dictOfFields)

/-- The text of a file of configs, each dumped as for the repository. -/
def writeConfigs
    (text : TextFormat String)
    (configs : List (AgentConfig String)) :
    Except CodecError String := do
  let dumps ← configs.mapM AgentConfig.modelDump
  text.dump (.list dumps)

variable (P) in
/-- The agents of configs, if all of them are built. -/
def agentsOfConfigs (S : Surroundings F) (configs : List (AgentConfig String)) :
    Except (App.StartupError (BootError S)) (Option (List S.agents.Agent)) :=
  (((configs.mapM (AgentFactory.build S.agents P {}) []).result.mapError
    BootError.agent).mapError .propagated).map some

variable (P) in
/-- The configs can be written, and what starts from the file are the agents of the configs. -/
def StartsAsWritten
    (lax : LaxMode String)
    (text : TextFormat String)
    (configs : List (AgentConfig String)) :
    Prop :=
  ∃ source, writeConfigs text configs = .ok source ∧
    ∀ (S : Surroundings F) (path : String) (args : App.Arguments (host S P path)),
      S.lax = lax → S.text = text → S.file path = .ok source → FromFile S P args →
        App.resolveAgents args = agentsOfConfigs P S configs

theorem mapM_modelDump
    (configs : List (AgentConfig String)) :
    configs.mapM AgentConfig.modelDump =
      if (written configs).circular then
        .error (.valueError "Circular reference detected (id repeated)")
      else .ok (configs.map AgentConfig.dictOfFields) := by
  induction configs with
  | nil => rfl
  | cons config configs ih =>
      rw [List.mapM_cons, ih, AgentConfig.modelDump]
      simp only [written, List.map_cons, Value.circular, Value.circularItems]
      cases config.dictOfFields.circular <;>
        cases Value.circularItems (configs.map AgentConfig.dictOfFields) <;> rfl

theorem writeConfigs_eq_ok_iff
    {text : TextFormat String}
    {configs : List (AgentConfig String)}
    {source : String} :
    writeConfigs text configs = .ok source ↔
      (written configs).circular = false ∧ text.dump (written configs) = .ok source := by
  rw [writeConfigs, mapM_modelDump]
  cases hcircular : (written configs).circular with
  | true => simp [bind, Except.bind]
  | false => simp [bind, Except.bind, written]

/-- What is in a file with a text. -/
theorem load_file
    {path source : String}
    (hfile : S.file path = .ok source) :
    load S path = ((S.text.safeLoad source).mapError .yaml).map Subtype.val := by
  rw [load, hfile]
  show ((S.text.safeLoad source).mapError _ >>= _) = _
  cases S.text.safeLoad source <;> rfl

/-- The entries of written configs are built as the configs are. -/
theorem mapM_buildEntry_written
    (configs : List (AgentConfig String)) :
    (configs.map AgentConfig.dictOfFields).mapM (buildEntry S P) =
      within id some .agent (configs.mapM (AgentFactory.build S.agents P {})) := by
  have hown : ∀ made : S.agents.Call, some (id made) = some made := fun _ => rfl
  rw [List.mapM_map, within_mapM hown]
  congr 1
  funext config
  simp only [Function.comp_apply, buildEntry, AgentConfig.modelValidate_dictOfFields]

/-- Surroundings in which nothing fails, with one text in every file. -/
def recording (F : Type) (lax : LaxMode String) (text : TextFormat String) (source : String) :
    Surroundings F where
  agents := AgentFactory.recordingHost F
  Instance := Unit
  NativeApp := Unit
  Extra := Unit
  Error := Unit
  lax := lax
  text := text
  file _ := .ok source
  init _ _ _ _ := .ok ()
  authorizationOf _ := .bool false
  getApp _ := .ok ()
  serve _ _ _ := .ok ()

/-- Agents of configs do not fail at a text. -/
theorem agentsOfConfigs_ne_yaml
    (configs : List (AgentConfig String))
    (error : YamlError) :
    agentsOfConfigs P S configs ≠ .error (.propagated (.yaml error)) := by
  rw [agentsOfConfigs]
  cases (configs.mapM (AgentFactory.build S.agents P {}) []).result with
  | error failure =>
      intro h
      cases h
  | ok agents =>
      intro h
      cases h

/--
Configs that are written to a file start as they are exactly if everything in them is plain:
no tuples, no integer of more than 4300 digits, and nothing that contains itself, at any depth.
-/
theorem startsAsWritten_iff
    (lax : LaxMode String)
    {text : TextFormat String}
    {configs : List (AgentConfig String)}
    (hwell : (written configs).WellFormed)
    (hyaml : text.Documented (written configs)) :
    StartsAsWritten P lax text configs ↔
      ∀ config ∈ configs, YamlPlain config.dictOfFields := by
  constructor
  · rintro ⟨source, hsource, hstarts⟩ config hconfig part hpart
    obtain ⟨hcircular, hdump⟩ := writeConfigs_eq_ok_iff.mp hsource
    let S := recording F lax text source
    have hboot := hstarts S "agents.yaml" { configPath := some "agents.yaml", extra := () } rfl rfl
      rfl ⟨rfl, rfl⟩
    have hload : load S "agents.yaml" = ((text.safeLoad source).mapError .yaml).map Subtype.val :=
      load_file rfl
    rw [resolveAgents_file ⟨rfl, rfl⟩, hload] at hboot
    cases hloaded : text.safeLoad source with
    | error error =>
        rw [hloaded] at hboot
        exact (agentsOfConfigs_ne_yaml configs error hboot.symm).elim
    | ok document =>
        exact hyaml.yamlPlain hcircular hdump hloaded part
          (.list (List.mem_map_of_mem hconfig) hpart)
  · intro hplain
    have hitems : YamlPlain (written configs) := by
      refine closed_yamlPlain.list _ fun item hitem => ?_
      obtain ⟨config, hconfig, rfl⟩ := List.mem_map.mp hitem
      exact hplain config hconfig
    obtain ⟨source, hdump, hloaded⟩ := hyaml.plain hwell hitems
    refine ⟨source, writeConfigs_eq_ok_iff.mpr ⟨hitems.not_circular, hdump⟩,
      fun S path args hlax htext hfile hargs => ?_⟩
    subst htext
    have hload : load S path = .ok (written configs) := by
      rw [load_file hfile, hloaded]
      rfl
    rw [resolveAgents_file hargs, hload]
    show agentsOf (P := P) path (written configs) = _
    rw [written, agentsOf, mapM_buildEntry_written]
    rfl

/-- The text of a file with one agent. -/
def crewText : String :=
  "- name: helper\n  model: openai:gpt-4o\n  instructions: null\n  description: null\n" ++
    "  tool_call_limit: null\n  tools: []\n  knowledge: null\n  memory: null\n" ++
    "  session: null\n  reasoning: null\n  skills: null\n  human_review: null\n" ++
    "  culture: null\n  persistence: null\n  tags: []\n  metadata:\n    team: search\n"

/-- The config in the file. -/
def crew : List (AgentConfig String) :=
  [AgentConfig.team String]

theorem wellFormed_crew : (written crew).WellFormed :=
  closed_wellFormed.list _ (List.forall_mem_singleton.mpr AgentConfig.wellFormed_team)

theorem yamlPlain_crew : YamlPlain (written crew) :=
  closed_yamlPlain.list _ (List.forall_mem_singleton.mpr AgentConfig.yamlPlain_team)

/-- The text of that file, and the reader at it. -/
def crewFormat : TextFormat String :=
  .single crewText ⟨written crew, wellFormed_crew⟩

/-- The surroundings of a startup from that file. -/
abbrev crewSurroundings : Surroundings ℚ :=
  recording ℚ .strict crewFormat crewText

theorem load_crew :
    load crewSurroundings "agents.yaml" = .ok (written crew) := by
  have hloaded : crewSurroundings.text.safeLoad crewText = .ok ⟨written crew, wellFormed_crew⟩ :=
    TextFormat.safeLoad_single crewText _
  rw [load_file (S := crewSurroundings) rfl, hloaded]
  rfl

theorem starts_or_fails_crew :
    (∃ document, ∃ agents : List crewSurroundings.agents.Agent,
      load crewSurroundings "agents.yaml" = .ok document ∧ StartsAs SpecCoercions.exact document agents) ∧
      ∀ error, ¬ Fails crewSurroundings SpecCoercions.exact "agents.yaml" error := by
  let args : App.Arguments (host crewSurroundings SpecCoercions.exact "agents.yaml") :=
    { configPath := some "agents.yaml", extra := () }
  have hargs : FromFile _ _ args := ⟨rfl, rfl⟩
  have hagents : App.resolveAgents args =
      .ok (some [⟨"helper", none, none, .asWritten "openai:gpt-4o", none, none, none⟩]) := by
    rw [resolveAgents_file hargs, load_crew]
    rfl
  have hconstruct : App.construct args = .ok ⟨(), .bool true, .bool true, .none⟩ := by
    show (App.resolveAgents args >>= _) = _
    rw [hagents]
    rfl
  obtain ⟨hstarts, hfails⟩ := starts_or_fails hargs
  refine ⟨?_, fun error herror => ?_⟩
  · obtain ⟨document, agents, hload, hagents, -⟩ := hstarts _ hconstruct
    exact ⟨document, agents, hload, hagents⟩
  · rw [(hfails error).mpr herror] at hagents
    cases hagents

theorem startsAsWritten_iff_crew :
    StartsAsWritten SpecCoercions.exact .strict crewFormat crew := by
  have hyaml := TextFormat.documented_single crewText wellFormed_crew yamlPlain_crew
  refine (startsAsWritten_iff .strict wellFormed_crew hyaml).mpr fun config hconfig => ?_
  rw [List.mem_singleton.mp hconfig]
  exact AgentConfig.yamlPlain_team

end YamlBoot
end YamlAgno
