import YamlAgno.Library.Fallible
import YamlAgno.Library.PyValue

/-!
# The interface registry

`InterfaceRegistry` of `agentos/interfaces.py` and `A2AInterfaceFactory` of
`agentos/a2a_interface.py`.  An interface is built from a validated spec: secrets of its
configuration are resolved, required credentials checked, its target looked up, and the
builder of its type called.  A2A has no target; its builder reads sets of references and
looks them up in three registries that the caller passes on.

`build_a2a_without_registries` says what a caller gets who passes none.
-/

namespace YamlAgno

open Fallible

/-! ## Specs -/

/-- `InterfaceType`. -/
inductive InterfaceType where
  | agui
  | slack
  | whatsapp
  | telegram
  | a2a
deriving DecidableEq

/-- The string value of a type. -/
def InterfaceType.value : InterfaceType → String
  | agui => "agui"
  | slack => "slack"
  | whatsapp => "whatsapp"
  | telegram => "telegram"
  | a2a => "a2a"

/-- The type with the given value. -/
def InterfaceType.read : PyValue → Option InterfaceType
  | .str value => [agui, slack, whatsapp, telegram, a2a].find? fun type => type.value = value
  | _ => none

/-- `InterfaceSpec`. -/
structure InterfaceSpec where
  type : InterfaceType
  target : Option String
  config : PyDict
  target_of_ne : type ≠ .a2a → target.isSome

/-- `InterfaceSpec(**iface)`; `none` is a validation error. -/
def InterfaceSpec.validate (iface : PyDict) : Option InterfaceSpec := do
  guard ((iface.map Prod.fst).all ["type", "target", "config"].contains)
  let type ← PyField.required InterfaceType.read iface "type"
  let target ← PyField.optional Coercions.exact.str iface "target"
  let config ← PyField.withDefault []
    (PyField.dictOf Coercions.exact.str some) iface "config"
  if h : type ≠ .a2a → target.isSome then some ⟨type, target, config, h⟩ else none

/-- The routes of an A2A interface start with a slash. -/
abbrev A2APrefix : Type :=
  {value : String // value.toList.head? = some '/'}

/-- `A2AInterfaceConfig`. -/
structure A2AInterfaceConfig where
  agents : List String
  teams : List String
  workflows : List String
  routePrefix : A2APrefix
  tags : Option (List String)
  component : agents.length + teams.length + workflows.length ≠ 0

/-- `_coerce_prefix`, and the validation of `A2APrefix`, which ignores other keys. -/
def A2APrefix.read : PyValue → Option A2APrefix
  | .str value => PyField.checked _ Coercions.exact.str (.str value)
  | .dict entries =>
      match (PyValue.dict entries).item "value" with
      | none => some ⟨"/a2a", by decide⟩
      | some value => PyField.checked _ Coercions.exact.str value
  | _ => none

/-- `A2AInterfaceConfig(**config)`; `none` is a validation error. -/
def A2AInterfaceConfig.validate (config : PyDict) : Option A2AInterfaceConfig := do
  guard ((config.map Prod.fst).all
    ["agents", "teams", "workflows", "prefix", "tags"].contains)
  let refs := PyField.withDefault [] (PyField.listOf Coercions.exact.str) config
  let agents ← refs "agents"
  let teams ← refs "teams"
  let workflows ← refs "workflows"
  let routePrefix ← PyField.withDefault ⟨"/a2a", by decide⟩ A2APrefix.read config "prefix"
  let tags ← PyField.optional (PyField.listOf Coercions.exact.str) config "tags"
  if h : agents.length + teams.length + workflows.length ≠ 0 then
    some ⟨agents, teams, workflows, routePrefix, tags, h⟩
  else none

/-! ## Registries and interfaces -/

/-- An interface object, as the call of its constructor. -/
inductive Interface (Object : Type) where
  | agui (agent : Object)
  | slack (agent : Object) (token signingSecret : PyValue)
  | whatsapp (agent : Object) (phoneNumberId accessToken verifyToken : PyValue)
  | telegram (agent : Object) (token : PyValue)
  | a2a (agents teams workflows : Option (List Object)) (routePrefix : String)
      (tags : Option (List String))

/-- Whether an interface is one of A2A. -/
def Interface.isA2A {Object : Type} : Interface Object → Bool
  | .a2a _ _ _ _ _ => true
  | _ => false

/-- Where live objects and interface classes come from. -/
structure InterfaceHost where
  Object : Type
  Error : Type
  /-- `import a2a` succeeds. -/
  a2aInstalled : Bool
  /-- The import and the constructor of an interface class return. -/
  construct : Interface Object → Except Error Unit

/-- What a lookup in a registry raises. -/
inductive LookupFailure (E : Type) where
  | keyError (text : String)
  | lookupError (text : String)
  | attributeError (text : String)
  | other (error : E)

/-- A registry of live objects; its class may have a method `resolve` beside `get`. -/
structure Registry (H : InterfaceHost) where
  get : String → Except (LookupFailure H.Error) H.Object
  resolve : Option (String → Except (LookupFailure H.Error) H.Object)

/-- The container that the A2A builder reads its registries from. -/
structure Registries (H : InterfaceHost) where
  agents : Registry H
  teams : Registry H
  workflows : Registry H

/-- Exceptions that end the building of an interface. -/
inductive InterfaceFailure (E : Type) where
  | invalidSpec
  | unresolvedTarget (ref : String)
  | missingCredentials (message : String)
  | invalidA2A
  | a2aDependency (message : String)
  | a2aReference (kind : String) (expected actual : ℕ) (declared : List String)
  | attributeError (message : String)
  | lookup (failure : LookupFailure E)
  | propagated (error : E)

/-- `InterfaceRegistry`: the callable that resolves secrets, if there is one. -/
structure InterfaceRegistry (H : InterfaceHost) where
  secretManager : Option (String → Except H.Error PyValue)

section A2A

variable {H : InterfaceHost}

/-- `registry.resolve(ref)`. -/
def callResolve
    (registry : Registry H)
    (ref : String) :
    Except (LookupFailure H.Error) H.Object :=
  match registry.resolve with
  | none => .error (.attributeError "object has no attribute 'resolve'")
  | some resolve => resolve ref

/-- `_resolve_all`; a reference that is not found stands as `None`. -/
def resolveAll
    (registry : Registry H)
    (refs : List String) :
    Except (InterfaceFailure H.Error) (List (Option H.Object)) :=
  refs.mapM fun ref =>
    match callResolve registry ref with
    | .ok resolved => .ok (some resolved)
    | .error (.keyError _) | .error (.lookupError _) => .ok none
    | .error failure => .error (.lookup failure)

/-- `_assert_no_missing`, for one kind. -/
def assertNoMissing
    (kind : String)
    (resolved : List (Option H.Object))
    (declared : List String) :
    Except (InterfaceFailure H.Error) Unit :=
  let actual := resolved.countP Option.isSome
  if declared.length ≠ actual then
    .error (.a2aReference kind declared.length actual declared)
  else .ok ()

/-- `xs or None`. -/
def orNone {α : Type} (xs : List α) : Option (List α) :=
  if xs.isEmpty then none else some xs

/-- `A2AInterfaceFactory.build`. -/
def buildA2AInterface
    (config : A2AInterfaceConfig)
    (registries : Option (Registries H)) :
    Except (InterfaceFailure H.Error) (Interface H.Object) :=
  if H.a2aInstalled = false then
    .error (.a2aDependency ("A2A interface declared but 'a2a-sdk' is not installed. " ++
      "Install with: pip install a2a-sdk"))
  else
    match registries with
    | none => .error (.attributeError "'NoneType' object has no attribute 'agents'")
    | some registries => do
        let agents ← resolveAll registries.agents config.agents
        let teams ← resolveAll registries.teams config.teams
        let workflows ← resolveAll registries.workflows config.workflows
        assertNoMissing "agents" agents config.agents
        assertNoMissing "teams" teams config.teams
        assertNoMissing "workflows" workflows config.workflows
        let interface := Interface.a2a (orNone (agents.filterMap id)) (orNone (teams.filterMap id))
          (orNone (workflows.filterMap id)) config.routePrefix.1 config.tags
        (H.construct interface).mapError .propagated
        return interface

end A2A

namespace InterfaceRegistry

variable {H : InterfaceHost} (registry : InterfaceRegistry H)

/-- `_credential_keys`. -/
def credentialKeys : InterfaceType → List String
  | .agui => []
  | .slack => ["bot_token", "app_token", "signing_secret"]
  | .whatsapp => ["phone_number_id", "access_token", "verify_token"]
  | .telegram => ["token"]
  | .a2a => []

/-- The key of a string that is one secret reference. -/
def secretKey (value : String) : Option String :=
  let opening := "$\x7bSECRET:".toList
  if opening <+: value.toList ∧ value.toList.getLast? = some '\x7d' then
    some (String.ofList (value.toList.drop opening.length).dropLast)
  else none

/-- `_resolve_credential_refs`. -/
def resolveCredentialRefs (config : PyDict) : Except (InterfaceFailure H.Error) PyDict :=
  config.mapM fun entry =>
    match entry.2, registry.secretManager with
    | .str value, some secretManager =>
        match secretKey value with
        | some key => ((secretManager key).mapError .propagated).map fun secret => (entry.1, secret)
        | none => .ok entry
    | _, _ => .ok entry

/-- A list of keys, as Python prints it. -/
def keysRepr (keys : List String) : String :=
  "[" ++ ", ".intercalate (keys.map fun key => "'" ++ key ++ "'") ++ "]"

/-- `_validate_credentials`. -/
def validateCredentials
    (type : InterfaceType)
    (config : PyDict) :
    Except (InterfaceFailure H.Error) Unit :=
  let required := credentialKeys type
  let missing := required.filter fun key => !(config.lookup key).any PyValue.truthy
  if missing ≠ [] then
    .error (.missingCredentials ("Missing required credentials for interface type '" ++
      type.value ++ "': " ++ keysRepr missing ++ ". Required keys: " ++ keysRepr required ++ "."))
  else .ok ()

/-- `config[key]`, for a key whose presence has been validated. -/
def credential (config : PyDict) (key : String) : PyValue :=
  (config.lookup key).getD .none

/-- The builders of the types with a target; A2A does not come here. -/
def callBuilder
    (type : InterfaceType)
    (target : H.Object)
    (config : PyDict) :
    Interface H.Object :=
  match type with
  | .slack =>
      .slack target (credential config "bot_token") (credential config "signing_secret")
  | .whatsapp =>
      .whatsapp target (credential config "phone_number_id") (credential config "access_token")
        (credential config "verify_token")
  | .telegram => .telegram target (credential config "token")
  | .agui | .a2a => .agui target

/-- `build`. -/
def build
    (spec : InterfaceSpec)
    (resolveTarget : String → Except (InterfaceFailure H.Error) H.Object)
    (registries : Option (Registries H)) :
    Except (InterfaceFailure H.Error) (Interface H.Object) := do
  let config ← registry.resolveCredentialRefs spec.config
  validateCredentials spec.type config
  if h : spec.type = .a2a then
    match A2AInterfaceConfig.validate config with
    | none => .error .invalidA2A
    | some config => buildA2AInterface config registries
  else do
    let target ← resolveTarget (spec.target.get (spec.target_of_ne h))
    let interface := callBuilder spec.type target config
    (H.construct interface).mapError .propagated
    return interface

/-- `build_all`. -/
def buildAll
    (specs : List InterfaceSpec)
    (resolveTarget : String → Except (InterfaceFailure H.Error) H.Object)
    (registries : Option (Registries H)) :
    Except (InterfaceFailure H.Error) (List (Interface H.Object)) :=
  specs.mapM fun spec => registry.build spec resolveTarget registries

variable {registry}

/-- Without registries no A2A interface is ever built. -/
theorem build_a2a_without_registries
    {spec : InterfaceSpec}
    (htype : spec.type = .a2a)
    (resolveTarget : String → Except (InterfaceFailure H.Error) H.Object)
    (interface : Interface H.Object) :
    registry.build spec resolveTarget none ≠ .ok interface := by
  intro hbuild
  obtain ⟨config, -, hbuild⟩ := bind_eq_ok_iff.mp hbuild
  obtain ⟨_, -, hbuild⟩ := bind_eq_ok_iff.mp hbuild
  rw [dif_pos htype] at hbuild
  cases hconfig : A2AInterfaceConfig.validate config with
  | none =>
      rw [hconfig] at hbuild
      cases hbuild
  | some a2a =>
      simp only [hconfig, buildA2AInterface] at hbuild
      split at hbuild
      · cases hbuild
      · cases hbuild

/-- A spec of another type builds an interface of another kind. -/
theorem isA2A_of_build
    {spec : InterfaceSpec}
    (htype : spec.type ≠ .a2a)
    {resolveTarget : String → Except (InterfaceFailure H.Error) H.Object}
    {registries : Option (Registries H)}
    {interface : Interface H.Object}
    (hbuild : registry.build spec resolveTarget registries = .ok interface) :
    interface.isA2A = false := by
  obtain ⟨config, -, hbuild⟩ := bind_eq_ok_iff.mp hbuild
  obtain ⟨_, -, hbuild⟩ := bind_eq_ok_iff.mp hbuild
  rw [dif_neg htype] at hbuild
  obtain ⟨target, -, hbuild⟩ := bind_eq_ok_iff.mp hbuild
  obtain ⟨_, -, hbuild⟩ := bind_eq_ok_iff.mp hbuild
  cases hbuild
  unfold callBuilder
  split <;> rfl

end InterfaceRegistry
end YamlAgno
