import YamlAgno.Library.PyValue
import Mathlib.Data.String.Basic

/-!
# The authorization build

`mapAuthorizationConfig` maps authorization settings to the arguments of the
authorization config: it refuses what it does not know, resolves secret
references, and always sets user isolation.  A secret reference is recognised by
an anchored pattern with a narrow key; strings that do not match it as a whole are
forwarded as they are.

`requireIsolatedAuth` is the guard of every authenticated startup: it compares with
the object `True`, on both sides.
-/

namespace YamlAgno
namespace Authorization

/-! ## Settings -/

/-- The authorization block of the configuration. -/
structure AuthorizationSettings where
  enabled : Bool := false
  config : Option PyDict := none
  basicAuth : Option (List (String × String)) := none

/-- The authorization config, seen through the one field that is read back. -/
structure AuthorizationConfig where
  userIsolation : PyValue

/-- What a call of the secret manager does. -/
inductive SecretOutcome (E : Type) where
  | returned (value : PyValue)
  | keyError (text : String)
  | otherError (error : E)

/-- The callable that resolves keys, if there is one on this path. -/
abbrev SecretManager (E : Type) : Type :=
  Option (String → SecretOutcome E)

/-- Exceptions that leave the build: its own error, or one from outside. -/
inductive MapFailure (E : Type) where
  | authorizationBuildError (message : String)
  | propagated (error : E)

/-- The fields the authorization config accepts. -/
def supportedFields : List String :=
  ["verification_keys", "jwks_file", "algorithm", "verify_audience", "audience",
    "admin_scope", "user_isolation"]

/-! ## Secret references -/

/-- Word characters of a pattern: letters, digits and the underscore.  Which
characters beyond ASCII are alphanumeric is a table of the language. -/
def isWordChar
    (unicodeAlnum : Char → Bool)
    (c : Char) : Bool :=
  if c.toNat < 128 then c.isAlphanum || c == '_' else unicodeAlnum c

/-- The characters of a key: word characters and hyphens. -/
def isKeyChar
    (unicodeAlnum : Char → Bool)
    (c : Char) : Bool :=
  isWordChar unicodeAlnum c || c == '-'

/-- What a reference starts with. -/
def secretPrefix : List Char :=
  ['$', '{', 'S', 'E', 'C', 'R', 'E', 'T', ':']

/-- The key of a string that matches the pattern of a reference as a whole.  The
end of the pattern also matches before a final line feed. -/
def secretKey
    (unicodeAlnum : Char → Bool)
    (value : String) :
    Option String :=
  if secretPrefix.isPrefixOf value.toList then
    let rest := value.toList.drop secretPrefix.length
    let key := rest.takeWhile (isKeyChar unicodeAlnum)
    let tail := rest.dropWhile (isKeyChar unicodeAlnum)
    if key ≠ [] ∧ (tail = ['}'] ∨ tail = ['}', '\n']) then
      some (String.ofList key)
    else
      none
  else
    none

/-- A string in which a reference occurs, with any key, anywhere. -/
def ContainsReference (value : String) : Prop :=
  ∃ before key after,
    value.toList = before ++ secretPrefix ++ key ++ ['}'] ++ after

variable {E : Type}

section Mapping

variable (unicodeAlnum : Char → Bool)

/-- Resolves one reference. -/
def resolveSecret
    (secretManager : SecretManager E)
    (key : String) :
    Except (MapFailure E) PyValue :=
  match secretManager with
  | none =>
      .error (.authorizationBuildError
        ("Cannot resolve secret '" ++ key ++ "': no secret resolution is " ++
          "available in this path; refusing to forward the literal " ++
          "'$\x7bSECRET:" ++ key ++ "\x7d' (would be a silent fail-open)."))
  | some call =>
      match call key with
      | .keyError text =>
          .error (.authorizationBuildError
            ("Cannot resolve secret '" ++ key ++ "': " ++ text))
      | .otherError error => .error (.propagated error)
      | .returned .none =>
          .error (.authorizationBuildError
            ("Cannot resolve secret '" ++ key ++ "': secret_manager returned None"))
      | .returned value => .ok value

mutual

/-- Resolves the references in a value: strings, and elements of lists. -/
def resolveValue
    (secretManager : SecretManager E) :
    PyValue → Except (MapFailure E) PyValue
  | .str value =>
      match secretKey unicodeAlnum value with
      | some key => resolveSecret secretManager key
      | none => .ok (.str value)
  | .list items => (resolveItems secretManager items).map .list
  | value => .ok value

def resolveItems
    (secretManager : SecretManager E) :
    List PyValue → Except (MapFailure E) (List PyValue)
  | [] => .ok []
  | item :: items => do
      let resolved ← resolveValue secretManager item
      let rest ← resolveItems secretManager items
      return resolved :: rest

end

/-- Resolves one entry of the config under its key. -/
def resolveEntry
    (secretManager : SecretManager E)
    (entry : String × PyValue) :
    Except (MapFailure E) (String × PyValue) :=
  (resolveValue unicodeAlnum secretManager entry.2).map fun value => (entry.1, value)

/-- The keys of the config that no field accepts. -/
def unknownKeys (config : PyDict) : List String :=
  (config.map Prod.fst).filter fun key => !supportedFields.contains key

/-- The arguments handed to the authorization config: the checks in their order, then
the resolved entries, then user isolation. -/
def authorizationKwargs
    (settings : AuthorizationSettings)
    (secretManager : SecretManager E) :
    Except (MapFailure E) PyDict :=
  let config := settings.config.getD []
  if settings.basicAuth.isSome then
    .error (.authorizationBuildError
      ("AuthorizationSettings.basic_auth is UNSUPPORTED in agno 2.8.7: " ++
        "AuthorizationConfig has no basic_auth sink, so this value would " ++
        "be silently ignored (fail-open). The future sink is " ++
        "BasicAuthMiddleware (SPEC_19 §1.2, slice S5a.2)."))
  else if unknownKeys config ≠ [] then
    .error (.authorizationBuildError
      ("Unknown AuthorizationConfig key(s) '" ++
        ", ".intercalate ((unknownKeys config).mergeSort fun a b => a ≤ b) ++
        "'. agno 2.8.7 accepts exactly: " ++ ", ".intercalate supportedFields ++ "."))
  else if (config.map Prod.fst).contains "user_isolation" then
    .error (.authorizationBuildError
      ("user_isolation is a security invariant always set to True by the " ++
        "authorization adapter and is not settable from YAML."))
  else do
    let resolved ← config.mapM (resolveEntry unicodeAlnum secretManager)
    return resolved ++ [("user_isolation", .bool true)]

/-- `_map_authorization_config`, given the constructor of the authorization config. -/
def mapAuthorizationConfig
    (construct : PyDict → Except E AuthorizationConfig)
    (settings : AuthorizationSettings)
    (secretManager : SecretManager E) :
    Except (MapFailure E) (Bool × Option AuthorizationConfig) :=
  if settings.enabled then do
    let kwargs ← authorizationKwargs unicodeAlnum settings secretManager
    let config ← (construct kwargs).mapError .propagated
    return (true, some config)
  else
    .ok (false, none)

end Mapping

/-! ## The isolation guard -/

/-- The refusal message when `authorization` is the object `True` and the config is
not isolated, compared by identity as well. -/
def requireIsolatedAuth
    (authorization : PyValue)
    (authorizationConfig : Option AuthorizationConfig) :
    Option String :=
  if authorization.isTrue then
    if (authorizationConfig.any fun config => config.userIsolation.isTrue) then
      none
    else
      some ("VQ010 isolation refusal: authorization=True requires an " ++
        "AuthorizationConfig with user_isolation=True. Agno defaults " ++
        "user_isolation to False, which boots an authenticated-but-unisolated " ++
        "server. Pass authorization_config=AuthorizationConfig(" ++
        "user_isolation=True, ...). For dev/test workflows without JWT, use " ++
        "create_app() with authorization=False.")
  else
    none

/-- The guard lets `True` pass with an isolated config only, and anything else pass. -/
theorem requireIsolatedAuth_eq_none_iff
    (authorization : PyValue)
    (authorizationConfig : Option AuthorizationConfig) :
    requireIsolatedAuth authorization authorizationConfig = none ↔
      (authorization.isTrue →
        ∃ config, authorizationConfig = some config ∧ config.userIsolation.isTrue) := by
  unfold requireIsolatedAuth
  cases authorizationConfig with
  | none =>
      split_ifs <;> simp_all
  | some config =>
      split_ifs <;> simp_all

end Authorization
end YamlAgno
