import YamlAgno.Library.PyFormat

/-!
# The composite user id: built by `resolve_user_id`, read by `TenantResolver`

`memory/user_identity.py` joins a tenant id and a principal with a colon, and
`tenant/resolver.py` reads the two halves back by cutting at the first colon.
`TenantContextMiddleware` feeds the builder with a raw `X-Tenant-Id` header.

The two modules agree exactly on the tenant ids without a colon.  A tenant id
that contains one is truncated when it is read back, and it can share its
composite with a different tenant.
-/

namespace YamlAgno
namespace UserIdentity

open PyFormat

/-- The part of the YAML `memory:` block the resolver reads. -/
structure MemoryConfig where
  system_user_id : Option String
deriving DecidableEq

/-- The four refusals of `resolve_user_id`, one per raise site. -/
inductive UserIdentityResolutionError where
  | tenantRequired
  | noPrincipal
  | contextRequired (template : String)
  | missingKey (template key : String)
deriving DecidableEq

/-- Text of a refusal; `repr` is Python's `repr` of a string. -/
def UserIdentityResolutionError.message
    (repr : String → String) :
    UserIdentityResolutionError → String
  | tenantRequired =>
      "tenant_id is required to build the composite user_id " ++
      "'\x7btenant_id\x7d:\x7bprincipal_id\x7d'. For HTTP requests it comes from the " ++
      "TenantContextMiddleware (SPEC_06); for autonomous runs set the " ++
      "agent/workflow YAML 'tenant_id' field. Refusing to build a " ++
      "tenant-less user_id (would break tenant isolation)."
  | noPrincipal =>
      "No principal resolves (no human user and no " ++
      "memory.system_user_id). Refusing to fall through to Agno's " ++
      "shared 'default' memory bucket; set memory.system_user_id or " ++
      "pass an explicit principal_id."
  | contextRequired template =>
      "system_user_id template " ++ repr template ++ " needs a context dict " ++
      "(workflow_id/agent_id/...) to expand."
  | missingKey template key =>
      "system_user_id template " ++ repr template ++ " references missing " ++
      "key " ++ repr key ++ ". Provide it in the run context."

/-- What `resolve_user_id` can raise: its own error, or one it lets escape. -/
inductive Raised where
  | resolution (e : UserIdentityResolutionError)
  | escaped (e : PyException)
deriving DecidableEq

section Resolve

variable {V : Type} (ops : FormatOps V)

/-- Expansion of a `system_user_id` template; only `KeyError` is translated. -/
def expandTemplate
    (template : String)
    (context : Option (List (String × V))) :
    Except Raised String :=
  if '{' ∈ template.toList ∧ '}' ∈ template.toList then
    match context with
    | none => .error (.resolution (.contextRequired template))
    | some context =>
        match formatTemplate ops context template with
        | .ok principal => .ok principal
        | .error (.keyError key) =>
            .error (.resolution (.missingKey template key))
        | .error e => .error (.escaped e)
  else .ok template

/-- Selection of the principal: the human one, else the expanded system one. -/
def resolvePrincipal
    (memoryCfg : Option MemoryConfig)
    (principalId : Option String)
    (context : Option (List (String × V))) :
    Except Raised String :=
  match principalId with
  | some p => if p ≠ "" then .ok p else fromSystem
  | none => fromSystem
where
  fromSystem : Except Raised String :=
    match memoryCfg.bind MemoryConfig.system_user_id with
    | some template =>
        if template = "" then .error (.resolution .noPrincipal)
        else expandTemplate ops template context
    | none => .error (.resolution .noPrincipal)

/-- `resolve_user_id`: the composite `tenant:principal`, or a refusal. -/
def resolveUserId
    (memoryCfg : Option MemoryConfig)
    (principalId tenantId : Option String)
    (context : Option (List (String × V))) :
    Except Raised String :=
  match tenantId with
  | none => .error (.resolution .tenantRequired)
  | some tenant =>
      if tenant = "" then .error (.resolution .tenantRequired)
      else
        match resolvePrincipal ops memoryCfg principalId context with
        | .error e => .error e
        | .ok principal => .ok (tenant ++ ":" ++ principal)

/-- A returned composite is the tenant, a colon and the selected principal. -/
theorem resolveUserId_eq_ok_iff
    (memoryCfg : Option MemoryConfig)
    (principalId tenantId : Option String)
    (context : Option (List (String × V)))
    (composite : String) :
    resolveUserId ops memoryCfg principalId tenantId context = .ok composite ↔
      ∃ tenant principal,
        tenantId = some tenant ∧ tenant ≠ "" ∧
        resolvePrincipal ops memoryCfg principalId context = .ok principal ∧
        composite = tenant ++ ":" ++ principal := by
  cases tenantId with
  | none =>
      simp [resolveUserId]
  | some tenant =>
      by_cases ht : tenant = ""
      · simp [resolveUserId, ht]
      · cases hp : resolvePrincipal ops memoryCfg principalId context with
        | error e =>
            simp [resolveUserId, ht, hp]
        | ok principal =>
            simp [resolveUserId, ht, hp, eq_comm]

end Resolve

/-! ## Reading a composite back -/

/-- The `ValueError` of the resolver: a composite without a separator. -/
inductive ResolverError where
  | missingSeparator (compositeUserId : String)
deriving DecidableEq

/-- Text of the resolver's error. -/
def ResolverError.message
    (repr : String → String) :
    ResolverError → String
  | missingSeparator compositeUserId =>
      "composite_user_id " ++ repr compositeUserId ++ " does not contain a ':' " ++
      "separator. Expected format '\x7btenant_id\x7d:\x7bprincipal_id\x7d' " ++
      "as built by resolve_user_id() (SPEC_04)."

/-- `TenantResolver.extract_tenant`: the text before the first colon. -/
def extractTenant (compositeUserId : String) : Except ResolverError String :=
  if ':' ∈ compositeUserId.toList then
    .ok (PyText.partition compositeUserId ':').1
  else .error (.missingSeparator compositeUserId)

/-- `TenantResolver.extract_principal`: the text after the first colon. -/
def extractPrincipal (compositeUserId : String) : Except ResolverError String :=
  if ':' ∈ compositeUserId.toList then
    .ok (PyText.partition compositeUserId ':').2.2
  else .error (.missingSeparator compositeUserId)

/-- The resolver gives back the tenant and the principal of a composite. -/
def RecoversIdentity (tenant principal composite : String) : Prop :=
  extractTenant composite = .ok tenant ∧
  extractPrincipal composite = .ok principal

instance (tenant principal composite : String) :
    Decidable (RecoversIdentity tenant principal composite) :=
  inferInstanceAs (Decidable (_ ∧ _))

/-- The characters of a composite. -/
theorem composite_toList
    (tenant principal : String) :
    (tenant ++ ":" ++ principal).toList =
      tenant.toList ++ ':' :: principal.toList := by
  simp [String.toList_append]

/-- The tenant of a composite comes back exactly when it holds no colon. -/
theorem extractTenant_composite_iff
    (tenant principal : String) :
    extractTenant (tenant ++ ":" ++ principal) = .ok tenant ↔
      ':' ∉ tenant.toList := by
  obtain ⟨⟨u, v⟩, huv⟩ :=
    PyText.splitFirst_append_isSome ':' tenant.toList principal.toList
  have hu : ':' ∉ u :=
    ((PyText.splitFirst_eq_some_iff ':' _ u v).mp huv).2
  have hextract :
      extractTenant (tenant ++ ":" ++ principal) = .ok (String.ofList u) := by
    simp [extractTenant, PyText.partition, huv]
  rw [hextract, Except.ok.injEq, ← String.toList_inj, String.toList_ofList]
  constructor
  · rintro rfl
    exact hu
  · intro ht
    have hsplit :=
      (PyText.splitFirst_append_iff ':' tenant.toList principal.toList).mpr ht
    rw [huv] at hsplit
    simp only [Option.some.injEq, Prod.mk.injEq] at hsplit
    exact hsplit.1

/-- The principal of a colon-free tenant's composite comes back. -/
theorem extractPrincipal_composite
    {tenant principal : String}
    (ht : ':' ∉ tenant.toList) :
    extractPrincipal (tenant ++ ":" ++ principal) = .ok principal := by
  have hsplit :=
    (PyText.splitFirst_append_iff ':' tenant.toList principal.toList).mpr ht
  simp [extractPrincipal, PyText.partition, hsplit]

/-- Both halves come back exactly when the tenant id holds no colon. -/
theorem recoversIdentity_iff
    (tenant principal : String) :
    RecoversIdentity tenant principal (tenant ++ ":" ++ principal) ↔
      ':' ∉ tenant.toList := by
  unfold RecoversIdentity
  rw [extractTenant_composite_iff]
  constructor
  · rintro ⟨ht, -⟩
    exact ht
  · intro ht
    exact ⟨ht, extractPrincipal_composite ht⟩

/-- Colon-free tenants and their principals have different composites. -/
theorem composite_inj
    {tenant principal tenant' principal' : String}
    (ht : ':' ∉ tenant.toList) (ht' : ':' ∉ tenant'.toList)
    (h : tenant ++ ":" ++ principal = tenant' ++ ":" ++ principal') :
    tenant = tenant' ∧ principal = principal' := by
  rw [← String.toList_inj, composite_toList, composite_toList] at h
  obtain ⟨h₁, h₂⟩ := PyText.append_sep_inj ht ht' h
  exact ⟨String.toList_inj.mp h₁, String.toList_inj.mp h₂⟩

/--
Two pairs share a composite exactly when they are equal, or when one tenant id
is the other one followed by a colon and the head of the other's principal.
-/
theorem composite_eq_iff
    (tenant principal tenant' principal' : String) :
    tenant ++ ":" ++ principal = tenant' ++ ":" ++ principal' ↔
      (tenant = tenant' ∧ principal = principal') ∨
      (∃ m, tenant = tenant' ++ ":" ++ m ∧ principal' = m ++ ":" ++ principal) ∨
      (∃ m, tenant' = tenant ++ ":" ++ m ∧ principal = m ++ ":" ++ principal') := by
  have lift :
      ∀ a b c d : String,
        (∃ m : String, a = b ++ ":" ++ m ∧ c = m ++ ":" ++ d) ↔
          ∃ m : List Char, a.toList = b.toList ++ ':' :: m ∧
            c.toList = m ++ ':' :: d.toList := by
    intro a b c d
    constructor
    · rintro ⟨m, rfl, rfl⟩
      exact ⟨m.toList, composite_toList b m, composite_toList m d⟩
    · rintro ⟨m, ha, hc⟩
      refine ⟨String.ofList m, ?_, ?_⟩
      · rw [← String.toList_inj, composite_toList, String.toList_ofList, ha]
      · rw [← String.toList_inj, composite_toList, String.toList_ofList, hc]
  rw [lift, lift, ← String.toList_inj, composite_toList, composite_toList,
    PyText.append_sep_eq_iff, String.toList_inj, String.toList_inj]

section Tenancy

variable {V : Type} (ops : FormatOps V)

/--
Two admitted calls give back their tenants and principals, and keep different
pairs apart, exactly when neither tenant id holds a colon.
-/
theorem tenantIdentity_iff
    (memoryCfg memoryCfg' : Option MemoryConfig)
    (principalId principalId' : Option String)
    (tenant tenant' : String)
    (context context' : Option (List (String × V)))
    {principal principal' composite composite' : String}
    (hp : resolvePrincipal ops memoryCfg principalId context = .ok principal)
    (hp' : resolvePrincipal ops memoryCfg' principalId' context' = .ok principal')
    (hc : resolveUserId ops memoryCfg principalId (some tenant) context =
      .ok composite)
    (hc' : resolveUserId ops memoryCfg' principalId' (some tenant') context' =
      .ok composite') :
    (RecoversIdentity tenant principal composite ∧
      RecoversIdentity tenant' principal' composite' ∧
      ((tenant, principal) ≠ (tenant', principal') → composite ≠ composite')) ↔
    (':' ∉ tenant.toList ∧ ':' ∉ tenant'.toList) := by
  obtain ⟨t, p, ht, -, hpp, rfl⟩ :=
    (resolveUserId_eq_ok_iff ops _ _ _ _ _).mp hc
  obtain ⟨t', p', ht', -, hpp', rfl⟩ :=
    (resolveUserId_eq_ok_iff ops _ _ _ _ _).mp hc'
  cases ht
  cases ht'
  cases hp.symm.trans hpp
  cases hp'.symm.trans hpp'
  rw [recoversIdentity_iff, recoversIdentity_iff]
  constructor
  · rintro ⟨h, h', -⟩
    exact ⟨h, h'⟩
  · rintro ⟨h, h'⟩
    refine ⟨h, h', ?_⟩
    intro hne heq
    obtain ⟨rfl, rfl⟩ := composite_inj h h' heq
    exact hne rfl

/-- An ordinary human principal next to an expanded system principal. -/
theorem tenantIdentity_acme :
    (RecoversIdentity "acme" "user:7" "acme:user:7" ∧
      RecoversIdentity "beta" "workflow:w-7" "beta:workflow:w-7" ∧
      (("acme", "user:7") ≠ ("beta", "workflow:w-7") →
        "acme:user:7" ≠ "beta:workflow:w-7")) ↔
    (':' ∉ "acme".toList ∧ ':' ∉ "beta".toList) :=
  tenantIdentity_iff stringOps
    none (some ⟨some "workflow:\x7bworkflow_id\x7d"⟩)
    (some "user:7") none "acme" "beta"
    none (some [("workflow_id", "w-7")])
    (by decide) (by decide) (by decide) (by decide)

/-- Tenant `a:b` is read back as `a` and shares its composite with tenant `a`. -/
theorem tenantIdentity_collision :
    resolveUserId stringOps none (some "c") (some "a:b") none = .ok "a:b:c" ∧
    resolveUserId stringOps none (some "b:c") (some "a") none = .ok "a:b:c" ∧
    extractTenant "a:b:c" = .ok "a" ∧
    ¬ RecoversIdentity "a:b" "c" "a:b:c" := by
  decide

end Tenancy

/-! ## The development-mode middleware -/

/-- How `TenantContextMiddleware.dispatch` answers one request. -/
inductive DispatchOutcome where
  | forwarded (userId : String)
  | unauthorized (detail : String)
  | escaped (e : PyException)
deriving DecidableEq

/-- `TenantContextMiddleware.dispatch` on the value of the `X-Tenant-Id` header. -/
def dispatch
    {V : Type} (ops : FormatOps V)
    (repr : String → String)
    (memoryCfg : Option MemoryConfig)
    (tenantHeader : Option String) :
    DispatchOutcome :=
  match resolveUserId ops memoryCfg none tenantHeader none with
  | .ok userId => .forwarded userId
  | .error (.resolution e) => .unauthorized (e.message repr)
  | .error (.escaped e) => .escaped e

/-- Without a context no template is expanded, so nothing escapes the handler. -/
theorem dispatch_total
    {V : Type} (ops : FormatOps V)
    (repr : String → String)
    (memoryCfg : Option MemoryConfig)
    (tenantHeader : Option String) :
    (∃ userId, dispatch ops repr memoryCfg tenantHeader = .forwarded userId) ∨
    (∃ detail, dispatch ops repr memoryCfg tenantHeader = .unauthorized detail) := by
  unfold dispatch
  cases h : resolveUserId ops memoryCfg none tenantHeader none with
  | ok userId =>
      exact Or.inl ⟨userId, rfl⟩
  | error e =>
      cases e with
      | resolution e =>
          exact Or.inr ⟨e.message repr, rfl⟩
      | escaped e =>
          unfold resolveUserId resolvePrincipal resolvePrincipal.fromSystem
            expandTemplate at h
          grind

/-- A user id stamped by the middleware names the header's tenant iff the header
holds no colon. -/
theorem dispatch_recovers_tenant_iff
    {V : Type} (ops : FormatOps V)
    (repr : String → String)
    (memoryCfg : Option MemoryConfig)
    {tenant userId : String}
    (h : dispatch ops repr memoryCfg (some tenant) = .forwarded userId) :
    extractTenant userId = .ok tenant ↔ ':' ∉ tenant.toList := by
  unfold dispatch at h
  cases hr : resolveUserId ops memoryCfg none (some tenant) none with
  | ok composite =>
      rw [hr] at h
      cases h
      obtain ⟨t, principal, ht, -, -, rfl⟩ :=
        (resolveUserId_eq_ok_iff ops _ _ _ _ _).mp hr
      cases ht
      exact extractTenant_composite_iff tenant principal
  | error e =>
      rw [hr] at h
      cases e <;> cases h

end UserIdentity
end YamlAgno
