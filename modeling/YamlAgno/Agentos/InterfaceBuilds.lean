import YamlAgno.Agentos.Interfaces

/-!
# Which interfaces are built

`InterfaceRegistry.build_all` resolves the secrets of each declaration, checks its credentials,
looks up what it refers to and calls the constructor.  `Builds` says this without an order of
steps: which interface a declaration can come to, and from which values.  `buildAll_iff` says
that the code agrees: the declarations that build are those, each comes to one interface in
its place, and the first that does not build gives the error.

The A2A builder stands `None` for each reference that it does not find and then compares two
counts for each kind.  This lets through exactly the declarations that are found in full, and
what is passed on has each object in the place of its reference (`resolveAll_iff`).
-/

namespace YamlAgno

open Fallible

section A2A

variable {H : InterfaceHost}

/-- Each reference has its object, in its place. -/
def Found (registry : Registry H) (refs : List String) (objects : List H.Object) : Prop :=
  List.Forall₂ (fun ref object => callResolve registry ref = .ok object) refs objects

/-- A list in which nothing is missing. -/
theorem eq_map_some_of_countP
    {α : Type}
    {items : List (Option α)}
    (h : items.length = items.countP Option.isSome) :
    items = (items.filterMap id).map some := by
  induction items with
  | nil =>
      rfl
  | cons item items ih =>
      have hle := items.countP_le_length (p := Option.isSome)
      cases item with
      | none =>
          rw [List.countP_cons_of_neg (by simp), List.length_cons] at h
          omega
      | some value =>
          rw [List.countP_cons_of_pos (by simp), List.length_cons] at h
          have hrest := ih (by omega)
          have hhead : (some value :: items).filterMap id = value :: items.filterMap id := rfl
          rw [hhead, List.map_cons, ← hrest]

/-- The counts agree exactly if every reference is found. -/
theorem resolveAll_iff
    {registry : Registry H}
    {kind : String}
    {refs : List String}
    {objects : List H.Object} :
    (∃ resolved, resolveAll registry refs = .ok resolved ∧
        assertNoMissing kind resolved refs = .ok () ∧ resolved.filterMap id = objects) ↔
      Found registry refs objects := by
  constructor
  · rintro ⟨resolved, hresolve, hcount, rfl⟩
    have hitems := mapM_eq_ok_iff.mp hresolve
    have hlength : resolved.length = resolved.countP Option.isSome := by
      rw [← hitems.length_eq]
      by_contra hne
      rw [assertNoMissing, if_pos hne] at hcount
      cases hcount
    have hall := eq_map_some_of_countP hlength
    rw [hall, List.forall₂_map_right_iff] at hitems
    refine hitems.imp fun ref object hobject => ?_
    split at hobject
    · next found hfound =>
        cases hobject
        exact hfound
    · cases hobject
    · cases hobject
    · cases hobject
  · intro hfound
    refine ⟨objects.map some, mapM_eq_ok_iff.mpr ?_, ?_, ?_⟩
    · refine List.forall₂_map_right_iff.mpr (hfound.imp fun ref object hobject => ?_)
      simp only [hobject]
    · have hcount : (objects.map some).countP Option.isSome = objects.length := by
        simp [List.countP_map, Function.comp_def]
      rw [assertNoMissing, if_neg]
      simp [hcount, hfound.length_eq]
    · simp

/-- What an A2A declaration is built into: everything is found, and passed on in order. -/
structure BuildsA2A
    (registries : Option (Registries H))
    (config : A2AInterfaceConfig)
    (interface : Interface H.Object) : Prop where
  installed : H.a2aInstalled = true
  found :
    ∃ known agents teams workflows, registries = some known ∧
      Found known.agents config.agents agents ∧ Found known.teams config.teams teams ∧
      Found known.workflows config.workflows workflows ∧
      interface = .a2a (orNone agents) (orNone teams) (orNone workflows)
        config.routePrefix.1 config.tags
  constructed : H.construct interface = .ok ()

theorem buildA2AInterface_iff
    {config : A2AInterfaceConfig}
    {registries : Option (Registries H)}
    {interface : Interface H.Object} :
    buildA2AInterface config registries = .ok interface ↔
      BuildsA2A registries config interface := by
  constructor
  · intro hbuild
    unfold buildA2AInterface at hbuild
    split at hbuild
    · cases hbuild
    · next hinstalled =>
        cases registries with
        | none => cases hbuild
        | some known =>
            obtain ⟨agents, hagents, hbuild⟩ := bind_eq_ok_iff.mp hbuild
            obtain ⟨teams, hteams, hbuild⟩ := bind_eq_ok_iff.mp hbuild
            obtain ⟨workflows, hworkflows, hbuild⟩ := bind_eq_ok_iff.mp hbuild
            obtain ⟨_, hallAgents, hbuild⟩ := bind_eq_ok_iff.mp hbuild
            obtain ⟨_, hallTeams, hbuild⟩ := bind_eq_ok_iff.mp hbuild
            obtain ⟨_, hallWorkflows, hbuild⟩ := bind_eq_ok_iff.mp hbuild
            obtain ⟨_, hconstruct, hbuild⟩ := bind_eq_ok_iff.mp hbuild
            cases hbuild
            refine ⟨by simpa using hinstalled, ⟨known, _, _, _, rfl,
              resolveAll_iff.mp ⟨agents, hagents, hallAgents, rfl⟩,
              resolveAll_iff.mp ⟨teams, hteams, hallTeams, rfl⟩,
              resolveAll_iff.mp ⟨workflows, hworkflows, hallWorkflows, rfl⟩, rfl⟩,
              mapError_eq_ok_iff.mp hconstruct⟩
  · rintro ⟨hinstalled, ⟨known, _, _, _, rfl, hagents, hteams, hworkflows, rfl⟩, hconstruct⟩
    obtain ⟨agents, hresolve, hallAgents, rfl⟩ := resolveAll_iff.mpr hagents
    obtain ⟨teams, hresolve', hallTeams, rfl⟩ := resolveAll_iff.mpr hteams
    obtain ⟨workflows, hresolve'', hallWorkflows, rfl⟩ := resolveAll_iff.mpr hworkflows
    unfold buildA2AInterface
    rw [if_neg (by simp [hinstalled])]
    refine bind_eq_ok_iff.mpr ⟨agents, hresolve, bind_eq_ok_iff.mpr ⟨teams, hresolve', ?_⟩⟩
    refine bind_eq_ok_iff.mpr ⟨workflows, hresolve'', bind_eq_ok_iff.mpr ⟨(), hallAgents, ?_⟩⟩
    refine bind_eq_ok_iff.mpr ⟨(), hallTeams, bind_eq_ok_iff.mpr ⟨(), hallWorkflows, ?_⟩⟩
    exact bind_eq_ok_iff.mpr ⟨(), mapError_eq_ok_iff.mpr hconstruct, rfl⟩

end A2A

namespace InterfaceRegistry

variable {H : InterfaceHost} (registry : InterfaceRegistry H)

/-- What a setting becomes: a reference is the secret under its key, if there is a manager. -/
inductive Resolved : String × PyValue → String × PyValue → Prop
  | secret
      {name text key : String}
      {manager : String → Except H.Error PyValue}
      {value : PyValue}
      (hmanager : registry.secretManager = some manager)
      (hkey : secretKey text = some key)
      (hvalue : manager key = .ok value) :
      Resolved (name, .str text) (name, value)
  | plain
      (entry : String × PyValue)
      (h : ∀ text key, entry.2 = .str text → secretKey text = some key →
        registry.secretManager = none) :
      Resolved entry entry

/-- Every credential that the type requires is there, and is truthy. -/
def Credentialed (type : InterfaceType) (config : PyDict) : Prop :=
  ∀ key ∈ credentialKeys type, ∃ value, config.lookup key = some value ∧ value.truthy = true

/-- What a declaration is built into. -/
inductive Builds
    (resolveTarget : String → Except (InterfaceFailure H.Error) H.Object)
    (registries : Option (Registries H)) :
    InterfaceSpec → Interface H.Object → Prop
  | single
      {spec : InterfaceSpec}
      {config : PyDict}
      {target : H.Object}
      (htype : spec.type ≠ .a2a)
      (hconfig : List.Forall₂ (Resolved registry) spec.config config)
      (hcredentials : Credentialed spec.type config)
      (htarget : resolveTarget (spec.target.get (spec.target_of_ne htype)) = .ok target)
      (hconstruct : H.construct (callBuilder spec.type target config) = .ok ()) :
      Builds resolveTarget registries spec (callBuilder spec.type target config)
  | a2a
      {spec : InterfaceSpec}
      {config : PyDict}
      {declared : A2AInterfaceConfig}
      {interface : Interface H.Object}
      (htype : spec.type = .a2a)
      (hconfig : List.Forall₂ (Resolved registry) spec.config config)
      (hdeclared : A2AInterfaceConfig.validate config = some declared)
      (hbuilds : BuildsA2A registries declared interface) :
      Builds resolveTarget registries spec interface

section Builds

variable {registry}
  {resolveTarget : String → Except (InterfaceFailure H.Error) H.Object}
  {registries : Option (Registries H)}

theorem resolveCredentialRefs_iff
    {config resolved : PyDict} :
    registry.resolveCredentialRefs config = .ok resolved ↔
      List.Forall₂ (Resolved registry) config resolved := by
  refine mapM_eq_ok_iff.trans (iff_of_eq (congrArg (List.Forall₂ · config resolved) ?_))
  funext entry entry'
  refine propext ⟨fun h => ?_, fun h => ?_⟩
  · split at h
    · next text manager htext hmanager =>
        split at h
        · next key hkey =>
            obtain ⟨value, hvalue, rfl⟩ := map_eq_ok_iff.mp h
            obtain ⟨name, _⟩ := entry
            cases htext
            exact .secret hmanager hkey (mapError_eq_ok_iff.mp hvalue)
        · next hkey =>
            cases h
            refine .plain entry fun text' key' htext' hkey' => ?_
            cases htext.symm.trans htext'
            rw [hkey] at hkey'
            cases hkey'
    · next hnot =>
        cases h
        refine .plain entry fun text key htext _ => ?_
        cases hmanager : registry.secretManager with
        | none => rfl
        | some manager => exact (hnot text manager htext hmanager).elim
  · cases h with
    | secret hmanager hkey hvalue =>
        simp only [hmanager, hkey, hvalue]
        rfl
    | plain _ h =>
        split
        · next text manager htext hmanager =>
            split
            · next key hkey =>
                rw [h text key htext hkey] at hmanager
                cases hmanager
            · rfl
        · rfl

theorem validateCredentials_iff
    {type : InterfaceType}
    {config : PyDict} :
    validateCredentials (H := H) type config = .ok () ↔ Credentialed type config := by
  have hmissing : (credentialKeys type).filter
      (fun key => !(config.lookup key).any PyValue.truthy) = [] ↔ Credentialed type config := by
    rw [List.filter_eq_nil_iff]
    refine forall₂_congr fun key _ => ?_
    cases config.lookup key <;> simp
  rw [← hmissing]
  constructor
  · intro hvalid
    by_contra hsome
    rw [validateCredentials, if_pos hsome] at hvalid
    cases hvalid
  · intro hnone
    rw [validateCredentials, if_neg (not_not.mpr hnone)]

theorem build_iff
    {spec : InterfaceSpec}
    {interface : Interface H.Object} :
    registry.build spec resolveTarget registries = .ok interface ↔
      Builds registry resolveTarget registries spec interface := by
  constructor
  · intro hbuild
    obtain ⟨config, hconfig, hbuild⟩ := bind_eq_ok_iff.mp hbuild
    obtain ⟨_, hcredentials, hbuild⟩ := bind_eq_ok_iff.mp hbuild
    have hconfig := resolveCredentialRefs_iff.mp hconfig
    split at hbuild
    · next htype =>
        split at hbuild
        · cases hbuild
        · next declared hdeclared =>
            exact .a2a htype hconfig hdeclared (buildA2AInterface_iff.mp hbuild)
    · next htype =>
        obtain ⟨target, htarget, hbuild⟩ := bind_eq_ok_iff.mp hbuild
        obtain ⟨_, hconstruct, hbuild⟩ := bind_eq_ok_iff.mp hbuild
        cases hbuild
        exact .single htype hconfig (validateCredentials_iff.mp hcredentials) htarget
          (mapError_eq_ok_iff.mp hconstruct)
  · intro hbuilds
    cases hbuilds with
    | single htype hconfig hcredentials htarget hconstruct =>
        refine bind_eq_ok_iff.mpr ⟨_, resolveCredentialRefs_iff.mpr hconfig, ?_⟩
        refine bind_eq_ok_iff.mpr ⟨(), validateCredentials_iff.mpr hcredentials, ?_⟩
        rw [dif_neg htype]
        refine bind_eq_ok_iff.mpr ⟨_, htarget, ?_⟩
        exact bind_eq_ok_iff.mpr ⟨(), mapError_eq_ok_iff.mpr hconstruct, rfl⟩
    | a2a htype hconfig hdeclared hbuilds =>
        refine bind_eq_ok_iff.mpr ⟨_, resolveCredentialRefs_iff.mpr hconfig, ?_⟩
        refine bind_eq_ok_iff.mpr ⟨(), validateCredentials_iff.mpr ?_, ?_⟩
        · rw [htype]
          exact fun key hkey => absurd hkey List.not_mem_nil
        · rw [dif_pos htype, hdeclared]
          exact buildA2AInterface_iff.mpr hbuilds

/--
All declarations are built exactly if each is, into one interface each in their order.  Where
they are not, the error is that of the first that is not built.
-/
theorem buildAll_iff
    (specs : List InterfaceSpec) :
    (∀ interfaces, registry.buildAll specs resolveTarget registries = .ok interfaces ↔
        List.Forall₂ (Builds registry resolveTarget registries) specs interfaces) ∧
      ∀ failure, registry.buildAll specs resolveTarget registries = .error failure →
        ∃ before spec after, specs = before ++ spec :: after ∧
          (∀ earlier ∈ before, ∃ interface,
            Builds registry resolveTarget registries earlier interface) ∧
          (∀ interface, ¬ Builds registry resolveTarget registries spec interface) ∧
          registry.build spec resolveTarget registries = .error failure := by
  constructor
  · intro interfaces
    refine mapM_eq_ok_iff.trans ⟨fun h => h.imp fun _ _ => build_iff.mp, fun h => ?_⟩
    exact h.imp fun _ _ => build_iff.mpr
  · intro failure hfailure
    obtain ⟨before, spec, after, rfl, hbefore, hspec⟩ := exists_of_mapM_eq_error hfailure
    refine ⟨before, spec, after, rfl, fun earlier hearlier => ?_, fun interface hbuilds => ?_, hspec⟩
    · obtain ⟨interface, hinterface⟩ := hbefore earlier hearlier
      exact ⟨interface, build_iff.mp hinterface⟩
    · rw [build_iff.mpr hbuilds] at hspec
      cases hspec

end Builds

end InterfaceRegistry

end YamlAgno
