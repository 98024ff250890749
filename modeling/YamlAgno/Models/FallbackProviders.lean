import YamlAgno.Models.FallbackChain

/-!
# The providers that reach the factory

`ProviderFactory.build` wants a canonical provider.  `build_fallback_chain` resolves the alias of
each fallback entry before it calls the factory, and hands the primary over as it is written.

What the factory is handed at a call is read off a factory that answers the calls before and
shows the specification of that one (`Hands`).  The same specification is handed over alike in
both places exactly if its provider is canonical as it is written (`treated_alike_iff`).
-/

namespace YamlAgno
namespace FallbackChain

open Fallible

variable {F : Type} {P : SpecCoercions F} (repr : String → String)

/-- The factory that shows what it is handed at one call, and answers every other. -/
def showing (call n : ℕ) (spec : FullModelSpec P) : Except (FullModelSpec P) Unit :=
  if n = call then .error spec else .ok ()

/-- `build_fallback_chain` hands a specification to the factory at the given call. -/
def Hands
    (primary : FullModelSpec P)
    (resolver : Option (List (String × String)))
    (call : ℕ)
    (handed : FullModelSpec P) : Prop :=
  buildFallbackChain repr (showing call) primary resolver = .error (.build handed)

/-- The precondition of `ProviderFactory.build`: the provider is a key of the catalogue, and no
alias. -/
def Canonical (aliases : List (String × String)) (spec : FullModelSpec P) : Prop :=
  spec.provider ∈ supportedProviders ∧ canonicalProvider aliases spec.provider = spec.provider

/-- A specification is handed over as a primary. -/
def HandedAsPrimary
    (resolver : Option (List (String × String)))
    (spec handed : FullModelSpec P) : Prop :=
  Hands repr spec resolver 0 handed

/-- A specification, as a mapping, is handed over for an entry of some primary. -/
def HandedAsEntry
    (resolver : Option (List (String × String)))
    (spec handed : FullModelSpec P) : Prop :=
  ∃ (primary : FullModelSpec P) (config : FallbackConfig) (before after : List FallbackEntry)
      (fields : PyDict),
    primary.fallback = some config ∧ config.fallbackModels = before ++ .dict fields :: after ∧
      FullModelSpec.modelValidate P fields = some spec ∧
      Hands repr primary resolver (1 + before.length) handed

/-- What reaches the factory for a specification, wherever it stands, has the canonical
provider. -/
structure TreatedAlike
    (resolver : Option (List (String × String)))
    (spec : FullModelSpec P) : Prop where
  asPrimary : ∀ handed, HandedAsPrimary repr resolver spec handed →
    handed.provider = canonicalProvider (resolver.getD providerAliases) spec.provider ∧
      Canonical (resolver.getD providerAliases) handed
  asEntry : ∀ handed, HandedAsEntry repr resolver spec handed →
    handed.provider = canonicalProvider (resolver.getD providerAliases) spec.provider ∧
      Canonical (resolver.getD providerAliases) handed

variable {repr} {resolver : Option (List (String × String))} {spec handed : FullModelSpec P}

/-- The primary is handed over as it is. -/
theorem handedAsPrimary_iff :
    HandedAsPrimary repr resolver spec handed ↔ handed = spec := by
  have hfirst : showing 0 0 spec = .error spec := rfl
  rw [HandedAsPrimary, Hands, build_of_primary_error hfirst]
  simp [eq_comm]

/-- Reading an entry never raises what the factory raises. -/
theorem parseModelSpec_ne_build
    {E : Type}
    (entry : FallbackEntry)
    (error : E) :
    parseModelSpec (P := P) repr entry ≠ .error (.build error) := by
  intro h
  cases entry with
  | str text =>
      cases hparse : ModelStringSpec.fromString repr text with
      | ok spec => simp [parseModelSpec, hparse, Except.map, Except.mapError] at h
      | error error => simp [parseModelSpec, hparse, Except.map, Except.mapError] at h
  | dict fields =>
      cases hvalid : FullModelSpec.modelValidate P fields with
      | some spec => simp [parseModelSpec, hvalid] at h
      | none => simp [parseModelSpec, hvalid] at h

/-- What is handed over for an entry is what the entry says, with its canonical provider. -/
theorem exists_of_hands
    {primary : FullModelSpec P}
    {config : FallbackConfig}
    (hfallback : primary.fallback = some config)
    {before after : List FallbackEntry}
    {entry : FallbackEntry}
    (hentries : config.fallbackModels = before ++ entry :: after)
    (h : Hands repr primary resolver (1 + before.length) handed) :
    ∃ (parsed : ParsedSpec P)
        (supported : canonicalProvider (resolver.getD providerAliases) parsed.provider ∈
          supportedProviders),
      parseModelSpec (E := FullModelSpec P) repr entry = .ok parsed ∧
        handed = parsed.withProvider _ supported := by
  have hprimary : showing (1 + before.length) 0 primary = .ok () := if_neg (by omega)
  obtain ⟨before', entry', after', hentries', -, hfails⟩ :=
    (build_eq_error_iff hprimary hfallback).mp h
  cases hfails with
  | unparsable _ hparse => exact absurd hparse (parseModelSpec_ne_build entry' handed)
  | unbuilt _ hparse hsupported hshown =>
      rw [showing] at hshown
      split_ifs at hshown with hcall
      -- The entry that is shown stands where the call is.
      have hlength : before.length = before'.length := by omega
      rw [hentries] at hentries'
      obtain ⟨-, hrest⟩ := List.append_inj hentries' hlength
      obtain ⟨rfl, -⟩ := List.cons.inj hrest
      exact ⟨_, hsupported, hparse, (Except.error.inj hshown).symm⟩

/-- For a mapping, all its fields but the provider are kept. -/
theorem exists_of_handedAsEntry
    (h : HandedAsEntry repr resolver spec handed) :
    ∃ supported : canonicalProvider (resolver.getD providerAliases) spec.provider ∈
        supportedProviders,
      handed = (ParsedSpec.expanded spec).withProvider _ supported := by
  obtain ⟨primary, config, before, after, fields, hfallback, hentries, hvalid, hhands⟩ := h
  obtain ⟨parsed, hsupported, hparse, rfl⟩ := exists_of_hands hfallback hentries hhands
  simp only [parseModelSpec, hvalid, Except.ok.injEq] at hparse
  subst hparse
  exact ⟨hsupported, rfl⟩

/--
A specification is treated alike as the primary and as a fallback entry exactly if the resolver
leaves its provider as it is.
-/
theorem treated_alike_iff
    (repr : String → String)
    (resolver : Option (List (String × String)))
    (spec : FullModelSpec P) :
    TreatedAlike repr resolver spec ↔
      canonicalProvider (resolver.getD providerAliases) spec.provider = spec.provider := by
  constructor
  · intro h
    exact (h.asPrimary spec (handedAsPrimary_iff.mpr rfl)).1.symm
  · intro hcanonical
    refine ⟨fun handed hprimary => ?_, fun handed hentry => ?_⟩
    · obtain rfl := handedAsPrimary_iff.mp hprimary
      exact ⟨hcanonical.symm, handed.provider_mem, hcanonical⟩
    · obtain ⟨hsupported, rfl⟩ := exists_of_handedAsEntry hentry
      have hidempotent : canonicalProvider (resolver.getD providerAliases)
          (canonicalProvider (resolver.getD providerAliases) spec.provider) =
            canonicalProvider (resolver.getD providerAliases) spec.provider := by
        rw [hcanonical, hcanonical]
      exact ⟨rfl, hsupported, hidempotent⟩

/-- The primary reaches the factory with an alias for its provider. -/
theorem aliased_primary_unresolved :
    ¬ ∀ (F : Type) (P : SpecCoercions F) (repr : String → String)
        (resolver : Option (List (String × String))) (spec : FullModelSpec P),
      TreatedAlike repr resolver spec := by
  intro hall
  have hprimary := (hall ℚ .exact id none .gpt4o).asPrimary .gpt4o
    (handedAsPrimary_iff.mpr rfl)
  exact absurd hprimary.1 (by decide)

end FallbackChain
end YamlAgno
