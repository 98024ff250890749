import YamlAgno.Memory.UserIdentity

/-!
# Templates that are not a principal

`resolve_user_id` refuses with its own error when it finds no principal, and its callers
turn that error into a refusal of the request.  Of the errors that the expansion of a
`system_user_id` template can raise it translates one, `KeyError`, and it does not look at
the text that the template expands to.

So the resolver keeps to its two outcomes, a composite with a principal in it or a refusal,
exactly on the templates whose first failing field is a missing key, and on those without
failure that are well formed and expand to some text (`resolveUserId_total_iff`).
-/

namespace YamlAgno
namespace UserIdentity

open PyFormat

/-- The principal is the expansion of `template` by `entries`. -/
structure Expanded
    {V : Type}
    (memoryCfg : Option MemoryConfig)
    (principalId tenantId : Option String)
    (context : Option (List (String × V)))
    (template : String)
    (entries : List (String × V)) : Prop where
  tenant : ∃ tenant, tenantId = some tenant ∧ tenant ≠ ""
  no_principal : principalId = none ∨ principalId = some ""
  system_user_id : memoryCfg.bind MemoryConfig.system_user_id = some template
  braces : '{' ∈ template.toList ∧ '}' ∈ template.toList
  context : context = some entries

section Template

variable {V : Type} (ops : FormatOps V)

/--
Read from left to right, the first piece of the template that fails is a missing key; or no
piece fails, the template is well formed, and one of its pieces is some text.
-/
def ExpandsToPrincipal
    (entries : List (String × V))
    (template : String) : Prop :=
  (∃ key, firstFailure ops entries template = some (.keyError key)) ∨
  (firstFailure ops entries template = none ∧ (markup template.toList).2 = none ∧
    ∃ segment ∈ (markup template.toList).1, renderSegment ops entries segment ≠ .ok "")

/-- A principal that is some text, or a refusal. -/
def IsPrincipal (result : Except Raised String) : Prop :=
  (∃ principal, principal ≠ "" ∧ result = .ok principal) ∨
    ∃ e, result = .error (.resolution e)

/-- A composite with a principal that is some text, or a refusal. -/
def IsComposite
    (tenantId : Option String)
    (result : Except Raised String) : Prop :=
  (∃ tenant principal, tenantId = some tenant ∧ principal ≠ "" ∧
    result = .ok (tenant ++ ":" ++ principal)) ∨
  ∃ e, result = .error (.resolution e)

/-- Pieces join to no text exactly when each of them is none. -/
theorem join_eq_empty_iff
    {segments : List Segment}
    {entries : List (String × V)}
    {parts : List String}
    (h : List.Forall₂ (fun segment text => renderSegment ops entries segment = .ok text)
      segments parts) :
    String.join parts = "" ↔ ∀ segment ∈ segments, renderSegment ops entries segment = .ok "" := by
  induction h with
  | nil =>
      simp
  | @cons segment text segments parts hrender _ ih =>
      simp [String.join_cons, String.append_eq_empty_iff, ih, hrender]

/-- The expansion of a template that has a context. -/
theorem isPrincipal_expandTemplate_iff
    {template : String}
    (hbraces : '{' ∈ template.toList ∧ '}' ∈ template.toList)
    (entries : List (String × V)) :
    IsPrincipal (expandTemplate ops template (some entries)) ↔
      ExpandsToPrincipal ops entries template := by
  unfold expandTemplate ExpandsToPrincipal
  rw [if_pos hbraces]
  dsimp only
  cases hfailure : firstFailure ops entries template with
  | some e =>
      rw [formatTemplate_of_failure ops hfailure]
      cases e <;> simp [IsPrincipal]
  | none =>
      obtain ⟨parts, hparts, hformat⟩ := formatTemplate_of_no_failure ops hfailure
      rw [hformat]
      cases hstop : (markup template.toList).2 with
      | some message =>
          simp [IsPrincipal]
      | none =>
          have hempty := join_eq_empty_iff ops hparts
          simp only [IsPrincipal, Except.ok.injEq, reduceCtorEq, exists_false, or_false,
            false_or, true_and]
          constructor
          · rintro ⟨principal, hne, rfl⟩
            by_contra hall
            push Not at hall
            exact hne (hempty.mpr hall)
          · rintro ⟨segment, hmem, hrender⟩
            exact ⟨_, fun h => hrender (hempty.mp h segment hmem), rfl⟩

/-- A template without braces, or none at all, settles the principal by itself. -/
theorem isPrincipal_fromSystem_iff
    (memoryCfg : Option MemoryConfig)
    (context : Option (List (String × V))) :
    IsPrincipal (resolvePrincipal.fromSystem ops memoryCfg context) ↔
      ∀ template entries, memoryCfg.bind MemoryConfig.system_user_id = some template →
        ('{' ∈ template.toList ∧ '}' ∈ template.toList) → context = some entries →
          ExpandsToPrincipal ops entries template := by
  unfold resolvePrincipal.fromSystem
  cases hsystem : memoryCfg.bind MemoryConfig.system_user_id with
  | none =>
      refine iff_of_true (Or.inr ⟨_, rfl⟩) ?_
      rintro _ _ ⟨⟩
  | some template =>
      by_cases hbraces : '{' ∈ template.toList ∧ '}' ∈ template.toList
      · have hne : template ≠ "" := by
          rintro rfl
          exact absurd hbraces.1 (by simp)
        simp only [if_neg hne]
        cases context with
        | none =>
            refine iff_of_true (Or.inr ⟨.contextRequired template, ?_⟩) ?_
            · rw [expandTemplate, if_pos hbraces]
            · rintro _ _ _ _ ⟨⟩
        | some entries =>
            rw [isPrincipal_expandTemplate_iff ops hbraces entries]
            constructor
            · rintro h _ _ ⟨⟩ _ ⟨⟩
              exact h
            · intro h
              exact h template entries rfl hbraces rfl
      · refine iff_of_true ?_ ?_
        · by_cases hempty : template = ""
          · exact Or.inr ⟨.noPrincipal, by simp [hempty]⟩
          · exact Or.inl ⟨template, hempty, by simp [hempty, expandTemplate, hbraces]⟩
        · rintro _ _ ⟨⟩ h
          exact absurd h hbraces

/-- What the resolver adds to the principal leaves the two outcomes apart. -/
theorem isComposite_iff
    {tenant : String}
    (htenant : tenant ≠ "")
    (memoryCfg : Option MemoryConfig)
    (principalId : Option String)
    (context : Option (List (String × V))) :
    IsComposite (some tenant) (resolveUserId ops memoryCfg principalId (some tenant) context) ↔
      IsPrincipal (resolvePrincipal ops memoryCfg principalId context) := by
  unfold resolveUserId
  dsimp only
  rw [if_neg htenant]
  cases resolvePrincipal ops memoryCfg principalId context with
  | error e =>
      simp [IsComposite, IsPrincipal]
  | ok principal =>
      simp [IsComposite, IsPrincipal]

/-- A human principal needs no template. -/
theorem resolvePrincipal_of_human
    {principal : String}
    (h : principal ≠ "")
    (memoryCfg : Option MemoryConfig)
    (context : Option (List (String × V))) :
    resolvePrincipal ops memoryCfg (some principal) context = .ok principal := by
  unfold resolvePrincipal
  exact if_pos h

/-- Without one, what decides is the template, if there is one. -/
theorem resolvePrincipal_of_no_human
    {principalId : Option String}
    (h : principalId = none ∨ principalId = some "")
    (memoryCfg : Option MemoryConfig)
    (context : Option (List (String × V))) :
    resolvePrincipal ops memoryCfg principalId context =
      resolvePrincipal.fromSystem ops memoryCfg context := by
  rcases h with rfl | rfl
  · rfl
  · rfl

/--
The resolver returns a composite whose principal is some text, or refuses with its own
error, exactly if a template that it expands does expand to a principal.
-/
theorem resolveUserId_total_iff
    (memoryCfg : Option MemoryConfig)
    (principalId tenantId : Option String)
    (context : Option (List (String × V))) :
    IsComposite tenantId (resolveUserId ops memoryCfg principalId tenantId context) ↔
      ∀ template entries,
        Expanded memoryCfg principalId tenantId context template entries →
          ExpandsToPrincipal ops entries template := by
  by_cases htenant : ∃ tenant, tenantId = some tenant ∧ tenant ≠ ""
  · obtain ⟨tenant, rfl, hne⟩ := htenant
    rw [isComposite_iff ops hne]
    by_cases hhuman : principalId = none ∨ principalId = some ""
    · rw [resolvePrincipal_of_no_human ops hhuman, isPrincipal_fromSystem_iff]
      constructor
      · intro h template entries hexpanded
        exact h template entries hexpanded.system_user_id hexpanded.braces hexpanded.context
      · intro h template entries hsystem hbraces hcontext
        exact h template entries ⟨⟨tenant, rfl, hne⟩, hhuman, hsystem, hbraces, hcontext⟩
    · push Not at hhuman
      obtain ⟨principal, rfl⟩ := Option.ne_none_iff_exists'.mp hhuman.1
      have hprincipal : principal ≠ "" := fun h => hhuman.2 (congrArg some h)
      rw [resolvePrincipal_of_human ops hprincipal]
      refine iff_of_true (Or.inl ⟨principal, hprincipal, rfl⟩) fun template entries h => ?_
      rcases h.no_principal with hnone | hempty
      · cases hnone
      · exact absurd (Option.some.inj hempty) hprincipal
  · refine iff_of_true (Or.inr ⟨.tenantRequired, ?_⟩) fun _ _ h => absurd h.tenant htenant
    cases tenantId with
    | none => rfl
    | some tenant =>
        have hempty : tenant = "" := by
          by_contra hne
          exact htenant ⟨tenant, rfl, hne⟩
        rw [hempty]
        rfl

end Template

/-- A positional field lets `IndexError` out, and an empty value leaves a bare tenant. -/
theorem template_escapes_or_is_empty :
    (resolveUserId stringOps (some ⟨some "agent-\x7b0\x7d"⟩) none (some "acme") (some []) =
        .error (.escaped
          (.indexError "Replacement index 0 out of range for positional args tuple")) ∧
      ¬ IsComposite (some "acme")
        (resolveUserId stringOps (some ⟨some "agent-\x7b0\x7d"⟩) none (some "acme")
          (some []))) ∧
    (resolveUserId stringOps (some ⟨some "\x7bagent_id\x7d"⟩) none (some "acme")
        (some [("agent_id", "")]) = .ok "acme:" ∧
      ¬ IsComposite (some "acme")
        (resolveUserId stringOps (some ⟨some "\x7bagent_id\x7d"⟩) none (some "acme")
          (some [("agent_id", "")]))) := by
  have hescapes : resolveUserId stringOps (some ⟨some "agent-\x7b0\x7d"⟩) none (some "acme")
      (some []) = .error (.escaped
        (.indexError "Replacement index 0 out of range for positional args tuple")) := by
    decide
  have hempty : resolveUserId stringOps (some ⟨some "\x7bagent_id\x7d"⟩) none (some "acme")
      (some [("agent_id", "")]) = .ok "acme:" := by
    decide
  refine ⟨⟨hescapes, ?_⟩, hempty, ?_⟩
  · rw [hescapes]
    rintro (⟨tenant, principal, -, -, h⟩ | ⟨e, h⟩) <;> cases h
  · have hprincipal : resolvePrincipal stringOps (some ⟨some "\x7bagent_id\x7d"⟩) none
        (some [("agent_id", "")]) = .ok "" := by
      decide
    rw [isComposite_iff stringOps (by decide), hprincipal]
    rintro (⟨principal, hne, h⟩ | ⟨e, h⟩)
    · cases h
      exact hne rfl
    · cases h

end UserIdentity
end YamlAgno
