import Mathlib.Data.List.TakeWhile
import YamlAgno.Agentos.Interfaces
import YamlAgno.Agentos.SecretReferences

/-!
# Two recognisers of secret references

The interface block and the authorization block both resolve references to secrets.  The
first takes a string for a reference by its first nine characters and its last one, the
second by an anchored pattern with a narrow key that also matches before a final line
feed.  They recognise the same strings, with the same keys, except for what has the
brackets of a reference around something else than such a key (`secretKey_eq_iff`).

What is made of a reference differs too: without a secret manager the interface block keeps
the literal and the authorization block refuses it, a missing secret is an error of the
authorization block's own, and only that block looks into lists (`secret_references_resolved`).
So the blocks agree on a value exactly if it is a regular string whose secret is there, or has
no reference in it (`agree_iff`).
-/

namespace YamlAgno
namespace ReferenceSyntax

open Authorization

/-! ## The two recognisers -/

/-- `${SECRET:` key `}`. -/
def brackets (key : List Char) : List Char :=
  secretPrefix ++ key ++ ['}']

section Recognisers

variable (unicodeAlnum : Char → Bool)

/-- A key of the anchored pattern. -/
def IsKey (key : List Char) : Prop :=
  key ≠ [] ∧ ∀ c ∈ key, isKeyChar unicodeAlnum c = true

/-- Brackets of a reference, if there are any, are around a key, and nothing follows. -/
def Regular (text : String) : Prop :=
  (∀ key, text.toList = brackets key → IsKey unicodeAlnum key) ∧
    ∀ key, IsKey unicodeAlnum key → text.toList ≠ brackets key ++ ['\n']

variable {unicodeAlnum : Char → Bool}

theorem brackets_ne_append_newline
    (key key' : List Char) :
    brackets key ≠ brackets key' ++ ['\n'] := by
  intro h
  have hlast := congrArg List.getLast? h
  simp [brackets] at hlast

/-- The interface block: the brackets, around anything. -/
theorem interface_secretKey_eq_some_iff
    {text key : String} :
    InterfaceRegistry.secretKey text = some key ↔ text.toList = brackets key.toList := by
  have hopening : "$\x7bSECRET:".toList = secretPrefix := rfl
  rw [InterfaceRegistry.secretKey, hopening]
  constructor
  · intro h
    split_ifs at h with hbrackets
    obtain ⟨⟨rest, hrest⟩, hlast⟩ := hbrackets
    rw [← hrest, List.drop_left, Option.some.injEq] at h
    rw [← hrest] at hlast ⊢
    rcases List.eq_nil_or_concat rest with rfl | ⟨inner, last, rfl⟩
    · simp [secretPrefix] at hlast
    · rw [List.concat_eq_append] at hlast h ⊢
      rw [← List.append_assoc, List.getLast?_concat, Option.some.injEq] at hlast
      rw [hlast, List.dropLast_concat] at h
      rw [← h, String.toList_ofList, hlast, brackets, List.append_assoc]
  · intro h
    have hlast : text.toList.getLast? = some '}' := by
      rw [h, brackets, List.getLast?_concat]
    have hstart : secretPrefix <+: text.toList := ⟨key.toList ++ ['}'], by
      rw [h, brackets, List.append_assoc]⟩
    rw [if_pos ⟨hstart, hlast⟩, h, brackets, List.append_assoc, List.drop_left,
      List.dropLast_concat, String.ofList_toList]

/-- The authorization block: the brackets around a key, before a final line feed too. -/
theorem authorization_secretKey_eq_some_iff
    {text key : String} :
    secretKey unicodeAlnum text = some key ↔
      IsKey unicodeAlnum key.toList ∧
        (text.toList = brackets key.toList ∨ text.toList = brackets key.toList ++ ['\n']) := by
  constructor
  · intro h
    unfold secretKey at h
    split_ifs at h with hprefix
    simp only at h
    split_ifs at h with htail
    obtain ⟨rest, hrest⟩ := List.isPrefixOf_iff_prefix.mp hprefix
    rw [← hrest, List.drop_left] at h htail
    rw [Option.some.injEq] at h
    have hsplit := List.takeWhile_append_dropWhile (p := isKeyChar unicodeAlnum) (l := rest)
    have hkey : rest.takeWhile (isKeyChar unicodeAlnum) = key.toList := by
      rw [← h, String.toList_ofList]
    rw [hkey] at htail hsplit
    refine ⟨⟨htail.1, fun c hc => List.mem_takeWhile_imp (hkey ▸ hc)⟩, ?_⟩
    rw [← hrest, ← hsplit, brackets]
    rcases htail.2 with htail | htail
    · exact Or.inl (by rw [htail, List.append_assoc])
    · exact Or.inr (by rw [htail]; simp)
  · rintro ⟨⟨hne, hchars⟩, h⟩
    obtain ⟨tail, htail, hrest⟩ : ∃ tail, (tail = ['}'] ∨ tail = ['}', '\n']) ∧
        text.toList = secretPrefix ++ (key.toList ++ tail) := by
      rcases h with h | h
      · exact ⟨_, Or.inl rfl, by rw [h, brackets, List.append_assoc]⟩
      · exact ⟨_, Or.inr rfl, by rw [h, brackets]; simp⟩
    have hstop : tail.takeWhile (isKeyChar unicodeAlnum) = [] ∧
        tail.dropWhile (isKeyChar unicodeAlnum) = tail := by
      have hbrace : isKeyChar unicodeAlnum '}' = false := rfl
      rcases htail with rfl | rfl <;> simp [hbrace]
    have hprefix : secretPrefix.isPrefixOf text.toList = true :=
      List.isPrefixOf_iff_prefix.mpr ⟨_, hrest.symm⟩
    unfold secretKey
    rw [if_pos hprefix]
    simp only
    rw [hrest, List.drop_left, List.takeWhile_append_of_pos hchars,
      List.dropWhile_append_of_pos hchars, hstop.1, hstop.2, List.append_nil,
      if_pos ⟨hne, htail⟩, String.ofList_toList]

/-- The recognisers agree on a string, and on its key, exactly if it is regular. -/
theorem secretKey_eq_iff
    {text : String} :
    InterfaceRegistry.secretKey text = secretKey unicodeAlnum text ↔
      Regular unicodeAlnum text := by
  constructor
  · intro heq
    refine ⟨fun key hkey => ?_, fun key hkey hline => ?_⟩
    · have hinterface : InterfaceRegistry.secretKey text = some (String.ofList key) :=
        interface_secretKey_eq_some_iff.mpr (by rw [hkey, String.toList_ofList])
      have hauth := authorization_secretKey_eq_some_iff.mp (heq.symm.trans hinterface)
      rw [String.toList_ofList] at hauth
      exact hauth.1
    · have hauth : secretKey unicodeAlnum text = some (String.ofList key) :=
        authorization_secretKey_eq_some_iff.mpr (by
          rw [String.toList_ofList]
          exact ⟨hkey, Or.inr hline⟩)
      have hinterface := interface_secretKey_eq_some_iff.mp (heq.trans hauth)
      exact brackets_ne_append_newline _ _ (hinterface.symm.trans hline)
  · rintro ⟨hkeys, hlines⟩
    refine Option.ext fun key => ?_
    rw [interface_secretKey_eq_some_iff, authorization_secretKey_eq_some_iff]
    constructor
    · intro h
      exact ⟨hkeys _ h, Or.inl h⟩
    · rintro ⟨hkey, h | h⟩
      · exact h
      · exact absurd h (hlines _ hkey)

end Recognisers

/-! ## What is made of a value -/

section Values

variable {H : InterfaceHost}

/-- What the interface block makes of one value of a configuration. -/
def resolveCredential
    (registry : InterfaceRegistry H)
    (value : PyValue) :
    Except (InterfaceFailure H.Error) PyValue :=
  match value, registry.secretManager with
  | .str text, some secretManager =>
      match InterfaceRegistry.secretKey text with
      | some key => (secretManager key).mapError .propagated
      | none => .ok value
  | _, _ => .ok value

/-- The interface block treats the values of its configuration one by one. -/
theorem resolveCredentialRefs_eq
    (registry : InterfaceRegistry H)
    (config : PyDict) :
    registry.resolveCredentialRefs config =
      config.mapM fun entry =>
        (resolveCredential registry entry.2).map fun value => (entry.1, value) := by
  rw [InterfaceRegistry.resolveCredentialRefs]
  congr 1
  funext ⟨name, value⟩
  cases value with
  | str text =>
      cases hmanager : registry.secretManager with
      | none =>
          simp [resolveCredential, hmanager, Except.map]
      | some call =>
          cases hkey : InterfaceRegistry.secretKey text with
          | none =>
              simp [resolveCredential, hmanager, hkey, Except.map]
          | some key =>
              simp [resolveCredential, hmanager, hkey]
  | none | bool _ | int _ | list _ | dict _ | object _ _ =>
      rfl

/-- The secret manager of the interface block, as the authorization block calls it;
`keyErrorText` tells which exceptions are a `KeyError`. -/
def seenByAuthorization
    (keyErrorText : H.Error → Option String)
    (registry : InterfaceRegistry H) :
    SecretManager H.Error :=
  registry.secretManager.map fun call key =>
    match call key with
    | .ok value => .returned value
    | .error error =>
        match keyErrorText error with
        | some text => .keyError text
        | none => .otherError error

/-- The two blocks end alike: in the same value, or in the same exception. -/
def SameOutcome :
    Except (InterfaceFailure H.Error) PyValue →
    Except (MapFailure H.Error) PyValue → Prop
  | .ok value, .ok value' => value = value'
  | .error (.propagated error), .error (.propagated error') => error = error'
  | _, _ => False

end Values

section Law

variable {H : InterfaceHost} {unicodeAlnum : Char → Bool}

/-- The secret manager has nothing for a key: it returns `None` or raises `KeyError`. -/
def Missing
    (keyErrorText : H.Error → Option String)
    (outcome : Except H.Error PyValue) : Prop :=
  outcome = .ok .none ∨
    ∃ error text, outcome = .error error ∧ keyErrorText error = some text

/-- The authorization block leaves a value alone that has no reference in it. -/
theorem resolveValue_of_no_key
    {E : Type}
    (secretManager : SecretManager E)
    {value : PyValue}
    (h : ∀ text ∈ stringLeaves value, secretKey unicodeAlnum text = none) :
    resolveValue unicodeAlnum secretManager value = .ok value := by
  induction value using PyValue.induction_items with
  | list items ih =>
      have hitems : items.mapM (resolveValue unicodeAlnum secretManager) = .ok items := by
        refine Fallible.mapM_eq_ok_iff.mpr (List.forall₂_same.mpr fun item hitem => ?_)
        refine ih item hitem (fun text htext => h text ?_)
        rw [stringLeaves, itemLeaves_eq_flatMap]
        exact List.mem_flatMap.mpr ⟨item, hitem, htext⟩
      rw [resolveValue, resolveItems_eq_mapM, hitems]
      rfl
  | other value hvalue =>
      cases value with
      | list items =>
          exact absurd rfl (hvalue items)
      | str text =>
          have hnone := h text (by simp [stringLeaves])
          simp [resolveValue, hnone]
      | none | bool _ | int _ | dict _ | object _ _ =>
          rfl

/-- Where the secret manager has something for the key, both blocks end as its call does. -/
theorem sameOutcome_of_not_missing
    {registry : InterfaceRegistry H}
    {keyErrorText : H.Error → Option String}
    {text key : String}
    (hinterface : InterfaceRegistry.secretKey text = some key)
    (hauth : secretKey unicodeAlnum text = some key)
    {call : String → Except H.Error PyValue}
    (hcall : registry.secretManager = some call)
    (hfound : ¬ Missing keyErrorText (call key)) :
    SameOutcome (resolveCredential registry (.str text))
      (resolveValue unicodeAlnum (seenByAuthorization keyErrorText registry) (.str text)) := by
  have hcredential : resolveCredential registry (.str text) =
      (call key).mapError .propagated := by
    simp [resolveCredential, hcall, hinterface]
  rw [hcredential, resolveValue, hauth]
  simp only [seenByAuthorization, hcall, Option.map_some, resolveSecret]
  cases houtcome : call key with
  | ok value =>
      cases value with
      | none =>
          exact absurd (Or.inl houtcome) hfound
      | bool _ | int _ | str _ | list _ | dict _ | object _ _ =>
          rfl
  | error error =>
      cases herror : keyErrorText error with
      | none =>
          simp only [herror]
          rfl
      | some message =>
          exact absurd (Or.inr ⟨error, message, houtcome, herror⟩) hfound

/-- Where it has nothing, the authorization block ends in its own error. -/
theorem refused_of_missing
    {registry : InterfaceRegistry H}
    {keyErrorText : H.Error → Option String}
    {text key : String}
    (hauth : secretKey unicodeAlnum text = some key)
    (hmissing : ∀ call, registry.secretManager = some call → Missing keyErrorText (call key)) :
    ∃ message,
      resolveValue unicodeAlnum (seenByAuthorization keyErrorText registry) (.str text) =
        .error (.authorizationBuildError message) := by
  rw [resolveValue, hauth]
  cases hcall : registry.secretManager with
  | none =>
      simp only [seenByAuthorization, hcall, Option.map_none, resolveSecret]
      exact ⟨_, rfl⟩
  | some call =>
      simp only [seenByAuthorization, hcall, Option.map_some, resolveSecret]
      rcases hmissing call hcall with hnone | ⟨error, message, herror, hkeyError⟩
      · rw [hnone]
        exact ⟨_, rfl⟩
      · rw [herror]
        simp only [hkeyError]
        exact ⟨_, rfl⟩

/-- What the two blocks make of a value, next to each other. -/
structure OneSyntax
    (unicodeAlnum : Char → Bool)
    (registry : InterfaceRegistry H)
    (keyErrorText : H.Error → Option String) : Prop where
  /-- Regular strings are recognised alike, with the same key. -/
  same_key :
    ∀ text, Regular unicodeAlnum text →
      InterfaceRegistry.secretKey text = secretKey unicodeAlnum text
  /-- Those that are no reference stay as they are. -/
  literal :
    ∀ text, Regular unicodeAlnum text → secretKey unicodeAlnum text = none →
      resolveCredential registry (.str text) = .ok (.str text) ∧
      resolveValue unicodeAlnum (seenByAuthorization keyErrorText registry) (.str text) =
        .ok (.str text)
  /-- The secret manager is asked for the same key, and what it has for it is passed on. -/
  found :
    ∀ text key call, Regular unicodeAlnum text → secretKey unicodeAlnum text = some key →
      registry.secretManager = some call →
      resolveCredential registry (.str text) = (call key).mapError .propagated ∧
      (¬ Missing keyErrorText (call key) →
        SameOutcome (resolveCredential registry (.str text))
          (resolveValue unicodeAlnum (seenByAuthorization keyErrorText registry) (.str text)))
  /-- Without a secret manager the interface block keeps every string. -/
  kept :
    ∀ value, registry.secretManager = none → resolveCredential registry value = .ok value
  /-- What the secret manager has nothing for, the authorization block refuses. -/
  refused :
    ∀ text key, secretKey unicodeAlnum text = some key →
      (∀ call, registry.secretManager = some call → Missing keyErrorText (call key)) →
      ∃ message,
        resolveValue unicodeAlnum (seenByAuthorization keyErrorText registry) (.str text) =
          .error (.authorizationBuildError message)
  /-- Only strings are resolved by the interface block. -/
  not_text :
    ∀ value, (∀ text, value ≠ .str text) → resolveCredential registry value = .ok value
  /-- The authorization block resolves the elements of a list, in order. -/
  list :
    ∀ items,
      resolveValue unicodeAlnum (seenByAuthorization keyErrorText registry) (.list items) =
        (items.mapM (resolveValue unicodeAlnum
          (seenByAuthorization keyErrorText registry))).map .list
  /-- What has no reference in it, at any depth of lists, is left alone. -/
  untouched :
    ∀ value, (∀ text ∈ stringLeaves value, secretKey unicodeAlnum text = none) →
      resolveValue unicodeAlnum (seenByAuthorization keyErrorText registry) value = .ok value

/--
Strings that are regular are references to the same secrets in both blocks.  What the blocks
do with a reference differs where no secret is there for it, and in lists.
-/
theorem secret_references_resolved
    (unicodeAlnum : Char → Bool)
    (registry : InterfaceRegistry H)
    (keyErrorText : H.Error → Option String) :
    OneSyntax unicodeAlnum registry keyErrorText where
  same_key _ hregular := secretKey_eq_iff.mpr hregular
  literal text hregular hnone := by
    refine ⟨?_, resolveValue_of_no_key _ (by simpa [stringLeaves] using hnone)⟩
    have hinterface := (secretKey_eq_iff.mpr hregular).trans hnone
    cases hmanager : registry.secretManager <;> simp [resolveCredential, hmanager, hinterface]
  found text key call hregular hkey hcall := by
    have hinterface := (secretKey_eq_iff.mpr hregular).trans hkey
    exact ⟨by simp [resolveCredential, hcall, hinterface],
      sameOutcome_of_not_missing hinterface hkey hcall⟩
  kept value hmanager := by
    cases value <;> simp [resolveCredential, hmanager]
  refused _ _ hkey hmissing := refused_of_missing hkey hmissing
  not_text value hvalue := by
    cases value with
    | str text =>
        exact absurd rfl (hvalue text)
    | none | bool _ | int _ | list _ | dict _ | object _ _ =>
        rfl
  list items := by
    rw [resolveValue, resolveItems_eq_mapM]
  untouched _ h := resolveValue_of_no_key _ h

/-! ## Where the blocks agree -/

/-- The keys that the interface block takes from a value: it looks at strings only. -/
def interfaceKeys : PyValue → List String
  | .str text => (InterfaceRegistry.secretKey text).toList
  | _ => []

/-- The keys that the authorization block takes from a value, at any depth of lists. -/
def authorizationKeys
    (unicodeAlnum : Char → Bool)
    (value : PyValue) : List String :=
  (stringLeaves value).filterMap (secretKey unicodeAlnum)

/-- A value of a configuration, resolved by the interface block, and by the other. -/
def SameResolved
    (name : String) :
    Except (InterfaceFailure H.Error) PyDict →
    Except (MapFailure H.Error) PyValue → Prop
  | .ok config, .ok value => config = [(name, value)]
  | .error (.propagated error), .error (.propagated error') => error = error'
  | _, _ => False

/-- The two blocks find the same references in a value, and end alike. -/
structure Agree
    (unicodeAlnum : Char → Bool)
    (registry : InterfaceRegistry H)
    (keyErrorText : H.Error → Option String)
    (value : PyValue) : Prop where
  references : interfaceKeys value = authorizationKeys unicodeAlnum value
  resolved : ∀ name, SameResolved name (registry.resolveCredentialRefs [(name, value)])
    (resolveValue unicodeAlnum (seenByAuthorization keyErrorText registry) value)

/-- A regular string, with a secret for the key if it is a reference, or no reference at all. -/
def Unambiguous
    (unicodeAlnum : Char → Bool)
    (registry : InterfaceRegistry H)
    (keyErrorText : H.Error → Option String) : PyValue → Prop
  | .str text =>
      Regular unicodeAlnum text ∧
        ∀ key, secretKey unicodeAlnum text = some key →
          ∃ call, registry.secretManager = some call ∧ ¬ Missing keyErrorText (call key)
  | value => ∀ text ∈ stringLeaves value, secretKey unicodeAlnum text = none

theorem sameResolved_iff
    (registry : InterfaceRegistry H)
    (name : String)
    (value : PyValue)
    (outcome : Except (MapFailure H.Error) PyValue) :
    SameResolved name (registry.resolveCredentialRefs [(name, value)]) outcome ↔
      SameOutcome (resolveCredential registry value) outcome := by
  rw [resolveCredentialRefs_eq, List.mapM_cons, List.mapM_nil]
  cases resolveCredential registry value with
  | ok resolved =>
      cases outcome <;>
        simp [SameResolved, SameOutcome, Except.map, bind, Except.bind, pure, Except.pure]
  | error failure =>
      cases failure <;> rcases outcome with failure' | resolved
      all_goals
        first
        | rfl
        | cases failure' <;> rfl

/-- A reference that has no secret ends differently in the two blocks. -/
theorem not_sameOutcome_of_missing
    {registry : InterfaceRegistry H}
    {keyErrorText : H.Error → Option String}
    {text key : String}
    (hauth : secretKey unicodeAlnum text = some key)
    (hmissing : ∀ call, registry.secretManager = some call → Missing keyErrorText (call key)) :
    ¬ SameOutcome (resolveCredential registry (.str text))
      (resolveValue unicodeAlnum (seenByAuthorization keyErrorText registry) (.str text)) := by
  obtain ⟨message, hrefused⟩ :=
    (secret_references_resolved unicodeAlnum registry keyErrorText).refused text key hauth hmissing
  rw [hrefused]
  cases resolveCredential registry (.str text) with
  | ok resolved => exact id
  | error failure => cases failure <;> exact id

/--
The blocks agree on the references in a value, on their keys and on what becomes of it, exactly
if it is a regular string that is no reference or has a secret, or anything else that has no
reference of the anchored pattern in it.
-/
theorem agree_iff
    (unicodeAlnum : Char → Bool)
    (registry : InterfaceRegistry H)
    (keyErrorText : H.Error → Option String)
    (value : PyValue) :
    Agree unicodeAlnum registry keyErrorText value ↔
      Unambiguous unicodeAlnum registry keyErrorText value := by
  have hshared := secret_references_resolved unicodeAlnum registry keyErrorText
  have hresolved : (∀ name, SameResolved name (registry.resolveCredentialRefs [(name, value)])
        (resolveValue unicodeAlnum (seenByAuthorization keyErrorText registry) value)) ↔
      SameOutcome (resolveCredential registry value)
        (resolveValue unicodeAlnum (seenByAuthorization keyErrorText registry) value) := by
    simp only [sameResolved_iff, forall_const]
  -- Nothing but a string is a reference of the interface block.
  have hother : (∀ text, value ≠ .str text) →
      (Agree unicodeAlnum registry keyErrorText value ↔
        ∀ text ∈ stringLeaves value, secretKey unicodeAlnum text = none) := by
    intro hvalue
    have hkeys : interfaceKeys value = [] := by
      cases value with
      | str text => exact absurd rfl (hvalue text)
      | none | bool _ | int _ | list _ | dict _ | object _ _ => rfl
    constructor
    · intro hagree
      have hnone := hkeys.symm.trans hagree.references
      exact List.filterMap_eq_nil_iff.mp hnone.symm
    · intro hnone
      refine ⟨hkeys.trans (List.filterMap_eq_nil_iff.mpr hnone).symm, hresolved.mpr ?_⟩
      rw [hshared.not_text value hvalue, hshared.untouched value hnone]
      exact rfl
  cases value with
  | str text =>
      have hreferences : interfaceKeys (.str text) = authorizationKeys unicodeAlnum (.str text) ↔
          Regular unicodeAlnum text := by
        rw [← secretKey_eq_iff, interfaceKeys, authorizationKeys, stringLeaves]
        cases InterfaceRegistry.secretKey text <;> cases hkey : secretKey unicodeAlnum text <;>
          simp [hkey]
      constructor
      · intro hagree
        refine ⟨hreferences.mp hagree.references, fun key hkey => ?_⟩
        by_contra hcond
        push Not at hcond
        exact not_sameOutcome_of_missing hkey hcond (hresolved.mp hagree.resolved)
      · rintro ⟨hregular, hsecret⟩
        refine ⟨hreferences.mpr hregular, hresolved.mpr ?_⟩
        cases hkey : secretKey unicodeAlnum text with
        | none =>
            obtain ⟨hinterface, hauth⟩ := hshared.literal text hregular hkey
            rw [hinterface, hauth]
            exact rfl
        | some key =>
            obtain ⟨call, hcall, hfound⟩ := hsecret key hkey
            exact (hshared.found text key call hregular hkey hcall).2 hfound
  | none | bool _ | int _ | list _ | dict _ | object _ _ =>
      exact hother (fun text => by simp)

end Law

/-- A host of interfaces whose constructors return. -/
def plainHost : InterfaceHost where
  Object := Unit
  Error := String
  a2aInstalled := false
  construct _ := .ok ()

/-- A key with a point in it is resolved by one block and stays literal in the other. -/
theorem dotted_key_stays_literal :
    ¬ ∀ (H : InterfaceHost) (unicodeAlnum : Char → Bool) (registry : InterfaceRegistry H)
        (keyErrorText : H.Error → Option String) (value : PyValue),
      Agree unicodeAlnum registry keyErrorText value := by
  intro hall
  have hagree := hall plainHost (fun _ => false) ⟨some fun _ => .ok (.str "pem")⟩ (fun _ => none)
    (.str "$\x7bSECRET:jwt.public\x7d")
  have hinterface : interfaceKeys (.str "$\x7bSECRET:jwt.public\x7d") = ["jwt.public"] := by
    decide
  have hauth : authorizationKeys (fun _ => false) (.str "$\x7bSECRET:jwt.public\x7d") = [] := by
    decide
  have hreferences := hagree.references
  rw [hinterface, hauth] at hreferences
  cases hreferences

end ReferenceSyntax
end YamlAgno
