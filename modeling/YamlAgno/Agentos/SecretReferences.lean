import YamlAgno.Library.Fallible
import YamlAgno.Library.Paired
import YamlAgno.Agentos.Authorization

/-!
# Secret references in the authorization build

What the build resolves are the strings that its pattern matches as a whole, at any
depth of lists, in order; it stops at the first that does not resolve.  Every other
string is forwarded as it is, so the law that no reference reaches the authorization
config, and that the build ends in its own error otherwise, holds exactly when the
settings are refused, or the build stops with its own error, or every string the
pattern does not match is free of references and the authorization config accepts
the outcome (`no_reference_leaks_iff`).
-/

namespace YamlAgno
namespace Authorization

open Fallible

variable {E : Type}

/-! ## What the build resolves -/

section Leaves

variable (unicodeAlnum : Char → Bool)

mutual

/-- The strings of a value, at any depth of lists. -/
def stringLeaves : PyValue → List String
  | .str value => [value]
  | .list items => itemLeaves items
  | _ => []

def itemLeaves : List PyValue → List String
  | [] => []
  | item :: items => stringLeaves item ++ itemLeaves items

end

theorem itemLeaves_eq_flatMap
    (items : List PyValue) :
    itemLeaves items = items.flatMap stringLeaves := by
  induction items with
  | nil =>
      rfl
  | cons item items ih =>
      simp [itemLeaves, ih]

theorem resolveItems_eq_mapM
    (secretManager : SecretManager E)
    (items : List PyValue) :
    resolveItems unicodeAlnum secretManager items =
      items.mapM (resolveValue unicodeAlnum secretManager) := by
  induction items with
  | nil =>
      rfl
  | cons item items ih =>
      simp only [resolveItems, ih, List.mapM_cons]

/-- The keys of the references that make up a whole string, in order. -/
def keysOf (value : PyValue) : List String :=
  (stringLeaves value).filterMap (secretKey unicodeAlnum)

/-- The secret manager returns something for the key. -/
def Resolves
    (secretManager : SecretManager E)
    (key : String) : Prop :=
  ∃ call value, secretManager = some call ∧ call key = .returned value ∧ value ≠ .none

/-- The key does not resolve in one of the ways the build turns into its own error:
there is no secret manager, it returns `None`, or it raises a `KeyError`. -/
def Refuses
    (secretManager : SecretManager E)
    (key : String) : Prop :=
  secretManager = none ∨
    ∃ call, secretManager = some call ∧
      (call key = .returned .none ∨ ∃ text, call key = .keyError text)

/-- The resolution of the keys stops at one of them with the error. -/
def FirstFailure
    (secretManager : SecretManager E)
    (keys : List String)
    (failure : MapFailure E) : Prop :=
  ∃ before key after,
    keys = before ++ key :: after ∧ (∀ k ∈ before, Resolves secretManager k) ∧
      resolveSecret secretManager key = .error failure

/-- `value'` is `value` with each reference replaced by what the secret manager
returns, and no reference left. -/
inductive Replaced
    (secretManager : SecretManager E) : PyValue → PyValue → Prop
  | literal
      {value : String}
      (hfree : ¬ ContainsReference value) :
      Replaced secretManager (.str value) (.str value)
  | secret
      {value : String} {key : String} {resolved : PyValue}
      (hkey : secretKey unicodeAlnum value = some key)
      (hresolved : resolveSecret secretManager key = .ok resolved) :
      Replaced secretManager (.str value) resolved
  | list
      {items items' : List PyValue}
      (hitems : List.Forall₂ (Replaced secretManager) items items') :
      Replaced secretManager (.list items) (.list items')
  | other
      {value : PyValue}
      (hstr : ∀ text, value ≠ .str text)
      (hlist : ∀ items, value ≠ .list items) :
      Replaced secretManager value value

end Leaves

section Resolution

variable {unicodeAlnum : Char → Bool} {secretManager : SecretManager E}

theorem resolveSecret_eq_ok_iff
    {key : String}
    {value : PyValue} :
    resolveSecret secretManager key = .ok value ↔
      ∃ call, secretManager = some call ∧ call key = .returned value ∧ value ≠ .none := by
  cases secretManager with
  | none =>
      simp [resolveSecret]
  | some call =>
      cases hcall : call key with
      | keyError text =>
          simp [resolveSecret, hcall]
      | otherError error =>
          simp [resolveSecret, hcall]
      | returned value' =>
          cases value' <;> simp [resolveSecret, hcall] <;> grind

theorem exists_resolveSecret_iff
    {key : String} :
    (∃ value, resolveSecret secretManager key = .ok value) ↔ Resolves secretManager key := by
  simp only [resolveSecret_eq_ok_iff, Resolves]
  exact exists_comm

/-- The failures of a single key that are the build's own errors. -/
theorem resolveSecret_refuses_iff
    {key : String}
    {failure : MapFailure E}
    (h : resolveSecret secretManager key = .error failure) :
    (∃ message, failure = .authorizationBuildError message) ↔ Refuses secretManager key := by
  cases secretManager with
  | none =>
      simp only [resolveSecret, Except.error.injEq] at h
      subst h
      simp [Refuses]
  | some call =>
      cases hcall : call key with
      | keyError text =>
          simp only [resolveSecret, hcall, Except.error.injEq] at h
          subst h
          simp [Refuses, hcall]
      | otherError error =>
          simp only [resolveSecret, hcall, Except.error.injEq] at h
          subst h
          simp [Refuses, hcall]
      | returned value =>
          cases value with
          | none =>
              simp only [resolveSecret, hcall, Except.error.injEq] at h
              subst h
              simp [Refuses, hcall]
          | bool _ | int _ | str _ | list _ | dict _ | object _ _ =>
              simp [resolveSecret, hcall] at h

end Resolution

/-! ## Resolving a value -/

section ResolveValue

variable {unicodeAlnum : Char → Bool} {secretManager : SecretManager E}

/-- A traversal that resolves each item: it succeeds when all keys resolve. -/
theorem exists_mapM_iff
    {γ δ : Type}
    {f : γ → Except (MapFailure E) δ}
    {keys : γ → List String}
    {xs : List γ}
    (h : ∀ x ∈ xs, (∃ y, f x = .ok y) ↔ ∀ k ∈ keys x, Resolves secretManager k) :
    (∃ ys, xs.mapM f = .ok ys) ↔ ∀ k ∈ xs.flatMap keys, Resolves secretManager k := by
  simp only [mapM_eq_ok_iff, List.mem_flatMap, forall_exists_index, and_imp]
  constructor
  · rintro ⟨ys, hys⟩ k x hx hk
    obtain ⟨i, hi⟩ := List.mem_iff_getElem?.mp hx
    obtain ⟨y, _, hy⟩ := Paired.exists_at hys hi
    exact (h x hx).mp ⟨y, hy⟩ k hk
  · intro hall
    exact Paired.exists_list (fun x hx => (h x hx).mpr (fun k hk => hall k x hx hk))

/-- A traversal that resolves each item stops at the first key that does not resolve. -/
theorem firstFailure_of_mapM
    {γ δ : Type}
    {f : γ → Except (MapFailure E) δ}
    {keys : γ → List String}
    {xs : List γ}
    {failure : MapFailure E}
    (hok : ∀ x ∈ xs, (∃ y, f x = .ok y) ↔ ∀ k ∈ keys x, Resolves secretManager k)
    (hfail : ∀ x ∈ xs, f x = .error failure → FirstFailure secretManager (keys x) failure)
    (h : xs.mapM f = .error failure) :
    FirstFailure secretManager (xs.flatMap keys) failure := by
  obtain ⟨before, x, after, rfl, hbefore, hx⟩ := exists_of_mapM_eq_error h
  obtain ⟨keysBefore, key, keysAfter, hkeys, hresolve, hkey⟩ := hfail x (by simp) hx
  refine ⟨before.flatMap keys ++ keysBefore, key, keysAfter ++ after.flatMap keys, ?_, ?_, hkey⟩
  · simp [hkeys]
  · intro k hk
    rcases List.mem_append.mp hk with hk | hk
    · obtain ⟨z, hz, hkz⟩ := List.mem_flatMap.mp hk
      exact (hok z (by simp [hz])).mp (hbefore z hz) k hkz
    · exact hresolve k hk

theorem keysOf_list
    (items : List PyValue) :
    keysOf unicodeAlnum (.list items) = items.flatMap (keysOf unicodeAlnum) := by
  simp only [keysOf, stringLeaves, itemLeaves_eq_flatMap, List.filterMap_flatMap]
  rfl

/-- Resolving a value succeeds exactly when all its keys resolve. -/
theorem exists_resolveValue_iff
    (value : PyValue) :
    (∃ value', resolveValue unicodeAlnum secretManager value = .ok value') ↔
      ∀ k ∈ keysOf unicodeAlnum value, Resolves secretManager k := by
  induction value using PyValue.induction_items with
  | list items ih =>
      rw [keysOf_list, ← exists_mapM_iff ih, resolveValue, resolveItems_eq_mapM]
      simp only [map_eq_ok_iff]
      exact ⟨fun ⟨_, items', h, _⟩ => ⟨items', h⟩, fun ⟨items', h⟩ => ⟨_, items', h, rfl⟩⟩
  | other value hvalue =>
      cases value with
      | list items =>
          exact absurd rfl (hvalue items)
      | str text =>
          cases hkey : secretKey unicodeAlnum text with
          | none =>
              simp [resolveValue, keysOf, stringLeaves, hkey]
          | some key =>
              simp [resolveValue, keysOf, stringLeaves, hkey, exists_resolveSecret_iff]
      | none | bool _ | int _ | dict _ | object _ _ =>
          simp [resolveValue, keysOf, stringLeaves]

/-- Resolving a value stops at the first of its keys that does not resolve. -/
theorem firstFailure_of_resolveValue
    {value : PyValue}
    {failure : MapFailure E}
    (h : resolveValue unicodeAlnum secretManager value = .error failure) :
    FirstFailure secretManager (keysOf unicodeAlnum value) failure := by
  induction value using PyValue.induction_items with
  | list items ih =>
      rw [keysOf_list]
      rw [resolveValue, resolveItems_eq_mapM, map_eq_error_iff] at h
      exact firstFailure_of_mapM (fun item _ => exists_resolveValue_iff item)
        (fun item hitem hfail => ih item hitem hfail) h
  | other value hvalue =>
      cases value with
      | list items =>
          exact absurd rfl (hvalue items)
      | str text =>
          cases hkey : secretKey unicodeAlnum text with
          | none =>
              simp [resolveValue, hkey] at h
          | some key =>
              simp only [resolveValue, hkey] at h
              exact ⟨[], key, [], by simp [keysOf, stringLeaves, hkey], by simp, h⟩
      | none | bool _ | int _ | dict _ | object _ _ =>
          simp [resolveValue] at h

/-- A string that the pattern matches as a whole contains a reference. -/
theorem containsReference_of_secretKey
    {text key : String}
    (h : secretKey unicodeAlnum text = some key) :
    ContainsReference text := by
  unfold secretKey at h
  split_ifs at h with hprefix
  simp only at h
  split_ifs at h with htail
  obtain ⟨rest, hrest⟩ := List.isPrefixOf_iff_prefix.mp hprefix
  rw [← hrest, List.drop_left] at htail
  have hsplit := List.takeWhile_append_dropWhile (p := isKeyChar unicodeAlnum) (l := rest)
  rcases htail.2 with htail | htail
  · rw [htail] at hsplit
    refine ⟨[], rest.takeWhile (isKeyChar unicodeAlnum), [], ?_⟩
    calc text.toList = secretPrefix ++ rest := hrest.symm
      _ = secretPrefix ++ (rest.takeWhile (isKeyChar unicodeAlnum) ++ ['}']) := by rw [hsplit]
      _ = [] ++ secretPrefix ++ rest.takeWhile (isKeyChar unicodeAlnum) ++ ['}'] ++ [] := by simp
  · rw [htail] at hsplit
    refine ⟨[], rest.takeWhile (isKeyChar unicodeAlnum), ['\n'], ?_⟩
    calc text.toList = secretPrefix ++ rest := hrest.symm
      _ = secretPrefix ++ (rest.takeWhile (isKeyChar unicodeAlnum) ++ ['}', '\n']) := by
          rw [hsplit]
      _ = [] ++ secretPrefix ++ rest.takeWhile (isKeyChar unicodeAlnum) ++ ['}'] ++ ['\n'] := by
          simp

/-- Where a value resolves, the result is free of the value's references exactly when
the strings that the pattern does not match are free of references. -/
theorem replaced_iff
    {value value' : PyValue}
    (h : resolveValue unicodeAlnum secretManager value = .ok value') :
    Replaced unicodeAlnum secretManager value value' ↔
      ∀ text ∈ stringLeaves value, secretKey unicodeAlnum text = none →
        ¬ ContainsReference text := by
  induction value using PyValue.induction_items generalizing value' with
  | list items ih =>
      rw [resolveValue, resolveItems_eq_mapM] at h
      obtain ⟨items', hitems, rfl⟩ := map_eq_ok_iff.mp h
      have hpairs := mapM_eq_ok_iff.mp hitems
      simp only [stringLeaves, itemLeaves_eq_flatMap, List.mem_flatMap, forall_exists_index,
        and_imp]
      constructor
      · intro hreplaced text item hitem htext
        cases hreplaced with
        | list hforall =>
            obtain ⟨i, hi⟩ := List.mem_iff_getElem?.mp hitem
            obtain ⟨item', hi', hresolve⟩ := Paired.exists_at hpairs hi
            have hone := Paired.related_at hforall hi hi'
            exact (ih item hitem hresolve).mp hone text htext
        | other _ hlist =>
            exact absurd rfl (hlist items)
      · intro hfree
        refine .list (Paired.forall₂_of_mem hpairs (fun item item' hitem hresolve => ?_))
        exact (ih item hitem hresolve).mpr (fun text htext => hfree text item hitem htext)
  | other value hvalue =>
      cases value with
      | list items =>
          exact absurd rfl (hvalue items)
      | str text =>
          cases hkey : secretKey unicodeAlnum text with
          | none =>
              simp only [resolveValue, hkey, Except.ok.injEq] at h
              subst h
              simp only [stringLeaves, List.mem_singleton, forall_eq, hkey, true_imp_iff]
              constructor
              · intro hreplaced
                cases hreplaced with
                | literal hfree => exact hfree
                | secret hkey' _ => simp [hkey] at hkey'
                | other hstr _ => exact absurd rfl (hstr text)
              · exact .literal
          | some key =>
              simp only [resolveValue, hkey] at h
              simp only [stringLeaves, List.mem_singleton, forall_eq, hkey, reduceCtorEq,
                false_imp_iff, iff_true]
              exact .secret hkey h
      | none | bool _ | int _ | dict _ | object _ _ =>
          simp only [resolveValue, Except.ok.injEq] at h
          subst h
          simp only [stringLeaves, List.not_mem_nil, false_imp_iff, implies_true, iff_true]
          exact .other (by simp) (by simp)

/-- A value whose references are all replaced is what resolving it gives. -/
theorem Replaced.resolveValue_eq
    {value value' : PyValue}
    (h : Replaced unicodeAlnum secretManager value value') :
    resolveValue unicodeAlnum secretManager value = .ok value' := by
  induction value using PyValue.induction_items generalizing value' with
  | list items ih =>
      cases h with
      | list hitems =>
          rw [resolveValue, resolveItems_eq_mapM]
          refine map_eq_ok_iff.mpr ⟨_, mapM_eq_ok_iff.mpr ?_, rfl⟩
          exact Paired.forall₂_of_mem hitems (fun item _ hitem hreplaced => ih item hitem hreplaced)
      | other _ hlist =>
          exact absurd rfl (hlist items)
  | other value hvalue =>
      cases h with
      | @literal text hfree =>
          cases hkey : secretKey unicodeAlnum text with
          | none =>
              simp [resolveValue, hkey]
          | some key =>
              exact absurd (containsReference_of_secretKey hkey) hfree
      | secret hkey hresolved =>
          simp [resolveValue, hkey, hresolved]
      | @list items _ _ =>
          exact absurd rfl (hvalue items)
      | other hstr _ =>
          cases value with
          | str text =>
              exact absurd rfl (hstr text)
          | list items =>
              exact absurd rfl (hvalue items)
          | none | bool _ | int _ | dict _ | object _ _ =>
              rfl

end ResolveValue

/-! ## The whole build -/

/-- The entries of the settings. -/
def AuthorizationSettings.entries (settings : AuthorizationSettings) : PyDict :=
  settings.config.getD []

/-- The settings are refused before anything is resolved. -/
def AuthorizationSettings.Rejected (settings : AuthorizationSettings) : Prop :=
  settings.basicAuth.isSome ∨
    (∃ entry ∈ settings.entries, entry.1 ∉ supportedFields) ∨
      ∃ entry ∈ settings.entries, entry.1 = "user_isolation"

section Build

variable (unicodeAlnum : Char → Bool)

/-- The strings of the settings, at any depth of lists. -/
def settingsStrings (settings : AuthorizationSettings) : List String :=
  settings.entries.flatMap fun entry => stringLeaves entry.2

/-- The keys that the build resolves, in order. -/
def settingsKeys (settings : AuthorizationSettings) : List String :=
  settings.entries.flatMap fun entry => keysOf unicodeAlnum entry.2

/-- The arguments handed to the authorization config are the entries of the settings
with their references replaced and none left, and user isolation. -/
def HandedClean
    (settings : AuthorizationSettings)
    (secretManager : SecretManager E)
    (kwargs : PyDict) : Prop :=
  ∃ resolved,
    kwargs = resolved ++ [("user_isolation", .bool true)] ∧
      List.Forall₂ (fun entry entry' =>
          entry'.1 = entry.1 ∧ Replaced unicodeAlnum secretManager entry.2 entry'.2)
        settings.entries resolved

/-- Either the build succeeds and no reference is handed on, or it raises its own
error. -/
def NoReferenceLeaks
    (construct : PyDict → Except E AuthorizationConfig)
    (settings : AuthorizationSettings)
    (secretManager : SecretManager E) : Prop :=
  (∀ result, mapAuthorizationConfig unicodeAlnum construct settings secretManager = .ok result →
      ∃ kwargs, authorizationKwargs unicodeAlnum settings secretManager = .ok kwargs ∧
        HandedClean unicodeAlnum settings secretManager kwargs) ∧
    ∀ failure,
      mapAuthorizationConfig unicodeAlnum construct settings secretManager = .error failure →
        ∃ message, failure = .authorizationBuildError message

variable {unicodeAlnum} {secretManager : SecretManager E} {settings : AuthorizationSettings}

theorem resolveEntry_eq_ok_iff
    {entry entry' : String × PyValue} :
    resolveEntry unicodeAlnum secretManager entry = .ok entry' ↔
      entry'.1 = entry.1 ∧
        resolveValue unicodeAlnum secretManager entry.2 = .ok entry'.2 := by
  rw [resolveEntry, map_eq_ok_iff]
  constructor
  · rintro ⟨value, hvalue, rfl⟩
    exact ⟨rfl, hvalue⟩
  · rintro ⟨hkey, hvalue⟩
    exact ⟨entry'.2, hvalue, Prod.ext hkey.symm rfl⟩

theorem firstFailure_of_resolveEntry
    {entry : String × PyValue}
    {failure : MapFailure E}
    (h : resolveEntry unicodeAlnum secretManager entry = .error failure) :
    FirstFailure secretManager (keysOf unicodeAlnum entry.2) failure := by
  rw [resolveEntry, map_eq_error_iff] at h
  exact firstFailure_of_resolveValue h

theorem exists_resolveEntry_iff
    (entry : String × PyValue) :
    (∃ entry', resolveEntry unicodeAlnum secretManager entry = .ok entry') ↔
      ∀ k ∈ keysOf unicodeAlnum entry.2, Resolves secretManager k := by
  rw [← exists_resolveValue_iff]
  simp only [resolveEntry_eq_ok_iff]
  constructor
  · rintro ⟨entry', _, h⟩
    exact ⟨entry'.2, h⟩
  · rintro ⟨value, h⟩
    exact ⟨(entry.1, value), rfl, h⟩

theorem unknownKeys_ne_nil_iff
    (config : PyDict) :
    unknownKeys config ≠ [] ↔ ∃ entry ∈ config, entry.1 ∉ supportedFields := by
  simp [unknownKeys, List.filter_eq_nil_iff]

/-- Settings that are rejected end in the build's own error. -/
theorem authorizationKwargs_of_rejected
    (unicodeAlnum : Char → Bool)
    (secretManager : SecretManager E)
    (h : settings.Rejected) :
    ∃ message, authorizationKwargs unicodeAlnum settings secretManager =
      .error (.authorizationBuildError message) := by
  unfold authorizationKwargs
  simp only
  split_ifs with hbasic hunknown hisolation
  · exact ⟨_, rfl⟩
  · exact ⟨_, rfl⟩
  · exact ⟨_, rfl⟩
  · exfalso
    rcases h with h | h | ⟨entry, hentry, hkey⟩
    · exact hbasic h
    · exact hunknown ((unknownKeys_ne_nil_iff _).mpr h)
    · refine hisolation (List.contains_iff_mem.mpr ?_)
      exact List.mem_map.mpr ⟨entry, hentry, hkey⟩

/-- Settings that are not rejected are resolved entry by entry. -/
theorem authorizationKwargs_of_not_rejected
    (unicodeAlnum : Char → Bool)
    (secretManager : SecretManager E)
    (h : ¬ settings.Rejected) :
    authorizationKwargs unicodeAlnum settings secretManager =
      (do
        let resolved ← settings.entries.mapM (resolveEntry unicodeAlnum secretManager)
        return resolved ++ [("user_isolation", .bool true)]) := by
  simp only [AuthorizationSettings.Rejected, not_or] at h
  obtain ⟨hbasic, hunknown, hisolation⟩ := h
  rw [← unknownKeys_ne_nil_iff] at hunknown
  have hcontains : ¬ (settings.entries.map Prod.fst).contains "user_isolation" := by
    intro hmem
    obtain ⟨entry, hentry, hkey⟩ := List.mem_map.mp (List.contains_iff_mem.mp hmem)
    exact hisolation ⟨entry, hentry, hkey⟩
  simp only [AuthorizationSettings.entries] at hunknown hcontains
  simp only [authorizationKwargs, AuthorizationSettings.entries, hbasic, hunknown, hcontains,
    if_false]
  rfl

/-- What resolving the entries comes to. -/
theorem exists_resolveEntries_iff :
    (∃ resolved, settings.entries.mapM (resolveEntry unicodeAlnum secretManager) =
        .ok resolved) ↔
      ∀ k ∈ settingsKeys unicodeAlnum settings, Resolves secretManager k :=
  exists_mapM_iff (fun entry _ => exists_resolveEntry_iff entry)

theorem firstFailure_of_resolveEntries
    {failure : MapFailure E}
    (h : settings.entries.mapM (resolveEntry unicodeAlnum secretManager) = .error failure) :
    FirstFailure secretManager (settingsKeys unicodeAlnum settings) failure :=
  firstFailure_of_mapM (fun entry _ => exists_resolveEntry_iff entry)
    (fun _ _ => firstFailure_of_resolveEntry) h

/-- Resolved entries are handed on clean exactly when the strings that the pattern
does not match are free of references. -/
theorem handedClean_iff
    {resolved : PyDict}
    (h : settings.entries.mapM (resolveEntry unicodeAlnum secretManager) = .ok resolved) :
    HandedClean unicodeAlnum settings secretManager
        (resolved ++ [("user_isolation", .bool true)]) ↔
      ∀ text ∈ settingsStrings settings, secretKey unicodeAlnum text = none →
        ¬ ContainsReference text := by
  have hpairs := mapM_eq_ok_iff.mp h
  simp only [settingsStrings, List.mem_flatMap, forall_exists_index, and_imp]
  constructor
  · rintro ⟨resolved', heq, hforall⟩ text entry hentry htext
    have hsame : resolved = resolved' := List.append_cancel_right heq
    subst hsame
    obtain ⟨i, hi⟩ := List.mem_iff_getElem?.mp hentry
    obtain ⟨entry', hi', hresolve⟩ := Paired.exists_at hpairs hi
    have hreplaced := (Paired.related_at hforall hi hi').2
    exact (replaced_iff (resolveEntry_eq_ok_iff.mp hresolve).2).mp hreplaced text htext
  · intro hfree
    refine ⟨resolved, rfl, Paired.forall₂_of_mem hpairs (fun entry entry' hentry hresolve => ?_)⟩
    obtain ⟨hkey, hvalue⟩ := resolveEntry_eq_ok_iff.mp hresolve
    exact ⟨hkey, (replaced_iff hvalue).mpr (fun text htext => hfree text entry hentry htext)⟩

/-- What is handed on clean is what the entries resolve to. -/
theorem HandedClean.eq_of_resolved
    {resolved kwargs : PyDict}
    (hkwargs : HandedClean unicodeAlnum settings secretManager kwargs)
    (h : settings.entries.mapM (resolveEntry unicodeAlnum secretManager) = .ok resolved) :
    kwargs = resolved ++ [("user_isolation", .bool true)] := by
  obtain ⟨resolved', rfl, hforall⟩ := hkwargs
  have hresolved' :
      settings.entries.mapM (resolveEntry unicodeAlnum secretManager) = .ok resolved' :=
    mapM_eq_ok_iff.mpr (hforall.imp (fun _ _ hentry =>
      resolveEntry_eq_ok_iff.mpr ⟨hentry.1, hentry.2.resolveValue_eq⟩))
  rw [h] at hresolved'
  cases hresolved'
  rfl

/-- Only supported fields are handed on. -/
theorem supported_of_not_rejected
    (h : ¬ settings.Rejected)
    {resolved : PyDict}
    (hresolved : settings.entries.mapM (resolveEntry unicodeAlnum secretManager) = .ok resolved) :
    ∀ entry ∈ resolved ++ [("user_isolation", .bool true)], entry.1 ∈ supportedFields := by
  intro entry hentry
  rcases List.mem_append.mp hentry with hentry | hentry
  · obtain ⟨i, source, hsource, hpair⟩ :=
      Paired.exists_of_mem_right (mapM_eq_ok_iff.mp hresolved) hentry
    rw [(resolveEntry_eq_ok_iff.mp hpair).1]
    by_contra hunknown
    exact h (Or.inr (Or.inl ⟨source, List.mem_of_getElem? hsource, hunknown⟩))
  · rw [List.mem_singleton.mp hentry]
    decide

end Build

/-- What keeps references out: the settings are rejected, or the build stops at a key
that is refused, or all keys resolve, every string that is not a reference as a whole
is free of references, and the authorization config accepts the entries with their
references replaced. -/
def KeepsReferencesOut
    (unicodeAlnum : Char → Bool)
    (construct : PyDict → Except E AuthorizationConfig)
    (settings : AuthorizationSettings)
    (secretManager : SecretManager E) : Prop :=
  settings.Rejected ∨
    (∃ before key after,
      settingsKeys unicodeAlnum settings = before ++ key :: after ∧
        (∀ k ∈ before, Resolves secretManager k) ∧ Refuses secretManager key) ∨
      ((∀ k ∈ settingsKeys unicodeAlnum settings, Resolves secretManager k) ∧
        (∀ text ∈ settingsStrings settings, secretKey unicodeAlnum text = none →
          ¬ ContainsReference text) ∧
          ∀ kwargs, HandedClean unicodeAlnum settings secretManager kwargs →
            ∃ config, construct kwargs = .ok config)

/-- A key is not both refused and resolved. -/
theorem not_resolves_of_refuses
    {secretManager : SecretManager E}
    {key : String}
    (h : Refuses secretManager key) :
    ¬ Resolves secretManager key := by
  rintro ⟨call, value, rfl, hcall, hvalue⟩
  rcases h with h | ⟨call', hcall', hnone | ⟨text, htext⟩⟩
  · cases h
  · cases hcall'
    rw [hcall] at hnone
    cases hnone
    exact hvalue rfl
  · cases hcall'
    rw [hcall] at htext
    cases htext

/-- The place where a list of keys first fails to resolve is unique. -/
theorem firstFailure_key_eq
    {secretManager : SecretManager E}
    {before before' after after' : List String}
    {key key' : String}
    (hkeys : before ++ key :: after = before' ++ key' :: after')
    (hbefore : ∀ k ∈ before, Resolves secretManager k)
    (hbefore' : ∀ k ∈ before', Resolves secretManager k)
    (hkey : ¬ Resolves secretManager key)
    (hkey' : ¬ Resolves secretManager key') :
    key = key' := by
  rcases List.append_eq_append_iff.mp hkeys with ⟨extra, hextra, hrest⟩ | ⟨extra, hextra, hrest⟩
  · cases extra with
    | nil =>
        simp at hrest
        exact hrest.1
    | cons k extra =>
        obtain ⟨rfl, _⟩ := List.cons_eq_cons.mp hrest
        exact absurd (hbefore' key (by simp [hextra])) hkey
  · cases extra with
    | nil =>
        simp at hrest
        exact hrest.1.symm
    | cons k extra =>
        obtain ⟨rfl, _⟩ := List.cons_eq_cons.mp hrest
        exact absurd (hbefore key' (by simp [hextra])) hkey'

/-! ## When no reference leaks -/

section Law

variable {unicodeAlnum : Char → Bool} {construct : PyDict → Except E AuthorizationConfig}
  {settings : AuthorizationSettings} {secretManager : SecretManager E}

theorem mapAuthorizationConfig_of_enabled
    (h : settings.enabled = true) :
    mapAuthorizationConfig unicodeAlnum construct settings secretManager =
      (do
        let kwargs ← authorizationKwargs unicodeAlnum settings secretManager
        let config ← (construct kwargs).mapError .propagated
        return (true, some config)) := by
  simp [mapAuthorizationConfig, h]

/-- A build that fails leaks nothing, if the failure is its own error. -/
theorem noReferenceLeaks_of_error_iff
    {failure : MapFailure E}
    (h : mapAuthorizationConfig unicodeAlnum construct settings secretManager =
      .error failure) :
    NoReferenceLeaks unicodeAlnum construct settings secretManager ↔
      ∃ message, failure = .authorizationBuildError message := by
  constructor
  · rintro ⟨_, hown⟩
    exact hown failure h
  · intro hown
    refine ⟨fun result hresult => ?_, fun failure' hfailure => ?_⟩
    · rw [h] at hresult
      cases hresult
    · rw [h] at hfailure
      cases hfailure
      exact hown

/-- A build that succeeds leaks nothing, if what it hands on is clean. -/
theorem noReferenceLeaks_of_ok_iff
    {kwargs : PyDict}
    {result : Bool × Option AuthorizationConfig}
    (hkwargs : authorizationKwargs unicodeAlnum settings secretManager = .ok kwargs)
    (h : mapAuthorizationConfig unicodeAlnum construct settings secretManager = .ok result) :
    NoReferenceLeaks unicodeAlnum construct settings secretManager ↔
      HandedClean unicodeAlnum settings secretManager kwargs := by
  constructor
  · rintro ⟨hclean, _⟩
    obtain ⟨kwargs', hkwargs', hhanded⟩ := hclean result h
    rw [hkwargs] at hkwargs'
    cases hkwargs'
    exact hhanded
  · intro hhanded
    refine ⟨fun _ _ => ⟨kwargs, hkwargs, hhanded⟩, fun failure hfailure => ?_⟩
    rw [h] at hfailure
    cases hfailure

/-- Settings that are rejected leak nothing. -/
theorem noReferenceLeaks_of_rejected
    (henabled : settings.enabled = true)
    (hrejected : settings.Rejected) :
    NoReferenceLeaks unicodeAlnum construct settings secretManager := by
  obtain ⟨message, hkwargs⟩ :=
    authorizationKwargs_of_rejected unicodeAlnum secretManager hrejected
  have herror : mapAuthorizationConfig unicodeAlnum construct settings secretManager =
      .error (.authorizationBuildError message) := by
    rw [mapAuthorizationConfig_of_enabled henabled, hkwargs]
    rfl
  exact (noReferenceLeaks_of_error_iff herror).mpr ⟨message, rfl⟩

/-- Where an entry fails to resolve, nothing leaks exactly when the first key that does
not resolve is refused. -/
theorem noReferenceLeaks_of_failed_iff
    (henabled : settings.enabled = true)
    (hrejected : ¬ settings.Rejected)
    {failure : MapFailure E}
    (hentries : settings.entries.mapM (resolveEntry unicodeAlnum secretManager) =
      .error failure) :
    NoReferenceLeaks unicodeAlnum construct settings secretManager ↔
      ∃ before key after,
        settingsKeys unicodeAlnum settings = before ++ key :: after ∧
          (∀ k ∈ before, Resolves secretManager k) ∧ Refuses secretManager key := by
  have herror : mapAuthorizationConfig unicodeAlnum construct settings secretManager =
      .error failure := by
    rw [mapAuthorizationConfig_of_enabled henabled,
      authorizationKwargs_of_not_rejected unicodeAlnum secretManager hrejected, hentries]
    rfl
  obtain ⟨before, key, after, hkeys, hbefore, hkey⟩ := firstFailure_of_resolveEntries hentries
  rw [noReferenceLeaks_of_error_iff herror, resolveSecret_refuses_iff hkey]
  constructor
  · intro hrefuses
    exact ⟨before, key, after, hkeys, hbefore, hrefuses⟩
  · rintro ⟨before', key', after', hkeys', hbefore', hrefuses⟩
    have hnot : ¬ Resolves secretManager key := by
      rw [← exists_resolveSecret_iff, hkey]
      simp
    have hsame : key' = key := firstFailure_key_eq (hkeys' ▸ hkeys) hbefore' hbefore
      (not_resolves_of_refuses hrefuses) hnot
    exact hsame ▸ hrefuses

/-- Where all entries resolve, nothing leaks exactly when the strings that the pattern
does not match are free of references and the authorization config accepts the
outcome. -/
theorem noReferenceLeaks_of_resolved_iff
    (henabled : settings.enabled = true)
    (hrejected : ¬ settings.Rejected)
    {resolved : PyDict}
    (hentries : settings.entries.mapM (resolveEntry unicodeAlnum secretManager) =
      .ok resolved) :
    NoReferenceLeaks unicodeAlnum construct settings secretManager ↔
      (∀ text ∈ settingsStrings settings, secretKey unicodeAlnum text = none →
        ¬ ContainsReference text) ∧
        ∀ kwargs, HandedClean unicodeAlnum settings secretManager kwargs →
          ∃ config, construct kwargs = .ok config := by
  have hkwargs : authorizationKwargs unicodeAlnum settings secretManager =
      .ok (resolved ++ [("user_isolation", .bool true)]) := by
    rw [authorizationKwargs_of_not_rejected unicodeAlnum secretManager hrejected, hentries]
    rfl
  have hmap : mapAuthorizationConfig unicodeAlnum construct settings secretManager =
      (do
        let config ← (construct (resolved ++ [("user_isolation", .bool true)])).mapError
          .propagated
        return (true, some config)) := by
    rw [mapAuthorizationConfig_of_enabled henabled, hkwargs]
    rfl
  rw [← handedClean_iff hentries]
  cases hconfig : construct (resolved ++ [("user_isolation", .bool true)]) with
  | ok config =>
      have hok : mapAuthorizationConfig unicodeAlnum construct settings secretManager =
          .ok (true, some config) := by
        rw [hmap]
        exact bind_eq_ok_iff.mpr ⟨config, mapError_eq_ok_iff.mpr hconfig, rfl⟩
      rw [noReferenceLeaks_of_ok_iff hkwargs hok]
      constructor
      · intro hclean
        refine ⟨hclean, fun kwargs hkwargs' => ⟨config, ?_⟩⟩
        rw [hkwargs'.eq_of_resolved hentries]
        exact hconfig
      · rintro ⟨hclean, _⟩
        exact hclean
  | error error =>
      have herror : mapAuthorizationConfig unicodeAlnum construct settings secretManager =
          .error (.propagated error) := by
        rw [hmap]
        simp [bind, Except.bind, hconfig, Except.mapError]
      rw [noReferenceLeaks_of_error_iff herror]
      constructor
      · rintro ⟨message, hmessage⟩
        cases hmessage
      · rintro ⟨hclean, haccepts⟩
        obtain ⟨config, hok⟩ := haccepts _ hclean
        rw [hconfig] at hok
        cases hok

end Law

/-- With authorization enabled, no reference leaks exactly when something keeps
references out. -/
theorem no_reference_leaks_iff
    (unicodeAlnum : Char → Bool)
    (construct : PyDict → Except E AuthorizationConfig)
    (settings : AuthorizationSettings)
    (henabled : settings.enabled = true)
    (secretManager : SecretManager E) :
    NoReferenceLeaks unicodeAlnum construct settings secretManager ↔
      KeepsReferencesOut unicodeAlnum construct settings secretManager := by
  by_cases hrejected : settings.Rejected
  · exact iff_of_true (noReferenceLeaks_of_rejected henabled hrejected) (Or.inl hrejected)
  · cases hentries : settings.entries.mapM (resolveEntry unicodeAlnum secretManager) with
    | ok resolved =>
        have hresolves := exists_resolveEntries_iff.mp ⟨resolved, hentries⟩
        rw [noReferenceLeaks_of_resolved_iff henabled hrejected hentries]
        constructor
        · intro hkeeps
          exact Or.inr (Or.inr ⟨hresolves, hkeeps⟩)
        · rintro (h | ⟨before, key, after, hkeys, _, hrefuses⟩ | ⟨_, hkeeps⟩)
          · exact absurd h hrejected
          · exact absurd (hresolves key (by simp [hkeys])) (not_resolves_of_refuses hrefuses)
          · exact hkeeps
    | error failure =>
        rw [noReferenceLeaks_of_failed_iff henabled hrejected hentries]
        constructor
        · intro hstops
          exact Or.inr (Or.inl hstops)
        · rintro (h | hstops | ⟨hall, _⟩)
          · exact absurd h hrejected
          · exact hstops
          · -- All keys resolve, so no entry can have failed.
            obtain ⟨resolved, hresolved⟩ := exists_resolveEntries_iff.mpr hall
            rw [hentries] at hresolved
            cases hresolved

/-- A constructor that takes the user isolation it is given. -/
def constructConfig (kwargs : PyDict) : Except Unit AuthorizationConfig :=
  .ok ⟨(kwargs.lookup "user_isolation").getD (.bool false)⟩

/-- Settings with one verification key. -/
def settingsWithKey (text : String) : AuthorizationSettings where
  enabled := true
  config := some [("verification_keys", .list [.str text])]

/-- A secret manager that knows one key. -/
def singleSecret (key : String) : SecretOutcome Unit :=
  if key = "jwt_public" then .returned (.str "pem") else .keyError key

theorem no_reference_leaks_singleSecret :
    NoReferenceLeaks (fun _ => false) constructConfig
      (settingsWithKey "$\x7bSECRET:jwt_public\x7d") (some singleSecret) := by
  refine (no_reference_leaks_iff (fun _ => false) constructConfig
    (settingsWithKey "$\x7bSECRET:jwt_public\x7d") rfl (some singleSecret)).mpr ?_
  refine Or.inr (Or.inr ⟨fun k hk => ?_, fun text htext hnone => ?_, fun _ _ => ⟨_, rfl⟩⟩)
  · have hkeys : settingsKeys (fun _ => false) (settingsWithKey "$\x7bSECRET:jwt_public\x7d") =
        ["jwt_public"] := by decide
    rw [hkeys] at hk
    obtain rfl := List.mem_singleton.mp hk
    exact ⟨singleSecret, .str "pem", rfl, rfl, by simp⟩
  · have hstrings : settingsStrings (settingsWithKey "$\x7bSECRET:jwt_public\x7d") =
        ["$\x7bSECRET:jwt_public\x7d"] := by decide
    rw [hstrings] at htext
    obtain rfl := List.mem_singleton.mp htext
    have hkey : secretKey (fun _ => false) "$\x7bSECRET:jwt_public\x7d" = some "jwt_public" := by
      decide
    rw [hkey] at hnone
    cases hnone

/-- A reference with a dotted key is forwarded as it is, even without a secret manager. -/
theorem dotted_reference_leaks :
    ¬ ∀ (unicodeAlnum : Char → Bool) (construct : PyDict → Except Unit AuthorizationConfig)
        (settings : AuthorizationSettings) (secretManager : SecretManager Unit),
        (∀ kwargs : PyDict, (∀ entry ∈ kwargs, entry.1 ∈ supportedFields) →
          ∃ config, construct kwargs = .ok config) →
        settings.enabled = true →
        NoReferenceLeaks unicodeAlnum construct settings secretManager := by
  intro hall
  have hlaw := hall (fun _ => false) constructConfig
    (settingsWithKey "$\x7bSECRET:jwt.public\x7d") none (fun _ _ => ⟨_, rfl⟩) rfl
  obtain ⟨kwargs, hkwargs, hclean⟩ := hlaw.1 _ rfl
  have hentries : (settingsWithKey "$\x7bSECRET:jwt.public\x7d").entries.mapM
      (resolveEntry (E := Unit) (fun _ => false) none) =
        .ok [("verification_keys", .list [.str "$\x7bSECRET:jwt.public\x7d"])] := rfl
  cases hkwargs
  have hfree := (handedClean_iff hentries).mp hclean "$\x7bSECRET:jwt.public\x7d"
    (by decide) (by decide)
  exact hfree ⟨[], "jwt.public".toList, [], by decide⟩

end Authorization
end YamlAgno
