import YamlAgno.Config.SecretManager
import YamlAgno.Library.Calling
import YamlAgno.Library.Runs

/-!
# The audit trail of secrets

`SecretAccessAuditor` of `config/secrets.py` around a core manager, and the rotation of
`SecretRotator` of `config/rotator.py` over it.  The core manager and the recorder are
outside; what they answer may depend on all calls before.

An attempt is audited if the recorder is called once, with the outcome of the core, and the
caller gets that outcome.  The auditor calls the recorder after a value, after a
`ValidationError` of a read and after a rotation, and after nothing else; the rotator calls it
once more.  So an attempt is audited under a condition on the outcomes (`complete_iff_along`).
-/

namespace YamlAgno

open Calling Fallible Runs

/-- The event that `SecretAuditRecorder.record` is given. -/
structure AuditEvent where
  secretName : String
  ok : Bool
  hit : String
  actor : String := "yaml-agno"
deriving DecidableEq

/-- The event of a success. -/
def AuditEvent.remote (key : String) : AuditEvent where
  secretName := key
  ok := true
  hit := "remote"

/-- The event of a read that failed. -/
def AuditEvent.miss (key : String) : AuditEvent where
  secretName := key
  ok := false
  hit := "miss"

/-- The calls that leave the repository. -/
inductive SecretCall where
  | getSecret (key : String)
  | rotateSecret (key newValue : String)
  | record (event : AuditEvent)
deriving DecidableEq

/-- The core manager and the recorders; `A` are the recorders, `V` the values of secrets and
`E` the exceptions. -/
structure SecretHost (A V E : Type) where
  getSecret : List SecretCall → String → Except E V
  rotateSecret : List SecretCall → String → String → Except E Unit
  record : A → List SecretCall → AuditEvent → Except E Unit
  /-- The truth value of a recorder. -/
  truthy : A → Bool
  isValidationError : E → Bool
  /-- The instances of `Exception`. -/
  isException : E → Bool
  isException_of_isValidationError :
    ∀ error, isValidationError error = true → isException error = true

section Audit

variable {A V E : Type} (H : SecretHost A V E)

/-- The read of the core manager, with its outcome as the value. -/
def coreGetSecret (key : String) : Calling SecretCall E (Except E V) :=
  call (fun before _ => .ok (H.getSecret before key)) (.getSecret key)

/-- The rotation of the core manager, with its outcome as the value. -/
def coreRotateSecret (key newValue : String) : Calling SecretCall E (Except E Unit) :=
  call (fun before _ => .ok (H.rotateSecret before key newValue)) (.rotateSecret key newValue)

/-- What is left of an outcome under `except Exception`. -/
def swallow (outcome : Except E Unit) : Except E Unit :=
  match outcome with
  | .ok () => .ok ()
  | .error error => if H.isException error then .ok () else .error error

namespace SecretAccessAuditor

/-- `_audit`; `auditor or NoopSecretAuditRecorder()` drops a recorder that is falsy. -/
def audit (auditor : A) (event : AuditEvent) : Calling SecretCall E Unit :=
  if H.truthy auditor then
    call (fun before _ => swallow H (H.record auditor before event)) (.record event)
  else pure ()

/-- `get_secret`. -/
def getSecret (auditor : A) (key : String) : Calling SecretCall E V := do
  match ← coreGetSecret H key with
  | .ok value => do
      audit H auditor (.remote key)
      return value
  | .error error =>
      if H.isValidationError error then do
        audit H auditor (.miss key)
        ofExcept (.error error)
      else ofExcept (.error error)

/-- `rotate_secret`. -/
def rotateSecret (auditor : A) (key newValue : String) : Calling SecretCall E Unit := do
  match ← coreRotateSecret H key newValue with
  | .ok () => audit H auditor (.remote key)
  | .error error => ofExcept (.error error)

end SecretAccessAuditor

namespace SecretManager

/-- `get_secret` of what `build_secret_manager` returns. -/
def getSecret : SecretManager A → String → Calling SecretCall E V
  | plain _, key => coreGetSecret H key >>= ofExcept
  | audited _ auditor, key => SecretAccessAuditor.getSecret H auditor key

/-- `rotate_secret`. -/
def rotateSecret : SecretManager A → String → String → Calling SecretCall E Unit
  | plain _, key, newValue => coreRotateSecret H key newValue >>= ofExcept
  | audited _ auditor, key, newValue => SecretAccessAuditor.rotateSecret H auditor key newValue

end SecretManager

/-- `SecretRotator`. -/
structure SecretRotator (A : Type) where
  secrets : SecretManager A
  auditor : Option A

/-- `SecretRotator.rotate`. -/
def SecretRotator.rotate
    (rotator : SecretRotator A)
    (key newValue : String) :
    Calling SecretCall E Unit := do
  rotator.secrets.rotateSecret H key newValue
  match rotator.auditor with
  | none => pure ()
  | some auditor =>
      call (fun before _ => H.record auditor before (.remote key)) (.record (.remote key))

/-! ## Attempts -/

/-- A call of a client: to the manager, or to the rotator over it. -/
inductive SecretOp where
  | getSecret (key : String)
  | rotateSecret (key newValue : String)
  | rotate (key newValue : String)
deriving DecidableEq

/-- The secret that a call is about. -/
def SecretOp.key : SecretOp → String
  | getSecret key | rotateSecret key _ | rotate key _ => key

/-- A call, with what it returns; a rotation returns `None`. -/
def perform
    (manager : SecretManager A)
    (auditor : A) :
    SecretOp → Calling SecretCall E (Option V)
  | .getSecret key => some <$> manager.getSecret H key
  | .rotateSecret key newValue => (fun _ => none) <$> manager.rotateSecret H key newValue
  | .rotate key newValue =>
      (fun _ => none) <$> SecretRotator.rotate H ⟨manager, some auditor⟩ key newValue

/-- What the core answers to a call, which is the first thing that the call asks. -/
def coreOutcome (before : List SecretCall) : SecretOp → Except E (Option V)
  | .getSecret key => (H.getSecret before key).map some
  | .rotateSecret key newValue | .rotate key newValue =>
      (H.rotateSecret before key newValue).map fun _ => none

/-- The event of a call to the recorder. -/
def SecretCall.event : SecretCall → Option AuditEvent
  | record event => some event
  | getSecret _ | rotateSecret _ _ => none

/-- An attempt: the answer of the core, the events of the recorder and what the caller got. -/
structure SecretAttempt (V E : Type) where
  op : SecretOp
  core : Except E (Option V)
  events : List AuditEvent
  result : Except E (Option V)

/-- The recorder was called once, with the outcome of the core, which the caller got. -/
structure SecretAttempt.Audited (attempt : SecretAttempt V E) : Prop where
  one_event :
    attempt.events.map (fun event => (event.secretName, event.ok)) =
      [(attempt.op.key, attempt.core.isOk)]
  unchanged : attempt.result = attempt.core

/-- All calls that were made outside, and the attempts that made them. -/
structure Trail (V E : Type) where
  calls : List SecretCall := []
  attempts : List (SecretAttempt V E) := []

/-- Every attempt was audited. -/
def Trail.Complete (trail : Trail V E) : Prop :=
  ∀ attempt ∈ trail.attempts, attempt.Audited

/-- An attempt after some calls. -/
def attempted
    (manager : SecretManager A)
    (auditor : A)
    (before : List SecretCall)
    (op : SecretOp) :
    SecretAttempt V E :=
  let done := perform H manager auditor op before
  ⟨op, coreOutcome H before op, done.entries.filterMap SecretCall.event, done.result⟩

/-- A client makes one call after the other; an exception ends only its own call. -/
def Trail.step
    (manager : SecretManager A)
    (auditor : A)
    (trail : Trail V E)
    (op : SecretOp) :
    Option (Trail V E) :=
  some
    { calls := trail.calls ++ (perform H manager auditor op trail.calls).entries
      attempts := trail.attempts ++ [attempted H manager auditor trail.calls op] }

/-! ## The condition -/

/-- The recorder returns, or raises an `Exception`. -/
def Contained (auditor : A) (before : List SecretCall) (event : AuditEvent) : Prop :=
  ∀ error, H.record auditor before event = .error error → H.isException error = true

/--
A read has a value or a `ValidationError` and a rotation succeeds; the recorder is truthy and
what it raises is an `Exception`.  A rotation through the rotator is never among them, unless
the recorder is falsy and returns.
-/
def Meets (auditor : A) (trail : Trail V E) : SecretOp → Prop
  | .getSecret key =>
      H.truthy auditor = true ∧
        match H.getSecret trail.calls key with
        | .ok _ => Contained H auditor (trail.calls ++ [.getSecret key]) (.remote key)
        | .error error =>
            H.isValidationError error = true ∧
              Contained H auditor (trail.calls ++ [.getSecret key]) (.miss key)
  | .rotateSecret key newValue =>
      H.truthy auditor = true ∧ H.rotateSecret trail.calls key newValue = .ok () ∧
        Contained H auditor (trail.calls ++ [.rotateSecret key newValue]) (.remote key)
  | .rotate key newValue =>
      H.truthy auditor = false ∧ H.rotateSecret trail.calls key newValue = .ok () ∧
        H.record auditor (trail.calls ++ [.rotateSecret key newValue]) (.remote key) = .ok ()

variable {H}

theorem swallow_eq_ok_iff
    {outcome : Except E Unit} :
    swallow H outcome = .ok () ↔
      ∀ error, outcome = .error error → H.isException error = true := by
  cases outcome with
  | ok u =>
      exact iff_of_true rfl (fun error h => by cases h)
  | error error =>
      by_cases hexception : H.isException error = true
      · exact iff_of_true (if_pos hexception) (fun error' h => by cases h; exact hexception)
      · refine iff_of_false (fun h => ?_) (fun h => hexception (h error rfl))
        rw [swallow, if_neg hexception] at h
        cases h

/-- What leaves the wrapper of the recorder is no `Exception`. -/
theorem isException_of_swallow
    {outcome : Except E Unit}
    {error : E}
    (h : swallow H outcome = .error error) :
    H.isException error = false := by
  cases outcome with
  | ok u => cases h
  | error error' =>
      by_cases hexception : H.isException error' = true
      · rw [swallow, if_pos hexception] at h
        cases h
      · rw [swallow, if_neg hexception] at h
        cases h
        simpa using hexception

namespace SecretAccessAuditor

variable {auditor : A} {before : List SecretCall} {event : AuditEvent} {key newValue : String}

theorem audit_of_truthy
    (h : H.truthy auditor = true) :
    audit H auditor event before =
      ⟨[.record event], swallow H (H.record auditor before event)⟩ := by
  rw [audit, if_pos h]
  rfl

theorem audit_of_falsy
    (h : H.truthy auditor = false) :
    audit H auditor event before = ⟨[], .ok ()⟩ := by
  rw [audit, if_neg (by simp [h])]
  rfl

theorem getSecret_of_ok
    {value : V}
    (h : H.getSecret before key = .ok value) :
    getSecret H auditor key before =
      ⟨.getSecret key :: (audit H auditor (.remote key) (before ++ [.getSecret key])).entries,
        (audit H auditor (.remote key) (before ++ [.getSecret key])).result >>=
          fun _ => .ok value⟩ := by
  rw [getSecret, coreGetSecret, call_bind_of_ok (congrArg Except.ok h)]
  simp only [bind_pure_apply]
  cases (audit H auditor (.remote key) (before ++ [.getSecret key])).result <;> rfl

theorem getSecret_of_validationError
    {error : E}
    (h : H.getSecret before key = .error error)
    (hvalidation : H.isValidationError error = true) :
    getSecret H auditor key before =
      ⟨.getSecret key :: (audit H auditor (.miss key) (before ++ [.getSecret key])).entries,
        (audit H auditor (.miss key) (before ++ [.getSecret key])).result >>=
          fun _ => .error error⟩ := by
  rw [getSecret, coreGetSecret, call_bind_of_ok (congrArg Except.ok h)]
  simp only [if_pos hvalidation, bind_ofExcept]

theorem getSecret_of_error
    {error : E}
    (h : H.getSecret before key = .error error)
    (hvalidation : H.isValidationError error = false) :
    getSecret H auditor key before = ⟨[.getSecret key], .error error⟩ := by
  rw [getSecret, coreGetSecret, call_bind_of_ok (congrArg Except.ok h)]
  simp only [hvalidation, Bool.false_eq_true, if_false]
  rfl

theorem rotateSecret_of_ok
    (h : H.rotateSecret before key newValue = .ok ()) :
    rotateSecret H auditor key newValue before =
      ⟨.rotateSecret key newValue ::
          (audit H auditor (.remote key) (before ++ [.rotateSecret key newValue])).entries,
        (audit H auditor (.remote key) (before ++ [.rotateSecret key newValue])).result >>=
          fun _ => .ok ()⟩ := by
  rw [rotateSecret, coreRotateSecret, call_bind_of_ok (congrArg Except.ok h)]
  have hunit : ∀ outcome : Except E Unit, outcome = outcome >>= fun _ => .ok () := by
    rintro (_ | _) <;> rfl
  exact congrArg (Journal.mk _) (hunit _)

theorem rotateSecret_of_error
    {error : E}
    (h : H.rotateSecret before key newValue = .error error) :
    rotateSecret H auditor key newValue before =
      ⟨[.rotateSecret key newValue], .error error⟩ := by
  rw [rotateSecret, coreRotateSecret, call_bind_of_ok (congrArg Except.ok h)]
  rfl

end SecretAccessAuditor

/-! ## Each attempt -/

variable {adapter : SecretAdapter} {auditor : A} {key newValue : String}

open SecretAccessAuditor

/-- An attempt is audited by the calls that it makes and the outcome that it hands on. -/
theorem audited_iff
    {before : List SecretCall}
    {op : SecretOp}
    {calls : List SecretCall}
    {result : Except E (Option V)}
    (h : perform H (.audited adapter auditor) auditor op before = ⟨calls, result⟩) :
    (attempted H (.audited adapter auditor) auditor before op).Audited ↔
      ((calls.filterMap SecretCall.event).map fun event => (event.secretName, event.ok)) =
          [(op.key, (coreOutcome H before op).isOk)] ∧
        result = coreOutcome H before op := by
  have hattempt : attempted H (.audited adapter auditor) auditor before op =
      ⟨op, coreOutcome H before op, calls.filterMap SecretCall.event, result⟩ := by
    rw [attempted, h]
  rw [hattempt]
  exact ⟨fun haudited => ⟨haudited.1, haudited.2⟩, fun h => ⟨h.1, h.2⟩⟩

/-- Without an event an attempt is not audited. -/
theorem not_audited_of_no_event
    {before : List SecretCall}
    {op : SecretOp}
    {calls : List SecretCall}
    {result : Except E (Option V)}
    (h : perform H (.audited adapter auditor) auditor op before = ⟨calls, result⟩)
    (hcalls : calls.filterMap SecretCall.event = []) :
    ¬ (attempted H (.audited adapter auditor) auditor before op).Audited := by
  rw [audited_iff h, hcalls]
  rintro ⟨hevents, -⟩
  cases hevents

/-- After an outcome that is recorded, the caller gets it unless the recorder breaks out. -/
theorem swallow_bind_eq_iff
    {outcome : Except E Unit}
    {core : Except E (Option V)}
    (hcore : ∀ error, core = .error error → H.isException error = true) :
    (swallow H outcome >>= fun _ => core) = core ↔
      ∀ error, outcome = .error error → H.isException error = true := by
  rw [← swallow_eq_ok_iff]
  cases hswallow : swallow H outcome with
  | ok u => exact iff_of_true rfl rfl
  | error error =>
      refine iff_of_false (fun h => ?_) (fun h => by cases h)
      have hexception := hcore error h.symm
      rw [isException_of_swallow hswallow] at hexception
      cases hexception

/-- An attempt that audits the outcome of the core, once, and hands it on. -/
theorem audited_iff_contained
    {before calls : List SecretCall}
    {op : SecretOp}
    {coreCall : SecretCall}
    {event : AuditEvent}
    {core : Except E (Option V)}
    (hcore : coreOutcome H before op = core)
    (h : perform H (.audited adapter auditor) auditor op before =
      ⟨coreCall :: (audit H auditor event calls).entries,
        (audit H auditor event calls).result >>= fun _ => core⟩)
    (hcall : coreCall.event = none)
    (hevent : (event.secretName, event.ok) = (op.key, core.isOk))
    (hexception : ∀ error, core = .error error → H.isException error = true) :
    (attempted H (.audited adapter auditor) auditor before op).Audited ↔
      H.truthy auditor = true ∧ Contained H auditor calls event := by
  cases htruthy : H.truthy auditor with
  | false =>
      rw [audit_of_falsy htruthy] at h
      have hevents : [coreCall].filterMap SecretCall.event = [] := by
        rw [List.filterMap_cons, hcall]
        rfl
      exact iff_of_false (not_audited_of_no_event h hevents) (fun h => by cases h.1)
  | true =>
      rw [audit_of_truthy htruthy] at h
      have hevents : ([coreCall, .record event].filterMap SecretCall.event).map
          (fun event => (event.secretName, event.ok)) = [(op.key, core.isOk)] := by
        rw [List.filterMap_cons, hcall, ← hevent]
        rfl
      rw [audited_iff h, hcore, swallow_bind_eq_iff hexception, and_iff_right rfl]
      exact and_iff_right hevents

theorem map_core
    {α : Type}
    {outcome : Except E Unit}
    {core : Except E α}
    (f : α → Option V) :
    (outcome >>= fun _ => core).map f = outcome >>= fun _ => core.map f := by
  cases outcome <;> rfl

theorem audited_getSecret_iff
    (trail : Trail V E) :
    (attempted H (.audited adapter auditor) auditor trail.calls (.getSecret key)).Audited ↔
      Meets H auditor trail (.getSecret key) := by
  have hperform : perform H (.audited adapter auditor) auditor (.getSecret key) trail.calls =
      ⟨(getSecret H auditor key trail.calls).entries,
        (getSecret H auditor key trail.calls).result.map some⟩ :=
    map_apply _ _ _
  rw [Meets]
  cases hcore : H.getSecret trail.calls key with
  | ok value =>
      have houtcome : coreOutcome H trail.calls (.getSecret key) = .ok (some value) := by
        rw [coreOutcome, hcore]
        rfl
      rw [getSecret_of_ok hcore, map_core] at hperform
      exact audited_iff_contained houtcome hperform rfl rfl (fun error h => by cases h)
  | error error =>
      have houtcome : coreOutcome H trail.calls (.getSecret key) = .error error := by
        rw [coreOutcome, hcore]
        rfl
      show _ ↔ H.truthy auditor = true ∧ H.isValidationError error = true ∧ Contained H auditor
        (trail.calls ++ [.getSecret key]) (.miss key)
      cases hvalidation : H.isValidationError error with
      | false =>
          rw [getSecret_of_error hcore hvalidation] at hperform
          exact iff_of_false (not_audited_of_no_event hperform rfl) (fun h => by cases h.2.1)
      | true =>
          rw [getSecret_of_validationError hcore hvalidation, map_core] at hperform
          rw [and_iff_right rfl]
          refine audited_iff_contained houtcome hperform rfl rfl ?_
          rintro _ ⟨⟩
          exact H.isException_of_isValidationError error hvalidation

theorem audited_rotateSecret_iff
    (trail : Trail V E) :
    (attempted H (.audited adapter auditor) auditor trail.calls
        (.rotateSecret key newValue)).Audited ↔
      Meets H auditor trail (.rotateSecret key newValue) := by
  have hperform : perform H (.audited adapter auditor) auditor (.rotateSecret key newValue)
      trail.calls =
      ⟨(rotateSecret H auditor key newValue trail.calls).entries,
        (rotateSecret H auditor key newValue trail.calls).result.map fun _ => none⟩ :=
    map_apply _ _ _
  rw [Meets]
  cases hcore : H.rotateSecret trail.calls key newValue with
  | error error =>
      rw [rotateSecret_of_error hcore] at hperform
      exact iff_of_false (not_audited_of_no_event hperform rfl) (fun h => by cases h.2.1)
  | ok u =>
      have houtcome : coreOutcome H trail.calls (.rotateSecret key newValue) =
          .ok (none : Option V) := by
        rw [coreOutcome, hcore]
        rfl
      rw [rotateSecret_of_ok hcore, map_core] at hperform
      rw [and_iff_right rfl]
      exact audited_iff_contained houtcome hperform rfl rfl (fun error h => by cases h)

/-- Once the manager has rotated, the rotator calls the recorder itself. -/
theorem rotate_of_ok
    {before calls : List SecretCall}
    (h : rotateSecret H auditor key newValue before = ⟨calls, .ok ()⟩) :
    SecretRotator.rotate H ⟨.audited adapter auditor, some auditor⟩ key newValue before =
      ⟨calls ++ [.record (.remote key)], H.record auditor (before ++ calls) (.remote key)⟩ := by
  have hresult : (rotateSecret H auditor key newValue before).result = .ok () := by
    rw [h]
  refine (bind_of_ok hresult _).trans ?_
  rw [h]
  rfl

theorem rotate_of_error
    {before calls : List SecretCall}
    {error : E}
    (h : rotateSecret H auditor key newValue before = ⟨calls, .error error⟩) :
    SecretRotator.rotate H ⟨.audited adapter auditor, some auditor⟩ key newValue before =
      ⟨calls, .error error⟩ := by
  have hresult : (rotateSecret H auditor key newValue before).result = .error error := by
    rw [h]
  refine (bind_of_error hresult _).trans ?_
  rw [h]

theorem audited_rotate_iff
    (trail : Trail V E) :
    (attempted H (.audited adapter auditor) auditor trail.calls (.rotate key newValue)).Audited ↔
      Meets H auditor trail (.rotate key newValue) := by
  have hperform : perform H (.audited adapter auditor) auditor (.rotate key newValue)
      trail.calls =
      ⟨(SecretRotator.rotate H ⟨.audited adapter auditor, some auditor⟩ key newValue
          trail.calls).entries,
        (SecretRotator.rotate H ⟨.audited adapter auditor, some auditor⟩ key newValue
          trail.calls).result.map fun _ => none⟩ :=
    map_apply _ _ _
  rw [Meets]
  cases hcore : H.rotateSecret trail.calls key newValue with
  | error error =>
      rw [rotate_of_error (rotateSecret_of_error hcore)] at hperform
      exact iff_of_false (not_audited_of_no_event hperform rfl) (fun h => by cases h.2.1)
  | ok u =>
      have houtcome : coreOutcome H trail.calls (.rotate key newValue) =
          .ok (none : Option V) := by
        rw [coreOutcome, hcore]
        rfl
      have hwrapped : rotateSecret H auditor key newValue trail.calls = _ :=
        rotateSecret_of_ok hcore
      cases htruthy : H.truthy auditor with
      | false =>
          -- The wrapper records nothing, so the rotator's own event is the only one.
          rw [audit_of_falsy htruthy] at hwrapped
          rw [rotate_of_ok hwrapped] at hperform
          rw [audited_iff hperform, houtcome]
          constructor
          · rintro ⟨-, hresult⟩
            obtain ⟨u', hrecord, -⟩ := map_eq_ok_iff.mp hresult
            exact ⟨rfl, rfl, hrecord⟩
          · rintro ⟨-, -, hrecord⟩
            exact ⟨rfl, map_eq_ok_iff.mpr ⟨(), hrecord, rfl⟩⟩
      | true =>
          refine iff_of_false (fun haudited => ?_) (fun h => by cases h.1)
          rw [audit_of_truthy htruthy] at hwrapped
          cases hswallow : swallow H (H.record auditor
            (trail.calls ++ [.rotateSecret key newValue]) (.remote key)) with
          | ok u' =>
              -- One event of the wrapper, and one of the rotator.
              rw [hswallow] at hwrapped
              rw [rotate_of_ok hwrapped] at hperform
              rw [audited_iff hperform, houtcome] at haudited
              cases haudited.1
          | error error =>
              rw [hswallow] at hwrapped
              rw [rotate_of_error hwrapped] at hperform
              rw [audited_iff hperform, houtcome] at haudited
              cases haudited.2

/-- An attempt is audited exactly when the outcomes are among those of the condition. -/
theorem audited_iff_meets
    (trail : Trail V E)
    (op : SecretOp) :
    (attempted H (.audited adapter auditor) auditor trail.calls op).Audited ↔
      Meets H auditor trail op := by
  cases op with
  | getSecret key => exact audited_getSecret_iff trail
  | rotateSecret key newValue => exact audited_rotateSecret_iff trail
  | rotate key newValue => exact audited_rotate_iff trail

/-! ## The trail -/

theorem complete_step_iff
    {trail trail' : Trail V E}
    {op : SecretOp}
    (hstep : Trail.step H (.audited adapter auditor) auditor trail op = some trail') :
    trail'.Complete ↔ trail.Complete ∧ Meets H auditor trail op := by
  cases hstep
  have haudited : (attempted H (.audited adapter auditor) auditor trail.calls op).Audited ↔
      Meets H auditor trail op := audited_iff_meets trail op
  rw [Trail.Complete, Trail.Complete, ← haudited]
  simp only [List.mem_append, List.mem_singleton, or_imp, forall_and, forall_eq]

/-- With a recorder, the manager is the wrapper around an adapter. -/
theorem exists_audited_of_build
    {F : Type}
    {B : PyBuiltins F}
    {env : String}
    {config : ConfigManager}
    {manager : SecretManager A}
    (hbuild : buildSecretManager B env config (some auditor) = .ok manager) :
    ∃ adapter, manager = .audited adapter auditor := by
  obtain ⟨normalized, -, hbuild⟩ := bind_eq_ok_iff.mp hbuild
  by_cases hprod : normalized = .prod
  · simp only [if_pos hprod] at hbuild
    obtain ⟨path, -, hbuild⟩ := bind_eq_ok_iff.mp hbuild
    cases path with
    | none => cases hbuild
    | some storagePath =>
        cases hbuild
        exact ⟨.encrypted storagePath, rfl⟩
  · simp only [if_neg hprod] at hbuild
    cases hbuild
    exact ⟨.inMemory, rfl⟩

/--
In every sequence of calls to the manager that was built with a recorder, and to a rotator
over it with the same recorder, every attempt is audited exactly when the outcomes of each
are among those of the condition.
-/
theorem complete_iff_along
    {F : Type}
    {B : PyBuiltins F}
    {env : String}
    {config : ConfigManager}
    {manager : SecretManager A}
    (hbuild : buildSecretManager B env config (some auditor) = .ok manager)
    {ops : List SecretOp}
    {trail : Trail V E}
    (hrun : run (Trail.step H manager auditor) {} ops = some trail) :
    trail.Complete ↔ Along (Trail.step H manager auditor) (Meets H auditor) {} ops := by
  obtain ⟨adapter, rfl⟩ := exists_audited_of_build hbuild
  rw [run_iff_along (fun s op s' hstep => complete_step_iff hstep) hrun]
  exact and_iff_right (fun attempt h => absurd h List.not_mem_nil)

end Audit

/-- Exceptions of a core manager: one of them is not an `Exception`. -/
inductive CoreError where
  | validationError
  | timeoutError
  | cancelledError
deriving DecidableEq

/-- A core whose answers depend on the key, and a recorder that always times out. -/
def remoteCore : SecretHost Unit String CoreError where
  getSecret _ key :=
    if key = "missing" then .error .validationError
    else if key = "slow" then .error .timeoutError
    else .ok "hunter2"
  rotateSecret _ key _ := if key = "slow" then .error .timeoutError else .ok ()
  record _ _ _ := .error .timeoutError
  truthy _ := true
  isValidationError error := error == .validationError
  isException error := error != .cancelledError
  isException_of_isValidationError := by
    intro error h
    rw [beq_iff_eq.mp h]
    rfl

/-- A configuration without sections. -/
def emptyConfig : ConfigManager where
  getString _ default := .ok default
  getSection _ := []

/-- The trail of some calls in the development environment. -/
def devTrail (ops : List SecretOp) : Option (Trail String CoreError) :=
  run (Trail.step remoteCore (.audited .inMemory ()) ()) {} ops

/-- A read with a value and one without, and a rotation. -/
def auditedCalls : List SecretOp :=
  [.getSecret "db", .getSecret "missing", .rotateSecret "db" "new"]

theorem complete_devTrail :
    ∃ trail, devTrail auditedCalls = some trail ∧ trail.Complete := by
  have hbuild : buildSecretManager ConfigAdapter.plainBuiltins "dev" emptyConfig (some ()) =
      .ok (.audited .inMemory ()) := rfl
  have hcontained : ∀ before event, Contained remoteCore () before event := by
    rintro before event error ⟨⟩
    rfl
  obtain ⟨trail, hrun⟩ : ∃ trail, devTrail auditedCalls = some trail := ⟨_, rfl⟩
  refine ⟨trail, hrun, (complete_iff_along hbuild hrun).mpr ?_⟩
  refine ⟨⟨rfl, hcontained _ _⟩, fun s₁ h₁ => ⟨⟨rfl, rfl, hcontained _ _⟩, fun s₂ h₂ => ?_⟩⟩
  exact ⟨⟨rfl, rfl, hcontained _ _⟩, fun s₃ h₃ => trivial⟩

/-- A read and a rotation that time out, and a rotation through the rotator. -/
def unauditedCalls : List SecretOp :=
  [.getSecret "slow", .rotateSecret "slow" "new", .rotate "db" "new"]

/-- The time-outs leave no event, the rotator leaves two. -/
theorem not_complete_devTrail :
    ∃ trail, devTrail unauditedCalls = some trail ∧
      (trail.attempts.map fun attempt =>
        (attempt.core.isOk, attempt.events.map AuditEvent.ok)) =
          [(false, []), (false, []), (true, [true, true])] ∧
      ¬ trail.Complete := by
  refine ⟨_, rfl, rfl, fun hcomplete => ?_⟩
  cases (hcomplete _ List.mem_cons_self).one_event

end YamlAgno
