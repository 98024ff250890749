import YamlAgno.Library.NumberedCalls
import YamlAgno.Workflow.ExecutorWrapping
import YamlAgno.Workflow.StepExecutor

/-!
# What the resilience layer sees of a function

The wrapper of a `function` step asks `asyncio.iscoroutinefunction` whether the work is to
await what the function returns.  The answer is about how the function was written; whether
a call returns something to await shows when it is made.

A run of the step executor makes the calls of its work in order and depends on nothing else
of it (`callsInOrder_executeStep`).  So the wrapper runs as the executor would run around the
function itself, awaited where there is something to await, exactly if the two answers agree
at each call that such a run makes (`resilientExecutor_seesOutcome_iff`).
-/

namespace YamlAgno
namespace StepExecutor

open CircuitBreaker
open RetryPolicy PyNumber

/-! ## A run and its calls -/

section Calls

variable {E α C : Type}

/-- The same clocks around another piece of work. -/
def Surroundings.withWork
    (env : Surroundings E α)
    (work : ℕ → Except E α) :
    Surroundings E α :=
  { env with work := work }

variable (env : Surroundings E α) (run : Run E α)

theorem callsInOrder_callWork :
    CallsInOrder Run.calls Prod.snd run fun work => callWork (env.withWork work) run :=
  CallsInOrder.single
    (f := fun outcome => (outcome.mapError StepError.work,
      { run with attempts := run.attempts + 1, calls := run.calls ++ [outcome] }))
    fun _ => rfl

/-- An attempt that the breaker admits makes one call, and a rejected one none. -/
theorem callsInOrder_executeOnce
    (cfg : CircuitBreaker.Settings) :
    CallsInOrder Run.calls Prod.snd run fun work => executeOnce cfg (env.withWork work) run := by
  by_cases hadmitted : (allowRequest cfg (env.admittedAt run.attempts) run.breaker).1 = true
  · have hlogged : ∀ outcome,
        (executeOnce cfg (env.withWork fun _ => outcome) run).2.calls = run.calls ++ [outcome] := by
      intro outcome
      cases outcome with
      | ok value => simp [executeOnce, execute, Surroundings.withWork, hadmitted]
      | error error => simp [executeOnce, execute, Surroundings.withWork, hadmitted]
    exact CallsInOrder.single hlogged
  · have hrejected : (fun work => executeOnce cfg (env.withWork work) run) = fun _ =>
        (.error .circuitOpen,
          { run with
            breaker := (allowRequest cfg (env.admittedAt run.attempts) run.breaker).2
            attempts := run.attempts + 1 }) := by
      funext work
      simp [executeOnce, execute, Surroundings.withWork, hadmitted]
    rw [hrejected]
    exact CallsInOrder.silent rfl

variable [DecidableEq C] (manager : ErrorHandlingManager (StepError E) C)
  (policy : RetryPolicy PyFloat)

/-- What the loop makes of attempt `n`, given what it does with the attempts left. -/
def afterAttempt
    (n : ℕ)
    (ended : Except (StepError E) α × Run E α)
    (later : Ended PyFloat (Run E α) (StepError E) (PolicyError (StepError E)) (Option α)) :
    Ended PyFloat (Run E α) (StepError E) (PolicyError (StepError E)) (Option α) :=
  match ended.1 with
  | .ok value => ⟨.ok (some value), ended.2, []⟩
  | .error exc =>
      if isRetryable manager exc = false then ⟨.error (.original exc), ended.2, []⟩
      else if (n : ℤ) = policy.maxRetries then ⟨.error (.original exc), ended.2, []⟩
      else
        match policy.calculateDelay n with
        | .error overflow => ⟨.error (.overflow overflow), ended.2, [.report exc (.attempt n)]⟩
        | .ok delay =>
            { later with events := .report exc (.attempt n) :: .sleep delay :: later.events }

theorem executeFrom_cons
    (attempt : Run E α → Except (StepError E) α × Run E α)
    (n : ℕ)
    (rest : List ℕ) :
    executeFrom policy manager attempt (n :: rest) run =
      afterAttempt manager policy n (attempt run)
        (executeFrom policy manager attempt rest (attempt run).2) := by
  simp only [executeFrom, afterAttempt]
  cases (attempt run).1 with
  | ok value => rfl
  | error exc => cases policy.calculateDelay n <;> rfl

/-- The attempts left make their calls after this one, if there are any. -/
theorem callsInOrder_afterAttempt
    (n : ℕ)
    (ended : Except (StepError E) α × Run E α)
    {later : (ℕ → Except E α) →
      Ended PyFloat (Run E α) (StepError E) (PolicyError (StepError E)) (Option α)}
    (h : CallsInOrder Run.calls Ended.state ended.2 later) :
    CallsInOrder Run.calls Ended.state ended.2 fun work =>
      afterAttempt manager policy n ended (later work) := by
  obtain ⟨result, run'⟩ := ended
  cases result with
  | ok value => exact CallsInOrder.silent rfl
  | error exc =>
      by_cases hfinal : isRetryable manager exc = false
      · simp only [afterAttempt, if_pos hfinal]
        exact CallsInOrder.silent rfl
      by_cases hlast : (n : ℤ) = policy.maxRetries
      · simp only [afterAttempt, if_neg hfinal, if_pos hlast]
        exact CallsInOrder.silent rfl
      cases hdelay : policy.calculateDelay n with
      | error overflow =>
          simp only [afterAttempt, if_neg hfinal, if_neg hlast, hdelay]
          exact CallsInOrder.silent rfl
      | ok delay =>
          refine h.map (f := fun ended' => afterAttempt manager policy n (.error exc, run') ended')
            fun ended' => ?_
          simp only [afterAttempt, if_neg hfinal, if_neg hlast, hdelay]

/-- The loop calls what its attempts call. -/
theorem callsInOrder_executeFrom
    {attempt : (ℕ → Except E α) → Run E α → Except (StepError E) α × Run E α}
    (h : ∀ run, CallsInOrder Run.calls Prod.snd run fun work => attempt work run)
    (attempts : List ℕ)
    (run : Run E α) :
    CallsInOrder Run.calls Ended.state run fun work =>
      executeFrom policy manager (attempt work) attempts run := by
  induction attempts generalizing run with
  | nil =>
      exact CallsInOrder.silent rfl
  | cons n rest ih =>
      simp only [executeFrom_cons]
      exact (h run).andThen fun ended => callsInOrder_afterAttempt manager policy n ended (ih ended.2)

/-- A run of the executor depends on its work only through the calls it makes. -/
theorem callsInOrder_executeStep
    (executor : StepExecutor E C) :
    CallsInOrder Run.calls Ended.state run fun work =>
      executor.executeStep (env.withWork work) run := by
  obtain ⟨manager, circuitBreaker, retryPolicy, isOpenError⟩ := executor
  cases circuitBreaker with
  | some cfg =>
      have honce (run : Run E α) := callsInOrder_executeOnce env run cfg
      cases retryPolicy with
      | some policy => exact (callsInOrder_executeFrom manager policy honce _ run).map (reportOpen_state _)
      | none => exact (honce run).map fun ended => reportOpen_state _ (single ended)
  | none =>
      have hcall (run : Run E α) := callsInOrder_callWork env run
      cases retryPolicy with
      | some policy => exact callsInOrder_executeFrom manager policy hcall _ run
      | none => exact (hcall run).map (f := single) fun _ => rfl

variable {env run}

theorem callWork_returned
    {value : α}
    (h : (callWork env run).1 = .ok value) :
    env.work run.calls.length = .ok value := by
  unfold callWork at h
  cases hwork : env.work run.calls.length with
  | ok value' =>
      rw [hwork] at h
      cases h
      rfl
  | error error =>
      rw [hwork] at h
      cases h

theorem executeOnce_returned
    {cfg : CircuitBreaker.Settings}
    {value : α}
    (h : (executeOnce cfg env run).1 = .ok value) :
    env.work run.calls.length = .ok value := by
  rcases executeOnce_cases cfg env run with hrejected | ⟨breaker, -, hcalled⟩
  · rw [hrejected] at h
    cases h
  · rw [hcalled] at h
    exact callWork_returned h

theorem settled_eq_ok
    {outcome : Except (StepError E) α}
    {value : α}
    (h : settled outcome = .ok (some value)) :
    outcome = .ok value := by
  cases outcome with
  | ok value' =>
      cases h
      rfl
  | error error =>
      cases h

/-- What the loop returns, one of the calls has returned. -/
theorem executeFrom_returned
    {attempt : Run E α → Except (StepError E) α × Run E α}
    (hgrows : ∀ run, run.calls.length ≤ (attempt run).2.calls.length)
    (hreturned : ∀ {run value}, (attempt run).1 = .ok value →
      env.work run.calls.length = .ok value)
    {attempts : List ℕ}
    {value : α}
    (h : (executeFrom policy manager attempt attempts run).result = .ok (some value)) :
    ∃ n, run.calls.length ≤ n ∧ env.work n = .ok value := by
  induction attempts generalizing run with
  | nil =>
      cases h
  | cons n rest ih =>
      rw [executeFrom_cons, afterAttempt] at h
      cases hresult : (attempt run).1 with
      | ok value' =>
          rw [hresult] at h
          cases h
          exact ⟨run.calls.length, le_rfl, hreturned hresult⟩
      | error exc =>
          rw [hresult] at h
          dsimp only at h
          split_ifs at h
          split at h
          · cases h
          · obtain ⟨m, hle, hm⟩ := ih h
            exact ⟨m, (hgrows run).trans hle, hm⟩

/-- What a run of the executor returns, one of its calls of the work has returned. -/
theorem executeStep_returned
    {executor : StepExecutor E C}
    {value : α}
    (h : (executor.executeStep env run).result = .ok (some value)) :
    ∃ n, run.calls.length ≤ n ∧ env.work n = .ok value := by
  obtain ⟨manager, circuitBreaker, retryPolicy, isOpenError⟩ := executor
  cases circuitBreaker with
  | some cfg =>
      have hgrows (run : Run E α) : run.calls.length ≤ (executeOnce cfg env run).2.calls.length :=
        (callsInOrder_executeOnce env run cfg).length_le env.work
      cases retryPolicy with
      | some policy =>
          have hloop := (reportOpen_result _ _).symm.trans h
          exact executeFrom_returned manager policy hgrows executeOnce_returned hloop
      | none =>
          have hsingle := (reportOpen_result _ _).symm.trans h
          exact ⟨run.calls.length, le_rfl, executeOnce_returned (settled_eq_ok hsingle)⟩
  | none =>
      cases retryPolicy with
      | some policy =>
          refine executeFrom_returned manager policy (fun run => ?_) callWork_returned h
          exact (callsInOrder_callWork env run).length_le env.work
      | none => exact ⟨run.calls.length, le_rfl, callWork_returned (settled_eq_ok h)⟩

end Calls

/-! ## Functions and what they return -/

/-- What a call returns: a value, or something to await, with how awaiting it ends. -/
inductive Answer (E α : Type) where
  | value (value : α)
  | awaitable (ends : Except E α)
deriving DecidableEq

/--
A function registered for a step: what `asyncio.iscoroutinefunction` says of it, and
what its n-th call does, given the `StepInput` and the keyword arguments.
-/
structure RegisteredFunction (StepInput Kwargs E α : Type) where
  isCoroutineFunction : Bool
  call : StepInput → Kwargs → ℕ → Except E (Answer E α)

namespace Answer

variable {E α : Type}

def isAwaitable : Answer E α → Bool
  | value _ => false
  | awaitable _ => true

/-- `await answer`, which is a `TypeError` for a plain value. -/
def await (notAwaitable : α → E) : Answer E α → Except E (Answer E α)
  | value v => .error (notAwaitable v)
  | awaitable ends => ends.map value

/-- The final result: what there is to await is awaited. -/
def final : Answer E α → Except E (Answer E α)
  | value v => .ok (value v)
  | awaitable ends => ends.map value

end Answer

section Wrapper

variable {StepInput Kwargs E α C : Type}

/-- `_resilient_executor`, with the two pieces of work it can hand on. -/
def resilientExecutor
    [DecidableEq C]
    (executor : StepExecutor E C)
    (notAwaitable : α → E)
    (f : RegisteredFunction StepInput Kwargs E α)
    (si : StepInput)
    (kwargs : Kwargs)
    (env : Surroundings E (Answer E α))
    (run : Run E (Answer E α)) :
    Ended PyFloat (Run E (Answer E α)) (StepError E) (PolicyError (StepError E))
      (Option (Answer E α)) :=
  if f.isCoroutineFunction then
    executor.executeStep (env.withWork fun n => do
      let coroutine ← f.call si kwargs n
      coroutine.await notAwaitable) run
  else
    executor.executeStep (env.withWork fun n => f.call si kwargs n) run

/-- The work that the wrapper hands on. -/
def work
    (notAwaitable : α → E)
    (f : RegisteredFunction StepInput Kwargs E α)
    (si : StepInput)
    (kwargs : Kwargs)
    (n : ℕ) :
    Except E (Answer E α) :=
  if f.isCoroutineFunction then do
    let coroutine ← f.call si kwargs n
    coroutine.await notAwaitable
  else
    f.call si kwargs n

/-- What call `n` of the function comes to in the end. -/
def finalOutcome
    (f : RegisteredFunction StepInput Kwargs E α)
    (si : StepInput)
    (kwargs : Kwargs)
    (n : ℕ) :
    Except E (Answer E α) := do
  let answer ← f.call si kwargs n
  answer.final

/-- What the test on the function says is true of its call `n`, if it returns. -/
def Judged
    (f : RegisteredFunction StepInput Kwargs E α)
    (si : StepInput)
    (kwargs : Kwargs)
    (n : ℕ) : Prop :=
  ∀ answer, f.call si kwargs n = .ok answer → f.isCoroutineFunction = answer.isAwaitable

variable (notAwaitable : α → E) (f : RegisteredFunction StepInput Kwargs E α) (si : StepInput)
  (kwargs : Kwargs)

/-- The work is the function, awaited, where the function is judged right. -/
theorem work_eq_finalOutcome_iff
    (n : ℕ) :
    work notAwaitable f si kwargs n = finalOutcome f si kwargs n ↔ Judged f si kwargs n := by
  unfold work finalOutcome Judged
  cases f.call si kwargs n with
  | error error => simp [bind, Except.bind]
  | ok answer =>
      cases answer with
      | value v => simp [bind, Except.bind, Answer.await, Answer.final, Answer.isAwaitable]
      | awaitable ends =>
          cases ends <;>
            simp [bind, Except.bind, Answer.final, Answer.await, Answer.isAwaitable, Except.map]

variable [DecidableEq C] (executor : StepExecutor E C) (env : Surroundings E (Answer E α))
  (run : Run E (Answer E α))

theorem resilientExecutor_eq_executeStep :
    resilientExecutor executor notAwaitable f si kwargs env run =
      executor.executeStep (env.withWork (work notAwaitable f si kwargs)) run := by
  unfold resilientExecutor work
  split
  · rfl
  · rfl

/-- The work is what the wrapper of a built workflow hands to `execute_step`. -/
theorem work_eq_interpreter_run
    {O : Workflow.Objects}
    (registered : O.Callable → RegisteredFunction StepInput Kwargs E α)
    (executeStep : O.StepExecutor → ReaderT ℕ (Except E) (Answer E α) →
      ReaderT ℕ (Except E) (Answer E α))
    (g : O.Callable) :
    work notAwaitable (registered g) si kwargs =
      Workflow.Interpreter.run
        (M := ReaderT ℕ (Except E))
        { isCoroutineFunction := fun g => (registered g).isCoroutineFunction
          call := fun g input n => (registered g).call input.1 input.2 n
          await := fun answer _ => answer.await notAwaitable
          executeStep := executeStep }
        g (si, kwargs) := by
  funext n
  unfold work Workflow.Interpreter.run
  dsimp only
  split
  · rfl
  · rfl

/-- The executor around the function itself, awaited where there is something to await. -/
def awaitedExecutor :
    Ended PyFloat (Run E (Answer E α)) (StepError E) (PolicyError (StepError E))
      (Option (Answer E α)) :=
  executor.executeStep (env.withWork (finalOutcome f si kwargs)) run

/--
The run of the wrapper is the one around the awaited function: the breaker counts and
the policy retries what the function has come to.  Each call is recorded with its final
outcome, what is returned is one, and without a breaker and a policy there is only it.
-/
structure SeesOutcome : Prop where
  as_awaited :
    resilientExecutor executor notAwaitable f si kwargs env run =
      awaitedExecutor f si kwargs executor env run
  recorded : ∀ n, run.calls.length ≤ n →
    n < (resilientExecutor executor notAwaitable f si kwargs env run).state.calls.length →
    (resilientExecutor executor notAwaitable f si kwargs env run).state.calls[n]? =
      some (finalOutcome f si kwargs n)
  returned : ∀ answer,
    (resilientExecutor executor notAwaitable f si kwargs env run).result = .ok (some answer) →
    ∃ n, run.calls.length ≤ n ∧ finalOutcome f si kwargs n = .ok answer
  bare : executor.circuitBreaker = none → executor.retryPolicy = none →
    (resilientExecutor executor notAwaitable f si kwargs env run).result =
      settled ((finalOutcome f si kwargs run.calls.length).mapError .work)

/-- The wrapper sees the outcome if and only if each call of the awaited run is judged right. -/
theorem seesOutcome_iff :
    SeesOutcome notAwaitable f si kwargs executor env run ↔
      ∀ n, run.calls.length ≤ n →
        n < (awaitedExecutor f si kwargs executor env run).state.calls.length →
        Judged f si kwargs n := by
  have hcalls := callsInOrder_executeStep env run executor
  have hagree := hcalls.eq_iff (work notAwaitable f si kwargs) (finalOutcome f si kwargs)
  simp only [work_eq_finalOutcome_iff] at hagree
  rw [← resilientExecutor_eq_executeStep] at hagree
  refine ⟨fun h => hagree.mp h.as_awaited, fun h => ?_⟩
  have hsame := hagree.mpr h
  refine
    { as_awaited := hsame
      recorded := fun n hfirst hlast => ?_
      returned := fun answer hresult => ?_
      bare := fun hbreaker hpolicy => ?_ }
  · rw [hsame] at hlast ⊢
    exact hcalls.getElem?_log (finalOutcome f si kwargs) hfirst hlast
  · rw [hsame] at hresult
    exact executeStep_returned hresult
  · rw [hsame, executeStep, hbreaker, hpolicy]
    rfl

/-- Neither a breaker nor a policy. -/
def bareExecutor : StepExecutor E Unit where
  errorManager := ⟨(), (), fun _ => ()⟩
  circuitBreaker := none
  retryPolicy := none
  isOpenError _ := false

/-- A run before the call `n` of the function, which has been called from other runs. -/
def beforeCall
    (n : ℕ) :
    Run E (Answer E α) :=
  ⟨fresh, 0, (List.range n).map (finalOutcome f si kwargs)⟩

/-- The bare executor makes the next call. -/
theorem lt_calls_bareExecutor
    (n : ℕ) :
    n < (awaitedExecutor f si kwargs bareExecutor env
      (beforeCall f si kwargs n)).state.calls.length := by
  have hcalls : (awaitedExecutor f si kwargs bareExecutor env
      (beforeCall f si kwargs n)).state.calls =
      (beforeCall f si kwargs n).calls ++ [_] := rfl
  rw [hcalls, List.length_append, beforeCall, List.length_map, List.length_range]
  exact Nat.lt_succ_self n

/--
The wrapper sees the outcomes of a function under every executor if and only if
`iscoroutinefunction` is true of it exactly when its calls return something to await.  One
run sees them if and only if this is so of the calls that the executor would make.
-/
theorem resilientExecutor_seesOutcome_iff
    (notAwaitable : α → E)
    (f : RegisteredFunction StepInput Kwargs E α)
    (si : StepInput)
    (kwargs : Kwargs) :
    ((∀ (C : Type) [DecidableEq C] (executor : StepExecutor E C) env run,
        SeesOutcome notAwaitable f si kwargs executor env run) ↔
      ∀ n, Judged f si kwargs n) ∧
    ∀ (C : Type) [DecidableEq C] (executor : StepExecutor E C) env run,
      SeesOutcome notAwaitable f si kwargs executor env run ↔
        ∀ n, run.calls.length ≤ n →
          n < (awaitedExecutor f si kwargs executor env run).state.calls.length →
          Judged f si kwargs n := by
  refine ⟨⟨fun hall n => ?_, fun hjudged C _ executor env run => ?_⟩,
    fun C _ executor env run => seesOutcome_iff notAwaitable f si kwargs executor env run⟩
  · let env : Surroundings E (Answer E α) := ⟨finalOutcome f si kwargs, fun _ => 0, fun _ => 0⟩
    have hsees := hall Unit bareExecutor env (beforeCall f si kwargs n)
    refine (seesOutcome_iff notAwaitable f si kwargs bareExecutor env _).mp hsees n ?_
      (lt_calls_bareExecutor f si kwargs env n)
    rw [beforeCall, List.length_map, List.length_range]
  · exact (seesOutcome_iff notAwaitable f si kwargs executor env run).mpr
      fun n _ _ => hjudged n

end Wrapper

/-- An object with an async `__call__` that always fails while it is awaited. -/
def asyncObject : RegisteredFunction Unit Unit String String where
  isCoroutineFunction := false
  call _ _ _ := .ok (.awaitable (.error "TimeoutError"))

/-- A breaker that one failure opens, around a function that retries would call again. -/
def guarding : StepExecutor String String where
  errorManager := transientWork
  circuitBreaker := some { minRequests := 1 }
  retryPolicy := some threeRetries
  isOpenError _ := false

/-- The clock reads the number of the attempt. -/
def ticking : Surroundings String (Answer String String) where
  work _ := .error "unused"
  admittedAt n := n
  recordedAt n := n

/-- The failure of the first call is returned, not raised, and recorded as a success. -/
theorem unawaited_failure_recorded_as_success :
    (∀ n, finalOutcome asyncObject () () n = .error "TimeoutError") ∧
    (resilientExecutor guarding (fun _ => "TypeError") asyncObject () () ticking
        (Run.start fresh)).result = .ok (some (.awaitable (.error "TimeoutError"))) ∧
    (resilientExecutor guarding (fun _ => "TypeError") asyncObject () () ticking
        (Run.start fresh)).state.breaker.successCount = 1 ∧
    ¬ SeesOutcome (fun _ => "TypeError") asyncObject () () guarding ticking
        (Run.start fresh) := by
  have hfails : ∀ n, finalOutcome asyncObject () () n = .error "TimeoutError" := fun _ => rfl
  have hreturned : (resilientExecutor guarding (fun _ => "TypeError") asyncObject () () ticking
      (Run.start fresh)).result = .ok (some (.awaitable (.error "TimeoutError"))) := by
    decide +kernel
  refine ⟨hfails, hreturned, by decide +kernel, fun hsees => ?_⟩
  obtain ⟨n, -, hfinal⟩ := hsees.returned _ hreturned
  rw [hfails n] at hfinal
  cases hfinal

end StepExecutor
end YamlAgno
