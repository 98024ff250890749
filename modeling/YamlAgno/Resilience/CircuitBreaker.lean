import YamlAgno.Library.PyFloat
import YamlAgno.Library.Runs

/-!
# The circuit breaker state machine

`resilience/circuit_breaker.py`, method by method.  The clock is read by
`record_failure` and `allow_request`; its value is an argument of these two, so
nothing is assumed about how it moves.  Times are exact rationals.  The failure rate is
computed in floats, with the rounding of its quotient and of its product, and compared with
a threshold that is an integer or any float.

`execute` runs its three parts in one go here; the interleavings of several
`execute` calls, which separate admission from recording, are the subject of
`ConcurrentBreaker`.
-/

namespace YamlAgno
namespace CircuitBreaker

open PyNumber

/-- Lifecycle states: `CLOSED`, `OPEN` and `HALF_OPEN`. -/
inductive CircuitState where
  | closed
  | opened
  | halfOpen
deriving DecidableEq

/-- The string value of a state. -/
def CircuitState.value : CircuitState → String
  | closed => "closed"
  | opened => "open"
  | halfOpen => "half_open"

/-- Constructor arguments of a breaker. -/
structure Settings where
  failureThreshold : Number PyFloat := .float (.finite 50)
  recoveryTimeout : ℚ := 30
  minRequests : Int := 10
  halfOpenMaxCalls : Int := 3

/-- The mutable attributes of a breaker. -/
structure Breaker where
  state : CircuitState
  failureCount : Nat
  successCount : Nat
  totalRequests : Nat
  lastFailureTime : ℚ
  halfOpenCalls : Nat
deriving DecidableEq

/-- A freshly constructed breaker. -/
def fresh : Breaker where
  state := .closed
  failureCount := 0
  successCount := 0
  totalRequests := 0
  lastFailureTime := 0
  halfOpenCalls := 0

section Methods

variable (cfg : Settings)

/-- `record_success`. -/
def recordSuccess (b : Breaker) : Breaker :=
  let b := { b with
    totalRequests := b.totalRequests + 1
    successCount := b.successCount + 1 }
  if b.state = .halfOpen then
    let b := { b with halfOpenCalls := b.halfOpenCalls + 1 }
    if cfg.halfOpenMaxCalls ≤ b.successCount then
      { b with
        state := .closed
        failureCount := 0
        successCount := 0
        halfOpenCalls := 0 }
    else b
  else b

/-- `(failures / total) * 100`, both times rounded. -/
def percentage (failures total : ℕ) : PyFloat :=
  (PyFloat.ofRat ((failures : ℚ) / (total : ℚ))).mul (.finite 100)

/-- Percentage of failures among all requests, as both readers compute it. -/
def failureRate (b : Breaker) : PyFloat :=
  percentage b.failureCount b.totalRequests

/-- `_should_trip`. -/
def shouldTrip (b : Breaker) : Bool :=
  if (b.totalRequests : Int) < cfg.minRequests then false
  else if b.totalRequests = 0 then false
  else cfg.failureThreshold.le (.float (failureRate b))

/-- `record_failure` at clock value `now`. -/
def recordFailure (now : ℚ) (b : Breaker) : Breaker :=
  let b := { b with
    totalRequests := b.totalRequests + 1
    failureCount := b.failureCount + 1
    lastFailureTime := now }
  if b.state = .halfOpen ∨ shouldTrip cfg b = true then
    { b with state := .opened }
  else b

/-- `allow_request` at clock value `now`: the answer and the breaker after it. -/
def allowRequest (now : ℚ) (b : Breaker) : Bool × Breaker :=
  match b.state with
  | .closed => (true, b)
  | .opened =>
      if cfg.recoveryTimeout ≤ now - b.lastFailureTime then
        (true, { b with state := .halfOpen, halfOpenCalls := 0 })
      else (false, b)
  | .halfOpen =>
      (decide ((b.halfOpenCalls : Int) < cfg.halfOpenMaxCalls), b)

/-- How a call of `execute` ends. -/
inductive ExecuteResult (ε α : Type) where
  | returned (result : α)
  | raised (error : ε)
  | circuitOpen
deriving DecidableEq

/--
`execute` for a function whose awaited outcome is `outcome`: admission at `now`
and, for an admitted call, the record of its outcome at `now'`.
-/
def execute
    {ε α : Type}
    (now now' : ℚ)
    (outcome : Except ε α)
    (b : Breaker) :
    ExecuteResult ε α × Breaker :=
  if (allowRequest cfg now b).1 = true then
    match outcome with
    | .ok result =>
        (.returned result, recordSuccess cfg (allowRequest cfg now b).2)
    | .error error =>
        (.raised error, recordFailure cfg now' (allowRequest cfg now b).2)
  else (.circuitOpen, (allowRequest cfg now b).2)

end Methods

/-- The dictionary of `get_state_metrics`. -/
structure StateMetrics where
  state : String
  failureRate : PyFloat
  totalRequests : Nat
  successCount : Nat
  failureCount : Nat
  lastFailureTime : ℚ

/-- `get_state_metrics`. -/
def getStateMetrics (b : Breaker) : StateMetrics where
  state := b.state.value
  failureRate := (if 0 < b.totalRequests then failureRate b else .finite 0).round2
  totalRequests := b.totalRequests
  successCount := b.successCount
  failureCount := b.failureCount
  lastFailureTime := b.lastFailureTime

/-! ## What each method can do -/

section Cases

variable (cfg : Settings)

/-- `record_success` counts, and in `HALF_OPEN` it may close the circuit. -/
theorem recordSuccess_cases (b : Breaker) :
    (b.state ≠ .halfOpen ∧
      recordSuccess cfg b = { b with
        totalRequests := b.totalRequests + 1
        successCount := b.successCount + 1 }) ∨
    (b.state = .halfOpen ∧ ((b.successCount : Int) + 1 < cfg.halfOpenMaxCalls) ∧
      recordSuccess cfg b = { b with
        totalRequests := b.totalRequests + 1
        successCount := b.successCount + 1
        halfOpenCalls := b.halfOpenCalls + 1 }) ∨
    (b.state = .halfOpen ∧ (cfg.halfOpenMaxCalls ≤ (b.successCount : Int) + 1) ∧
      recordSuccess cfg b = { b with
        state := .closed
        totalRequests := b.totalRequests + 1
        failureCount := 0
        successCount := 0
        halfOpenCalls := 0 }) := by
  by_cases hstate : b.state = .halfOpen
  · by_cases hmax : cfg.halfOpenMaxCalls ≤ (b.successCount : Int) + 1
    · refine Or.inr (Or.inr ⟨hstate, hmax, ?_⟩)
      simp [recordSuccess, hstate, hmax]
    · refine Or.inr (Or.inl ⟨hstate, by omega, ?_⟩)
      simp [recordSuccess, hstate, hmax]
  · exact Or.inl ⟨hstate, by simp [recordSuccess, hstate]⟩

/-- `record_failure` counts, and either opens the circuit or leaves its state. -/
theorem recordFailure_cases (now : ℚ) (b : Breaker) :
    (recordFailure cfg now b = { b with
        state := .opened
        totalRequests := b.totalRequests + 1
        failureCount := b.failureCount + 1
        lastFailureTime := now }) ∨
    (b.state ≠ .halfOpen ∧
      recordFailure cfg now b = { b with
        totalRequests := b.totalRequests + 1
        failureCount := b.failureCount + 1
        lastFailureTime := now }) := by
  unfold recordFailure
  dsimp only
  split_ifs with h
  · exact Or.inl rfl
  · exact Or.inr ⟨fun hstate => h (Or.inl hstate), rfl⟩

/-- `allow_request` changes the breaker only when it starts a `HALF_OPEN` episode. -/
theorem allowRequest_cases (now : ℚ) (b : Breaker) :
    (b.state = .closed ∧ allowRequest cfg now b = (true, b)) ∨
    (b.state = .opened ∧ cfg.recoveryTimeout ≤ now - b.lastFailureTime ∧
      allowRequest cfg now b =
        (true, { b with state := .halfOpen, halfOpenCalls := 0 })) ∨
    (b.state = .halfOpen ∧ (b.halfOpenCalls : Int) < cfg.halfOpenMaxCalls ∧
      allowRequest cfg now b = (true, b)) ∨
    (b.state ≠ .closed ∧ allowRequest cfg now b = (false, b)) := by
  cases hstate : b.state with
  | closed =>
      exact Or.inl ⟨rfl, by simp [allowRequest, hstate]⟩
  | opened =>
      by_cases htime : cfg.recoveryTimeout ≤ now - b.lastFailureTime
      · refine Or.inr (Or.inl ⟨rfl, htime, ?_⟩)
        simp [allowRequest, hstate, htime]
      · refine Or.inr (Or.inr (Or.inr ⟨by decide, ?_⟩))
        simp [allowRequest, hstate, htime]
  | halfOpen =>
      by_cases hcalls : (b.halfOpenCalls : Int) < cfg.halfOpenMaxCalls
      · refine Or.inr (Or.inr (Or.inl ⟨rfl, hcalls, ?_⟩))
        simp [allowRequest, hstate, hcalls]
      · refine Or.inr (Or.inr (Or.inr ⟨by decide, ?_⟩))
        simp [allowRequest, hstate, hcalls]

theorem recordSuccess_totalRequests (b : Breaker) :
    (recordSuccess cfg b).totalRequests = b.totalRequests + 1 := by
  rcases recordSuccess_cases cfg b with ⟨-, h⟩ | ⟨-, -, h⟩ | ⟨-, -, h⟩ <;> rw [h]

theorem recordFailure_totalRequests (now : ℚ) (b : Breaker) :
    (recordFailure cfg now b).totalRequests = b.totalRequests + 1 := by
  rcases recordFailure_cases cfg now b with h | ⟨-, h⟩ <;> rw [h]

theorem allowRequest_totalRequests (now : ℚ) (b : Breaker) :
    (allowRequest cfg now b).2.totalRequests = b.totalRequests := by
  rcases allowRequest_cases cfg now b with ⟨-, h⟩ | ⟨-, -, h⟩ | ⟨-, -, h⟩ | ⟨-, h⟩ <;> rw [h]

/-- A rejected request leaves the breaker alone. -/
theorem allowRequest_of_rejected
    {now : ℚ}
    {b : Breaker}
    (h : (allowRequest cfg now b).1 ≠ true) :
    (allowRequest cfg now b).2 = b := by
  rcases allowRequest_cases cfg now b with
    ⟨-, hallow⟩ | ⟨-, -, hallow⟩ | ⟨-, -, hallow⟩ | ⟨-, hallow⟩
  · exact absurd (congrArg Prod.fst hallow) h
  · exact absurd (congrArg Prod.fst hallow) h
  · exact absurd (congrArg Prod.fst hallow) h
  · exact congrArg Prod.snd hallow

end Cases

/-! ## Counter consistency over runs -/

/-- One call of a public method, with the clock value it reads. -/
inductive Op where
  | allowRequest (now : ℚ)
  | recordSuccess
  | recordFailure (now : ℚ)

section Counters

variable (cfg : Settings)

/-- Effect of one method call; every call is enabled. -/
def applyOp (b : Breaker) : Op → Option Breaker
  | .allowRequest now => some (allowRequest cfg now b).2
  | .recordSuccess => some (recordSuccess cfg b)
  | .recordFailure now => some (recordFailure cfg now b)

/-- The call moves the breaker from `HALF_OPEN` to `CLOSED`. -/
def Recovers (b : Breaker) : Op → Prop
  | .recordSuccess =>
      b.state = .halfOpen ∧ cfg.halfOpenMaxCalls ≤ (b.successCount : Int) + 1
  | _ => False

/-- The total counts exactly the recorded successes and failures. -/
def Consistent (b : Breaker) : Prop :=
  b.totalRequests = b.successCount + b.failureCount

variable {cfg}

/-- Both readers of the failure rate describe the counted requests. -/
def RateDescribesCounters (b : Breaker) : Prop :=
  failureRate b = percentage b.failureCount (b.successCount + b.failureCount) ∧
  (getStateMetrics b).failureRate =
    (if 0 < b.successCount + b.failureCount then
      percentage b.failureCount (b.successCount + b.failureCount)
    else .finite 0).round2

theorem rateDescribesCounters_of_consistent
    {b : Breaker}
    (h : Consistent b) :
    RateDescribesCounters b := by
  unfold RateDescribesCounters getStateMetrics failureRate
  dsimp only
  rw [h]
  exact ⟨rfl, rfl⟩

/-- A call that is not a recovery adds the same to both sides. -/
theorem applyOp_balance
    {b b' : Breaker} {op : Op}
    (hop : ¬ Recovers cfg b op)
    (hstep : applyOp cfg b op = some b') :
    b'.totalRequests + (b.successCount + b.failureCount) =
      b.totalRequests + (b'.successCount + b'.failureCount) := by
  cases op with
  | allowRequest now =>
      cases hstep
      rcases allowRequest_cases cfg now b with
        ⟨-, h⟩ | ⟨-, -, h⟩ | ⟨-, -, h⟩ | ⟨-, h⟩
      all_goals
        rw [h]
  | recordSuccess =>
      cases hstep
      rcases recordSuccess_cases cfg b with
        ⟨-, h⟩ | ⟨-, -, h⟩ | ⟨hstate, hmax, -⟩
      · rw [h]
        dsimp only
        omega
      · rw [h]
        dsimp only
        omega
      · exact absurd ⟨hstate, hmax⟩ hop
  | recordFailure now =>
      cases hstep
      rcases recordFailure_cases cfg now b with h | ⟨-, h⟩
      · rw [h]
        dsimp only
        omega
      · rw [h]
        dsimp only
        omega

/-- After a recovery the total exceeds the two counters it is made of. -/
theorem applyOp_excess_of_recovers
    {b b' : Breaker} {op : Op}
    (hop : Recovers cfg b op)
    (hstep : applyOp cfg b op = some b') :
    b'.successCount + b'.failureCount < b'.totalRequests := by
  cases op with
  | allowRequest now => exact hop.elim
  | recordFailure now => exact hop.elim
  | recordSuccess =>
      obtain ⟨hstate, hmax⟩ := hop
      cases hstep
      rcases recordSuccess_cases cfg b with
        ⟨hne, -⟩ | ⟨-, hlt, -⟩ | ⟨-, -, h⟩
      · exact absurd hstate hne
      · omega
      · rw [h]
        dsimp only
        omega

/-- No call removes an excess of the total over the counters. -/
theorem applyOp_excess
    {b b' : Breaker} {op : Op}
    (hb : b.successCount + b.failureCount < b.totalRequests)
    (hstep : applyOp cfg b op = some b') :
    b'.successCount + b'.failureCount < b'.totalRequests := by
  by_cases hop : Recovers cfg b op
  · exact applyOp_excess_of_recovers hop hstep
  · have := applyOp_balance hop hstep
    omega

/--
The counters are consistent, and the failure rate describes them, in exactly
those states whose run has not recovered from `HALF_OPEN` to `CLOSED`.
-/
theorem consistent_iff_no_recovery
    (cfg : Settings)
    (ops : List Op)
    {b : Breaker}
    (hrun : Runs.run (applyOp cfg) fresh ops = some b) :
    (Consistent b ∧ RateDescribesCounters b) ↔
      Runs.Along (applyOp cfg) (fun b op => ¬ Recovers cfg b op) fresh ops := by
  constructor
  · rintro ⟨hcons, -⟩
    by_contra hnot
    have hexcess : b.successCount + b.failureCount < b.totalRequests :=
      Runs.run_mark_of_not_along (I := fun _ => True)
        (fun _ _ _ _ _ => trivial)
        (fun _ _ _ _ hop hstep =>
          applyOp_excess_of_recovers (Classical.not_not.mp hop) hstep)
        (fun _ _ _ hb hstep => applyOp_excess hb hstep)
        trivial hnot hrun
    unfold Consistent at hcons
    omega
  · intro halong
    have hcons : Consistent b := by
      refine Runs.run_invariant_along (I := Consistent) ?_ ?_ halong hrun
      · intro b op b' hb hop hstep
        have := applyOp_balance hop hstep
        unfold Consistent at hb ⊢
        omega
      · rfl
    exact ⟨hcons, rateDescribesCounters_of_consistent hcons⟩

/-- A breaker that trips on one failure and closes on one success. -/
def singleProbe : Settings where
  minRequests := 1
  halfOpenMaxCalls := 1

/-- A success after the trip, still in `OPEN`, is no recovery. -/
theorem consistent_iff_no_recovery_tripped :
    (Consistent ⟨.opened, 1, 1, 2, 0, 0⟩ ∧
      RateDescribesCounters ⟨.opened, 1, 1, 2, 0, 0⟩) ↔
    Runs.Along (applyOp singleProbe) (fun b op => ¬ Recovers singleProbe b op)
      fresh [.recordFailure 0, .recordSuccess] :=
  consistent_iff_no_recovery singleProbe [.recordFailure 0, .recordSuccess]
    (by decide +kernel)

/-- One trip and one recovery leave a total of two next to empty counters. -/
theorem consistent_fails_after_recovery :
    Runs.run (applyOp singleProbe) fresh
        [.recordFailure 0, .allowRequest 30, .recordSuccess] =
      some ⟨.closed, 0, 0, 2, 0, 0⟩ ∧
    ¬ Consistent ⟨.closed, 0, 0, 2, 0, 0⟩ := by
  refine ⟨by decide +kernel, ?_⟩
  simp [Consistent]

end Counters

end CircuitBreaker
end YamlAgno
