import YamlAgno.Resilience.CircuitBreaker

/-!
# Concurrent `execute` calls on one breaker

`CircuitBreaker.execute` awaits the wrapped function between `allow_request`
and the record of its outcome, so any number of calls can be in flight at once.
A run is a sequence of atomic steps: a call asks for admission, or an admitted
call records its success or its failure.  A call that is cancelled simply never
records.

The state carries, besides the breaker, the calls in flight and a history of
the current `HALF_OPEN` episode: how many requests it admitted, how many of
these recorded a success, and how many failures were recorded.  An episode
begins when `allow_request` moves `OPEN` to `HALF_OPEN`.

The breaker counts finished probes only.  Two results say what this is worth:
the number of probes stays within the bound as long as the ones in flight are
few enough (`admitted_le_of_room`), and the circuit closes on real recoveries
only if no success is carried into the episode (`closes_on_recovery`).
-/

namespace YamlAgno
namespace ConcurrentBreaker

open CircuitBreaker

/-- An admitted call, with the `HALF_OPEN` episode that admitted it, if any. -/
structure Call where
  id : Nat
  episode : Option Nat
deriving DecidableEq

/-- A breaker with its calls in flight and the history of its last episode. -/
structure State where
  breaker : Breaker
  nextId : Nat
  inFlight : List Call
  /-- Number of the current or last `HALF_OPEN` episode; they count from one. -/
  episode : Nat
  /-- Requests the episode has admitted. -/
  admitted : Nat
  /-- Successes recorded in the episode by requests it admitted. -/
  probeSuccesses : Nat
  /-- Failures recorded while the episode was in `HALF_OPEN`. -/
  failures : Nat
deriving DecidableEq

/-- A fresh breaker without calls. -/
def initial : State where
  breaker := fresh
  nextId := 0
  inFlight := []
  episode := 0
  admitted := 0
  probeSuccesses := 0
  failures := 0

/-- Atomic steps of the `execute` calls. -/
inductive Action where
  | enter (now : ℚ)
  | success (call : Call)
  | failure (call : Call) (now : ℚ)

/-- Bookkeeping of an admission; `b` is the breaker after `allow_request`. -/
def admission (s : State) (b : Breaker) : State :=
  match s.breaker.state with
  | .closed =>
      { s with
        breaker := b
        nextId := s.nextId + 1
        inFlight := ⟨s.nextId, none⟩ :: s.inFlight }
  | .opened =>
      { breaker := b
        nextId := s.nextId + 1
        inFlight := ⟨s.nextId, some (s.episode + 1)⟩ :: s.inFlight
        episode := s.episode + 1
        admitted := 1
        probeSuccesses := 0
        failures := 0 }
  | .halfOpen =>
      { s with
        breaker := b
        nextId := s.nextId + 1
        inFlight := ⟨s.nextId, some s.episode⟩ :: s.inFlight
        admitted := s.admitted + 1 }

/-- The call was admitted in the episode the breaker is in. -/
def OwnProbe (s : State) (call : Call) : Prop :=
  s.breaker.state = .halfOpen ∧ call.episode = some s.episode

instance (s : State) (call : Call) : Decidable (OwnProbe s call) :=
  inferInstanceAs (Decidable (_ ∧ _))

/-- One atomic step; recording needs the call to be in flight. -/
def step (cfg : Settings) (s : State) : Action → Option State
  | .enter now =>
      if (allowRequest cfg now s.breaker).1 = true then
        some (admission s (allowRequest cfg now s.breaker).2)
      else
        some { s with breaker := (allowRequest cfg now s.breaker).2 }
  | .success call =>
      if call ∈ s.inFlight then
        some { s with
          breaker := recordSuccess cfg s.breaker
          inFlight := s.inFlight.erase call
          probeSuccesses :=
            if OwnProbe s call then s.probeSuccesses + 1 else s.probeSuccesses }
      else none
  | .failure call now =>
      if call ∈ s.inFlight then
        some { s with
          breaker := recordFailure cfg now s.breaker
          inFlight := s.inFlight.erase call
          failures :=
            if s.breaker.state = .halfOpen then s.failures + 1 else s.failures }
      else none

/-- Probes of the current episode that have not recorded an outcome. -/
def probesInFlight (s : State) : Nat :=
  s.inFlight.countP (fun call => decide (call.episode = some s.episode))

/-! ## One step at a time -/

section Steps

variable {cfg : Settings}

/--
What a request for admission does: in `CLOSED` it is admitted, in `OPEN` it may
start an episode, in `HALF_OPEN` it may join the episode, else it is refused.
-/
theorem enter_cases
    {s s' : State} {now : ℚ}
    (h : step cfg s (.enter now) = some s') :
    (s.breaker.state = .closed ∧
      s' = { s with
        nextId := s.nextId + 1
        inFlight := ⟨s.nextId, none⟩ :: s.inFlight }) ∨
    (s.breaker.state = .opened ∧
      cfg.recoveryTimeout ≤ now - s.breaker.lastFailureTime ∧
      s' = {
        breaker := { s.breaker with state := .halfOpen, halfOpenCalls := 0 }
        nextId := s.nextId + 1
        inFlight := ⟨s.nextId, some (s.episode + 1)⟩ :: s.inFlight
        episode := s.episode + 1
        admitted := 1
        probeSuccesses := 0
        failures := 0 }) ∨
    (s.breaker.state = .halfOpen ∧
      (s.breaker.halfOpenCalls : Int) < cfg.halfOpenMaxCalls ∧
      s' = { s with
        nextId := s.nextId + 1
        inFlight := ⟨s.nextId, some s.episode⟩ :: s.inFlight
        admitted := s.admitted + 1 }) ∨
    s' = s := by
  rcases allowRequest_cases cfg now s.breaker with
    ⟨hstate, hallow⟩ | ⟨hstate, htime, hallow⟩ | ⟨hstate, hcalls, hallow⟩ | ⟨-, hallow⟩
  · refine Or.inl ⟨hstate, ?_⟩
    simpa [step, hallow, admission, hstate] using h.symm
  · refine Or.inr (Or.inl ⟨hstate, htime, ?_⟩)
    simpa [step, hallow, admission, hstate] using h.symm
  · refine Or.inr (Or.inr (Or.inl ⟨hstate, hcalls, ?_⟩))
    simpa [step, hallow, admission, hstate] using h.symm
  · refine Or.inr (Or.inr (Or.inr ?_))
    simpa [step, hallow] using h.symm

/-- What the record of a success does. -/
theorem success_cases
    {s s' : State} {call : Call}
    (h : step cfg s (.success call) = some s') :
    call ∈ s.inFlight ∧
    s' = { s with
      breaker := recordSuccess cfg s.breaker
      inFlight := s.inFlight.erase call
      probeSuccesses :=
        if OwnProbe s call then s.probeSuccesses + 1 else s.probeSuccesses } := by
  by_cases hmem : call ∈ s.inFlight
  · rw [step, if_pos hmem] at h
    exact ⟨hmem, (Option.some.inj h).symm⟩
  · rw [step, if_neg hmem] at h
    cases h

/-- What the record of a failure does. -/
theorem failure_cases
    {s s' : State} {call : Call} {now : ℚ}
    (h : step cfg s (.failure call now) = some s') :
    call ∈ s.inFlight ∧
    s' = { s with
      breaker := recordFailure cfg now s.breaker
      inFlight := s.inFlight.erase call
      failures :=
        if s.breaker.state = .halfOpen then s.failures + 1 else s.failures } := by
  by_cases hmem : call ∈ s.inFlight
  · rw [step, if_pos hmem] at h
    exact ⟨hmem, (Option.some.inj h).symm⟩
  · rw [step, if_neg hmem] at h
    cases h

/-- The call that a request for admission puts in flight, if it is admitted. -/
def newCall (s : State) : Call :=
  match s.breaker.state with
  | .closed => ⟨s.nextId, none⟩
  | .opened => ⟨s.nextId, some (s.episode + 1)⟩
  | .halfOpen => ⟨s.nextId, some s.episode⟩

/-- The record of an outcome. -/
def record
    {ε α : Type}
    (call : Call)
    (now : ℚ) :
    Except ε α → Action
  | .ok _ => .success call
  | .error _ => .failure call now

/-- The steps of one `execute` call with no other call's steps in between. -/
def executeAlone
    {ε α : Type}
    (cfg : Settings)
    (s : State)
    (now now' : ℚ)
    (outcome : Except ε α) :
    List Action :=
  if (allowRequest cfg now s.breaker).1 = true then
    [.enter now, record (newCall s) now' outcome]
  else
    [.enter now]

/-- A call that runs alone does to the breaker what `execute` does. -/
theorem run_executeAlone
    {ε α : Type}
    (cfg : Settings)
    (s : State)
    (now now' : ℚ)
    (outcome : Except ε α) :
    ∃ s', Runs.run (step cfg) s (executeAlone cfg s now now' outcome) = some s' ∧
      s'.breaker = (execute cfg now now' outcome s.breaker).2 := by
  by_cases hallow : (allowRequest cfg now s.breaker).1 = true
  · have hmem : newCall s ∈ (admission s (allowRequest cfg now s.breaker).2).inFlight := by
      unfold admission newCall
      split <;> exact List.mem_cons_self
    have hbreaker : (admission s (allowRequest cfg now s.breaker).2).breaker =
        (allowRequest cfg now s.breaker).2 := by
      unfold admission
      split <;> rfl
    cases outcome with
    | ok result =>
        simp [executeAlone, execute, hallow, Runs.run, record, step, hmem, hbreaker]
    | error error =>
        simp [executeAlone, execute, hallow, Runs.run, record, step, hmem, hbreaker]
  · simp [executeAlone, execute, hallow, Runs.run, step]

/-- Taking a call out of the flight takes it out of the count. -/
theorem countP_erase_of_mem
    {calls : List Call} {call : Call}
    (p : Call → Bool)
    (hmem : call ∈ calls) :
    calls.countP p =
      (calls.erase call).countP p + if p call = true then 1 else 0 := by
  rw [(List.perm_cons_erase hmem).countP_eq p, List.countP_cons]

end Steps

/-! ## The probe bound -/

section ProbeBound

variable {cfg : Settings}

/--
The history accounts for the probes: in `HALF_OPEN` every admitted request is
in flight or has recorded a success, and `half_open_calls` has counted each of
these successes.
-/
structure Accounted (s : State) : Prop where
  episodes :
    ∀ call ∈ s.inFlight, ∀ e, call.episode = some e → e ≤ s.episode
  admitted :
    s.breaker.state = .halfOpen →
      s.admitted = probesInFlight s + s.probeSuccesses
  recorded :
    s.breaker.state = .halfOpen →
      s.probeSuccesses ≤ s.breaker.halfOpenCalls

theorem accounted_initial : Accounted initial where
  episodes := by
    intro call hcall
    cases hcall
  admitted := by
    intro h
    cases h
  recorded := by
    intro h
    cases h

/-- No call in flight belongs to an episode that has not begun. -/
theorem probesInFlight_next_episode
    {calls : List Call} {n : Nat}
    (h : ∀ call ∈ calls, ∀ e, call.episode = some e → e ≤ n) :
    calls.countP (fun call => decide (call.episode = some (n + 1))) = 0 := by
  rw [List.countP_eq_zero]
  intro call hcall hep
  have hle := h call hcall (n + 1) (of_decide_eq_true hep)
  omega

theorem accounted_enter
    {s s' : State} {now : ℚ}
    (hs : Accounted s)
    (h : step cfg s (.enter now) = some s') :
    Accounted s' := by
  rcases enter_cases h with ⟨hstate, rfl⟩ | ⟨-, -, rfl⟩ | ⟨hstate, -, rfl⟩ | rfl
  · refine ⟨?_, ?_, ?_⟩
    · intro call hcall e he
      rcases List.mem_cons.mp hcall with rfl | hcall
      · cases he
      · exact hs.episodes call hcall e he
    · intro h'
      exact absurd (hstate.symm.trans h') (by decide)
    · intro h'
      exact absurd (hstate.symm.trans h') (by decide)
  · refine ⟨?_, ?_, ?_⟩
    · intro call hcall e he
      rcases List.mem_cons.mp hcall with rfl | hcall
      · cases he
        exact le_refl _
      · exact Nat.le_succ_of_le (hs.episodes call hcall e he)
    · intro _
      -- calls of earlier episodes may still be in flight, but do not count here
      have hold := probesInFlight_next_episode hs.episodes
      simp [probesInFlight, hold]
    · intro _
      exact Nat.zero_le _
  · refine ⟨?_, ?_, ?_⟩
    · intro call hcall e he
      rcases List.mem_cons.mp hcall with rfl | hcall
      · cases he
        exact le_refl _
      · exact hs.episodes call hcall e he
    · intro _
      have := hs.admitted hstate
      simp only [probesInFlight, List.countP_cons, decide_true, if_true] at this ⊢
      omega
    · intro _
      exact hs.recorded hstate
  · exact hs

theorem accounted_success
    {s s' : State} {call : Call}
    (hs : Accounted s)
    (h : step cfg s (.success call) = some s') :
    Accounted s' := by
  obtain ⟨hmem, rfl⟩ := success_cases h
  have hepisodes :
      ∀ c ∈ s.inFlight.erase call, ∀ e, c.episode = some e → e ≤ s.episode :=
    fun c hc => hs.episodes c (List.mem_of_mem_erase hc)
  rcases recordSuccess_cases cfg s.breaker with
    ⟨hne, hrec⟩ | ⟨hstate, -, hrec⟩ | ⟨-, -, hrec⟩
  · rw [hrec]
    exact ⟨hepisodes, fun h' => absurd h' hne, fun h' => absurd h' hne⟩
  · rw [hrec]
    have hadm := hs.admitted hstate
    have hcalls := hs.recorded hstate
    have hcount :=
      countP_erase_of_mem
        (fun c => decide (c.episode = some s.episode)) hmem
    -- an own probe moves from the flight to the successes, a stale one just lands
    refine ⟨hepisodes, ?_, ?_⟩
    · intro _
      by_cases hown : call.episode = some s.episode
      · simp only [probesInFlight, OwnProbe, hstate, hown, and_self,
          decide_true, if_true] at hadm hcount ⊢
        omega
      · simp only [probesInFlight, OwnProbe, hstate, hown, and_false,
          decide_false, Bool.false_eq_true, if_false] at hadm hcount ⊢
        omega
    · intro _
      dsimp only
      split_ifs
      · omega
      · omega
  · rw [hrec]
    refine ⟨hepisodes, ?_, ?_⟩
    · intro h'
      cases h'
    · intro h'
      cases h'

theorem accounted_failure
    {s s' : State} {call : Call} {now : ℚ}
    (hs : Accounted s)
    (h : step cfg s (.failure call now) = some s') :
    Accounted s' := by
  obtain ⟨-, rfl⟩ := failure_cases h
  have hepisodes :
      ∀ c ∈ s.inFlight.erase call, ∀ e, c.episode = some e → e ≤ s.episode :=
    fun c hc => hs.episodes c (List.mem_of_mem_erase hc)
  -- a recorded failure never leaves the breaker in `HALF_OPEN`
  have hout : (recordFailure cfg now s.breaker).state ≠ .halfOpen := by
    rcases recordFailure_cases cfg now s.breaker with hrec | ⟨hne, hrec⟩
    · rw [hrec]
      intro h'
      cases h'
    · rw [hrec]
      exact hne
  exact ⟨hepisodes, fun h' => absurd h' hout, fun h' => absurd h' hout⟩

/-- Every step keeps the account. -/
theorem accounted_step
    {s s' : State} {a : Action}
    (hs : Accounted s)
    (h : step cfg s a = some s') :
    Accounted s' := by
  cases a with
  | enter now => exact accounted_enter hs h
  | success call => exact accounted_success hs h
  | failure call now => exact accounted_failure hs h

/--
When `HALF_OPEN` is about to admit a request, the recorded calls and the probes
still in flight together stay below the bound.
-/
def HasRoom (cfg : Settings) (s : State) : Action → Prop
  | .enter _ =>
      s.breaker.state = .halfOpen →
      (s.breaker.halfOpenCalls : Int) < cfg.halfOpenMaxCalls →
      (s.breaker.halfOpenCalls : Int) + probesInFlight s < cfg.halfOpenMaxCalls
  | _ => True

instance (cfg : Settings) (s : State) :
    (a : Action) → Decidable (HasRoom cfg s a)
  | .enter _ => inferInstanceAs (Decidable (_ → _ → _))
  | .success _ => isTrue trivial
  | .failure _ _ => isTrue trivial

/-- The bound survives every step that has room. -/
theorem admitted_le_step
    {s s' : State} {a : Action}
    (hmax : 1 ≤ cfg.halfOpenMaxCalls)
    (hs : Accounted s)
    (hle : (s.admitted : Int) ≤ cfg.halfOpenMaxCalls)
    (hroom : HasRoom cfg s a)
    (h : step cfg s a = some s') :
    (s'.admitted : Int) ≤ cfg.halfOpenMaxCalls := by
  cases a with
  | enter now =>
      rcases enter_cases h with ⟨-, rfl⟩ | ⟨-, -, rfl⟩ | ⟨hstate, hcalls, rfl⟩ | rfl
      · exact hle
      · simpa using hmax
      · have hfree := hroom hstate hcalls
        have hadm := hs.admitted hstate
        have hrec := hs.recorded hstate
        dsimp only
        omega
      · exact hle
  | success call =>
      obtain ⟨-, rfl⟩ := success_cases h
      exact hle
  | failure call now =>
      obtain ⟨-, rfl⟩ := failure_cases h
      exact hle

/--
Without room the bound is lost: as long as `half_open_calls` has counted the
episode's own successes only, a request admitted without room is one too many.
-/
theorem admitted_gt_of_no_room
    {s s' : State} {a : Action}
    (hs : Accounted s)
    (hown : s.breaker.halfOpenCalls = s.probeSuccesses)
    (hroom : ¬ HasRoom cfg s a)
    (h : step cfg s a = some s') :
    cfg.halfOpenMaxCalls < (s'.admitted : Int) := by
  cases a with
  | enter now =>
      simp only [HasRoom, Classical.not_imp, not_lt] at hroom
      obtain ⟨hstate, hcalls, hfull⟩ := hroom
      have hadm := hs.admitted hstate
      have hallow : allowRequest cfg now s.breaker = (true, s.breaker) := by
        simp [allowRequest, hstate, hcalls]
      have hs' : s'.admitted = s.admitted + 1 := by
        simp only [step, hallow, if_true, admission, hstate, Option.some.injEq] at h
        rw [← h]
      omega
  | success call => exact absurd trivial hroom
  | failure call now => exact absurd trivial hroom

/--
In every run whose admissions in `HALF_OPEN` have room, no episode admits more
than `half_open_max_calls` requests.
-/
theorem admitted_le_of_room
    (cfg : Settings)
    (hmax : 1 ≤ cfg.halfOpenMaxCalls)
    (actions : List Action)
    {s : State}
    (hroom : Runs.Along (step cfg) (HasRoom cfg) initial actions)
    (hrun : Runs.run (step cfg) initial actions = some s) :
    (s.admitted : Int) ≤ cfg.halfOpenMaxCalls := by
  have hinv :
      Accounted s ∧ (s.admitted : Int) ≤ cfg.halfOpenMaxCalls := by
    refine Runs.run_invariant_along
      (I := fun s => Accounted s ∧ (s.admitted : Int) ≤ cfg.halfOpenMaxCalls)
      ?_ ?_ hroom hrun
    · rintro s a s' ⟨hs, hle⟩ hP h
      exact ⟨accounted_step hs h, admitted_le_step hmax hs hle hP h⟩
    · refine ⟨accounted_initial, ?_⟩
      simp only [initial]
      omega
  exact hinv.2

/-- Probes that finish before the next one is admitted have room. -/
theorem admitted_le_of_room_sequential :
    ((2 : Nat) : Int) ≤ (2 : Int) :=
  admitted_le_of_room { minRequests := 1, halfOpenMaxCalls := 2 } (by decide)
    [.enter 0, .failure ⟨0, none⟩ 0, .enter 30, .success ⟨1, some 1⟩, .enter 31]
    (s := ⟨⟨.halfOpen, 1, 1, 2, 0, 1⟩, 3, [⟨2, some 1⟩], 1, 2, 1, 0⟩)
    (by decide +kernel) (by decide +kernel)

/--
With one probe allowed, a second request is admitted while the first is still
in flight.
-/
theorem probe_bound_fails :
    ¬ ∀ (cfg : Settings) (actions : List Action) (s : State),
      1 ≤ cfg.halfOpenMaxCalls →
      Runs.run (step cfg) initial actions = some s →
      (s.admitted : Int) ≤ cfg.halfOpenMaxCalls := by
  intro h
  have hrun :=
    h singleProbe
      [.enter 0, .failure ⟨0, none⟩ 0, .enter 30, .enter 30]
      ⟨⟨.halfOpen, 1, 0, 1, 0, 0⟩, 3, [⟨2, some 1⟩, ⟨1, some 1⟩], 1, 2, 0, 0⟩
      (by decide) (by decide +kernel)
  exact absurd hrun (by decide)

end ProbeBound

/-! ## Closing on recovery -/

section Recovery

variable {cfg : Settings}

/--
No success is carried into the episode: it starts with `success_count = 0`, and
while it lasts only its own requests record successes.  Where one success closes
the circuit, what the count starts with makes no difference.
-/
def FreshProbes (cfg : Settings) (s : State) : Action → Prop
  | .enter now =>
      s.breaker.state = .opened →
      cfg.recoveryTimeout ≤ now - s.breaker.lastFailureTime →
      s.breaker.successCount = 0 ∨ cfg.halfOpenMaxCalls ≤ 1
  | .success call =>
      s.breaker.state = .halfOpen → call.episode = some s.episode
  | .failure _ _ => True

instance (cfg : Settings) (s : State) :
    (a : Action) → Decidable (FreshProbes cfg s a)
  | .enter _ => inferInstanceAs (Decidable (_ → _ → _))
  | .success _ => inferInstanceAs (Decidable (_ → _))
  | .failure _ _ => isTrue trivial

/-- In `HALF_OPEN` the success counter counts the episode's own successes, unless a
single one is enough. -/
def CountsProbes (cfg : Settings) (s : State) : Prop :=
  s.breaker.state = .halfOpen →
    (s.breaker.successCount = s.probeSuccesses ∨ cfg.halfOpenMaxCalls ≤ 1) ∧
      s.failures = 0

theorem countsProbes_step
    {s s' : State} {a : Action}
    (hs : CountsProbes cfg s)
    (hfresh : FreshProbes cfg s a)
    (h : step cfg s a = some s') :
    CountsProbes cfg s' := by
  cases a with
  | enter now =>
      rcases enter_cases h with
        ⟨-, rfl⟩ | ⟨hstate, htime, rfl⟩ | ⟨hstate, -, rfl⟩ | rfl
      · exact hs
      · exact fun _ => ⟨hfresh hstate htime, rfl⟩
      · exact hs
      · exact hs
  | success call =>
      obtain ⟨-, rfl⟩ := success_cases h
      rcases recordSuccess_cases cfg s.breaker with
        ⟨hne, hrec⟩ | ⟨hstate, -, hrec⟩ | ⟨-, -, hrec⟩
      · rw [hrec]
        exact fun h' => absurd h' hne
      · rw [hrec]
        intro _
        have hown : OwnProbe s call := ⟨hstate, hfresh hstate⟩
        obtain ⟨hcount, hfail⟩ := hs hstate
        simp only [if_pos hown]
        exact ⟨hcount.imp_left (congrArg Nat.succ), hfail⟩
      · rw [hrec]
        intro h'
        cases h'
  | failure call now =>
      obtain ⟨-, rfl⟩ := failure_cases h
      intro h'
      rcases recordFailure_cases cfg now s.breaker with hrec | ⟨hne, hrec⟩
      · rw [hrec] at h'
        cases h'
      · rw [hrec] at h'
        exact absurd h' hne

/--
In every run that carries no success into an episode, a circuit that closes has
seen `half_open_max_calls` successes of the episode's own requests and no
failure.
-/
theorem closes_on_recovery
    (cfg : Settings)
    (actions : List Action)
    (a : Action)
    {s s' : State}
    (hfresh : Runs.Along (step cfg) (FreshProbes cfg) initial actions)
    (hrun : Runs.run (step cfg) initial actions = some s)
    (hlast : FreshProbes cfg s a)
    (hstep : step cfg s a = some s')
    (hopen : s.breaker.state = .halfOpen)
    (hclosed : s'.breaker.state = .closed) :
    s'.episode = s.episode ∧
    cfg.halfOpenMaxCalls ≤ s'.probeSuccesses ∧ s'.failures = 0 := by
  have hcounts : CountsProbes cfg s := by
    refine Runs.run_invariant_along (I := CountsProbes cfg)
      (fun _ _ _ => countsProbes_step) ?_ hfresh hrun
    intro h
    cases h
  obtain ⟨hcount, hfail⟩ := hcounts hopen
  cases a with
  | enter now =>
      rcases enter_cases hstep with
        ⟨hstate, rfl⟩ | ⟨hstate, -, rfl⟩ | ⟨-, -, rfl⟩ | rfl
      · exact absurd (hopen.symm.trans hstate) (by decide)
      · exact absurd (hopen.symm.trans hstate) (by decide)
      · exact absurd (hopen.symm.trans hclosed) (by decide)
      · exact absurd (hopen.symm.trans hclosed) (by decide)
  | success call =>
      obtain ⟨-, rfl⟩ := success_cases hstep
      have hown : OwnProbe s call := ⟨hopen, hlast hopen⟩
      rcases recordSuccess_cases cfg s.breaker with
        ⟨hne, -⟩ | ⟨-, -, hrec⟩ | ⟨-, hmax, -⟩
      · exact absurd hopen hne
      · rw [hrec] at hclosed
        exact absurd (hopen.symm.trans hclosed) (by decide)
      · simp only [if_pos hown]
        refine ⟨trivial, ?_, hfail⟩
        rcases hcount with hcount | hone
        · omega
        · omega
  | failure call now =>
      obtain ⟨-, rfl⟩ := failure_cases hstep
      rcases recordFailure_cases cfg now s.breaker with hrec | ⟨hne, -⟩
      · rw [hrec] at hclosed
        cases hclosed
      · exact absurd hopen hne

/-- A circuit that a single failure trips and that two probes close. -/
def doubleProbe : Settings :=
  { minRequests := 1, halfOpenMaxCalls := 2 }

/-- A trip without earlier successes, then two overlapping probes that close the circuit. -/
theorem closes_on_recovery_double :
    (1 : Nat) = 1 ∧ (2 : Int) ≤ (2 : Nat) ∧ (0 : Nat) = 0 :=
  @closes_on_recovery doubleProbe
    [.enter 0, .failure ⟨0, none⟩ 0, .enter 30, .enter 31, .success ⟨1, some 1⟩]
    (.success ⟨2, some 1⟩)
    ⟨⟨.halfOpen, 1, 1, 2, 0, 1⟩, 3, [⟨2, some 1⟩], 1, 2, 1, 0⟩
    ⟨⟨.closed, 0, 0, 3, 0, 0⟩, 3, [], 1, 2, 2, 0⟩
    (by decide +kernel) (by decide +kernel) (by decide +kernel)
    (by decide +kernel) rfl rfl

/--
One success before the trip counts towards the two that close the circuit, so a
single probe closes it.
-/
theorem closes_without_recovery :
    ¬ ∀ (cfg : Settings) (actions : List Action) (a : Action) (s s' : State),
      1 ≤ cfg.halfOpenMaxCalls →
      Runs.run (step cfg) initial actions = some s →
      step cfg s a = some s' →
      s.breaker.state = .halfOpen →
      s'.breaker.state = .closed →
      cfg.halfOpenMaxCalls ≤ s'.probeSuccesses ∧ s'.failures = 0 := by
  intro h
  have hclose :=
    h { minRequests := 2, halfOpenMaxCalls := 2 }
      [.enter 0, .enter 0, .success ⟨0, none⟩, .failure ⟨1, none⟩ 0, .enter 30]
      (.success ⟨2, some 1⟩)
      ⟨⟨.halfOpen, 1, 1, 2, 0, 0⟩, 3, [⟨2, some 1⟩], 1, 1, 0, 0⟩
      ⟨⟨.closed, 0, 0, 3, 0, 0⟩, 3, [], 1, 1, 1, 0⟩
      (by decide) (by decide +kernel) (by decide +kernel) rfl rfl
  exact absurd hclose.1 (by decide)

end Recovery

end ConcurrentBreaker
end YamlAgno
