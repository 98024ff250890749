import YamlAgno.Library.Journal
import Mathlib.Data.List.Basic

/-!
# Exit stacks

Calls made one after the other end at the first that raises (`runAll`).  An exit stack
runs its handlers from the top, all of them, and raises what was raised last (`close`).

How a call ends may depend on everything that happened before it, so its outcome is that
of the `n`-th call made.

`filter_append_filter_eq_iff` is about handlers that two lists keep apart: putting one list
after the other gives back the joint order only if it never went from the second list to the
first.
-/

namespace ExitStack

variable {H E : Type} (outcome : Nat → Except E Unit)

/-- Makes the calls in order; the first that raises is the last that is made. -/
def runAll : Nat → List H → Journal (H × Except E Unit) E Unit
  | _, [] => Journal.ofExcept (.ok ())
  | n, call :: calls => do
      Journal.reported (call, outcome n) (outcome n)
      runAll (n + 1) calls

/-- Runs every handler, the top of the stack first; `pending` is raised if none raises. -/
def close : Nat → Except E Unit → List H → Journal (H × Except E Unit) E Unit
  | _, pending, [] => Journal.ofExcept pending
  | n, pending, handler :: stack =>
      let raised := match outcome n with
        | .error error => .error error
        | .ok _ => pending
      let rest := close (n + 1) raised stack
      ⟨(handler, outcome n) :: rest.entries, rest.result⟩

variable {outcome}

/-- Whatever the handlers raise, each runs once, in the order of the stack. -/
theorem entries_close
    (n : Nat) (pending : Except E Unit) (stack : List H) :
    (close outcome n pending stack).entries.map Prod.fst = stack := by
  induction stack generalizing n pending with
  | nil =>
      rfl
  | cons handler stack ih =>
      exact congrArg (handler :: ·) (ih (n + 1) _)

variable (outcome) in
/-- What `count` calls raise, the first of them the `n`-th that is made. -/
def raisedBy (n count : Nat) : List E :=
  (List.range' n count).filterMap fun i =>
    match outcome i with
    | .error error => some error
    | .ok _ => none

theorem raisedBy_succ_of_ok
    {n : Nat} {value : Unit}
    (h : outcome n = .ok value)
    (count : Nat) :
    raisedBy outcome n (count + 1) = raisedBy outcome (n + 1) count := by
  rw [raisedBy, List.range'_succ, List.filterMap_cons_none (by rw [h])]
  rfl

theorem raisedBy_succ_of_error
    {n : Nat} {error : E}
    (h : outcome n = .error error)
    (count : Nat) :
    raisedBy outcome n (count + 1) = error :: raisedBy outcome (n + 1) count := by
  rw [raisedBy, List.range'_succ, List.filterMap_cons_some (by rw [h])]
  rfl

/-- What is raised last leaves the stack. -/
theorem result_close
    (n : Nat) (pending : Except E Unit) (stack : List H) :
    (close outcome n pending stack).result =
      match (raisedBy outcome n stack.length).getLast? with
      | none => pending
      | some error => .error error := by
  induction stack generalizing n pending with
  | nil =>
      rfl
  | cons handler stack ih =>
      rw [close, List.length_cons]
      cases houtcome : outcome n with
      | ok value =>
          rw [raisedBy_succ_of_ok houtcome]
          exact ih (n + 1) pending
      | error error =>
          rw [raisedBy_succ_of_error houtcome, List.getLast?_cons]
          refine (ih (n + 1) (.error error)).trans ?_
          cases (raisedBy outcome (n + 1) stack.length).getLast? <;> rfl

theorem runAll_cons_of_ok
    {n : Nat} {call : H}
    (h : outcome n = .ok ())
    (calls : List H) :
    (runAll outcome n (call :: calls)).entries =
        (call, .ok ()) :: (runAll outcome (n + 1) calls).entries ∧
      (runAll outcome n (call :: calls)).result = (runAll outcome (n + 1) calls).result := by
  have hreported : (Journal.reported (call, outcome n) (outcome n)).result = .ok () := h
  rw [runAll, Journal.entries_bind_of_ok hreported, Journal.result_bind, hreported,
    Journal.entries_reported, h]
  exact ⟨rfl, rfl⟩

theorem runAll_cons_of_error
    {n : Nat} {call : H} {error : E}
    (h : outcome n = .error error)
    (calls : List H) :
    (runAll outcome n (call :: calls)).entries = [(call, .error error)] ∧
      (runAll outcome n (call :: calls)).result = .error error := by
  have hreported : (Journal.reported (call, outcome n) (outcome n)).result = .error error := h
  rw [runAll, Journal.entries_bind_of_error hreported, Journal.result_bind, hreported,
    Journal.entries_reported, h]
  exact ⟨rfl, rfl⟩

/-- Two lists of calls, one after the other, are one list of calls. -/
theorem runAll_append
    (n : Nat) (calls calls' : List H) :
    runAll outcome n (calls ++ calls') =
      runAll outcome n calls >>= fun _ => runAll outcome (n + calls.length) calls' := by
  induction calls generalizing n with
  | nil =>
      rw [List.nil_append, List.length_nil, Nat.add_zero]
      rfl
  | cons call calls ih =>
      have hlength : n + (call :: calls).length = n + 1 + calls.length := by
        rw [List.length_cons]
        omega
      rw [List.cons_append, runAll, runAll, ih, bind_assoc, hlength]

/-- The calls that were made and returned are those before the first that raises. -/
theorem mem_runAll_ok_iff
    {n : Nat} {calls : List H} {call : H} :
    (call, .ok ()) ∈ (runAll outcome n calls).entries ↔
      ∃ i, calls[i]? = some call ∧ ∀ j ≤ i, outcome (n + j) = .ok () := by
  induction calls generalizing n with
  | nil =>
      simp [runAll]
  | cons first calls ih =>
      cases houtcome : outcome n with
      | error error =>
          rw [(runAll_cons_of_error houtcome calls).1]
          constructor
          · intro h
            cases List.mem_singleton.mp h
          · rintro ⟨i, -, h⟩
            cases houtcome.symm.trans (h 0 (Nat.zero_le i))
      | ok value =>
          rw [(runAll_cons_of_ok houtcome calls).1, List.mem_cons, ih]
          constructor
          · rintro (h | ⟨i, hi, h⟩)
            · cases h
              refine ⟨0, rfl, fun j hj => ?_⟩
              obtain rfl : j = 0 := by omega
              exact houtcome
            · refine ⟨i + 1, hi, fun j hj => ?_⟩
              cases j with
              | zero =>
                  exact houtcome
              | succ j =>
                  rw [← Nat.add_assoc, Nat.add_right_comm]
                  exact h j (by omega)
          · rintro ⟨i, hi, h⟩
            cases i with
            | zero =>
                cases hi
                exact .inl rfl
            | succ i =>
                refine .inr ⟨i, hi, fun j hj => ?_⟩
                have hnext := h (j + 1) (by omega)
                rwa [← Nat.add_assoc, Nat.add_right_comm] at hnext

/-- When nothing is raised, every call is made. -/
theorem entries_runAll_of_ok
    {n : Nat} {calls : List H}
    (h : (runAll outcome n calls).result = .ok ()) :
    (runAll outcome n calls).entries.map Prod.fst = calls := by
  induction calls generalizing n with
  | nil =>
      rfl
  | cons call calls ih =>
      cases houtcome : outcome n with
      | error error =>
          rw [(runAll_cons_of_error houtcome calls).2] at h
          cases h
      | ok value =>
          rw [(runAll_cons_of_ok houtcome calls).2] at h
          rw [(runAll_cons_of_ok houtcome calls).1, List.map_cons, ih h]

/-- What was raised is the outcome of one of the calls. -/
theorem exists_of_runAll_error
    {n : Nat} {calls : List H} {error : E}
    (h : (runAll outcome n calls).result = .error error) :
    ∃ i < calls.length, outcome (n + i) = .error error := by
  induction calls generalizing n with
  | nil =>
      cases h
  | cons call calls ih =>
      cases houtcome : outcome n with
      | error error' =>
          rw [(runAll_cons_of_error houtcome calls).2] at h
          exact ⟨0, by simp, houtcome.trans h⟩
      | ok value =>
          rw [(runAll_cons_of_ok houtcome calls).2] at h
          obtain ⟨i, hi, hraised⟩ := ih h
          refine ⟨i + 1, by rw [List.length_cons]; omega, ?_⟩
          rwa [← Nat.add_assoc, Nat.add_right_comm]

/-- Only what was to be called is called. -/
theorem mem_of_mem_runAll
    {n : Nat} {calls : List H} {entry : H × Except E Unit}
    (h : entry ∈ (runAll outcome n calls).entries) :
    entry.1 ∈ calls := by
  induction calls generalizing n with
  | nil =>
      cases h
  | cons call calls ih =>
      cases houtcome : outcome n with
      | error error =>
          rw [(runAll_cons_of_error houtcome calls).1] at h
          obtain rfl := List.mem_singleton.mp h
          exact List.mem_cons_self
      | ok value =>
          rw [(runAll_cons_of_ok houtcome calls).1] at h
          rcases List.mem_cons.mp h with rfl | h
          · exact List.mem_cons_self
          · exact List.mem_cons_of_mem call (ih h)

/-- A list has those with `p` first exactly when no other stands before one of them. -/
theorem filter_append_filter_eq_iff
    {p : H → Bool} {xs : List H} :
    xs.filter p ++ xs.filter (fun x => !p x) = xs ↔
      xs.Pairwise (fun x y => p y = true → p x = true) := by
  induction xs with
  | nil =>
      simp
  | cons x xs ih =>
      rw [List.pairwise_cons, ← ih]
      cases hx : p x with
      | true =>
          simp [hx]
      | false =>
          rw [List.filter_cons_of_neg (by simp [hx]), List.filter_cons_of_pos (by simp [hx])]
          constructor
          · intro h
            have hnone : xs.filter p = [] := by
              cases hfilter : xs.filter p with
              | nil =>
                  rfl
              | cons y ys =>
                  -- The head of the left side has `p`, and `x` has not.
                  rw [hfilter, List.cons_append] at h
                  have hy : y ∈ xs.filter p := by
                    rw [hfilter]
                    exact List.mem_cons_self
                  rw [(List.cons.inj h).1, List.mem_filter, hx] at hy
                  cases hy.2
            rw [hnone, List.nil_append] at h ⊢
            refine ⟨fun y hy hpy => ?_, (List.cons.inj h).2⟩
            have hmem : y ∈ xs.filter p := List.mem_filter.mpr ⟨hy, hpy⟩
            rw [hnone] at hmem
            cases hmem
          · rintro ⟨h, hxs⟩
            have hnone : xs.filter p = [] :=
              List.filter_eq_nil_iff.mpr (fun y hy hpy => by simpa using h y hy hpy)
            rw [hnone, List.nil_append] at hxs ⊢
            rw [hxs]

end ExitStack
