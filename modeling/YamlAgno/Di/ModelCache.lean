import YamlAgno.Library.OrderedDict
import YamlAgno.Library.Unwinding

/-!
# The cache of models

`AgnoModelAdapter` of `di/agno_model_adapter.py` keeps the model that was built for an alias, so
that agents share its connections, until the alias is invalidated.  A builder may raise, and
what it builds depends on when it is called: on the key that the secrets have at that time.

The invalidations of an alias cut a run into generations.  In each of them the calls that
return for the alias return one model, which the first of them has built, and no other of
them calls its builder (`asked_of_generation`).  So agents of one generation share a model,
and none gets a model that was built before a key was rotated and its alias invalidated.
-/

namespace YamlAgno
namespace AgnoModelAdapter

variable {E M : Type}

/-- `_cache`. -/
abbrev Cache (M : Type) : Type :=
  List (String × M)

/-- A call; `built` is what its builder comes to if it is called. -/
inductive Operation (E M : Type) where
  | getOrBuild (aliasName : String) (built : Except E M)
  | invalidate (aliasName : Option String)

/-- How a call ends; `called` tells whether it has called its builder. -/
inductive Answer (E M : Type) where
  | returned (model : M) (called : Bool)
  | raised (error : E)
  | invalidated

/-- `get_or_build`. -/
def getOrBuild
    (cache : Cache M)
    (aliasName : String)
    (built : Except E M) :
    Cache M × Answer E M :=
  match cache.lookup aliasName with
  | some model => (cache, .returned model false)
  | none =>
      match built with
      | .ok model => (OrderedDict.set aliasName model cache, .returned model true)
      | .error error => (cache, .raised error)

/-- `invalidate`. -/
def invalidate (cache : Cache M) : Option String → Cache M
  | none => []
  | some dropped => cache.filter fun item => item.1 != dropped

/-- One call. -/
def step (cache : Cache M) : Operation E M → Option (Cache M × Answer E M)
  | .getOrBuild aliasName built => some (getOrBuild cache aliasName built)
  | .invalidate aliasName => some (invalidate cache aliasName, .invalidated)

/-- The operation drops what is cached for the alias. -/
def Operation.drops (aliasName : String) : Operation E M → Prop
  | .getOrBuild _ _ => False
  | .invalidate none => True
  | .invalidate (some dropped) => dropped = aliasName

/-- The calls for an alias: what the builder of each comes to, and how it has ended. -/
def asked
    (aliasName : String)
    (os : List (Operation E M × Answer E M)) :
    List (Except E M × Answer E M) :=
  os.filterMap fun
    | (.getOrBuild called built, answer) =>
        if called = aliasName then some (built, answer) else none
    | (.invalidate _, _) => none

/-- One alias on its own: the calls are served from the model that is kept, and the first
builder that succeeds gives it. -/
def serve : Option M → List (Except E M) → List (Except E M × Answer E M)
  | _, [] => []
  | some model, built :: rest => (built, .returned model false) :: serve (some model) rest
  | none, .ok model :: rest => (.ok model, .returned model true) :: serve (some model) rest
  | none, .error error :: rest => (.error error, .raised error) :: serve none rest

theorem serve_some (model : M) (builds : List (Except E M)) :
    serve (some model) builds = builds.map fun built => (built, .returned model false) := by
  induction builds with
  | nil => rfl
  | cons built builds ih => rw [serve, ih, List.map_cons]

/-- Calls whose builders fail. -/
def missed (errors : List E) : List (Except E M × Answer E M) :=
  errors.map fun error => (.error error, .raised error)

/-- A call whose builder succeeds, and calls that share its model. -/
def shared (model : M) (later : List (Except E M)) : List (Except E M × Answer E M) :=
  (.ok model, .returned model true) :: later.map fun built => (built, .returned model false)

/-- Builders fail until one of them succeeds, and none is called after it. -/
theorem serve_none (builds : List (Except E M)) :
    ∃ errors, serve none builds = missed errors ∨
      ∃ model later, serve none builds = missed errors ++ shared model later := by
  induction builds with
  | nil =>
      exact ⟨[], .inl rfl⟩
  | cons built builds ih =>
      cases built with
      | ok model =>
          refine ⟨[], .inr ⟨model, builds, ?_⟩⟩
          rw [serve, serve_some]
          rfl
      | error error =>
          obtain ⟨errors, hnone | ⟨model, later, hsome⟩⟩ := ih
          · exact ⟨error :: errors, .inl (by rw [serve, hnone]; rfl)⟩
          · exact ⟨error :: errors, .inr ⟨model, later, by rw [serve, hsome]; rfl⟩⟩

section Generations

variable {cache cache' : Cache M} {aliasName : String}
  {ops : List (Operation E M)} {os : List (Operation E M × Answer E M)}

theorem lookup_invalidate_of_drops
    {dropped : Option String}
    (h : (Operation.invalidate dropped : Operation E M).drops aliasName)
    (cache : Cache M) :
    (invalidate cache dropped).lookup aliasName = none := by
  cases dropped with
  | none => rfl
  | some dropped =>
      obtain rfl : dropped = aliasName := h
      rw [invalidate, OrderedDict.lookup_filter (fun key => key != dropped)]
      simp

theorem lookup_invalidate_of_not_drops
    {dropped : Option String}
    (h : ¬ (Operation.invalidate dropped : Operation E M).drops aliasName)
    (cache : Cache M) :
    (invalidate cache dropped).lookup aliasName = cache.lookup aliasName := by
  cases dropped with
  | none => exact absurd trivial h
  | some dropped =>
      have hne : (aliasName != dropped) = true := bne_iff_ne.mpr fun heq => h heq.symm
      rw [invalidate, OrderedDict.lookup_filter (fun key => key != dropped), if_pos hne]

/-- A call leaves what is cached for another alias. -/
theorem lookup_getOrBuild_of_ne
    {called : String}
    (h : called ≠ aliasName)
    (cache : Cache M)
    (built : Except E M) :
    (getOrBuild cache called built).1.lookup aliasName = cache.lookup aliasName := by
  unfold getOrBuild
  split
  · rfl
  · split
    · exact OrderedDict.lookup_set_of_ne (Ne.symm h) _ _
    · rfl

/-- A call for the alias, with the others after it. -/
theorem serve_getOrBuild
    (cache : Cache M)
    (built : Except E M)
    (builds : List (Except E M)) :
    serve (cache.lookup aliasName) (built :: builds) =
      (built, (getOrBuild cache aliasName built).2) ::
        serve ((getOrBuild cache aliasName built).1.lookup aliasName) builds := by
  unfold getOrBuild
  cases hcached : cache.lookup aliasName with
  | some model => simp only [serve, hcached]
  | none =>
      cases built with
      | ok model => simp only [serve, OrderedDict.lookup_set_self]
      | error error => simp only [serve, hcached]

/-- While nothing drops the alias its calls are served one after the other, whatever is asked
of the cache in between. -/
theorem asked_of_kept
    (hrun : answers step cache ops = some (cache', os))
    (hkeep : ∀ o ∈ os, ¬ o.1.drops aliasName) :
    asked aliasName os =
      serve (cache.lookup aliasName) ((asked aliasName os).map Prod.fst) := by
  induction ops generalizing cache os with
  | nil =>
      cases hrun
      rfl
  | cons op ops ih =>
      obtain ⟨next, answer, rest, hstep, hrest, rfl⟩ := answers_cons_eq_some.mp hrun
      have htail := ih hrest fun o ho => hkeep o (List.mem_cons_of_mem _ ho)
      cases op with
      | getOrBuild called built =>
          obtain ⟨rfl, rfl⟩ : (getOrBuild cache called built).1 = next ∧
              (getOrBuild cache called built).2 = answer :=
            Prod.mk.inj (Option.some.inj hstep)
          by_cases hcalled : called = aliasName
          · subst hcalled
            have hcons : asked called ((.getOrBuild called built,
                (getOrBuild cache called built).2) :: rest) =
                (built, (getOrBuild cache called built).2) :: asked called rest := by
              simp [asked]
            rw [hcons, List.map_cons, serve_getOrBuild, ← htail]
          · have hskip : asked aliasName ((.getOrBuild called built,
                (getOrBuild cache called built).2) :: rest) = asked aliasName rest := by
              simp [asked, hcalled]
            rw [hskip, ← lookup_getOrBuild_of_ne hcalled cache built]
            exact htail
      | invalidate dropped =>
          obtain ⟨rfl, rfl⟩ : invalidate cache dropped = next ∧ Answer.invalidated = answer :=
            Prod.mk.inj (Option.some.inj hstep)
          have hsame := lookup_invalidate_of_not_drops (hkeep _ List.mem_cons_self) cache
          rw [← hsame]
          exact htail

/-- Nothing is cached for the alias after an operation that drops it. -/
theorem lookup_of_dropped
    {before : List (Operation E M × Answer E M)}
    (hstart : ∀ last ∈ before.getLast?, last.1.drops aliasName)
    (hrun : answers step [] ops = some (cache, before)) :
    cache.lookup aliasName = none := by
  rcases List.eq_nil_or_concat before with rfl | ⟨init, last, rfl⟩
  · obtain ⟨rfl, rfl⟩ := answers_eq_nil hrun
    rfl
  · rw [List.concat_eq_append] at hrun hstart
    obtain ⟨first, final, middle, -, -, hlast⟩ := answers_eq_append hrun
    have hstep := answers_eq_singleton hlast
    have hdrop : last.1.drops aliasName := hstart last (by simp)
    obtain ⟨op, answer⟩ := last
    cases op with
    | getOrBuild called built => exact hdrop.elim
    | invalidate dropped =>
        obtain ⟨rfl, -⟩ : invalidate middle dropped = cache ∧ Answer.invalidated = answer :=
          Prod.mk.inj (Option.some.inj hstep)
        exact lookup_invalidate_of_drops hdrop middle

/--
A generation of an alias is a stretch of a run that starts with the run or after an operation
that drops the alias, and drops it nowhere.  The builders of its calls for the alias are called
until one of them succeeds.  The call whose builder it is returns what it has built, all later
ones return the same model, and none of them calls its builder.
-/
theorem asked_of_generation
    {before generation after : List (Operation E M × Answer E M)}
    (hrun : answers step [] ops = some (cache, before ++ generation ++ after))
    (hstart : ∀ last ∈ before.getLast?, last.1.drops aliasName)
    (hkeep : ∀ o ∈ generation, ¬ o.1.drops aliasName) :
    ∃ errors, asked aliasName generation = missed errors ∨
      ∃ model later, asked aliasName generation = missed errors ++ shared model later := by
  rw [List.append_assoc] at hrun
  obtain ⟨opsBefore, opsRest, start, -, hbefore, hrest⟩ := answers_eq_append hrun
  obtain ⟨opsGeneration, opsAfter, stop, -, hgeneration, -⟩ := answers_eq_append hrest
  rw [asked_of_kept hgeneration hkeep, lookup_of_dropped hstart hbefore]
  exact serve_none _

end Generations

/-- The key that `old` was built with is rotated.  Building fails before there is a key. -/
def rotation : List (Operation String String × Answer String String) :=
  [(.getOrBuild "openai" (.error "no key"), .raised "no key"),
    (.getOrBuild "openai" (.ok "old"), .returned "old" true),
    (.invalidate (some "openai"), .invalidated),
    (.getOrBuild "openai" (.ok "new"), .returned "new" true),
    (.getOrBuild "claude" (.ok "other"), .returned "other" true),
    (.invalidate (some "claude"), .invalidated),
    (.getOrBuild "openai" (.ok "unused"), .returned "new" false)]

theorem asked_of_generation_rotation :
    ∃ errors, asked "openai" (rotation.drop 3) = missed errors ∨
      ∃ model later, asked "openai" (rotation.drop 3) = missed errors ++ shared model later := by
  have hrun : answers step [] (rotation.map Prod.fst) =
      some ([("openai", "new")], rotation.take 3 ++ rotation.drop 3 ++ []) := by
    rfl
  refine asked_of_generation hrun ?_ ?_
  · simp [rotation, Operation.drops]
  · simp [rotation, Operation.drops]

end AgnoModelAdapter
end YamlAgno
