import YamlAgno.Library.Fallible
import YamlAgno.Library.Journal

/-!
# Programs that call the outside

What a function from outside answers may depend on all calls before: it may keep a cache, or
fail once and then return.  A `Calling` is a program that is told the calls before it; its
journal lists those that it makes, and `call` asks an outside that answers from the calls so
far.

`Guarded P x Q` is the judgment about such a program: whatever is called before it, each call
that it makes satisfies `P`, and what it returns satisfies `Q`.  What a check returns may be
used for the calls after it (`Guarded.bind`), and a traversal keeps what it has found out
about each of its items (`Guarded.mapM`).  A program that makes some of the calls of a larger
one keeps its judgment inside it (`Guarded.within`).

`Raises outside x S` says where an exception comes from: `x` raises it by itself, and it
satisfies `S`, or the last call has been answered with it.  A traversal raises what the first
item raises that does not return (`mapM_error_iff`).
-/

universe u v w

/-- A program, over the calls made before it. -/
def Calling (W : Type u) (E : Type v) (α : Type w) : Type (max u v w) :=
  List W → Journal W E α

namespace Calling

variable {W : Type u} {E : Type v} {α β : Type w}

/-- Continues with a value, after the calls that led to it. -/
def andThen (x : Calling W E α) (k : α → Calling W E β) : Calling W E β := fun before =>
  match (x before).result with
  | .error error => ⟨(x before).entries, .error error⟩
  | .ok value =>
      let rest := k value (before ++ (x before).entries)
      ⟨(x before).entries ++ rest.entries, rest.result⟩

instance : Monad (Calling W E) where
  pure value := fun _ => pure value
  bind := andThen

/-- A value or an exception, with no call. -/
def ofExcept (result : Except E α) : Calling W E α := fun _ =>
  Journal.ofExcept result

/-- A call, and what the outside answers after the calls before it. -/
def call (outside : List W → W → Except E α) (w : W) : Calling W E α := fun before =>
  Journal.reported w (outside before w)

theorem bind_of_error
    {x : Calling W E α}
    {before : List W}
    {error : E}
    (h : (x before).result = .error error)
    (k : α → Calling W E β) :
    (x >>= k) before = ⟨(x before).entries, .error error⟩ := by
  show andThen x k before = _
  simp only [andThen, h]

theorem bind_of_ok
    {x : Calling W E α}
    {before : List W}
    {value : α}
    (h : (x before).result = .ok value)
    (k : α → Calling W E β) :
    (x >>= k) before =
      ⟨(x before).entries ++ (k value (before ++ (x before).entries)).entries,
        (k value (before ++ (x before).entries)).result⟩ := by
  show andThen x k before = _
  simp only [andThen, h]

/-- What a sequence returns has been returned by its second part, for what the first has. -/
theorem result_bind_eq_ok_iff
    {x : Calling W E α}
    {k : α → Calling W E β}
    {before : List W}
    {b : β} :
    ((x >>= k) before).result = .ok b ↔
      ∃ a, (x before).result = .ok a ∧ (k a (before ++ (x before).entries)).result = .ok b := by
  cases h : (x before).result with
  | error error =>
      rw [bind_of_error h]
      simp
  | ok a =>
      rw [bind_of_ok h]
      simp

/-- A program that starts with a call that raises. -/
theorem call_bind_of_error
    {outside : List W → W → Except E α}
    {before : List W}
    {w : W}
    {error : E}
    (h : outside before w = .error error)
    (k : α → Calling W E β) :
    (call outside w >>= k) before = ⟨[w], .error error⟩ :=
  bind_of_error (x := call outside w) h k

/-- A program that starts with a call that is answered. -/
theorem call_bind_of_ok
    {outside : List W → W → Except E α}
    {before : List W}
    {w : W}
    {a : α}
    (h : outside before w = .ok a)
    (k : α → Calling W E β) :
    (call outside w >>= k) before =
      ⟨w :: (k a (before ++ [w])).entries, (k a (before ++ [w])).result⟩ :=
  bind_of_ok (x := call outside w) h k

/-- What follows a program and calls nothing. -/
theorem bind_ofExcept
    (x : Calling W E α)
    (f : α → Except E β)
    (before : List W) :
    (x >>= fun a => ofExcept (f a)) before = ⟨(x before).entries, (x before).result >>= f⟩ := by
  cases h : (x before).result with
  | error error => rw [bind_of_error h]; rfl
  | ok value =>
      rw [bind_of_ok h]
      simp [ofExcept, bind, Except.bind]

theorem bind_pure_apply
    (x : Calling W E α)
    (f : α → β)
    (before : List W) :
    (x >>= fun a => pure (f a)) before = ⟨(x before).entries, (x before).result.map f⟩ :=
  bind_ofExcept x (fun a => .ok (f a)) before

theorem map_apply
    (f : α → β)
    (x : Calling W E α)
    (before : List W) :
    (f <$> x) before = ⟨(x before).entries, (x before).result.map f⟩ :=
  bind_pure_apply x f before

theorem map_id_eq
    (x : Calling W E α) :
    id <$> x = x := by
  funext before
  show andThen x (fun a => pure a) before = x before
  rw [andThen]
  cases h : x before with
  | mk entries result => cases result <;> simp [pure]

theorem pure_bind_eq
    (value : α)
    (k : α → Calling W E β) :
    pure value >>= k = k value := by
  funext before
  show andThen (fun _ => pure value) k before = k value before
  simp [andThen]

theorem ofExcept_ok_bind
    (value : α)
    (k : α → Calling W E β) :
    ofExcept (.ok value) >>= k = k value :=
  pure_bind_eq value k

theorem bind_assoc_eq
    {γ : Type w}
    (x : Calling W E α)
    (k : α → Calling W E β)
    (l : β → Calling W E γ) :
    x >>= k >>= l = x >>= fun a => k a >>= l := by
  funext before
  cases hx : (x before).result with
  | error error =>
      have hxk := bind_of_error hx k
      rw [bind_of_error hx, bind_of_error (by rw [hxk]), hxk]
  | ok value =>
      have hxk := bind_of_ok hx k
      rw [bind_of_ok hx]
      cases hk : (k value (before ++ (x before).entries)).result with
      | error error => rw [bind_of_error (by rw [hxk, hk]), hxk, bind_of_error hk]
      | ok value' =>
          rw [bind_of_ok (by rw [hxk, hk]), hxk, bind_of_ok hk]
          simp

instance : LawfulMonad (Calling W E) :=
  LawfulMonad.mk' (Calling W E) map_id_eq pure_bind_eq bind_assoc_eq

/-! ## What every run of a program has in common -/

/-- Each call satisfies `P`, and the value that is returned satisfies `Q`. -/
structure Guarded (P : W → Prop) (x : Calling W E α) (Q : α → Prop) : Prop where
  calls : ∀ before, ∀ w ∈ (x before).entries, P w
  value : ∀ before a, (x before).result = .ok a → Q a

variable {P : W → Prop} {x : Calling W E α} {Q : α → Prop} {k : α → Calling W E β} {R : β → Prop}

theorem Guarded.pure
    {a : α}
    (h : Q a) :
    Guarded P (Pure.pure a : Calling W E α) Q where
  calls _ w hw := absurd hw List.not_mem_nil
  value _ a' h' := by
    cases h'
    exact h

theorem Guarded.ofExcept
    {result : Except E α}
    (h : ∀ a, result = .ok a → Q a) :
    Guarded P (ofExcept result : Calling W E α) Q where
  calls _ _ hw := absurd hw List.not_mem_nil
  value _ a h' := h a h'

theorem Guarded.call
    {outside : List W → W → Except E α}
    {w : W}
    (h : P w) :
    Guarded P (call outside w) (fun _ => True) where
  calls _ _ hw := by
    rw [List.mem_singleton.mp hw]
    exact h
  value _ _ _ := trivial

/-- What the first part returns may be used for the second. -/
theorem Guarded.bind
    (hx : Guarded P x Q)
    (hk : ∀ a, Q a → Guarded P (k a) R) :
    Guarded P (x >>= k) R where
  calls before w hw := by
    cases h : (x before).result with
    | error error =>
        rw [bind_of_error h] at hw
        exact hx.calls before w hw
    | ok a =>
        rw [bind_of_ok h] at hw
        rcases List.mem_append.mp hw with hw | hw
        · exact hx.calls before w hw
        · exact (hk a (hx.value before a h)).calls _ w hw
  value before b hb := by
    cases h : (x before).result with
    | error error =>
        rw [bind_of_error h] at hb
        cases hb
    | ok a =>
        rw [bind_of_ok h] at hb
        exact (hk a (hx.value before a h)).value _ b hb

theorem Guarded.mono
    {Q' : α → Prop}
    (hx : Guarded P x Q)
    (h : ∀ a, Q a → Q' a) :
    Guarded P x Q' where
  calls := hx.calls
  value before a ha := h a (hx.value before a ha)

/-- What is known of each item when it returns is known of all when the traversal does. -/
theorem Guarded.mapM
    {γ : Type*}
    {f : γ → Calling W E β}
    {S : γ → Prop}
    {xs : List γ}
    (h : ∀ c ∈ xs, Guarded P (f c) (fun _ => S c)) :
    Guarded P (xs.mapM f) (fun _ => ∀ c ∈ xs, S c) := by
  induction xs with
  | nil =>
      exact .pure (by simp)
  | cons c cs ih =>
      rw [List.mapM_cons]
      refine (h c List.mem_cons_self).bind (fun _ hc => ?_)
      refine (ih (fun d hd => h d (List.mem_cons_of_mem c hd))).bind (fun _ hcs => ?_)
      exact .pure (List.forall_mem_cons.mpr ⟨hc, hcs⟩)

/-- What a traversal returns has a value for each item, with what is known of it. -/
theorem Guarded.mapM_forall₂
    {γ : Type*}
    {f : γ → Calling W E β}
    {S : γ → β → Prop}
    {xs : List γ}
    (h : ∀ c ∈ xs, Guarded P (f c) (S c)) :
    Guarded P (xs.mapM f) (List.Forall₂ S xs) := by
  induction xs with
  | nil =>
      exact .pure .nil
  | cons c cs ih =>
      rw [List.mapM_cons]
      refine (h c List.mem_cons_self).bind (fun _ hc => ?_)
      refine (ih (fun d hd => h d (List.mem_cons_of_mem c hd))).bind (fun _ hcs => ?_)
      exact .pure (.cons hc hcs)

/-- What may be missing is only looked at if it is there. -/
theorem Guarded.optionMapM
    {γ : Type w}
    {f : γ → Calling W E β}
    {S : γ → Prop}
    {o : Option γ}
    (h : ∀ c ∈ o, Guarded P (f c) (fun _ => S c)) :
    Guarded P (o.mapM f) (fun _ => ∀ c ∈ o, S c) := by
  cases o with
  | none =>
      exact .pure (by simp)
  | some c =>
      refine (h c rfl).bind (fun b hb => .pure ?_)
      simpa using hb

/-! ## Programs inside a larger one -/

section Within

variable {W' : Type*} {E' : Type v}

/-- A program that makes some of the calls of a larger one, and is told those of its own that
have been made before. -/
def within
    (inj : W → W')
    (own : W' → Option W)
    (wrap : E → E')
    (x : Calling W E α) :
    Calling W' E' α := fun before =>
  let run := x (before.filterMap own)
  ⟨run.entries.map inj, run.result.mapError wrap⟩

theorem Guarded.within
    {P' : W' → Prop}
    {inj : W → W'}
    (hx : Guarded P x Q)
    (h : ∀ w, P w → P' (inj w))
    (own : W' → Option W)
    (wrap : E → E') :
    Guarded P' (within inj own wrap x) Q where
  calls before w' hw' := by
    obtain ⟨w, hw, rfl⟩ := List.mem_map.mp hw'
    exact h w (hx.calls _ w hw)
  value before a ha := hx.value _ a (Fallible.mapError_eq_ok_iff.mp ha)

variable {inj : W → W'} {own : W' → Option W}

/-- A sequence inside a larger program is the sequence of its parts there. -/
theorem within_bind
    (hown : ∀ w, own (inj w) = some w)
    (wrap : E → E')
    (x : Calling W E α)
    (k : α → Calling W E β) :
    within inj own wrap (x >>= k) =
      within inj own wrap x >>= fun a => within inj own wrap (k a) := by
  funext before
  have hentries : ∀ ws : List W, (ws.map inj).filterMap own = ws := by
    intro ws
    rw [List.filterMap_map, show own ∘ inj = some from funext hown, List.filterMap_some]
  cases hx : (x (before.filterMap own)).result with
  | error error =>
      have hwithin : (Calling.within inj own wrap x before).result = .error (wrap error) := by
        simp only [Calling.within, hx]
        rfl
      rw [bind_of_error hwithin]
      simp only [Calling.within, bind_of_error hx]
      rfl
  | ok a =>
      have hwithin : (Calling.within inj own wrap x before).result = .ok a := by
        simp only [Calling.within, hx]
        rfl
      rw [bind_of_ok hwithin]
      simp only [Calling.within, bind_of_ok hx, List.map_append, List.filterMap_append, hentries]

theorem within_mapM
    {γ : Type*}
    (hown : ∀ w, own (inj w) = some w)
    (wrap : E → E')
    (f : γ → Calling W E β)
    (cs : List γ) :
    within inj own wrap (cs.mapM f) = cs.mapM fun c => within inj own wrap (f c) := by
  induction cs with
  | nil => rfl
  | cons c cs ih =>
      rw [List.mapM_cons, List.mapM_cons, within_bind hown]
      simp only [within_bind hown, ih]
      rfl

end Within

/-! ## How a program fails -/

variable {D : Type*} {outside : List W → W → Except E D} {S : E → Prop}

/-- What a program raises after some calls satisfies `S`, or the outside has answered it to the
last call. -/
def RaisesAfter
    (outside : List W → W → Except E D)
    (before : List W)
    (x : Calling W E α)
    (S : E → Prop) : Prop :=
  ∀ error, (x before).result = .error error →
    S error ∨ ∃ calls w, (x before).entries = calls ++ [w] ∧
      outside (before ++ calls) w = .error error

/-- The same, whatever is called before. -/
def Raises (outside : List W → W → Except E D) (x : Calling W E α) (S : E → Prop) : Prop :=
  ∀ before, RaisesAfter outside before x S

theorem Raises.pure
    (a : α) :
    Raises outside (Pure.pure a : Calling W E α) S :=
  fun _ _ h => by cases h

theorem Raises.ofExcept
    {result : Except E α}
    (h : ∀ error, result = .error error → S error) :
    Raises outside (ofExcept result : Calling W E α) S :=
  fun _ error herror => .inl (h error herror)

theorem Raises.call
    (outside : List W → W → Except E D)
    (w : W) :
    Raises outside (call outside w) S :=
  fun before _ h => .inr ⟨[], w, rfl, by rw [List.append_nil]; exact h⟩

/-- What the first part returns may be used for the second. -/
theorem RaisesAfter.bind
    {before : List W}
    (hx : RaisesAfter outside before x S)
    (hk : ∀ a, (x before).result = .ok a →
      RaisesAfter outside (before ++ (x before).entries) (k a) S) :
    RaisesAfter outside before (x >>= k) S := by
  intro error herror
  cases h : (x before).result with
  | error error' =>
      rw [bind_of_error h] at herror ⊢
      cases herror
      exact hx error h
  | ok a =>
      rw [bind_of_ok h] at herror ⊢
      rcases hk a h error herror with hown | ⟨calls, w, hcalls, hanswer⟩
      · exact .inl hown
      · refine .inr ⟨(x before).entries ++ calls, w, ?_, ?_⟩
        · simp only [hcalls, List.append_assoc]
        · rw [← List.append_assoc]
          exact hanswer

theorem Raises.bind
    (hx : Raises outside x S)
    (hk : ∀ a, Raises outside (k a) S) :
    Raises outside (x >>= k) S :=
  fun before => (hx before).bind fun a _ => hk a _

theorem Raises.mapM
    {γ : Type*}
    {f : γ → Calling W E β}
    {xs : List γ}
    (h : ∀ c ∈ xs, Raises outside (f c) S) :
    Raises outside (xs.mapM f) S := by
  induction xs with
  | nil => exact .pure _
  | cons c cs ih =>
      rw [List.forall_mem_cons] at h
      rw [List.mapM_cons]
      exact h.1.bind fun _ => (ih h.2).bind fun _ => .pure _

theorem Raises.optionMapM
    {γ : Type w}
    {f : γ → Calling W E β}
    {o : Option γ}
    (h : ∀ c ∈ o, Raises outside (f c) S) :
    Raises outside (o.mapM f) S := by
  cases o with
  | none => exact .pure _
  | some c => exact (h c rfl).bind fun _ => .pure _

/-! ## Where a traversal fails -/

section Traversal

variable {γ : Type*} {f : γ → Calling W E β}

/-- Each item has returned its value, after the calls before it. -/
inductive Traversed (f : γ → Calling W E β) : List γ → List W → List β → Prop
  | nil (before : List W) : Traversed f [] before []
  | cons
      {c : γ}
      {cs : List γ}
      {before : List W}
      {b : β}
      {bs : List β}
      (hc : (f c before).result = .ok b)
      (hcs : Traversed f cs (before ++ (f c before).entries) bs) :
      Traversed f (c :: cs) before (b :: bs)

/-- A traversal comes to an item after the calls of those before it, all of which return. -/
inductive Reaches (f : γ → Calling W E β) : List γ → List W → γ → List W → Prop
  | head (c : γ) (cs : List γ) (before : List W) : Reaches f (c :: cs) before c before
  | tail
      {c d : γ}
      {cs : List γ}
      {before history : List W}
      {b : β}
      (hc : (f c before).result = .ok b)
      (hd : Reaches f cs (before ++ (f c before).entries) d history) :
      Reaches f (c :: cs) before d history

theorem Traversed.length_eq
    {cs : List γ}
    {before : List W}
    {bs : List β}
    (h : Traversed f cs before bs) :
    bs.length = cs.length := by
  induction h with
  | nil => rfl
  | cons _ _ ih => rw [List.length_cons, List.length_cons, ih]

/-- A traversal that returns has gone through all of its items. -/
theorem traversed_of_mapM
    {cs : List γ}
    {before : List W}
    {bs : List β}
    (h : (cs.mapM f before).result = .ok bs) :
    Traversed f cs before bs := by
  induction cs generalizing before bs with
  | nil =>
      cases h
      exact .nil before
  | cons c cs ih =>
      rw [List.mapM_cons] at h
      cases hc : (f c before).result with
      | error error =>
          rw [bind_of_error hc] at h
          cases h
      | ok b =>
          rw [bind_of_ok hc, bind_pure_apply] at h
          obtain ⟨bs', hcs, rfl⟩ := Fallible.map_eq_ok_iff.mp h
          exact .cons hc (ih hcs)

/-- A traversal raises what the first of its items raises that does not return. -/
theorem mapM_error_iff
    {cs : List γ}
    {before : List W}
    {error : E} :
    (cs.mapM f before).result = .error error ↔
      ∃ d history, Reaches f cs before d history ∧ (f d history).result = .error error := by
  induction cs generalizing before with
  | nil =>
      constructor
      · intro h
        cases h
      · rintro ⟨d, history, hd, -⟩
        cases hd
  | cons c cs ih =>
      rw [List.mapM_cons]
      cases hc : (f c before).result with
      | error error' =>
          rw [bind_of_error hc]
          constructor
          · intro h
            cases h
            exact ⟨c, before, .head c cs before, hc⟩
          · rintro ⟨d, history, hd, herror⟩
            cases hd with
            | head =>
                cases hc.symm.trans herror
                rfl
            | tail hok _ => cases hc.symm.trans hok
      | ok b =>
          rw [bind_of_ok hc, bind_pure_apply]
          constructor
          · intro h
            obtain ⟨d, history, hd, herror⟩ := ih.mp (Fallible.map_eq_error_iff.mp h)
            exact ⟨d, history, .tail hc hd, herror⟩
          · rintro ⟨d, history, hd, herror⟩
            cases hd with
            | head => cases hc.symm.trans herror
            | tail _ hd => exact Fallible.map_eq_error_iff.mpr (ih.mpr ⟨d, history, hd, herror⟩)

/-- A traversal raises by itself only what an item that it comes to raises by itself. -/
theorem RaisesAfter.mapM
    {cs : List γ}
    {before : List W}
    (h : ∀ c history, Reaches f cs before c history → RaisesAfter outside history (f c) S) :
    RaisesAfter outside before (cs.mapM f) S := by
  induction cs generalizing before with
  | nil => exact Raises.pure _ before
  | cons c cs ih =>
      rw [List.mapM_cons]
      refine RaisesAfter.bind (h c before (.head c cs before)) fun b hb => ?_
      exact RaisesAfter.bind (ih fun d history hd => h d history (.tail hb hd))
        fun bs _ => Raises.pure _ _

/-- The calls that have been made when a traversal comes to its item number `n`. -/
def callsBefore (f : γ → Calling W E β) : List γ → List W → ℕ → List W
  | [], before, _ => before
  | _ :: _, before, 0 => before
  | c :: cs, before, n + 1 => callsBefore f cs (before ++ (f c before).entries) n

/-- What a traversal returns is found item by item, each after the calls before it. -/
theorem result_mapM
    (f : γ → Calling W E β)
    (default : γ)
    (cs : List γ)
    (before : List W) :
    (cs.mapM f before).result =
      (List.range cs.length).mapM fun n =>
        (f (cs.getD n default) (callsBefore f cs before n)).result := by
  induction cs generalizing before with
  | nil => rfl
  | cons c cs ih =>
      rw [List.mapM_cons, List.length_cons, List.range_succ_eq_map, List.mapM_cons, List.mapM_map]
      change _ = (f c before).result >>= fun b => _
      cases hc : (f c before).result with
      | error error =>
          rw [bind_of_error hc]
          rfl
      | ok b =>
          rw [bind_of_ok hc, bind_pure_apply, ih]
          rfl

/-- At most one item that a traversal comes to does not return. -/
theorem Reaches.unique
    {cs : List γ}
    {before history history' : List W}
    {d d' : γ}
    {error error' : E}
    (h : Reaches f cs before d history)
    (herror : (f d history).result = .error error)
    (h' : Reaches f cs before d' history')
    (herror' : (f d' history').result = .error error') :
    d = d' ∧ history = history' := by
  induction h with
  | head =>
      cases h' with
      | head => exact ⟨rfl, rfl⟩
      | tail hok _ => cases herror.symm.trans hok
  | tail hok _ ih =>
      cases h' with
      | head => cases herror'.symm.trans hok
      | tail _ hd => exact ih herror hd

end Traversal

end Calling
