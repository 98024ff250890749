import YamlAgno.Library.Substitution

/-!
# Templates cut at their tokens, and what a replacement leaves of them

`cut` divides a text at the matches of a pattern.  A match begins with a mark that is not in
the rest of it, so none begins inside another, and the tokens of a cut text are all the places
at which the pattern matches (`tokens_cut`).

A *tracked* text says of each character whether it still stands in a token of the template.
The replacements of a loop are run on it as on the text itself (`forget_replaceInOrder`); what
they put in is tracked as text that is in no token.  A replacement leaves the other tokens
that stand as they are, so a loop over all tokens leaves nothing of any of them, whatever the
values are (`replaceInOrderTracked_unmarked`).
-/

namespace Substitution

/-! ## Matches at the places of a text -/

theorem infix_iff_exists_tail
    {w template : List Char} :
    w <:+: template ↔ ∃ rest ∈ template.tails, w <+: rest := by
  rw [List.infix_iff_prefix_suffix]
  constructor
  · rintro ⟨rest, hw, hrest⟩
    exact ⟨rest, (List.mem_tails rest template).mpr hrest, hw⟩
  · rintro ⟨rest, hrest, hw⟩
    exact ⟨rest, hw, (List.mem_tails rest template).mp hrest⟩

/-- Two lists of the matches at the same places, one of which has all that the other has, are
equal when the matches are. -/
theorem filterMap_eq_iff
    {α β : Type}
    {f g : α → Option β}
    (hle : ∀ a b, g a = some b → f a = some b)
    (l : List α) :
    l.filterMap f = l.filterMap g ↔ ∀ a ∈ l, f a = g a := by
  refine ⟨fun h => ?_, List.filterMap_congr⟩
  have hsublist : ∀ l : List α, (l.filterMap g).Sublist (l.filterMap f) := by
    intro l
    induction l with
    | nil => exact List.Sublist.refl _
    | cons a l ih =>
        cases hg : g a with
        | some b =>
            rw [List.filterMap_cons_some hg, List.filterMap_cons_some (hle a b hg)]
            exact ih.cons_cons b
        | none =>
            rw [List.filterMap_cons_none hg, List.filterMap_cons]
            split
            · exact ih
            · exact ih.cons _
  induction l with
  | nil => simp
  | cons a l ih =>
      cases hg : g a with
      | some b =>
          have hf := hle a b hg
          rw [List.filterMap_cons_some hg, List.filterMap_cons_some hf, List.cons.injEq] at h
          exact List.forall_mem_cons.mpr ⟨hf.trans hg.symm, ih h.2⟩
      | none =>
          cases hf : f a with
          | none =>
              rw [List.filterMap_cons_none hg, List.filterMap_cons_none hf] at h
              exact List.forall_mem_cons.mpr ⟨hf.trans hg.symm, ih h⟩
          | some b =>
              -- One match more than the other list can have.
              rw [List.filterMap_cons_none hg, List.filterMap_cons_some hf] at h
              have hlength := (hsublist l).length_le
              rw [← h, List.length_cons] at hlength
              omega

/-! ## Cutting a text -/

section Cutting

variable {T : Type} (matcher : List Char → Option T) (text : T → List Char)

/-- A text, cut at the matches of a pattern; the counter skips what the last match covers. -/
def cut : ℕ → List Char → List (Piece T)
  | _, [] => []
  | skip + 1, _ :: cs => cut skip cs
  | 0, c :: cs =>
      match matcher (c :: cs) with
      | some t => .token t :: cut ((text t).length - 1) cs
      | none => .literal c :: cut 0 cs

/-- What a pattern matches is the text of the token, which the mark begins. -/
structure MatchesText (mark : Char) : Prop where
  starts : ∀ t, ∃ w, text t = mark :: w ∧ mark ∉ w
  prefix_of : ∀ cs t, matcher cs = some t → text t <+: cs

variable {matcher text} {mark : Char}

/-- No match begins in text without the mark. -/
theorem filterMap_tails_append
    (h : MatchesText matcher text mark)
    {w : List Char}
    (hw : mark ∉ w)
    (cs : List Char) :
    (w ++ cs).tails.filterMap matcher = cs.tails.filterMap matcher := by
  induction w with
  | nil =>
      rfl
  | cons c w ih =>
      have hnone : matcher (c :: (w ++ cs)) = none := by
        cases hmatch : matcher (c :: (w ++ cs)) with
        | none => rfl
        | some t =>
            obtain ⟨x, hx, -⟩ := h.starts t
            have hbegins := h.prefix_of _ t hmatch
            rw [hx] at hbegins
            exact absurd ((List.cons_prefix_cons.mp hbegins).1 ▸ List.mem_cons_self) hw
      rw [List.cons_append, List.tails_cons, List.filterMap_cons_none hnone]
      exact ih (fun hmem => hw (List.mem_cons_of_mem c hmem))

/-- The tokens of a cut text are the matches at all its places. -/
theorem tokens_cut
    (h : MatchesText matcher text mark)
    (skip : ℕ) (cs : List Char) :
    tokens (cut matcher text skip cs) = (cs.drop skip).tails.filterMap matcher := by
  have hempty : matcher [] = none := by
    cases hmatch : matcher [] with
    | none => rfl
    | some t =>
        obtain ⟨x, hx, -⟩ := h.starts t
        have hbegins := h.prefix_of [] t hmatch
        rw [hx] at hbegins
        exact absurd (List.prefix_nil.mp hbegins) (List.cons_ne_nil mark x)
  induction cs generalizing skip with
  | nil =>
      rw [List.drop_nil, List.tails, List.filterMap_cons_none hempty]
      cases skip <;> rfl
  | cons c cs ih =>
      cases skip with
      | succ skip => exact ih skip
      | zero =>
          rw [List.drop_zero, List.tails_cons, cut]
          cases hmatch : matcher (c :: cs) with
          | none =>
              rw [List.filterMap_cons_none hmatch]
              exact ih 0
          | some t =>
              rw [List.filterMap_cons_some hmatch]
              refine congrArg (t :: ·) ((ih _).trans ?_)
              -- The match covers a text without the mark.
              obtain ⟨w, hw, hmark⟩ := h.starts t
              obtain ⟨rest, hrest⟩ := h.prefix_of _ t hmatch
              rw [hw, List.cons_append] at hrest
              obtain ⟨-, rfl⟩ := List.cons.inj hrest
              rw [hw, List.length_cons, Nat.add_sub_cancel, List.drop_left]
              exact (filterMap_tails_append h hmark rest).symm

/-- Patterns that match alike at every place cut a text alike. -/
theorem cut_congr
    {matcher' : List Char → Option T}
    {cs : List Char}
    (h : ∀ rest, rest <:+ cs → matcher rest = matcher' rest)
    (skip : ℕ) :
    cut matcher text skip cs = cut matcher' text skip cs := by
  induction cs generalizing skip with
  | nil => cases skip <;> rfl
  | cons c cs ih =>
      have hrest := ih fun rest hrest => h rest (hrest.trans (List.suffix_cons c cs))
      cases skip with
      | succ skip => exact hrest skip
      | zero =>
          rw [cut, cut, h (c :: cs) (List.suffix_refl _)]
          cases matcher' (c :: cs) with
          | some t => exact congrArg (Piece.token t :: ·) (hrest _)
          | none => exact congrArg (Piece.literal c :: ·) (hrest 0)

end Cutting

/-! ## Tracked texts -/

section Tracking

variable {T : Type} {text value : T → List Char} {mark : Char}

/-- Forgets where the characters stand. -/
def forget (cs : List (Char × Bool)) : List Char :=
  cs.map Prod.fst

/-- A text that is marked throughout. -/
def markAll (marked : Bool) (cs : List Char) : List (Char × Bool) :=
  cs.map fun c => (c, marked)

/-- The template, with the characters of its tokens marked. -/
def track (text : T → List Char) (pieces : List (Piece T)) : List (Char × Bool) :=
  pieces.flatMap fun
    | .literal c => [(c, false)]
    | .token t => markAll true (text t)

/-- `PyText.replaceFrom` of a tracked text; what it puts in is unmarked. -/
def replaceTracked (old new : List Char) : ℕ → List (Char × Bool) → List (Char × Bool)
  | _, [] => []
  | skip + 1, _ :: cs => replaceTracked old new skip cs
  | 0, c :: cs =>
      if old <+: forget (c :: cs) then
        markAll false new ++ replaceTracked old new (old.length - 1) cs
      else c :: replaceTracked old new 0 cs

/-- `replaceInOrder` of a tracked text. -/
def replaceInOrderTracked
    (text value : T → List Char)
    (order : List T)
    (out : List (Char × Bool)) :
    List (Char × Bool) :=
  order.foldl (fun out t => replaceTracked (text t) (value t) 0 out) out

@[simp] theorem forget_markAll (marked : Bool) (cs : List Char) :
    forget (markAll marked cs) = cs := by
  simp [forget, markAll, Function.comp_def]

@[simp] theorem forget_append (cs ds : List (Char × Bool)) :
    forget (cs ++ ds) = forget cs ++ forget ds :=
  List.map_append

@[simp] theorem forget_cons (c : Char × Bool) (cs : List (Char × Bool)) :
    forget (c :: cs) = c.1 :: forget cs :=
  rfl

/-- A replacement in a tracked text is the replacement in the text. -/
theorem forget_replaceTracked
    (old new : List Char)
    (skip : ℕ) (cs : List (Char × Bool)) :
    forget (replaceTracked old new skip cs) = PyText.replaceFrom old new skip (forget cs) := by
  induction cs generalizing skip with
  | nil =>
      cases skip <;> rfl
  | cons c cs ih =>
      cases skip with
      | succ skip => exact ih skip
      | zero =>
          rw [replaceTracked, forget_cons, PyText.replaceFrom]
          by_cases hold : old <+: c.1 :: forget cs
          · rw [if_pos hold, if_pos hold, forget_append, forget_markAll, ih]
          · rw [if_neg hold, if_neg hold, forget_cons, ih]

theorem forget_replaceInOrder
    (text value : T → List Char)
    (order : List T)
    (out : List (Char × Bool)) :
    forget (replaceInOrderTracked text value order out) =
      replaceInOrder text value order (forget out) := by
  induction order generalizing out with
  | nil => rfl
  | cons t order ih =>
      rw [replaceInOrderTracked, replaceInOrder, List.foldl_cons, List.foldl_cons,
        ← forget_replaceTracked]
      exact ih _

theorem track_cons (piece : Piece T) (pieces : List (Piece T)) :
    track text (piece :: pieces) = track text [piece] ++ track text pieces := by
  simp [track]

/-- Cutting a text loses nothing. -/
theorem forget_track_cut
    {matcher : List Char → Option T}
    (h : MatchesText matcher text mark)
    (skip : ℕ) (cs : List Char) :
    forget (track text (cut matcher text skip cs)) = cs.drop skip := by
  induction cs generalizing skip with
  | nil => cases skip <;> rfl
  | cons c cs ih =>
      cases skip with
      | succ skip => exact ih skip
      | zero =>
          rw [cut, List.drop_zero]
          cases hmatch : matcher (c :: cs) with
          | none =>
              rw [track_cons, forget_append]
              exact congrArg (c :: ·) (ih 0)
          | some t =>
              obtain ⟨rest, hrest⟩ := h.prefix_of _ t hmatch
              obtain ⟨w, hw, -⟩ := h.starts t
              have htoken : forget (track text [.token t]) = text t := by
                simp [track]
              rw [track_cons, forget_append, htoken, ih, ← hrest]
              rw [hw, List.cons_append] at hrest
              obtain ⟨-, rfl⟩ := List.cons.inj hrest
              rw [hw, List.length_cons, Nat.add_sub_cancel, List.drop_left]

/-- A piece with another type of tokens. -/
def Piece.map {U : Type} (f : U → T) : Piece U → Piece T
  | literal c => literal c
  | token u => token (f u)

theorem track_map
    {U : Type}
    {text' : U → List Char}
    {f : U → T}
    {pieces : List (Piece U)}
    (h : ∀ u, .token u ∈ pieces → text (f u) = text' u) :
    track text (pieces.map (Piece.map f)) = track text' pieces := by
  rw [track, track, List.flatMap_map]
  refine List.flatMap_congr fun piece hpiece => ?_
  cases piece with
  | literal c => rfl
  | token u => exact congrArg (markAll true) (h u hpiece)

/-! ## What a replacement leaves -/

/-- Characters at which no occurrence begins are kept. -/
theorem replaceTracked_append
    {old new : List Char}
    {part rest : List (Char × Bool)}
    (h : ∀ v, v ≠ [] → v <:+ part → ¬ old <+: forget (v ++ rest)) :
    replaceTracked old new 0 (part ++ rest) = part ++ replaceTracked old new 0 rest := by
  induction part with
  | nil => rfl
  | cons c part ih =>
      have hhead : ¬ old <+: forget (c :: (part ++ rest)) :=
        h (c :: part) (List.cons_ne_nil c part) (List.suffix_refl _)
      rw [List.cons_append, replaceTracked, if_neg hhead,
        ih (fun v hne hv => h v hne (hv.trans (List.suffix_cons c part)))]
      rfl

/-- The counter skips the characters that it counts. -/
theorem replaceTracked_skip
    {old new : List Char}
    (skipped rest : List (Char × Bool)) :
    replaceTracked old new skipped.length (skipped ++ rest) = replaceTracked old new 0 rest := by
  induction skipped with
  | nil => rfl
  | cons c skipped ih => exact ih

/-- Text without the mark that a template begins with is outside its tokens. -/
theorem literal_of_begins
    (hmarked : Marked text mark)
    {w : List Char}
    (hw : mark ∉ w)
    {pieces : List (Piece T)}
    (h : w <+: forget (track text pieces)) :
    ∀ piece ∈ pieces.take w.length, ∃ c, piece = .literal c := by
  induction pieces generalizing w with
  | nil => simp
  | cons piece pieces ih =>
      cases w with
      | nil => simp
      | cons c w =>
          rw [track_cons, forget_append] at h
          cases piece with
          | literal c' =>
              have hrest : w <+: forget (track text pieces) := (List.cons_prefix_cons.mp h).2
              intro piece hpiece
              rcases List.mem_cons.mp hpiece with rfl | hpiece
              · exact ⟨c', rfl⟩
              · exact ih (fun hmem => hw (List.mem_cons_of_mem c hmem)) hrest piece hpiece
          | token u =>
              obtain ⟨x, hx, -⟩ := hmarked.starts u
              have htoken : forget (track text [.token u]) = mark :: x := by
                simp [track, hx]
              rw [htoken, List.cons_append] at h
              exact absurd ((List.cons_prefix_cons.mp h).1 ▸ List.mem_cons_self) hw

/-- The mark of a token begins no other token, and no token begins after it. -/
theorem replaceTracked_other
    (hmarked : Marked text mark)
    {t u : T}
    (hne : u ≠ t)
    (new : List Char)
    (rest : List (Char × Bool)) :
    replaceTracked (text t) new 0 (markAll true (text u) ++ rest) =
      markAll true (text u) ++ replaceTracked (text t) new 0 rest := by
  obtain ⟨w, ht, -⟩ := hmarked.starts t
  obtain ⟨x, hu, hx⟩ := hmarked.starts u
  refine replaceTracked_append fun v hv hsuffix hbegins => ?_
  rw [hu] at hsuffix
  rcases List.suffix_cons_iff.mp hsuffix with hwhole | hinside
  · rw [hwhole, forget_append] at hbegins
    have htext : forget ((mark, true) :: x.map fun c => (c, true)) = text u := by
      rw [hu]
      exact forget_markAll true (mark :: x)
    rw [htext] at hbegins
    exact hne (hmarked.eq_of_begins t u _ hbegins).symm
  · cases v with
    | nil => exact hv rfl
    | cons c v =>
        rw [ht, List.cons_append, forget_cons, List.cons_prefix_cons] at hbegins
        obtain ⟨d, hd, rfl⟩ := List.mem_map.mp (hinside.subset List.mem_cons_self)
        exact hx (hbegins.1 ▸ hd)

/-- The token itself is replaced. -/
theorem replaceTracked_own
    (hmarked : Marked text mark)
    (t : T) (new : List Char)
    (rest : List (Char × Bool)) :
    replaceTracked (text t) new 0 (markAll true (text t) ++ rest) =
      markAll false new ++ replaceTracked (text t) new 0 rest := by
  obtain ⟨w, ht, -⟩ := hmarked.starts t
  have hbegins : text t <+: forget (markAll true (text t) ++ rest) := by
    rw [forget_append, forget_markAll]
    exact List.prefix_append _ _
  have hmarks : markAll true (text t) = (mark, true) :: markAll true w := by
    rw [ht]
    rfl
  have hlength : (text t).length - 1 = (markAll true w).length := by
    rw [ht]
    simp [markAll]
  rw [hmarks, List.cons_append] at hbegins ⊢
  rw [replaceTracked, if_pos hbegins, hlength, replaceTracked_skip]

/--
A replacement takes its token out of a tracked template, wherever it stands, and leaves the
other ones.
-/
theorem exists_track_of_replaceTracked
    (hmarked : Marked text mark)
    (t : T) (new : List Char)
    {skip : ℕ} {pieces : List (Piece T)}
    (hskip : ∀ piece ∈ pieces.take skip, ∃ c, piece = .literal c) :
    ∃ pieces', replaceTracked (text t) new skip (track text pieces) = track text pieces' ∧
      ∀ u, .token u ∈ pieces' → .token u ∈ pieces ∧ u ≠ t := by
  obtain ⟨w, ht, hw⟩ := hmarked.starts t
  have hnew : ∀ pieces', track text (new.map Piece.literal ++ pieces') =
      markAll false new ++ track text pieces' := by
    intro pieces'
    simp [track, markAll, List.flatMap_map, ← List.map_eq_flatMap]
  have hfilled : ∀ {u : T} {pieces' : List (Piece T)},
      .token u ∈ new.map Piece.literal ++ pieces' → .token u ∈ pieces' := by
    intro u pieces' hmem
    simpa using hmem
  induction pieces generalizing skip with
  | nil => exact ⟨[], by cases skip <;> rfl, by simp⟩
  | cons piece pieces ih =>
      cases skip with
      | succ skip =>
          -- A skipped piece is a single character.
          obtain ⟨c, rfl⟩ := hskip piece (by simp)
          obtain ⟨pieces', heq, hmem⟩ :=
            ih (fun piece hpiece => hskip piece (List.mem_cons_of_mem _ hpiece))
          exact ⟨pieces', heq, fun u hu => (hmem u hu).imp (List.mem_cons_of_mem _) id⟩
      | zero =>
          obtain ⟨pieces', heq, hmem⟩ := @ih 0 (by simp)
          cases piece with
          | literal c =>
              by_cases hbegins : text t <+: c :: forget (track text pieces)
              · have hrest : w <+: forget (track text pieces) := by
                  rw [ht] at hbegins
                  exact (List.cons_prefix_cons.mp hbegins).2
                obtain ⟨pieces'', heq', hmem'⟩ :=
                  ih (literal_of_begins hmarked hw hrest)
                refine ⟨new.map .literal ++ pieces'', ?_, fun u hu =>
                  (hmem' u (hfilled hu)).imp (List.mem_cons_of_mem _) id⟩
                rw [hnew, ← heq']
                have hlength : (text t).length - 1 = w.length := by
                  rw [ht]
                  rfl
                rw [← hlength]
                exact if_pos hbegins
              · refine ⟨.literal c :: pieces', ?_, fun u hu => ?_⟩
                · rw [track_cons (.literal c) pieces', ← heq]
                  exact if_neg hbegins
                · rcases List.mem_cons.mp hu with hu | hu
                  · cases hu
                  · exact (hmem u hu).imp (List.mem_cons_of_mem _) id
          | token u =>
              have htrack : track text (.token u :: pieces) =
                  markAll true (text u) ++ track text pieces := by
                rw [track_cons]
                simp [track]
              rw [htrack]
              by_cases hut : u = t
              · subst hut
                refine ⟨new.map .literal ++ pieces', ?_, fun u hu =>
                  (hmem u (hfilled hu)).imp (List.mem_cons_of_mem _) id⟩
                rw [replaceTracked_own hmarked, hnew, heq]
              · refine ⟨.token u :: pieces', ?_, fun v hv => ?_⟩
                · rw [replaceTracked_other hmarked hut, heq, track_cons (.token u) pieces']
                  simp [track]
                · rcases List.mem_cons.mp hv with hv | hv
                  · cases hv
                    exact ⟨List.mem_cons_self, hut⟩
                  · exact (hmem v hv).imp (List.mem_cons_of_mem _) id

/-- A loop over the tokens of a template, and others, leaves nothing of them in place. -/
theorem replaceInOrderTracked_unmarked
    (hmarked : Marked text mark)
    {order : List T} {pieces : List (Piece T)}
    (h : ∀ t, .token t ∈ pieces → t ∈ order) :
    ∀ c ∈ replaceInOrderTracked text value order (track text pieces), c.2 = false := by
  induction order generalizing pieces with
  | nil =>
      intro c hc
      obtain ⟨piece, hpiece, hc⟩ := List.mem_flatMap.mp hc
      cases piece with
      | literal c' =>
          rw [List.mem_singleton.mp hc]
      | token t => cases h t hpiece
  | cons t order ih =>
      have hskip : ∀ piece ∈ pieces.take 0, ∃ c, piece = .literal c := by simp
      obtain ⟨pieces', heq, hmem⟩ := exists_track_of_replaceTracked hmarked t (value t) hskip
      rw [replaceInOrderTracked, List.foldl_cons, heq]
      refine ih fun u hu => ?_
      obtain ⟨hpieces, hne⟩ := hmem u hu
      exact (List.mem_cons.mp (h u hpieces)).resolve_left hne

end Tracking

end Substitution
