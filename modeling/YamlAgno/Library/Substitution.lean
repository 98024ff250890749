import YamlAgno.Library.PyText
import Mathlib.Data.List.Infix
import Mathlib.Data.List.Perm.Basic

/-!
# One replacement after the other, and all at once

A template is a list of characters and tokens.  To *substitute* is to put the value of each
token in its place in one pass.  The other way is a loop that replaces the text of one token
after the other in the text that has come of the replacements before.

The two agree as long as the loop only ever meets the tokens of the template.  A token
begins with a mark that nothing else in it is (`Marked`), so an occurrence of its text never
runs into a token that still stands; it is the template's own, or lies in a *stretch* of the
template that has been filled in (`exists_stretch`).

`simultaneous_iff_independent` is about every order of the tokens: the loop replaces the
template's own tokens and no other text, in each order, exactly when no filled stretch reads
as a token, but for a stretch with the only occurrence of that token in it.
-/

namespace Substitution

/-- A character of a template, or a token. -/
inductive Piece (T : Type) where
  | literal (c : Char)
  | token (t : T)
deriving DecidableEq

section Occurrences

variable {old new : List Char}

/-- The number of places at which `old` stands in a text. -/
def occurrences (old : List Char) : List Char → ℕ
  | [] => 0
  | c :: cs => (if old <+: c :: cs then 1 else 0) + occurrences old cs

/-- What stands in two parts stands in the whole. -/
theorem occurrences_append_le (cs ds : List Char) :
    occurrences old cs + occurrences old ds ≤ occurrences old (cs ++ ds) := by
  induction cs with
  | nil =>
      rw [List.nil_append, occurrences, Nat.zero_add]
  | cons c cs ih =>
      rw [List.cons_append, occurrences, occurrences]
      by_cases h : old <+: c :: cs
      · have hwhole : old <+: c :: (cs ++ ds) := by
          rw [← List.cons_append]
          exact h.trans (List.prefix_append _ _)
        rw [if_pos h, if_pos hwhole]
        omega
      · rw [if_neg h]
        omega

theorem one_le_occurrences
    {cs : List Char}
    (hne : old ≠ [])
    (h : old <:+: cs) :
    1 ≤ occurrences old cs := by
  obtain ⟨front, back, rfl⟩ := h
  have hself : 1 ≤ occurrences old old := by
    cases old with
    | nil => exact absurd rfl hne
    | cons c cs =>
        rw [occurrences, if_pos List.prefix_rfl]
        omega
  have hfront : occurrences old front + occurrences old old ≤ occurrences old (front ++ old) :=
    occurrences_append_le front old
  have hwhole : occurrences old (front ++ old) + occurrences old back ≤
      occurrences old (front ++ old ++ back) :=
    occurrences_append_le (front ++ old) back
  omega

/-- A part of a text in which no occurrence begins is kept. -/
theorem replaceFrom_append
    (new : List Char)
    {part rest : List Char}
    (h : ∀ v, v ≠ [] → v <:+ part → ¬ old <+: v ++ rest) :
    PyText.replaceFrom old new 0 (part ++ rest) = part ++ PyText.replaceFrom old new 0 rest ∧
      occurrences old (part ++ rest) = occurrences old rest := by
  induction part with
  | nil =>
      exact ⟨rfl, rfl⟩
  | cons c part ih =>
      have hhead : ¬ old <+: c :: (part ++ rest) :=
        h (c :: part) (List.cons_ne_nil c part) (List.suffix_refl _)
      obtain ⟨hreplace, hcount⟩ :=
        ih (fun v hne hv => h v hne (hv.trans (List.suffix_cons c part)))
      rw [List.cons_append, PyText.replaceFrom, if_neg hhead, hreplace, occurrences,
        if_neg hhead, hcount, Nat.zero_add]
      exact ⟨rfl, rfl⟩

/-- The counter skips the characters that it counts. -/
theorem replaceFrom_skip (skipped rest : List Char) :
    PyText.replaceFrom old new skipped.length (skipped ++ rest) =
      PyText.replaceFrom old new 0 rest := by
  induction skipped with
  | nil =>
      rfl
  | cons c skipped ih =>
      exact ih

/-- A text that begins with a mark which it has nowhere else is replaced where it stands, if it
stands nowhere else. -/
theorem replaceFrom_once
    {mark : Char}
    {w front back : List Char}
    (hw : mark ∉ w)
    (hfront : ¬ mark :: w <:+: front)
    (hback : ¬ mark :: w <:+: back)
    (new : List Char) :
    PyText.replaceFrom (mark :: w) new 0 (front ++ (mark :: w ++ back)) =
      front ++ (new ++ back) := by
  have hkept : ∀ v, v ≠ [] → v <:+ front → ¬ mark :: w <+: v ++ (mark :: w ++ back) := by
    intro v hne hv hbegins
    have hnot : ¬ mark :: w <+: v := fun h => hfront (h.isInfix.trans hv.isInfix)
    -- The occurrence begins in `v` and runs into the one that stands there.
    obtain ⟨rest, hrest⟩ := hbegins
    rcases List.append_eq_append_iff.mp hrest with ⟨m, hm, -⟩ | ⟨m, hm, hm'⟩
    · exact hnot ⟨m, hm.symm⟩
    · cases v with
      | nil => exact hne rfl
      | cons c v =>
          cases m with
          | nil => exact hnot ⟨[], by rw [hm, List.append_nil, List.append_nil]⟩
          | cons d m =>
              simp only [List.cons_append, List.cons.injEq] at hm hm'
              rw [hm.2, ← hm'.1] at hw
              simp at hw
  have hrest : ∀ v, v ≠ [] → v <:+ back → ¬ mark :: w <+: v ++ [] := by
    intro v _ hv hbegins
    rw [List.append_nil] at hbegins
    exact hback (hbegins.isInfix.trans hv.isInfix)
  have hlast := (replaceFrom_append new hrest).1
  rw [List.append_nil] at hlast
  have hhere : mark :: w <+: mark :: (w ++ back) := List.prefix_append (mark :: w) back
  rw [(replaceFrom_append new hkept).1, List.cons_append, PyText.replaceFrom, if_pos hhere,
    List.length_cons, Nat.add_sub_cancel, replaceFrom_skip, hlast, PyText.replaceFrom,
    List.append_nil]

end Occurrences

/-! ## Templates -/

section Templates

variable {T : Type} [DecidableEq T] (text value : T → List Char)

/-- Tokens begin with a mark that does not occur in the rest of them, and none begins
another one. -/
structure Marked (mark : Char) : Prop where
  starts : ∀ t, ∃ w, text t = mark :: w ∧ mark ∉ w
  eq_of_begins : ∀ t u rest, text t <+: text u ++ rest → t = u

/-- The tokens of a template, in order. -/
def tokens (pieces : List (Piece T)) : List T :=
  pieces.filterMap fun
    | .literal _ => none
    | .token t => some t

/-- The template with the values of the tokens in `done` in place. -/
def fill (done : List T) (pieces : List (Piece T)) : List Char :=
  pieces.flatMap fun
    | .literal c => [c]
    | .token t => if t ∈ done then value t else text t

/-- The template with each token replaced by its value, in one pass. -/
def substitute (pieces : List (Piece T)) : List Char :=
  pieces.flatMap fun
    | .literal c => [c]
    | .token t => value t

/-- Replaces the texts of the tokens one after the other. -/
def replaceInOrder (order : List T) (out : List Char) : List Char :=
  order.foldl (fun out t => PyText.replaceFrom (text t) (value t) 0 out) out

/-- How often a token still stands in the template. -/
def remaining (done : List T) (pieces : List (Piece T)) (t : T) : ℕ :=
  if t ∈ done then 0 else pieces.count (.token t)

/-- Each replacement finds the token exactly where the template still has it. -/
def OnlyOwn (pieces : List (Piece T)) : List T → List T → List Char → Prop
  | _, [], _ => True
  | done, t :: order, out =>
      occurrences (text t) out = remaining done pieces t ∧
        OnlyOwn pieces (t :: done) order (PyText.replaceFrom (text t) (value t) 0 out)

/-- In whatever order the tokens are replaced, the outcome is that of the one pass, and
nothing but tokens of the template is replaced. -/
def Simultaneous (pieces : List (Piece T)) : Prop :=
  ∀ order, order.Perm (tokens pieces) →
    replaceInOrder text value order (fill text value [] pieces) = substitute value pieces ∧
      OnlyOwn text value pieces [] order (fill text value [] pieces)

/-- No filled stretch of the template reads as a token, but for the place of the only
occurrence of that token. -/
def Independent (pieces : List (Piece T)) : Prop :=
  ∀ t ∈ tokens pieces, ∀ stretch, stretch <:+: pieces →
    text t <:+: substitute value stretch →
      .token t ∈ stretch ∧ pieces.count (.token t) = 1

/-- The stretches of a template are finitely many, and a text can be searched for another. -/
instance decidableIndependent (pieces : List (Piece T)) :
    Decidable (Independent text value pieces) :=
  decidable_of_iff
    (∀ t ∈ tokens pieces, ∀ rest ∈ pieces.tails, ∀ stretch ∈ rest.inits,
      text t <:+: substitute value stretch →
        .token t ∈ stretch ∧ pieces.count (.token t) = 1)
    (forall₂_congr fun t _ => by
      constructor
      · intro h stretch hstretch
        obtain ⟨rest, hbegins, hends⟩ := List.infix_iff_prefix_suffix.mp hstretch
        exact h rest ((List.mem_tails _ _).mpr hends) stretch ((List.mem_inits _ _).mpr hbegins)
      · intro h rest hrest stretch hstretch
        exact h stretch (List.infix_iff_prefix_suffix.mpr
          ⟨rest, (List.mem_inits _ _).mp hstretch, (List.mem_tails _ _).mp hrest⟩))

/-- A token can be read in a stretch that has been filled in. -/
def Foreign (done : List T) (t : T) (pieces : List (Piece T)) : Prop :=
  ∃ stretch, stretch <:+: pieces ∧ (∀ u, .token u ∈ stretch → u ∈ done) ∧
    text t <:+: substitute value stretch

variable {text value} {done : List T} {t : T} {pieces : List (Piece T)}

omit [DecidableEq T] in
theorem mem_tokens_iff :
    t ∈ tokens pieces ↔ .token t ∈ pieces := by
  rw [tokens, List.mem_filterMap]
  constructor
  · rintro ⟨piece, hpiece, ht⟩
    cases piece with
    | literal c => cases ht
    | token u =>
        cases ht
        exact hpiece
  · intro h
    exact ⟨.token t, h, rfl⟩

theorem count_tokens (t : T) (pieces : List (Piece T)) :
    (tokens pieces).count t = pieces.count (.token t) := by
  induction pieces with
  | nil =>
      rfl
  | cons piece pieces ih =>
      cases piece with
      | literal c =>
          have htokens : tokens (.literal c :: pieces) = tokens pieces := rfl
          rw [htokens, ih, List.count_cons_of_ne (by simp)]
      | token u =>
          have htokens : tokens (.token u :: pieces) = u :: tokens pieces := rfl
          rw [htokens, List.count_cons, List.count_cons, ih]
          simp

/-- A template whose tokens are all done has been substituted. -/
theorem fill_eq_substitute
    (h : ∀ u, .token u ∈ pieces → u ∈ done) :
    fill text value done pieces = substitute value pieces := by
  rw [fill, substitute, List.flatMap_congr]
  intro piece hpiece
  cases piece with
  | literal c => rfl
  | token u => exact if_pos (h u hpiece)

omit [DecidableEq T] in
/-- A stretch of the rest is a stretch of the template. -/
theorem Foreign.of_cons
    {piece : Piece T}
    (h : Foreign text value done t pieces) :
    Foreign text value done t (piece :: pieces) := by
  obtain ⟨stretch, hstretch, hdone, hreads⟩ := h
  exact ⟨stretch, hstretch.trans (List.suffix_cons piece pieces).isInfix, hdone, hreads⟩

variable {mark : Char}

omit [DecidableEq T] in
/-- What a text begins with ends in its first part, or goes on in the second. -/
theorem begins_append
    {w v rest : List Char}
    (h : w <+: v ++ rest) :
    w <+: v ∨ ∃ w', w = v ++ w' ∧ w' <+: rest := by
  rcases List.prefix_or_prefix_of_prefix h (List.prefix_append v rest) with hle | ⟨w', rfl⟩
  · exact .inl hle
  · exact .inr ⟨w', rfl, (List.prefix_append_right_inj v).mp h⟩

/-- Text without the mark that a filled template begins with ends in a stretch that has been
filled in. -/
theorem exists_stretch
    (hmarked : Marked text mark)
    {w : List Char}
    (hw : mark ∉ w)
    (h : w <+: fill text value done pieces) :
    ∃ stretch, stretch <+: pieces ∧ (∀ u, .token u ∈ stretch → u ∈ done) ∧
      w <+: substitute value stretch := by
  induction pieces generalizing w with
  | nil =>
      exact ⟨[], List.nil_prefix, by simp, h⟩
  | cons piece pieces ih =>
      cases w with
      | nil =>
          exact ⟨[], List.nil_prefix, by simp, List.nil_prefix⟩
      | cons c w =>
          cases piece with
          | literal c' =>
              obtain ⟨rfl, hrest⟩ := List.cons_prefix_cons.mp h
              obtain ⟨stretch, hstretch, hdone, hreads⟩ :=
                ih (fun hmem => hw (List.mem_cons_of_mem c hmem)) hrest
              exact ⟨.literal c :: stretch, List.cons_prefix_cons.mpr ⟨rfl, hstretch⟩,
                by simpa using hdone, List.cons_prefix_cons.mpr ⟨rfl, hreads⟩⟩
          | token u =>
              have hfill : fill text value done (.token u :: pieces) =
                  (if u ∈ done then value u else text u) ++ fill text value done pieces := rfl
              rw [hfill] at h
              by_cases hu : u ∈ done
              · rw [if_pos hu] at h
                rcases begins_append h with hle | ⟨w', heq, hrest⟩
                · refine ⟨[.token u], List.cons_prefix_cons.mpr ⟨rfl, List.nil_prefix⟩, ?_, ?_⟩
                  · simpa using hu
                  · simpa [substitute] using hle
                · rw [heq] at hw ⊢
                  obtain ⟨stretch, hstretch, hdone, hreads⟩ :=
                    ih (fun hmem => hw (List.mem_append_right (value u) hmem)) hrest
                  refine ⟨.token u :: stretch, List.cons_prefix_cons.mpr ⟨rfl, hstretch⟩, ?_,
                    (List.prefix_append_right_inj (value u)).mpr hreads⟩
                  simpa [hu] using hdone
              · -- The token still stands, and begins with the mark.
                obtain ⟨x, hx, -⟩ := hmarked.starts u
                rw [if_neg hu, hx, List.cons_append, List.cons_prefix_cons] at h
                exact absurd (h.1 ▸ List.mem_cons_self) hw

/-- An occurrence that begins in filled text makes the token foreign. -/
theorem foreign_of_occurrence
    (hmarked : Marked text mark)
    {piece : Piece T} {part v : List Char}
    (hpart : ∀ stretch, substitute value (piece :: stretch) = part ++ substitute value stretch)
    (hpiece : ∀ u, piece = .token u → u ∈ done)
    (hv : v ≠ []) (hsuffix : v <:+ part)
    (h : text t <+: v ++ fill text value done pieces) :
    Foreign text value done t (piece :: pieces) := by
  obtain ⟨w, ht, hw⟩ := hmarked.starts t
  cases v with
  | nil => exact absurd rfl hv
  | cons c v =>
      rw [ht, List.cons_append, List.cons_prefix_cons] at h
      obtain ⟨rfl, hrest⟩ := h
      have hstretch : ∃ stretch, stretch <+: pieces ∧ (∀ u, .token u ∈ stretch → u ∈ done) ∧
          w <+: v ++ substitute value stretch := by
        rcases begins_append hrest with hle | ⟨w', rfl, hover⟩
        · exact ⟨[], List.nil_prefix, by simp, hle.trans (List.prefix_append v _)⟩
        · obtain ⟨stretch, hstretch, hdone, hreads⟩ :=
            exists_stretch hmarked (fun hmem => hw (List.mem_append_right v hmem)) hover
          exact ⟨stretch, hstretch, hdone, (List.prefix_append_right_inj v).mpr hreads⟩
      obtain ⟨stretch, hstretch, hdone, hreads⟩ := hstretch
      refine ⟨piece :: stretch,
        (List.cons_prefix_cons.mpr ⟨rfl, hstretch⟩ : _ <+: piece :: pieces).isInfix, ?_, ?_⟩
      · intro u hu
        rcases List.mem_cons.mp hu with hu | hu
        · exact hpiece u hu.symm
        · exact hdone u hu
      · obtain ⟨front, rfl⟩ := hsuffix
        rw [hpart, ht, List.append_assoc]
        have hbegins : mark :: w <+: mark :: v ++ substitute value stretch :=
          List.cons_prefix_cons.mpr ⟨rfl, hreads⟩
        exact hbegins.isInfix.trans (List.suffix_append front _).isInfix

/-- Where the token is not foreign, replacing it fills in its value and nothing else. -/
theorem replaceFrom_fill
    (hmarked : Marked text mark)
    (h : ¬ Foreign text value done t pieces) :
    PyText.replaceFrom (text t) (value t) 0 (fill text value done pieces) =
        fill text value (t :: done) pieces ∧
      occurrences (text t) (fill text value done pieces) = remaining done pieces t := by
  obtain ⟨w, ht, hw⟩ := hmarked.starts t
  induction pieces with
  | nil =>
      simp [fill, remaining, PyText.replaceFrom, occurrences]
  | cons piece pieces ih =>
      obtain ⟨hreplace, hcount⟩ := ih (fun hforeign => h hforeign.of_cons)
      -- Nothing begins in a piece whose text is final.
      have hfinal : ∀ part : List Char,
          (∀ stretch, substitute value (piece :: stretch) = part ++ substitute value stretch) →
          (∀ u, piece = .token u → u ∈ done) →
          PyText.replaceFrom (text t) (value t) 0 (part ++ fill text value done pieces) =
              part ++ fill text value (t :: done) pieces ∧
            occurrences (text t) (part ++ fill text value done pieces) =
              remaining done pieces t := by
        intro part hpart hpiece
        have hbegins : ∀ v, v ≠ [] → v <:+ part →
            ¬ text t <+: v ++ fill text value done pieces := fun v hne hsuffix hbegins =>
          h (foreign_of_occurrence hmarked hpart hpiece hne hsuffix hbegins)
        obtain ⟨hkept, hsame⟩ := replaceFrom_append (value t) hbegins
        rw [hkept, hsame, hreplace, hcount]
        exact ⟨rfl, rfl⟩
      cases piece with
      | literal c =>
          have hremaining : remaining done (.literal c :: pieces) t = remaining done pieces t := by
            simp [remaining]
          rw [hremaining]
          exact hfinal [c] (fun _ => rfl) (fun u hu => by cases hu)
      | token u =>
          have hfill : ∀ done', fill text value done' (.token u :: pieces) =
              (if u ∈ done' then value u else text u) ++ fill text value done' pieces :=
            fun _ => rfl
          rw [hfill, hfill]
          by_cases hu : u ∈ done
          · have hremaining : remaining done (.token u :: pieces) t = remaining done pieces t := by
              by_cases htd : t ∈ done
              · simp [remaining, htd]
              · have hne : u ≠ t := fun heq => htd (heq ▸ hu)
                simp [remaining, htd, hne]
            rw [if_pos hu, if_pos (List.mem_cons_of_mem t hu), hremaining]
            exact hfinal (value u) (fun _ => rfl) (fun x hx => by cases hx; exact hu)
          · rw [if_neg hu]
            obtain ⟨x, hux, hx⟩ := hmarked.starts u
            -- No occurrence begins after the mark of the token that still stands.
            have hinside : ∀ v, v ≠ [] → v <:+ x →
                ¬ text t <+: v ++ fill text value done pieces := by
              intro v hne hsuffix hbegins
              cases v with
              | nil => exact hne rfl
              | cons c v =>
                  rw [ht, List.cons_append, List.cons_prefix_cons] at hbegins
                  exact hx (hbegins.1 ▸ hsuffix.subset List.mem_cons_self)
            have hkept := replaceFrom_append (value t) hinside
            by_cases htu : t = u
            · subst htu
              cases ht.symm.trans hux
              have hbegins : text t <+: mark :: (w ++ fill text value done pieces) := by
                rw [ht, ← List.cons_append]
                exact List.prefix_append _ _
              have hlength : (text t).length - 1 = w.length := by
                rw [ht]
                rfl
              have hremaining : remaining done (.token t :: pieces) t =
                  1 + remaining done pieces t := by
                simp [remaining, hu, Nat.add_comm]
              rw [if_pos List.mem_cons_self, hremaining, hux, List.cons_append,
                PyText.replaceFrom, occurrences, ← hux, if_pos hbegins, if_pos hbegins, hlength,
                replaceFrom_skip, hreplace, hkept.2, hcount]
              exact ⟨rfl, rfl⟩
            · have hnot : ¬ text t <+: mark :: (x ++ fill text value done pieces) := by
                intro hbegins
                rw [← List.cons_append, ← hux] at hbegins
                exact htu (hmarked.eq_of_begins t u _ hbegins)
              have hremaining : remaining done (.token u :: pieces) t =
                  remaining done pieces t := by
                simp [remaining, Ne.symm htu]
              have hnext : u ∉ t :: done := by
                simp [hu, Ne.symm htu]
              rw [if_neg hnext, hremaining, hux, List.cons_append, PyText.replaceFrom,
                occurrences, if_neg hnot, if_neg hnot, hkept.1, hkept.2, hreplace, hcount,
                Nat.zero_add]
              exact ⟨rfl, rfl⟩

theorem fill_append (pieces pieces' : List (Piece T)) :
    fill text value done (pieces ++ pieces') =
      fill text value done pieces ++ fill text value done pieces' :=
  List.flatMap_append

theorem remaining_append (done : List T) (pieces pieces' : List (Piece T)) (t : T) :
    remaining done (pieces ++ pieces') t = remaining done pieces t + remaining done pieces' t := by
  unfold remaining
  split
  · rfl
  · exact List.count_append

omit [DecidableEq T] in
theorem Marked.text_ne_nil
    (hmarked : Marked text mark)
    (t : T) :
    text t ≠ [] := by
  obtain ⟨w, hw, -⟩ := hmarked.starts t
  rw [hw]
  exact List.cons_ne_nil mark w

/-- The tokens that still stand are occurrences. -/
theorem remaining_le_occurrences
    (hmarked : Marked text mark)
    (done : List T) (pieces : List (Piece T)) (t : T) :
    remaining done pieces t ≤ occurrences (text t) (fill text value done pieces) := by
  induction pieces with
  | nil =>
      simp [remaining]
  | cons piece pieces ih =>
      rw [← List.singleton_append, remaining_append, fill_append]
      refine le_trans (Nat.add_le_add ?_ ih) (occurrences_append_le _ _)
      by_cases hown : t ∉ done ∧ piece = .token t
      · obtain ⟨ht, rfl⟩ := hown
        have hfill : fill text value done [.token t] = text t := by
          simp [fill, ht]
        have hone : remaining done [.token t] t = 1 := by
          simp [remaining, ht]
        rw [hone, hfill]
        exact one_le_occurrences (hmarked.text_ne_nil t) List.infix_rfl
      · have hzero : remaining done [piece] t = 0 := by
          by_cases ht : t ∈ done
          · exact if_pos ht
          · have hpiece : piece ≠ .token t := fun heq => hown ⟨ht, heq⟩
            simp [remaining, hpiece]
        rw [hzero]
        exact Nat.zero_le _

/-- A token that is foreign occurs more often than it should. -/
theorem not_foreign_of_occurrences
    (hmarked : Marked text mark)
    (h : occurrences (text t) (fill text value done pieces) = remaining done pieces t) :
    ¬ Foreign text value done t pieces := by
  rintro ⟨stretch, ⟨front, back, rfl⟩, hdone, hreads⟩
  have hstretch : remaining done stretch t = 0 := by
    by_cases ht : t ∈ done
    · exact if_pos ht
    · rw [remaining, if_neg ht]
      exact List.count_eq_zero_of_not_mem (fun hmem => ht (hdone t hmem))
  have hone := one_le_occurrences (hmarked.text_ne_nil t) hreads
  have hfilled : fill text value done stretch = substitute value stretch :=
    fill_eq_substitute hdone
  have hfront : remaining done front t ≤ occurrences (text t) (fill text value done front) :=
    remaining_le_occurrences hmarked done front t
  have hback : remaining done back t ≤ occurrences (text t) (fill text value done back) :=
    remaining_le_occurrences hmarked done back t
  rw [fill_append, fill_append, hfilled, remaining_append, remaining_append, hstretch] at h
  have hparts : occurrences (text t) (fill text value done front) +
      occurrences (text t) (substitute value stretch) ≤
        occurrences (text t) (fill text value done front ++ substitute value stretch) :=
    occurrences_append_le _ _
  have hwhole : occurrences (text t) (fill text value done front ++ substitute value stretch) +
      occurrences (text t) (fill text value done back) ≤
        occurrences (text t) (fill text value done front ++ substitute value stretch ++
          fill text value done back) :=
    occurrences_append_le _ _
  omega

/-! ## Every order -/

/-- With no token foreign when its turn comes, the loop does what the one pass does. -/
theorem replaceInOrder_fill
    (hmarked : Marked text mark)
    {order : List T}
    (hforeign : ∀ before t after, order = before ++ t :: after →
      ¬ Foreign text value (before.reverse ++ done) t pieces) :
    replaceInOrder text value order (fill text value done pieces) =
        fill text value (order.reverse ++ done) pieces ∧
      OnlyOwn text value pieces done order (fill text value done pieces) := by
  induction order generalizing done with
  | nil =>
      exact ⟨rfl, trivial⟩
  | cons t order ih =>
      have hnot : ¬ Foreign text value done t pieces := hforeign [] t order rfl
      obtain ⟨hreplace, hcount⟩ := replaceFrom_fill hmarked hnot
      have hlater : ∀ before u after, order = before ++ u :: after →
          ¬ Foreign text value (before.reverse ++ t :: done) u pieces := by
        intro before u after heq
        have hnot := hforeign (t :: before) u after (by rw [heq]; rfl)
        rwa [List.reverse_cons, List.append_assoc, List.singleton_append] at hnot
      have hrest := ih hlater
      rw [List.reverse_cons, List.append_assoc, List.singleton_append, ← hrest.1, ← hreplace]
      exact ⟨rfl, hcount, hreplace ▸ hrest.2⟩

/-- A loop that meets its own tokens only finds none of them foreign. -/
theorem not_foreign_of_onlyOwn
    (hmarked : Marked text mark)
    {order : List T} {t : T}
    (h : OnlyOwn text value pieces done (order ++ [t]) (fill text value done pieces)) :
    ¬ Foreign text value (order.reverse ++ done) t pieces := by
  induction order generalizing done with
  | nil =>
      exact not_foreign_of_occurrences hmarked h.1
  | cons u order ih =>
      obtain ⟨hcount, hrest⟩ := h
      have hnot := not_foreign_of_occurrences hmarked hcount
      rw [(replaceFrom_fill hmarked hnot).1] at hrest
      rw [List.reverse_cons, List.append_assoc]
      exact ih hrest

/--
The loop is the one pass in every order of the tokens, and replaces nothing but tokens of
the template, exactly when no filled stretch of the template reads as a token.
-/
theorem simultaneous_iff_independent
    (hmarked : Marked text mark)
    (pieces : List (Piece T)) :
    Simultaneous text value pieces ↔ Independent text value pieces := by
  constructor
  · intro h t ht stretch hstretch hreads
    by_contra hnot
    -- In this order `t` is replaced when every other token is done, and `t` too if it is
    -- there twice.
    have hperm : ((tokens pieces).erase t ++ [t]).Perm (tokens pieces) :=
      (List.perm_append_singleton t _).trans (List.perm_cons_erase ht).symm
    refine not_foreign_of_onlyOwn hmarked (h _ hperm).2 ⟨stretch, hstretch, ?_, hreads⟩
    intro u hu
    rw [List.append_nil, List.mem_reverse]
    have hmem : u ∈ tokens pieces := mem_tokens_iff.mpr (hstretch.subset hu)
    by_cases hut : u = t
    · subst hut
      have hcount : (tokens pieces).count u ≠ 1 := by
        rw [count_tokens]
        exact fun hone => hnot ⟨hu, hone⟩
      have hpos : 0 < (tokens pieces).count u := List.count_pos_iff.mpr hmem
      have herase : ((tokens pieces).erase u).count u = (tokens pieces).count u - 1 :=
        List.count_erase_self
      exact List.count_pos_iff.mp (by omega)
    · exact (List.mem_erase_of_ne hut).mpr hmem
  · intro h order hperm
    have hforeign : ∀ before t after, order = before ++ t :: after →
        ¬ Foreign text value (before.reverse ++ []) t pieces := by
      rintro before t after rfl ⟨stretch, hstretch, hdone, hreads⟩
      have ht : t ∈ tokens pieces :=
        hperm.mem_iff.mp (List.mem_append_right before List.mem_cons_self)
      obtain ⟨hmem, hone⟩ := h t ht stretch hstretch hreads
      have hbefore : t ∈ before := by
        simpa using hdone t hmem
      have hcount := hperm.count_eq t
      rw [count_tokens, hone, List.count_append, List.count_cons_self] at hcount
      have hpos := List.count_pos_iff.mpr hbefore
      omega
    have hloop := replaceInOrder_fill hmarked hforeign
    refine ⟨?_, hloop.2⟩
    rw [hloop.1, List.append_nil]
    exact fill_eq_substitute (fun u hu =>
      List.mem_reverse.mpr (hperm.mem_iff.mpr (mem_tokens_iff.mpr hu)))

end Templates

end Substitution
