import Mathlib.Data.List.Basic
import Mathlib.Data.List.DropRight

/-!
# Text at its separators and at its ends

Strings that carry two fields separated by one character, as Python's
`str.partition` reads them: everything before the first separator, and
everything after it.

The first field survives the trip exactly when it does not itself contain the
separator (`splitFirst_append_iff`); the second field is unrestricted.  When
the separator may occur in the first field, two different pairs of fields can
have the same joined text, and `append_sep_eq_iff` says which pairs do.

`strip` removes whitespace at both ends; a text stays as it is exactly when it
has none there (`strip_eq_self_iff`).
-/

namespace PyText

/-- Text before and after the first occurrence of the separator. -/
def splitFirst (sep : Char) : List Char → Option (List Char × List Char)
  | [] => none
  | c :: cs =>
      if c = sep then some ([], cs)
      else (splitFirst sep cs).map (fun p => (c :: p.1, p.2))

/-- A text splits exactly at its first separator. -/
theorem splitFirst_eq_some_iff
    (sep : Char) (s u v : List Char) :
    splitFirst sep s = some (u, v) ↔
      s = u ++ sep :: v ∧ sep ∉ u := by
  induction s generalizing u with
  | nil =>
      simp [splitFirst]
  | cons c cs ih =>
      by_cases hc : c = sep
      · subst hc
        cases u with
        | nil =>
            simp [splitFirst, eq_comm]
        | cons d u =>
            simp only [splitFirst, if_true, List.cons_append, List.cons.injEq]
            constructor
            · intro h
              simp at h
            · rintro ⟨⟨rfl, _⟩, hnot⟩
              simp at hnot
      · cases u with
        | nil =>
            simp [splitFirst, hc]
        | cons d u =>
            have hstep :
                splitFirst sep (c :: cs) = some (d :: u, v) ↔
                  c = d ∧ splitFirst sep cs = some (u, v) := by
              simp only [splitFirst, if_neg hc, Option.map_eq_some_iff,
                Prod.mk.injEq, List.cons.injEq]
              constructor
              · rintro ⟨⟨u', v'⟩, h, ⟨rfl, rfl⟩, rfl⟩
                exact ⟨rfl, h⟩
              · rintro ⟨rfl, h⟩
                exact ⟨(u, v), h, ⟨rfl, rfl⟩, rfl⟩
            rw [hstep, ih]
            simp only [List.cons_append, List.cons.injEq, List.mem_cons, not_or]
            constructor
            · rintro ⟨rfl, rfl, hu⟩
              exact ⟨⟨rfl, rfl⟩, Ne.symm hc, hu⟩
            · rintro ⟨⟨rfl, rfl⟩, _, hu⟩
              exact ⟨rfl, rfl, hu⟩

/-- A joined text gives its fields back iff the first one is separator-free. -/
theorem splitFirst_append_iff
    (sep : Char) (u v : List Char) :
    splitFirst sep (u ++ sep :: v) = some (u, v) ↔ sep ∉ u := by
  simp [splitFirst_eq_some_iff]

/-- A joined text always splits somewhere. -/
theorem splitFirst_append_isSome
    (sep : Char) (u v : List Char) :
    ∃ p, splitFirst sep (u ++ sep :: v) = some p := by
  induction u with
  | nil =>
      exact ⟨([], v), by simp [splitFirst]⟩
  | cons c u ih =>
      obtain ⟨p, hp⟩ := ih
      by_cases hc : c = sep
      · exact ⟨([], u ++ sep :: v), by simp [splitFirst, hc]⟩
      · exact ⟨(c :: p.1, p.2), by simp [splitFirst, hc, hp]⟩

/--
Two joined texts are equal exactly when the pairs are, or when one first field
runs past the other and takes a separator and part of its second field along.
-/
theorem append_sep_eq_iff
    (sep : Char) (u v u' v' : List Char) :
    u ++ sep :: v = u' ++ sep :: v' ↔
      (u = u' ∧ v = v') ∨
      (∃ m, u = u' ++ sep :: m ∧ v' = m ++ sep :: v) ∨
      (∃ m, u' = u ++ sep :: m ∧ v = m ++ sep :: v') := by
  constructor
  · intro h
    rcases List.append_eq_append_iff.mp h with ⟨m, hu, hv⟩ | ⟨m, hu, hv⟩
    · cases m with
      | nil =>
          simp only [List.append_nil] at hu
          simp only [List.nil_append, List.cons.injEq, true_and] at hv
          exact Or.inl ⟨hu.symm, hv⟩
      | cons c m =>
          simp only [List.cons_append, List.cons.injEq] at hv
          obtain ⟨rfl, hv⟩ := hv
          exact Or.inr (Or.inr ⟨m, hu, hv⟩)
    · cases m with
      | nil =>
          simp only [List.append_nil] at hu
          simp only [List.nil_append, List.cons.injEq, true_and] at hv
          exact Or.inl ⟨hu, hv.symm⟩
      | cons c m =>
          simp only [List.cons_append, List.cons.injEq] at hv
          obtain ⟨rfl, hv⟩ := hv
          exact Or.inr (Or.inl ⟨m, hu, hv⟩)
  · rintro (⟨rfl, rfl⟩ | ⟨m, rfl, rfl⟩ | ⟨m, rfl, rfl⟩)
    · rfl
    · simp
    · simp

/-- With separator-free first fields, the joined text determines both fields. -/
theorem append_sep_inj
    {sep : Char} {u v u' v' : List Char}
    (hu : sep ∉ u) (hu' : sep ∉ u')
    (h : u ++ sep :: v = u' ++ sep :: v') :
    u = u' ∧ v = v' := by
  rcases (append_sep_eq_iff sep u v u' v').mp h with h | ⟨m, rfl, _⟩ | ⟨m, rfl, _⟩
  · exact h
  · simp at hu
  · simp at hu'

/-- What stands in a joined text and has no separator stands in one of its fields. -/
theorem infix_append_sep
    {sep : Char} {w u v : List Char}
    (hw : sep ∉ w)
    (h : w <:+: u ++ sep :: v) :
    w <:+: u ∨ w <:+: v := by
  obtain ⟨front, back, heq⟩ := h
  rcases List.append_eq_append_iff.mp heq with ⟨m, rfl, -⟩ | ⟨m, hfront, hback⟩
  · exact .inl ⟨front, m, rfl⟩
  · cases m with
    | nil =>
        rw [List.append_nil] at hfront
        exact .inl ⟨front, [], by rw [List.append_nil, hfront]⟩
    | cons d m =>
        rw [List.cons_append, List.cons.injEq] at hback
        obtain ⟨rfl, rfl⟩ := hback
        rcases List.append_eq_append_iff.mp hfront with ⟨k, -, rfl⟩ | ⟨k, -, hk⟩
        · simp at hw
        · cases k with
          | nil =>
              rw [List.nil_append] at hk
              rw [← hk] at hw
              simp at hw
          | cons e k =>
              rw [List.cons_append, List.cons.injEq] at hk
              exact .inr ⟨k, back, by rw [hk.2]⟩

/-- Python's `str.partition` for a one-character separator. -/
def partition (s : String) (sep : Char) : String × String × String :=
  match splitFirst sep s.toList with
  | some (u, v) => (String.ofList u, String.ofList [sep], String.ofList v)
  | none => (s, "", "")

/-- Python's `str.rpartition` for a one-character separator. -/
def rpartition (s : String) (sep : Char) : String × String × String :=
  match splitFirst sep s.toList.reverse with
  | some (u, v) => (String.ofList v.reverse, String.ofList [sep], String.ofList u.reverse)
  | none => ("", "", s)

/-! ## Parts between separators -/

/-- The segments of a text are in it, and have no separator. -/
theorem mem_of_mem_splitOn
    {sep : Char} {cs s : List Char}
    (hs : s ∈ cs.splitOn sep)
    {c : Char}
    (hc : c ∈ s) :
    c ∈ cs ∧ c ≠ sep := by
  induction cs generalizing s with
  | nil =>
      rw [List.splitOn_nil, List.mem_singleton] at hs
      rw [hs] at hc
      cases hc
  | cons d cs ih =>
      rw [List.splitOn_cons_eq_if_modifyHead] at hs
      split at hs
      · rcases List.mem_cons.mp hs with rfl | hs
        · cases hc
        · exact (ih hs hc).imp (List.mem_cons_of_mem d) id
      · next hd =>
          obtain ⟨first, rest, hsplit⟩ := List.exists_cons_of_ne_nil (List.splitOn_ne_nil sep cs)
          rw [hsplit, List.modifyHead_cons] at hs
          rw [hsplit] at ih
          rcases List.mem_cons.mp hs with rfl | hs
          · rcases List.mem_cons.mp hc with rfl | hc
            · exact ⟨List.mem_cons_self, by simpa using hd⟩
            · exact (ih List.mem_cons_self hc).imp (List.mem_cons_of_mem d) id
          · exact (ih (List.mem_cons_of_mem first hs) hc).imp (List.mem_cons_of_mem d) id

/-- A run of characters ends at the first that is not of their class. -/
theorem takeWhile_run
    {p : Char → Bool} {w rest : List Char} {d : Char}
    (hw : ∀ c ∈ w, p c = true)
    (hd : p d = false) :
    (w ++ d :: rest).takeWhile p = w ∧ (w ++ d :: rest).dropWhile p = d :: rest := by
  rw [List.takeWhile_append_of_pos hw, List.dropWhile_append_of_pos hw,
    List.takeWhile_cons_of_neg (by simp [hd]), List.dropWhile_cons_of_neg (by simp [hd]),
    List.append_nil]
  exact ⟨rfl, rfl⟩

theorem mem_intercalate
    {sep c : Char} {parts : List (List Char)}
    (h : c ∈ [sep].intercalate parts) :
    c = sep ∨ ∃ part ∈ parts, c ∈ part := by
  induction parts with
  | nil => cases h
  | cons part parts ih =>
      cases parts with
      | nil =>
          rw [List.intercalate_singleton] at h
          exact .inr ⟨part, List.mem_cons_self, h⟩
      | cons next parts =>
          rw [List.intercalate_cons_cons] at h
          rcases List.mem_append.mp h with h | h
          · rcases List.mem_append.mp h with h | h
            · exact .inr ⟨part, List.mem_cons_self, h⟩
            · exact .inl (List.mem_singleton.mp h)
          · refine (ih h).imp id ?_
            rintro ⟨part', hpart', hc⟩
            exact ⟨part', List.mem_cons_of_mem part hpart', hc⟩

/-! ## Whitespace at the ends -/

/-- The characters that `str.strip` removes. -/
def isSpace (c : Char) : Bool :=
  let n := c.toNat
  (9 ≤ n && n ≤ 13) || (28 ≤ n && n ≤ 32) || n == 0x85 || n == 0xA0 || n == 0x1680 ||
    (0x2000 ≤ n && n ≤ 0x200A) || n == 0x2028 || n == 0x2029 || n == 0x202F ||
    n == 0x205F || n == 0x3000

/-- Python's `str.strip`. -/
def strip (s : List Char) : List Char :=
  (s.dropWhile isSpace).rdropWhile isSpace

/-- Neither the first nor the last character is whitespace. -/
def Trimmed (s : List Char) : Prop :=
  (∀ c ∈ s.head?, isSpace c = false) ∧ (∀ c ∈ s.getLast?, isSpace c = false)

instance (s : List Char) : Decidable (Trimmed s) :=
  inferInstanceAs (Decidable (_ ∧ _))

theorem strip_sublist (s : List Char) :
    (strip s).Sublist s :=
  (List.rdropWhile_prefix isSpace (s.dropWhile isSpace)).sublist.trans
    (List.dropWhile_suffix isSpace).sublist

theorem strip_length_le (s : List Char) :
    (strip s).length ≤ s.length :=
  (strip_sublist s).length_le

/-- A text is its own stripped form exactly when it is trimmed. -/
theorem strip_eq_self_iff (s : List Char) :
    strip s = s ↔ Trimmed s := by
  constructor
  · intro h
    have hfront : s.dropWhile isSpace = s := by
      refine (List.dropWhile_suffix isSpace).sublist.eq_of_length_le ?_
      have hle := (List.rdropWhile_prefix isSpace (s.dropWhile isSpace)).length_le
      rw [← strip, h] at hle
      exact hle
    have hback : s.rdropWhile isSpace = s := by
      rw [strip, hfront] at h
      exact h
    constructor
    · cases s with
      | nil =>
          simp
      | cons c s =>
          have hc := List.dropWhile_eq_self_iff.mp hfront (by simp)
          simpa using hc
    · intro c hc
      obtain ⟨front, rfl⟩ := List.getLast?_eq_some_iff.mp hc
      have hlast := List.rdropWhile_eq_self_iff.mp hback (by simp)
      simpa using hlast
  · rintro ⟨hhead, hlast⟩
    have hfront : s.dropWhile isSpace = s := by
      cases s with
      | nil =>
          rfl
      | cons c s =>
          simp [hhead c (by simp)]
    have hback : s.rdropWhile isSpace = s := by
      rw [List.rdropWhile_eq_self_iff]
      intro hne
      simp [hlast _ (List.getLast?_eq_some_getLast hne)]
    rw [strip, hfront, hback]

/-- What is stripped from a text is whitespace around it. -/
theorem exists_strip (s : List Char) :
    ∃ front back, s = front ++ (strip s ++ back) ∧
      (∀ c ∈ front, isSpace c = true) ∧ ∀ c ∈ back, isSpace c = true := by
  refine ⟨s.takeWhile isSpace, (s.dropWhile isSpace).rtakeWhile isSpace, ?_,
    fun c hc => List.mem_takeWhile_imp hc, fun c hc => List.mem_rtakeWhile_imp hc⟩
  rw [strip, List.rdropWhile_append_rtakeWhile, List.takeWhile_append_dropWhile]

/-- A stripped text is trimmed. -/
theorem trimmed_strip (s : List Char) :
    Trimmed (strip s) := by
  constructor
  · intro c hc
    -- The front of the text is that of the text without its leading whitespace.
    obtain ⟨rest, hrest⟩ := List.rdropWhile_prefix isSpace (s.dropWhile isSpace)
    have hhead : c ∈ (s.dropWhile isSpace).head? := by
      rw [← hrest, List.head?_append_of_ne_nil]
      · exact hc
      · rintro hnil
        rw [strip, hnil] at hc
        cases hc
    have hnot := List.head?_dropWhile_not isSpace s
    rw [hhead] at hnot
    simpa using hnot
  · intro c hc
    have hne : strip s ≠ [] := by
      rintro hnil
      rw [hnil] at hc
      cases hc
    rw [List.getLast?_eq_some_getLast hne, Option.mem_some_iff] at hc
    rw [← hc, ← Bool.not_eq_true]
    exact List.rdropWhile_last_not isSpace (s.dropWhile isSpace) hne

@[simp] theorem strip_strip (s : List Char) :
    strip (strip s) = strip s :=
  (strip_eq_self_iff _).mpr (trimmed_strip s)

/-! ## Replacement -/

/-- Python's `str.replace` for a text `old` that is not empty; the counter skips what the
last occurrence covers. -/
def replaceFrom (old new : List Char) : ℕ → List Char → List Char
  | _, [] => []
  | skip + 1, _ :: cs => replaceFrom old new skip cs
  | 0, c :: cs =>
      if old <+: c :: cs then new ++ replaceFrom old new (old.length - 1) cs
      else c :: replaceFrom old new 0 cs

/-- `text.replace(old, new)`. -/
def replace
    (text : String)
    (old new : List Char) :
    String :=
  String.ofList (replaceFrom old new 0 text.toList)

example :
    replace "user:<p>@<p>" ['<', 'p', '>'] ['x'] = "user:x@x" := by
  decide

end PyText
