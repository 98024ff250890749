import YamlAgno.Library.PyText

/-!
# Patterns of character classes

Regular expressions that are a sequence of pieces, each of them one character of a class or a
non-empty run of them, such as `^[a-z]+:[0-9]+$`.  In Python `$` stands at the end of the text
and also before a newline that ends it, so a final newline is let through by every pattern
that is anchored there (`matchLine`).

A pattern of two runs with a separator between them reads the two fields of a text at its
first separator (`matchLine_fields_iff`).
-/

namespace PyRegex

open PyText

/-- A class, for one character or for one or more. -/
inductive Piece where
  | one (cls : Char → Bool)
  | many (cls : Char → Bool)

/-- The pieces match all of the text. -/
def fullMatch : List Piece → List Char → Bool
  | [], cs => cs.isEmpty
  | _ :: _, [] => false
  | .one cls :: pieces, c :: cs => cls c && fullMatch pieces cs
  | .many cls :: pieces, c :: cs =>
      cls c && (fullMatch pieces cs || fullMatch (.many cls :: pieces) cs)

/-- `re.match` of the pieces between `^` and `$`. -/
def matchLine (pieces : List Piece) (cs : List Char) : Bool :=
  fullMatch pieces cs || (cs.getLast? == some '\n' && fullMatch pieces cs.dropLast)

/-- One or more characters of a class. -/
def Run (cls : Char → Bool) (cs : List Char) : Prop :=
  cs ≠ [] ∧ ∀ c ∈ cs, cls c = true

/-- A run up to the end of the text or to the newline that ends it. -/
def LineRun (cls : Char → Bool) (cs : List Char) : Prop :=
  Run cls cs ∨ ∃ run, cs = run ++ ['\n'] ∧ Run cls run

-- Over the characters of the list; an instance for all characters would be searched first.
instance (cls : Char → Bool) (cs : List Char) : Decidable (Run cls cs) :=
  decidable_of_iff (cs.isEmpty = false ∧ cs.all cls = true) (by
    rw [Run, ← List.isEmpty_eq_false_iff, List.all_eq_true])

variable {cls cls₁ cls₂ : Char → Bool} {pieces : List Piece} {cs : List Char} {sep : Char}

theorem run_cons
    {c : Char}
    (hc : cls c = true)
    (hcs : Run cls cs) :
    Run cls (c :: cs) :=
  ⟨by simp, List.forall_mem_cons.mpr ⟨hc, hcs.2⟩⟩

/-- A piece for a run takes a run from the front of the text. -/
theorem fullMatch_many_iff :
    fullMatch (.many cls :: pieces) cs = true ↔
      ∃ run rest, cs = run ++ rest ∧ Run cls run ∧ fullMatch pieces rest = true := by
  induction cs with
  | nil =>
      constructor
      · intro h
        simp [fullMatch] at h
      · rintro ⟨run, rest, hcs, ⟨hne, -⟩, -⟩
        exact absurd (List.append_eq_nil_iff.mp hcs.symm).1 hne
  | cons c cs ih =>
      rw [fullMatch, Bool.and_eq_true, Bool.or_eq_true, ih]
      constructor
      · rintro ⟨hc, hrest | ⟨run, rest, rfl, hrun, hrest⟩⟩
        · exact ⟨[c], cs, rfl, ⟨by simp, by simpa using hc⟩, hrest⟩
        · exact ⟨c :: run, rest, rfl, run_cons hc hrun, hrest⟩
      · rintro ⟨run, rest, hcs, ⟨hne, hrun⟩, hrest⟩
        cases run with
        | nil => exact absurd rfl hne
        | cons c' run =>
            obtain ⟨rfl, rfl⟩ := List.cons.inj hcs
            rw [List.forall_mem_cons] at hrun
            refine ⟨hrun.1, ?_⟩
            by_cases hempty : run = []
            · subst hempty
              exact .inl hrest
            · exact .inr ⟨run, rest, rfl, ⟨hempty, hrun.2⟩, hrest⟩

theorem fullMatch_run_iff :
    fullMatch [.many cls] cs = true ↔ Run cls cs := by
  rw [fullMatch_many_iff]
  constructor
  · rintro ⟨run, rest, rfl, hrun, hrest⟩
    rw [fullMatch, List.isEmpty_iff] at hrest
    rwa [hrest, List.append_nil]
  · intro hrun
    exact ⟨cs, [], by simp, hrun, rfl⟩

/-- Two runs around a separator that the first class leaves out are the two fields. -/
theorem fullMatch_fields_iff
    (hsep : cls₁ sep = false) :
    fullMatch [.many cls₁, .one (· == sep), .many cls₂] cs = true ↔
      ∃ first second, splitFirst sep cs = some (first, second) ∧
        Run cls₁ first ∧ Run cls₂ second := by
  rw [fullMatch_many_iff]
  constructor
  · rintro ⟨first, rest, rfl, hfirst, hrest⟩
    cases rest with
    | nil => simp [fullMatch] at hrest
    | cons c second =>
        simp only [fullMatch, Bool.and_eq_true, beq_iff_eq] at hrest
        obtain ⟨rfl, hsecond⟩ := hrest
        have hnot : c ∉ first := fun hmem => by simp [hfirst.2 c hmem] at hsep
        exact ⟨first, second, (splitFirst_append_iff c first second).mpr hnot, hfirst,
          fullMatch_run_iff.mp hsecond⟩
  · rintro ⟨first, second, hsplit, hfirst, hsecond⟩
    obtain ⟨rfl, -⟩ := (splitFirst_eq_some_iff sep cs first second).mp hsplit
    refine ⟨first, sep :: second, rfl, hfirst, ?_⟩
    simpa [fullMatch] using fullMatch_run_iff.mpr hsecond

theorem matchLine_iff :
    matchLine pieces cs = true ↔
      fullMatch pieces cs = true ∨ ∃ line, cs = line ++ ['\n'] ∧ fullMatch pieces line = true := by
  rw [matchLine, Bool.or_eq_true, Bool.and_eq_true, beq_iff_eq]
  refine or_congr_right ⟨?_, ?_⟩
  · rintro ⟨hlast, hline⟩
    exact ⟨cs.dropLast, (List.dropLast_append_getLast? '\n' hlast).symm, hline⟩
  · rintro ⟨line, rfl, hline⟩
    simpa using hline

/-- A line of two fields: the second one runs to the end of the line. -/
theorem matchLine_fields_iff
    (hsep : cls₁ sep = false) :
    matchLine [.many cls₁, .one (· == sep), .many cls₂] cs = true ↔
      ∃ first second, splitFirst sep cs = some (first, second) ∧
        Run cls₁ first ∧ LineRun cls₂ second := by
  rw [matchLine_iff, fullMatch_fields_iff hsep]
  constructor
  · rintro (⟨first, second, hsplit, hfirst, hsecond⟩ | ⟨line, rfl, hline⟩)
    · exact ⟨first, second, hsplit, hfirst, .inl hsecond⟩
    · obtain ⟨first, second, hsplit, hfirst, hsecond⟩ := (fullMatch_fields_iff hsep).mp hline
      obtain ⟨rfl, hnot⟩ := (splitFirst_eq_some_iff sep line first second).mp hsplit
      refine ⟨first, second ++ ['\n'], ?_, hfirst, .inr ⟨second, rfl, hsecond⟩⟩
      rw [List.append_assoc, List.cons_append]
      exact (splitFirst_append_iff sep first _).mpr hnot
  · rintro ⟨first, second, hsplit, hfirst, hsecond | ⟨run, rfl, hrun⟩⟩
    · exact .inl ⟨first, second, hsplit, hfirst, hsecond⟩
    · obtain ⟨rfl, hnot⟩ := (splitFirst_eq_some_iff sep cs first _).mp hsplit
      refine .inr ⟨first ++ sep :: run, by simp, (fullMatch_fields_iff hsep).mpr ?_⟩
      exact ⟨first, run, (splitFirst_append_iff sep first run).mpr hnot, hfirst, hrun⟩

end PyRegex
