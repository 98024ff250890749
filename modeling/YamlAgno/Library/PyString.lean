import Mathlib.Data.List.Basic
import Mathlib.Data.List.Chain
import Mathlib.Data.String.Basic

/-!
# Strings with surrogates

A string of Python is a sequence of code points, and surrogates may stand among them.  Texts
are passed on as UTF-16 units, where a character beyond the first plane is a high and a low
surrogate (`units`); whoever reads units takes such a pair for the character (`ofUnits`).

So a string comes back from its units exactly if no high surrogate stands right before a low
one in it (`ofUnits_units_iff`), and nothing that has been read from units has such a pair in
it (`unpaired_ofUnits`).
-/

namespace PyString

/-- A code point: a character, or a surrogate with its ten bits. -/
inductive PyChar where
  | char (c : Char)
  | high (bits : Fin 1024)
  | low (bits : Fin 1024)
deriving DecidableEq

namespace PyChar

/-- The character, if it is one. -/
def char? : PyChar → Option Char
  | char c => some c
  | high _ | low _ => none

/-- The character that a pair of surrogates stands for. -/
def join (h l : Fin 1024) : Char :=
  Char.ofNat (0x10000 + h * 1024 + l)

/-- The UTF-16 units of a code point. -/
def units : PyChar → List PyChar
  | char c =>
      if 0x10000 ≤ c.toNat then
        [high (Fin.ofNat 1024 ((c.toNat - 0x10000) / 1024)),
          low (Fin.ofNat 1024 ((c.toNat - 0x10000) % 1024))]
      else [char c]
  | surrogate => [surrogate]

/-- The pair of a character stands for it. -/
theorem join_units
    {c : Char}
    (h : 0x10000 ≤ c.toNat) :
    join (Fin.ofNat 1024 ((c.toNat - 0x10000) / 1024))
      (Fin.ofNat 1024 ((c.toNat - 0x10000) % 1024)) = c := by
  have hlt : c.toNat < 0x110000 := by
    rcases c.valid with hlow | ⟨-, hhigh⟩
    · exact Nat.lt_trans hlow (by decide)
    · exact hhigh
  have hsum : 0x10000 + (c.toNat - 0x10000) / 1024 % 1024 * 1024 +
      (c.toNat - 0x10000) % 1024 % 1024 = c.toNat := by
    omega
  rw [join, Fin.val_ofNat, Fin.val_ofNat, hsum, Char.ofNat_toNat]

end PyChar

/-- A string. -/
abbrev PyStr : Type :=
  List PyChar

open PyChar

/-- The units of a string. -/
def units (s : PyStr) : List PyChar :=
  s.flatMap PyChar.units

/-- The string that units are read as; a high and a low surrogate next to each other are one
character. -/
def ofUnits : List PyChar → PyStr
  | [] => []
  | high h :: low l :: rest => char (join h l) :: ofUnits rest
  | unit :: rest => unit :: ofUnits rest

/-- The two are not a pair of surrogates. -/
def NotPair : PyChar → PyChar → Prop
  | high _, low _ => False
  | _, _ => True

/-- No high surrogate stands right before a low one. -/
def Unpaired (s : PyStr) : Prop :=
  s.IsChain NotPair

theorem head?_ofUnits
    {us : List PyChar}
    {l : Fin 1024}
    (h : (ofUnits us).head? = some (low l)) :
    us.head? = some (low l) := by
  fun_cases ofUnits us with
  | case1 => exact h
  | case2 h' l' rest => cases h
  | case3 unit rest hpair =>
      rw [ofUnits] at h
      · exact h
      · exact hpair

/-- Units are read as a string in which no pair is left. -/
theorem unpaired_ofUnits
    (us : List PyChar) :
    Unpaired (ofUnits us) := by
  fun_induction ofUnits us with
  | case1 => exact .nil
  | case2 h l rest ih => exact List.isChain_cons.mpr ⟨fun y _ => trivial, ih⟩
  | case3 unit rest hpair ih =>
      refine List.isChain_cons.mpr ⟨fun y hy => ?_, ih⟩
      cases unit with
      | char _ | low _ => trivial
      | high h =>
          cases y with
          | char _ | high _ => trivial
          | low l =>
              cases rest with
              | nil => cases hy
              | cons next rest =>
                  have hnext := head?_ofUnits hy
                  cases hnext
                  exact (hpair h l rest rfl rfl).elim

/-- The first unit is low only if the first code point is. -/
theorem head?_units
    {s : PyStr}
    {l : Fin 1024}
    (h : (units s).head? = some (low l)) :
    s.head? = some (low l) := by
  cases s with
  | nil => exact h
  | cons first s =>
      cases first with
      | char c =>
          rw [units, List.flatMap_cons, PyChar.units] at h
          split_ifs at h <;> cases h
      | high _ | low _ => exact h

/-- A high surrogate is read for itself where no low one follows. -/
theorem ofUnits_high
    {h : Fin 1024}
    {us : List PyChar}
    (hnext : ∀ l, us.head? ≠ some (low l)) :
    ofUnits (high h :: us) = high h :: ofUnits us := by
  rw [ofUnits]
  rintro h' l rest - rfl
  exact hnext l rfl

/-- A string comes back from its units exactly if there is no pair in it. -/
theorem ofUnits_units_iff
    (s : PyStr) :
    ofUnits (units s) = s ↔ Unpaired s := by
  constructor
  · intro h
    rw [← h]
    exact unpaired_ofUnits _
  · intro h
    induction s with
    | nil => rfl
    | cons first s ih =>
        obtain ⟨hfirst, hrest⟩ := List.isChain_cons.mp h
        have hunits : units (first :: s) = first.units ++ units s := List.flatMap_cons
        rw [hunits]
        cases first with
        | char c =>
            rw [PyChar.units]
            split_ifs with hplane
            · rw [List.cons_append, List.cons_append, List.nil_append, ofUnits, join_units hplane,
                ih hrest]
            · rw [List.cons_append, List.nil_append, ofUnits, ih hrest]
              intro h l rest heq
              cases heq
        | low l =>
            rw [PyChar.units, List.cons_append, List.nil_append, ofUnits, ih hrest]
            · intro h l rest heq
              cases heq
            · intro c heq
              cases heq
        | high h =>
            have hnext : ∀ l, (units s).head? ≠ some (low l) := fun l hl =>
              hfirst (low l) (head?_units hl)
            rw [PyChar.units, List.cons_append, List.nil_append, ofUnits_high hnext, ih hrest]
            intro c heq
            cases heq

/-! ## Types of strings -/

/-- A type of strings: those of Python, or those without surrogates among them. -/
class StringType (S : Type) where
  chars : S → PyStr
  ofString : String → S
  chars_ofString : ∀ text, chars (ofString text) = text.toList.map .char

export StringType (chars ofString chars_ofString)

instance : StringType PyStr where
  chars := id
  ofString text := text.toList.map .char
  chars_ofString _ := rfl

instance : StringType String where
  chars text := text.toList.map .char
  ofString := id
  chars_ofString _ := rfl

section StringType

variable {S : Type} [StringType S]

theorem ofString_injective :
    Function.Injective (ofString : String → S) := by
  intro text text' h
  have hchars := congrArg chars h
  rw [chars_ofString, chars_ofString] at hchars
  exact String.toList_inj.mp (List.map_injective_iff.mpr (fun _ _ => PyChar.char.inj) hchars)

/-- The text, if there is no surrogate in the string. -/
def text? (s : S) : Option String :=
  ((chars s).mapM PyChar.char?).map String.ofList

theorem text?_ofString
    (text : String) :
    text? (ofString text : S) = some text := by
  have hmap : ∀ cs : List Char, (cs.map PyChar.char).mapM PyChar.char? = some cs := by
    intro cs
    induction cs with
    | nil => rfl
    | cons c cs ih =>
        rw [List.map_cons, List.mapM_cons, ih]
        rfl
  rw [text?, chars_ofString, hmap, Option.map_some, String.ofList_toList]

/-- There is no pair in a text without surrogates. -/
theorem unpaired_ofString
    (text : String) :
    Unpaired (ofString text) := by
  have hmap : ∀ cs : List Char, Unpaired (cs.map PyChar.char) := by
    intro cs
    induction cs with
    | nil => exact .nil
    | cons c cs ih => exact List.isChain_cons.mpr ⟨fun _ _ => trivial, ih⟩
  exact hmap text.toList

end StringType

end PyString
