import YamlAgno.Library.PyText
import Mathlib.Algebra.Order.Field.Rat
import Mathlib.Tactic.FieldSimp
import Mathlib.Tactic.Ring

/-!
# Integers, floats and their texts

Python reads numbers from texts in two ways, `int(text)` and `float(text)`, and turns
integers into floats.  A float format (`FloatFormat`) says which floats the rationals
round to; nothing is assumed about it.

An integer converts to a float as long as it rounds to a finite one (`intToFloat`).  A text
that `int` reads, with or without a fraction of zeros after it, `float` reads as the same
number (`floatOfText_of_wholeText`).
-/

namespace PyNumber

universe u

/-- `OverflowError`. -/
structure OverflowError where
  message : String
deriving DecidableEq

/-- The integers that round to a finite float are those below this bound. -/
@[irreducible] def floatOverflowBound : ℕ :=
  2 ^ 1024 - 2 ^ 970

/-- The powers of two below a power of two less a smaller one. -/
theorem two_pow_lt_two_pow_sub_iff
    {k m : ℕ}
    (h : k + 1 < m)
    (n : ℕ) :
    2 ^ n < 2 ^ m - 2 ^ k ↔ n < m := by
  constructor
  · intro hlt
    by_contra hn
    have hle : 2 ^ m ≤ 2 ^ n := Nat.pow_le_pow_right Nat.two_pos (by omega)
    exact absurd (hlt.trans_le (Nat.sub_le _ _)) (Nat.not_lt.mpr hle)
  · intro hn
    obtain ⟨m, rfl⟩ : ∃ m', m = m' + 1 := ⟨m - 1, by omega⟩
    have hle : 2 ^ n ≤ 2 ^ m := Nat.pow_le_pow_right Nat.two_pos (by omega)
    have hlt : 2 ^ k < 2 ^ m := Nat.pow_lt_pow_right Nat.one_lt_two (by omega)
    rw [pow_succ]
    omega

/-- A power of two is below the bound up to the exponent 1023. -/
theorem two_pow_lt_floatOverflowBound_iff (n : ℕ) :
    2 ^ n < floatOverflowBound ↔ n < 1024 := by
  unfold floatOverflowBound
  exact two_pow_lt_two_pow_sub_iff (by decide) n

/-- The floats: what a rational rounds to, the infinities (`true` is negative), NaN. -/
structure FloatFormat (F : Type u) where
  ofRat : ℚ → F
  infinity : Bool → F
  nan : F

/-- The conversion of an integer to a float. -/
def intToFloat
    {F : Type u}
    (ofRat : ℚ → F)
    (n : ℤ) :
    Except OverflowError F :=
  if n.natAbs < floatOverflowBound then .ok (ofRat n)
  else .error ⟨"int too large to convert to float"⟩

/-! ## Texts of integers -/

section Texts

/-- Value of a decimal digit; `beyond` are the digits outside ASCII. -/
def digit
    (beyond : Char → Option ℕ)
    (c : Char) :
    Option ℕ :=
  if c.isDigit = true then some (c.toNat - 48)
  else if c.toNat < 128 then none
  else beyond c

variable (beyond : Char → Option ℕ)

/-- Digits with single underscores between them; the flag tells that a digit has just come. -/
def digitPart : Bool → List Char → Option (List ℕ)
  | true, [] => some []
  | false, [] => none
  | afterDigit, c :: cs =>
      if afterDigit = true ∧ c = '_' then digitPart false cs
      else do
        let d ← digit beyond c
        let ds ← digitPart true cs
        return d :: ds

/-- The number that digits write. -/
def value (ds : List ℕ) : ℕ :=
  ds.foldl (fun n d => 10 * n + d) 0

/-- A sign and the rest; `true` is the minus sign. -/
def splitSign : List Char → Bool × List Char
  | [] => (false, [])
  | c :: cs =>
      if c = '-' then (true, cs)
      else if c = '+' then (false, cs)
      else (false, c :: cs)

/-- A number with a sign. -/
def signed
    {K : Type u} [Neg K]
    (negative : Bool)
    (x : K) :
    K :=
  if negative = true then -x else x

/-- `int(text)` for a text without whitespace at its ends. -/
def intOfChars (cs : List Char) : Option ℤ :=
  (digitPart beyond false (splitSign cs).2).map fun ds => signed (splitSign cs).1 (value ds : ℤ)

/-! ## Texts of floats -/

/-- Digits with at most one point among them, and a digit on one side of it. -/
def mantissa (cs : List Char) : Option ℚ :=
  match PyText.splitFirst '.' cs with
  | none => (digitPart beyond false cs).map fun ds => (value ds : ℚ)
  | some (whole, []) => (digitPart beyond false whole).map fun ds => (value ds : ℚ)
  | some (whole, fraction) => do
      let ws ← if whole = [] then some [] else digitPart beyond false whole
      let fs ← digitPart beyond false fraction
      return (value (ws ++ fs) : ℚ) / 10 ^ fs.length

/-- What stands before and after the letter of an exponent. -/
def splitExponent : List Char → List Char × Option (List Char)
  | [] => ([], none)
  | c :: cs =>
      if c = 'e' ∨ c = 'E' then ([], some cs)
      else (c :: (splitExponent cs).1, (splitExponent cs).2)

/-- A decimal number without sign. -/
def decimal (cs : List Char) : Option ℚ :=
  match splitExponent cs with
  | (cs, none) => mantissa beyond cs
  | (cs, some exponent) => do
      let m ← mantissa beyond cs
      let n ← intOfChars beyond exponent
      return m * 10 ^ n

variable {F : Type u} (format : FloatFormat F)

/-- `float(text)` for a text without whitespace at its ends. -/
def floatOfChars (cs : List Char) : Option F :=
  let sign := splitSign cs
  let word := sign.2.map Char.toLower
  if word = "inf".toList ∨ word = "infinity".toList then some (format.infinity sign.1)
  else if word = "nan".toList then some format.nan
  else (decimal beyond sign.2).map fun q => format.ofRat (signed sign.1 q)

/-- `float(text)`. -/
def floatOfText (s : String) : Option F :=
  floatOfChars beyond format (PyText.strip s.toList)

/-- A text of a whole number, possibly with a point and zeros after it. -/
def WholeText
    (s : String)
    (n : ℤ) :
    Prop :=
  ∃ cs, intOfChars beyond cs = some n ∧
    (PyText.strip s.toList = cs ∨ ∃ k, PyText.strip s.toList = cs ++ '.' :: List.replicate k '0')

/-! ## What one reader takes, the other takes -/

variable {beyond}

theorem digit_eq_none
    {c : Char}
    (hdigit : c.isDigit = false)
    (hascii : c.toNat < 128) :
    digit beyond c = none := by
  rw [digit, if_neg (by simp [hdigit]), if_pos hascii]

/-- The characters of a digit part are digits and underscores. -/
theorem eq_or_digit_of_mem
    {afterDigit : Bool}
    {cs : List Char}
    {ds : List ℕ}
    (h : digitPart beyond afterDigit cs = some ds)
    {c : Char}
    (hc : c ∈ cs) :
    c = '_' ∨ digit beyond c ≠ none := by
  induction cs generalizing afterDigit ds with
  | nil =>
      cases hc
  | cons c' cs ih =>
      rw [digitPart] at h
      split_ifs at h with hunderscore
      · rcases List.mem_cons.mp hc with rfl | hc
        · exact Or.inl hunderscore.2
        · exact ih h hc
      · simp only [Option.bind_eq_bind, Option.bind_eq_some_iff] at h
        obtain ⟨d, hd, ds', hds, -⟩ := h
        rcases List.mem_cons.mp hc with rfl | hc
        · exact Or.inr (by simp [hd])
        · exact ih hds hc

/-- A digit part begins with a digit. -/
theorem exists_head_digit
    {cs : List Char}
    {ds : List ℕ}
    (h : digitPart beyond false cs = some ds) :
    ∃ c cs', cs = c :: cs' ∧ digit beyond c ≠ none := by
  cases cs with
  | nil =>
      cases h
  | cons c cs =>
      rw [digitPart, if_neg (by simp)] at h
      simp only [Option.bind_eq_bind, Option.bind_eq_some_iff] at h
      obtain ⟨d, hd, -⟩ := h
      exact ⟨c, cs, rfl, by simp [hd]⟩

theorem notMem_of_digitPart
    {cs : List Char}
    {ds : List ℕ}
    (h : digitPart beyond false cs = some ds)
    {c : Char}
    (hne : c ≠ '_')
    (hdigit : c.isDigit = false)
    (hascii : c.toNat < 128) :
    c ∉ cs := by
  intro hc
  rcases eq_or_digit_of_mem h hc with rfl | hd
  · exact hne rfl
  · exact hd (digit_eq_none hdigit hascii)

theorem splitExponent_of_notMem
    {cs : List Char}
    (hlower : 'e' ∉ cs)
    (hupper : 'E' ∉ cs) :
    splitExponent cs = (cs, none) := by
  induction cs with
  | nil =>
      rfl
  | cons c cs ih =>
      simp only [List.mem_cons, not_or] at hlower hupper
      have hc : ¬ (c = 'e' ∨ c = 'E') := by
        rintro (rfl | rfl)
        · exact hlower.1 rfl
        · exact hupper.1 rfl
      rw [splitExponent, if_neg hc, ih hlower.2 hupper.2]

theorem splitSign_append
    {cs : List Char}
    (h : cs ≠ [])
    (tail : List Char) :
    splitSign (cs ++ tail) = ((splitSign cs).1, (splitSign cs).2 ++ tail) := by
  cases cs with
  | nil =>
      exact absurd rfl h
  | cons c cs =>
      simp only [List.cons_append, splitSign]
      split_ifs <;> rfl

/-- Lower case leaves a digit alone. -/
theorem toLower_of_digit
    {c : Char}
    (h : digit beyond c ≠ none) :
    c.toLower = c := by
  unfold Char.toLower
  split
  · next hupper =>
      have hlow : 65 ≤ c.toNat := UInt32.le_iff_toNat_le.mp hupper.1
      have hhigh : c.toNat ≤ 90 := UInt32.le_iff_toNat_le.mp hupper.2
      refine absurd (digit_eq_none ?_ (by omega)) h
      rw [Char.isDigit, Bool.and_eq_false_iff, decide_eq_false_iff_not, decide_eq_false_iff_not]
      refine Or.inr (fun hle => ?_)
      have hnine : c.toNat ≤ 57 := UInt32.le_iff_toNat_le.mp hle
      omega
  · rfl

/-- A text that begins with a digit is no word for an infinity or for NaN. -/
theorem map_toLower_ne
    {cs : List Char}
    {ds : List ℕ}
    (h : digitPart beyond false cs = some ds)
    (tail : List Char)
    {first : Char}
    (hdigit : first.isDigit = false)
    (hascii : first.toNat < 128)
    (word : List Char) :
    (cs ++ tail).map Char.toLower ≠ first :: word := by
  obtain ⟨c, cs', rfl, hc⟩ := exists_head_digit h
  intro heq
  rw [List.cons_append, List.map_cons, toLower_of_digit hc] at heq
  obtain ⟨rfl, -⟩ := List.cons.inj heq
  exact hc (digit_eq_none hdigit hascii)

/-- A text that begins with a digit is read as a decimal number. -/
theorem floatOfChars_of_digitPart
    {F : Type u} (format : FloatFormat F)
    {cs tail : List Char}
    {ds : List ℕ}
    (h : digitPart beyond false (splitSign cs).2 = some ds) :
    floatOfChars beyond format (cs ++ tail) =
      (decimal beyond ((splitSign cs).2 ++ tail)).map fun q =>
        format.ofRat (signed (splitSign cs).1 q) := by
  have hne : cs ≠ [] := by
    rintro rfl
    cases h
  unfold floatOfChars
  rw [splitSign_append hne]
  dsimp only
  rw [if_neg, if_neg]
  · exact map_toLower_ne h tail rfl (by decide) _
  · rintro (hinf | hinf)
    · exact map_toLower_ne h tail rfl (by decide) _ hinf
    · exact map_toLower_ne h tail rfl (by decide) _ hinf

/-- Zeros after the digits multiply the number by a power of ten. -/
theorem value_append_zeros
    (ds : List ℕ)
    (k : ℕ) :
    value (ds ++ List.replicate k 0) = value ds * 10 ^ k := by
  induction k with
  | zero =>
      simp
  | succ k ih =>
      rw [List.replicate_succ', ← List.append_assoc, value, List.foldl_append]
      change 10 * value (ds ++ List.replicate k 0) + 0 = _
      rw [ih, pow_succ]
      ring

theorem digitPart_zeros
    (k : ℕ)
    (afterDigit : Bool) :
    digitPart beyond afterDigit (List.replicate (k + 1) '0') =
      some (List.replicate (k + 1) 0) := by
  have hzero : digit beyond '0' = some 0 := rfl
  induction k generalizing afterDigit with
  | zero =>
      cases afterDigit <;> simp [digitPart, hzero]
  | succ k ih =>
      rw [List.replicate_succ, digitPart, if_neg (by simp), hzero, ih]
      rfl

/-- The digits of a whole number are its mantissa. -/
theorem mantissa_of_digitPart
    {cs : List Char}
    {ds : List ℕ}
    (h : digitPart beyond false cs = some ds) :
    mantissa beyond cs = some (value ds : ℚ) := by
  have hpoint : PyText.splitFirst '.' cs = none := by
    have hmem := notMem_of_digitPart h (show '.' ≠ '_' by decide) rfl (by decide)
    cases hsplit : PyText.splitFirst '.' cs with
    | none =>
        rfl
    | some p =>
        obtain ⟨hp, -⟩ := (PyText.splitFirst_eq_some_iff '.' cs p.1 p.2).mp hsplit
        exact absurd (hp ▸ by simp) hmem
  rw [mantissa, hpoint]
  simp only [h, Option.map_some]

/-- A fraction of zeros does not change the mantissa. -/
theorem mantissa_of_digitPart_zeros
    {cs : List Char}
    {ds : List ℕ}
    (h : digitPart beyond false cs = some ds)
    (k : ℕ) :
    mantissa beyond (cs ++ '.' :: List.replicate k '0') = some (value ds : ℚ) := by
  have hmem := notMem_of_digitPart h (show '.' ≠ '_' by decide) rfl (by decide)
  rw [mantissa, (PyText.splitFirst_append_iff '.' cs _).mpr hmem]
  cases k with
  | zero =>
      simp only [List.replicate_zero, h, Option.map_some]
  | succ k =>
      obtain ⟨c, cs', rfl, -⟩ := exists_head_digit h
      simp only [List.replicate_succ]
      rw [← List.replicate_succ, digitPart_zeros, h, if_neg (by simp)]
      simp only [Option.bind_eq_bind, Option.bind_some, Option.pure_def, List.length_replicate,
        value_append_zeros, Option.some.injEq]
      push_cast
      field_simp

/-- A whole number, written with or without a fraction of zeros, has no exponent. -/
theorem decimal_of_digitPart
    {cs tail : List Char}
    {ds : List ℕ}
    (h : digitPart beyond false cs = some ds)
    (htail : tail = [] ∨ ∃ k, tail = '.' :: List.replicate k '0') :
    decimal beyond (cs ++ tail) = some (value ds : ℚ) := by
  have htailmem : ∀ c ∈ tail, c = '.' ∨ c = '0' := by
    rintro c hc
    rcases htail with rfl | ⟨k, rfl⟩
    · cases hc
    · rcases List.mem_cons.mp hc with rfl | hc
      · exact Or.inl rfl
      · exact Or.inr (List.eq_of_mem_replicate hc)
  have hlower : 'e' ∉ cs ++ tail := by
    rw [List.mem_append, not_or]
    exact ⟨notMem_of_digitPart h (by decide) rfl (by decide),
      fun hmem => absurd (htailmem _ hmem) (by decide)⟩
  have hupper : 'E' ∉ cs ++ tail := by
    rw [List.mem_append, not_or]
    exact ⟨notMem_of_digitPart h (by decide) rfl (by decide),
      fun hmem => absurd (htailmem _ hmem) (by decide)⟩
  rw [decimal, splitExponent_of_notMem hlower hupper]
  rcases htail with rfl | ⟨k, rfl⟩
  · rw [List.append_nil]
    exact mantissa_of_digitPart h
  · exact mantissa_of_digitPart_zeros h k

/-- What `int` reads, `float` reads as the same number, zeros after a point included. -/
theorem floatOfText_of_wholeText
    {F : Type u} (format : FloatFormat F)
    {s : String}
    {n : ℤ}
    (h : WholeText beyond s n) :
    floatOfText beyond format s = some (format.ofRat n) := by
  obtain ⟨cs, hint, htext⟩ := h
  obtain ⟨tail, htail, hs⟩ : ∃ tail, (tail = [] ∨ ∃ k, tail = '.' :: List.replicate k '0') ∧
      PyText.strip s.toList = cs ++ tail := by
    rcases htext with hs | ⟨k, hs⟩
    · exact ⟨[], Or.inl rfl, by rw [hs, List.append_nil]⟩
    · exact ⟨_, Or.inr ⟨k, rfl⟩, hs⟩
  rw [intOfChars, Option.map_eq_some_iff] at hint
  obtain ⟨ds, hds, rfl⟩ := hint
  rw [floatOfText, hs, floatOfChars_of_digitPart format hds, decimal_of_digitPart hds htail]
  simp only [Option.map_some, signed]
  split_ifs <;> simp

end Texts

end PyNumber
