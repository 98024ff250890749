import YamlAgno.Library.PyFloat

/-!
# Durations

`timedelta(seconds=x)` of a float keeps whole microseconds: those of the part before the
point, and those that the part after it is rounded to.  It raises for a duration of 10^9
days or more, and for what is no number.

The floats around 10^9 days are 1/64 of a second apart, so none below is rounded up to
them: a float that is not negative is a duration if it is below 10^9 days, and else raises
`OverflowError` (`timedelta_cases`).
-/

namespace PyNumber

def microsecondsPerDay : ℤ :=
  86400 * 10 ^ 6

/-- A `timedelta`. -/
structure Timedelta where
  microseconds : ℤ
  days_le : |microseconds / microsecondsPerDay| ≤ 999999999

/-- Exceptions of `timedelta(seconds=x)`. -/
inductive TimedeltaError where
  | overflow (error : OverflowError)
  | valueError (message : String)

/-- The part of a value before the point. -/
def wholePart (x : ℚ) : ℤ :=
  x.num.tdiv x.den

/-- The microseconds of a number of seconds. -/
def microsecondsOf (seconds : ℚ) : ℤ :=
  wholePart seconds * 10 ^ 6 + roundEven (nearest ((seconds - wholePart seconds) * 10 ^ 6))

/-- The text of the `OverflowError` for too many days. -/
def daysOverflow (days : ℤ) : String :=
  if -2 ^ 31 ≤ days ∧ days < 2 ^ 31 then
    "days=" ++ toString days ++ "; must have magnitude <= 999999999"
  else "Python int too large to convert to C int"

/-- `timedelta(seconds=x)`. -/
def timedelta : PyFloat → Except TimedeltaError Timedelta
  | .finite seconds =>
      if h : |microsecondsOf seconds / microsecondsPerDay| ≤ 999999999 then
        .ok ⟨microsecondsOf seconds, h⟩
      else
        .error (.overflow ⟨daysOverflow (microsecondsOf seconds / microsecondsPerDay)⟩)
  | .infinity _ => .error (.overflow ⟨"cannot convert float infinity to integer"⟩)
  | .nan => .error (.valueError "cannot convert float NaN to integer")

/-! ## The durations that fit -/

section Fits

variable {x : ℚ}

theorem wholePart_of_nonneg
    (h : 0 ≤ x) :
    wholePart x = ⌊x⌋ := by
  rw [wholePart, Int.tdiv_eq_ediv_of_nonneg (Rat.num_nonneg.mpr h), Rat.floor_def']

/-- The part after the point is not negative, and neither are its microseconds. -/
theorem wholePart_le_microsecondsOf
    (h : 0 ≤ x) :
    wholePart x * 10 ^ 6 ≤ microsecondsOf x := by
  have hfract : 0 ≤ x - wholePart x := by
    rw [wholePart_of_nonneg h]
    exact sub_nonneg.mpr (Int.floor_le x)
  have hround : 0 ≤ roundEven (nearest ((x - wholePart x) * 10 ^ 6)) :=
    le_roundEven (by exact_mod_cast nearest_nonneg (mul_nonneg hfract (by norm_num)))
  unfold microsecondsOf
  omega

/-- A bound on the part after the point, of as many microseconds as a float has. -/
theorem microsecondsOf_le
    {n : ℤ}
    (h : 0 ≤ x)
    (hfract : (x - wholePart x) * 10 ^ 6 ≤ n)
    (hn : nearest n = n) :
    microsecondsOf x ≤ wholePart x * 10 ^ 6 + n := by
  have hnonneg : 0 ≤ x - wholePart x := by
    rw [wholePart_of_nonneg h]
    exact sub_nonneg.mpr (Int.floor_le x)
  have hround : roundEven (nearest ((x - wholePart x) * 10 ^ 6)) ≤ n := by
    refine roundEven_le ?_
    calc
      nearest ((x - wholePart x) * 10 ^ 6) ≤ nearest n :=
        nearest_le_nearest (mul_nonneg hnonneg (by norm_num)) hfract
      _ = n := hn
  unfold microsecondsOf
  omega

/-- From `2^46` on, floats are multiples of 1/64. -/
theorem exists_eq_div_of_nearest
    (hfloat : nearest x = x)
    (h : 2 ^ 46 ≤ x) :
    ∃ n : ℤ, x = n / 64 := by
  have hpos : 0 < x := lt_of_lt_of_le (by norm_num) h
  have hlog : (46 : ℤ) ≤ Int.log 2 x := by
    rw [← Int.zpow_le_iff_le_log Nat.one_lt_two hpos]
    exact_mod_cast h
  have hquantum : quantum x = 2 ^ (Int.log 2 x - 52) := by
    unfold quantum
    rw [abs_of_pos hpos, max_eq_left (by omega)]
  have hpow : (2 : ℚ) ^ (Int.log 2 x - 52) = 2 ^ (Int.log 2 x - 46).toNat / 64 := by
    have hnonneg : ((Int.log 2 x - 46).toNat : ℤ) = Int.log 2 x - 46 := by omega
    rw [← zpow_natCast, hnonneg, show (64 : ℚ) = 2 ^ (6 : ℤ) by norm_num,
      ← zpow_sub₀ (by norm_num)]
    congr 1
    omega
  refine ⟨roundEven (x / quantum x) * 2 ^ (Int.log 2 x - 46).toNat, ?_⟩
  conv_lhs => rw [← hfloat]
  unfold nearest
  rw [hquantum, hpow]
  push_cast
  ring

/-- The seconds of 10^9 days. -/
def maxSeconds : ℤ :=
  86400 * 10 ^ 9

theorem microsecondsOf_lt_iff
    (hfloat : nearest x = x)
    (h : 0 ≤ x) :
    microsecondsOf x < maxSeconds * 10 ^ 6 ↔ x < maxSeconds := by
  constructor
  · intro hlt
    by_contra hle
    have hwhole : maxSeconds ≤ wholePart x := by
      rw [wholePart_of_nonneg h]
      exact Int.le_floor.mpr (not_lt.mp hle)
    have hmicroseconds := wholePart_le_microsecondsOf h
    omega
  · intro hlt
    have hfloor := Int.floor_le x
    have hfloor' := Int.lt_floor_add_one x
    rw [← wholePart_of_nonneg h] at hfloor hfloor'
    unfold maxSeconds at hlt ⊢
    rcases lt_or_ge x (2 ^ 46) with hsmall | hlarge
    · have hmicroseconds := microsecondsOf_le (n := 10 ^ 6) h (by push_cast; linarith)
        (by decide +kernel)
      have hwhole : wholePart x < 2 ^ 46 := by
        exact_mod_cast hfloor.trans_lt hsmall
      omega
    · -- A float below 10^9 days is at least 1/64 of a second below.
      obtain ⟨n, hn⟩ := exists_eq_div_of_nearest hfloat hlarge
      have hscaled : (n : ℚ) = 64 * x := by
        rw [hn]
        ring
      have hlast : n - wholePart x * 64 ≤ 63 := by
        have hlt64 : ((n - wholePart x * 64 : ℤ) : ℚ) < (64 : ℤ) := by
          push_cast
          linarith
        have hint : n - wholePart x * 64 < 64 := by exact_mod_cast hlt64
        omega
      have hstep : x - wholePart x ≤ 63 / 64 := by
        have hcast : ((n - wholePart x * 64 : ℤ) : ℚ) ≤ (63 : ℤ) := by exact_mod_cast hlast
        push_cast at hcast
        linarith
      have hmicroseconds := microsecondsOf_le (n := 984375) h (by push_cast; linarith)
        (by decide +kernel)
      have hwhole : wholePart x < 86400 * 10 ^ 9 := by
        exact_mod_cast hfloor.trans_lt hlt
      omega

theorem timedelta_finite_cases
    (hfloat : nearest x = x)
    (h : 0 ≤ x) :
    (x < maxSeconds ∧ ∃ duration, timedelta (.finite x) = .ok duration) ∨
      (maxSeconds ≤ x ∧ ∃ error, timedelta (.finite x) = .error (.overflow error)) := by
  have hnonneg : 0 ≤ microsecondsOf x := by
    have hwhole : 0 ≤ wholePart x := by
      rw [wholePart_of_nonneg h]
      exact Int.floor_nonneg.mpr h
    have hmicroseconds := wholePart_le_microsecondsOf h
    omega
  have hiff := microsecondsOf_lt_iff hfloat h
  have hdays : |microsecondsOf x / microsecondsPerDay| ≤ 999999999 ↔
      microsecondsOf x < maxSeconds * 10 ^ 6 := by
    unfold microsecondsPerDay maxSeconds
    rw [abs_of_nonneg (Int.ediv_nonneg hnonneg (by norm_num))]
    omega
  unfold timedelta
  by_cases hlt : x < maxSeconds
  · exact Or.inl ⟨hlt, _, dif_pos (hdays.mpr (hiff.mpr hlt))⟩
  · exact Or.inr ⟨not_lt.mp hlt, _, dif_neg fun hle => hlt (hiff.mp (hdays.mp hle))⟩

end Fits

/-- A float that is not negative is a duration if it is below 10^9 days, and else overflows. -/
theorem timedelta_cases
    {seconds : PyFloat}
    (hfloat : seconds.IsFloat)
    (h : Number.le (.int 0) (.float seconds) = true) :
    (Number.le (.int maxSeconds) (.float seconds) = false ∧
        ∃ duration, timedelta seconds = .ok duration) ∨
      (Number.le (.int maxSeconds) (.float seconds) = true ∧
        ∃ error, timedelta seconds = .error (.overflow error)) := by
  cases seconds with
  | nan => cases h
  | infinity negative =>
      cases negative with
      | true => cases h
      | false => exact Or.inr ⟨rfl, _, rfl⟩
  | finite x =>
      have hnonneg : 0 ≤ x := by
        simpa [Number.le, Number.place, FloatArithmetic.place, PyFloat.place] using h
      rcases timedelta_finite_cases (PyFloat.nearest_eq_of_isFloat hfloat) hnonneg with
        ⟨hlt, hok⟩ | ⟨hle, herror⟩
      · refine Or.inl ⟨?_, hok⟩
        simpa [Number.le, Number.place, FloatArithmetic.place, PyFloat.place] using hlt
      · refine Or.inr ⟨?_, herror⟩
        simpa [Number.le, Number.place, FloatArithmetic.place, PyFloat.place] using hle

end PyNumber
