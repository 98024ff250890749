import YamlAgno.Library.PyNumber
import Mathlib.Algebra.Order.Ring.WithTop
import Mathlib.Data.Int.Log
import Mathlib.Data.Rat.Floor
import Mathlib.Tactic.Linarith

/-!
# Floats, and numbers that are an integer or a float

A float is finite, an infinity or NaN.  What a computation makes of exact values is rounded
to the nearest float with 53 bits, ties to the even one (`nearest`), and is an infinity
beyond the largest.  Rounding keeps the order (`nearest_le_nearest`, `ofRat_le_ofRat`).

Python takes an integer wherever it takes a float.  A number (`Number`) is either, and a
product is an integer only if both factors are; an integer that is too large for a float
raises `OverflowError` next to one (`mul_eq_error_iff`).  Comparisons are exact.  What is
needed of the floats for this is a class, so that exact rationals can stand in for them.
-/

namespace PyNumber

/-! ## Rounding -/

/-- The nearest integer, the even one of two. -/
def roundEven (x : ℚ) : ℤ :=
  if x - ⌊x⌋ < 1 / 2 ∨ x - ⌊x⌋ = 1 / 2 ∧ ⌊x⌋ % 2 = 0 then ⌊x⌋ else ⌊x⌋ + 1

/-- The distance of the floats around a value: 53 bits, as long as there are exponents. -/
def quantum (x : ℚ) : ℚ :=
  2 ^ max (Int.log 2 |x| - 52) (-1074)

/-- The nearest value of 53 bits, the even one of two. -/
def nearest (x : ℚ) : ℚ :=
  roundEven (x / quantum x) * quantum x

section Rounding

/-- An integer below a value is below the integer that the value is rounded to. -/
theorem le_roundEven
    {n : ℤ}
    {x : ℚ}
    (h : (n : ℚ) ≤ x) :
    n ≤ roundEven x := by
  have hfloor : n ≤ ⌊x⌋ := Int.le_floor.mpr h
  unfold roundEven
  split_ifs
  · exact hfloor
  · omega

theorem roundEven_le
    {n : ℤ}
    {x : ℚ}
    (h : x ≤ n) :
    roundEven x ≤ n := by
  have hfloor : ⌊x⌋ ≤ n := by
    exact_mod_cast (Int.floor_le x).trans h
  unfold roundEven
  split_ifs with hdown
  · exact hfloor
  · by_contra hlt
    have hsame : ⌊x⌋ = n := by omega
    refine hdown (Or.inl ?_)
    rw [hsame]
    linarith

theorem roundEven_mono
    {x y : ℚ}
    (h : x ≤ y) :
    roundEven x ≤ roundEven y := by
  rcases (Int.floor_mono h).lt_or_eq with hlt | hsame
  · have hx : roundEven x ≤ ⌊x⌋ + 1 := by
      unfold roundEven
      split_ifs <;> omega
    exact hx.trans ((Int.add_one_le_iff.mpr hlt).trans (le_roundEven (Int.floor_le y)))
  · unfold roundEven
    rw [← hsame]
    split_ifs with hx hy hy
    · exact le_rfl
    · omega
    · -- The larger value is rounded down, so the smaller one is.
      refine absurd ?_ hx
      rcases hy with hy | ⟨hy, heven⟩
      · exact Or.inl (by linarith)
      · rcases h.lt_or_eq with hlt | rfl
        · exact Or.inl (by linarith)
        · exact Or.inr ⟨hy, heven⟩
    · exact le_rfl

theorem quantum_pos (x : ℚ) :
    0 < quantum x :=
  zpow_pos (by norm_num) _

/-- A larger value has the same floats around it, or is past a power of two. -/
theorem quantum_eq_or_exists_zpow
    {x y : ℚ}
    (hx : 0 < x)
    (h : x ≤ y) :
    quantum x = quantum y ∨
      ∃ e : ℤ, x ≤ 2 ^ e ∧ (2 : ℚ) ^ e ≤ y ∧
        (∃ m : ℤ, (2 : ℚ) ^ e = m * quantum x) ∧ ∃ n : ℤ, (2 : ℚ) ^ e = n * quantum y := by
  have hy := hx.trans_le h
  have hlog : Int.log 2 x ≤ Int.log 2 y := Int.log_mono_right hx h
  have hpow : ∀ e k : ℤ, k ≤ e → ∃ m : ℤ, (2 : ℚ) ^ e = m * 2 ^ k := by
    intro e k hk
    refine ⟨2 ^ (e - k).toNat, ?_⟩
    have hnonneg : ((e - k).toNat : ℤ) = e - k := by omega
    push_cast
    rw [← zpow_natCast, hnonneg, ← zpow_add₀ (by norm_num), sub_add_cancel]
  unfold quantum
  rw [abs_of_pos hx, abs_of_pos hy]
  by_cases hsame : max (Int.log 2 x - 52) (-1074) = max (Int.log 2 y - 52) (-1074)
  · exact Or.inl (by rw [hsame])
  · refine Or.inr ⟨Int.log 2 y, ?_, ?_, hpow _ _ ?_, hpow _ _ ?_⟩
    · have hnext : Int.log 2 x + 1 ≤ Int.log 2 y := by omega
      calc
        x ≤ (2 : ℚ) ^ (Int.log 2 x + 1) := (Int.lt_zpow_succ_log_self Nat.one_lt_two x).le
        _ ≤ 2 ^ Int.log 2 y := zpow_le_zpow_right₀ (by norm_num) hnext
    · exact Int.zpow_log_le_self Nat.one_lt_two hy
    · omega
    · omega

/-- Rounding keeps the order of values. -/
theorem nearest_le_nearest
    {x y : ℚ}
    (hx : 0 ≤ x)
    (h : x ≤ y) :
    nearest x ≤ nearest y := by
  have hround : ∀ {z w : ℚ}, z ≤ w → ((roundEven z : ℤ) : ℚ) ≤ roundEven w := fun hzw => by
    exact_mod_cast roundEven_mono hzw
  rcases hx.lt_or_eq with hpos | rfl
  · unfold nearest
    rcases quantum_eq_or_exists_zpow hpos h with
      hsame | ⟨e, hbelow, habove, ⟨m, hm⟩, n, hn⟩
    · rw [hsame]
      exact mul_le_mul_of_nonneg_right
        (hround (div_le_div_of_nonneg_right h (quantum_pos y).le)) (quantum_pos y).le
    · have hdown : ((roundEven (x / quantum x) : ℤ) : ℚ) ≤ m := by
        have hle : x / quantum x ≤ m := by
          rw [div_le_iff₀ (quantum_pos x), ← hm]
          exact hbelow
        exact_mod_cast roundEven_le hle
      have hup : (n : ℚ) ≤ (roundEven (y / quantum y) : ℤ) := by
        have hle : (n : ℚ) ≤ y / quantum y := by
          rw [le_div_iff₀ (quantum_pos y), ← hn]
          exact habove
        exact_mod_cast le_roundEven hle
      calc
        ((roundEven (x / quantum x) : ℤ) : ℚ) * quantum x ≤ m * quantum x :=
          mul_le_mul_of_nonneg_right hdown (quantum_pos x).le
        _ = n * quantum y := by rw [← hm, hn]
        _ ≤ (roundEven (y / quantum y) : ℤ) * quantum y :=
          mul_le_mul_of_nonneg_right hup (quantum_pos y).le
  · have hzero : nearest 0 = 0 := by
      unfold nearest
      rw [zero_div, show roundEven 0 = 0 by decide +kernel]
      simp
    have hnonneg : 0 ≤ roundEven (y / quantum y) :=
      le_roundEven (by exact_mod_cast div_nonneg h (quantum_pos y).le)
    rw [hzero]
    exact mul_nonneg (by exact_mod_cast hnonneg) (quantum_pos y).le

theorem nearest_nonneg
    {x : ℚ}
    (h : 0 ≤ x) :
    0 ≤ nearest x :=
  mul_nonneg (by exact_mod_cast le_roundEven (n := 0) (by
    exact_mod_cast div_nonneg h (quantum_pos x).le)) (quantum_pos x).le

end Rounding

/-! ## Floats -/

/-- A place among the numbers, from minus infinity to infinity. -/
abbrev Place : Type :=
  WithBot (WithTop ℚ)

/-- The place of an exact value. -/
abbrev Place.ofRat (x : ℚ) : Place :=
  ((x : WithTop ℚ) : WithBot (WithTop ℚ))

/-- What Python needs to know of the floats: the rounding of a value, the product, and the place
of a float among the numbers, which NaN has not. -/
class FloatArithmetic (F : Type) where
  ofRat : ℚ → F
  mul : F → F → F
  place : F → Option Place

/-- A float; `true` is the negative infinity, and the two zeros are one. -/
inductive PyFloat where
  | finite (value : ℚ)
  | infinity (negative : Bool)
  | nan
deriving DecidableEq

namespace PyFloat

/-- The float that a value is rounded to. -/
def ofRat (x : ℚ) : PyFloat :=
  if |nearest x| < 2 ^ 1024 then finite (nearest x) else infinity (decide (x < 0))

/-- A finite float has a value that rounding leaves as it is. -/
def IsFloat : PyFloat → Prop
  | finite value => ofRat value = finite value
  | infinity _ | nan => True

/-- The place of a float. -/
def place : PyFloat → Option Place
  | finite value => some (.ofRat value)
  | infinity true => some ⊥
  | infinity false => some ⊤
  | nan => none

/-- The product of two floats. -/
def mul : PyFloat → PyFloat → PyFloat
  | finite x, finite y => ofRat (x * y)
  | finite x, infinity negative | infinity negative, finite x =>
      if x = 0 then nan else infinity (negative != decide (x < 0))
  | infinity negative, infinity negative' => infinity (negative != negative')
  | nan, _ | _, nan => nan

/-- `round(x, 2)`. -/
def round2 : PyFloat → PyFloat
  | finite value => ofRat (roundEven (value * 100) / 100)
  | infinity negative => infinity negative
  | nan => nan

end PyFloat

instance floatArithmeticPyFloat : FloatArithmetic PyFloat where
  ofRat := PyFloat.ofRat
  mul := PyFloat.mul
  place := PyFloat.place

/-- Exact values in the place of floats. -/
instance floatArithmeticRat : FloatArithmetic ℚ where
  ofRat := id
  mul := (· * ·)
  place value := some (.ofRat value)

/-! ## Numbers -/

/-- An integer or a float. -/
inductive Number (F : Type) where
  | int (n : ℤ)
  | float (x : F)
deriving DecidableEq

namespace Number

variable {F : Type}

/-- An integer that is too large for a float, next to a float. -/
def Overflows : Number F → Number F → Prop
  | int n, float _ | float _, int n => floatOverflowBound ≤ n.natAbs
  | _, _ => False

/-- A float and a power of two overflow from the exponent 1024 on. -/
theorem overflows_float_two_pow_iff
    {x : F}
    {n : ℕ} :
    Overflows (float x) (int (2 ^ n)) ↔ 1024 ≤ n := by
  have hpow := two_pow_lt_floatOverflowBound_iff n
  rw [Overflows, Int.natAbs_pow]
  change floatOverflowBound ≤ 2 ^ n ↔ _
  omega

variable [FloatArithmetic F]

/-- The place of a number; that of an integer is exact. -/
def place : Number F → Option Place
  | int n => some (.ofRat n)
  | float x => FloatArithmetic.place x

/-- `<`. -/
def lt (a b : Number F) : Bool :=
  match a.place, b.place with
  | some x, some y => decide (x < y)
  | _, _ => false

/-- `<=`. -/
def le (a b : Number F) : Bool :=
  match a.place, b.place with
  | some x, some y => decide (x ≤ y)
  | _, _ => false

/-- `min(a, b)`. -/
def min (a b : Number F) : Number F :=
  if lt b a = true then b else a

/-- `*`. -/
def mul : Number F → Number F → Except OverflowError (Number F)
  | int m, int n => .ok (int (m * n))
  | int m, float y => do
      let x ← intToFloat FloatArithmetic.ofRat m
      return float (FloatArithmetic.mul x y)
  | float x, int n => do
      let y ← intToFloat FloatArithmetic.ofRat n
      return float (FloatArithmetic.mul x y)
  | float x, float y => .ok (float (FloatArithmetic.mul x y))

omit [FloatArithmetic F] in
theorem intToFloat_eq_error_iff
    (ofRat : ℚ → F)
    {n : ℤ} :
    (∃ error, intToFloat ofRat n = .error error) ↔ floatOverflowBound ≤ n.natAbs := by
  unfold intToFloat
  split_ifs with h
  · refine ⟨?_, fun hle => absurd h (Nat.not_lt.mpr hle)⟩
    rintro ⟨error, herror⟩
    cases herror
  · exact ⟨fun _ => Nat.not_lt.mp h, fun _ => ⟨_, rfl⟩⟩

/-- A product raises exactly if an integer next to a float does not fit. -/
theorem mul_eq_error_iff
    {a b : Number F} :
    (∃ error, a.mul b = .error error) ↔ Overflows a b := by
  cases a with
  | int m =>
      cases b with
      | int n => simp [mul, Overflows]
      | float y =>
          rw [Overflows, ← intToFloat_eq_error_iff (FloatArithmetic.ofRat (F := F)), mul]
          cases intToFloat (FloatArithmetic.ofRat (F := F)) m <;>
            simp [bind, Except.bind, pure, Except.pure]
  | float x =>
      cases b with
      | int n =>
          rw [Overflows, ← intToFloat_eq_error_iff (FloatArithmetic.ofRat (F := F)), mul]
          cases intToFloat (FloatArithmetic.ofRat (F := F)) n <;>
            simp [bind, Except.bind, pure, Except.pure]
      | float y => simp [mul, Overflows]

/-- Exact numbers have their value for their place. -/
def value : Number ℚ → ℚ
  | int n => n
  | float x => x

theorem place_eq_value (a : Number ℚ) :
    a.place = some (.ofRat a.value) := by
  cases a <;> rfl

theorem value_min (a b : Number ℚ) :
    (Number.min a b).value = Min.min a.value b.value := by
  unfold Number.min lt
  rw [place_eq_value, place_eq_value]
  simp only [decide_eq_true_eq, WithBot.coe_lt_coe, WithTop.coe_lt_coe]
  split_ifs with h
  · exact (min_eq_right h.le).symm
  · exact (min_eq_left (not_lt.mp h)).symm

theorem value_mul
    {a b product : Number ℚ}
    (h : a.mul b = .ok product) :
    product.value = a.value * b.value := by
  have hfloat : ∀ {n : ℤ} {x : ℚ},
      intToFloat (FloatArithmetic.ofRat (F := ℚ)) n = .ok x → x = n := by
    intro n x hx
    unfold intToFloat at hx
    split_ifs at hx
    cases hx
    rfl
  cases a with
  | int m =>
      cases b with
      | int n =>
          cases h
          simp [value]
      | float y =>
          rw [mul] at h
          cases hx : intToFloat (FloatArithmetic.ofRat (F := ℚ)) m with
          | error error =>
              rw [hx] at h
              cases h
          | ok x =>
              rw [hx] at h
              cases h
              rw [hfloat hx]
              rfl
  | float x =>
      cases b with
      | int n =>
          rw [mul] at h
          cases hy : intToFloat (FloatArithmetic.ofRat (F := ℚ)) n with
          | error error =>
              rw [hy] at h
              cases h
          | ok y =>
              rw [hy] at h
              cases h
              rw [hfloat hy]
              rfl
      | float y =>
          cases h
          rfl

/-! ## The order of places -/

theorem lt_of_le_of_lt
    {a b c : Number F}
    (hab : a.le b = true)
    (hbc : b.lt c = true) :
    a.lt c = true := by
  unfold le at hab
  unfold lt at hbc ⊢
  cases ha : a.place <;> cases hb : b.place <;> cases hc : c.place <;>
    simp only [ha, hb, hc, decide_eq_true_eq, Bool.false_eq_true] at hab hbc ⊢
  exact hab.trans_lt hbc

theorem le_trans
    {a b c : Number F}
    (hab : a.le b = true)
    (hbc : b.le c = true) :
    a.le c = true := by
  unfold le at hab hbc ⊢
  cases ha : a.place <;> cases hb : b.place <;> cases hc : c.place <;>
    simp only [ha, hb, hc, decide_eq_true_eq, Bool.false_eq_true] at hab hbc ⊢
  exact hab.trans hbc

/-- Of two numbers that have a place, one is below the other or it is not. -/
theorem le_eq_false_iff
    {a b : Number F}
    (ha : a.place ≠ none)
    (hb : b.place ≠ none) :
    a.le b = false ↔ b.lt a = true := by
  unfold le lt
  obtain ⟨x, hx⟩ := Option.ne_none_iff_exists'.mp ha
  obtain ⟨y, hy⟩ := Option.ne_none_iff_exists'.mp hb
  rw [hx, hy]
  simp

theorem lt_eq_false_of_place_eq_none
    {a b : Number F}
    (h : b.place = none) :
    a.lt b = false := by
  unfold lt
  rw [h]
  cases a.place <;> rfl

end Number

namespace PyFloat

theorem nearest_eq_of_isFloat
    {x : ℚ}
    (h : (finite x).IsFloat) :
    nearest x = x := by
  have hround : ofRat x = finite x := h
  unfold ofRat at hround
  split_ifs at hround
  exact finite.inj hround

/-- A value that is not negative is rounded to a finite float or to infinity. -/
theorem ofRat_cases
    {x : ℚ}
    (h : 0 ≤ x) :
    (nearest x < 2 ^ 1024 ∧ ofRat x = finite (nearest x)) ∨
      (2 ^ 1024 ≤ nearest x ∧ ofRat x = infinity false) := by
  have hsign : decide (x < 0) = false := decide_eq_false (not_lt.mpr h)
  unfold ofRat
  rw [abs_of_nonneg (nearest_nonneg h), hsign]
  split_ifs with hlt
  · exact Or.inl ⟨hlt, rfl⟩
  · exact Or.inr ⟨not_lt.mp hlt, rfl⟩

/-- Rounding to floats keeps the order. -/
theorem ofRat_le_ofRat
    {x y : ℚ}
    (hx : 0 ≤ x)
    (h : x ≤ y) :
    Number.le (.float (ofRat x)) (.float (ofRat y)) = true := by
  have hround := nearest_le_nearest hx h
  unfold Number.le Number.place
  rcases ofRat_cases hx with ⟨hlt, hsame⟩ | ⟨hge, hsame⟩
  · rcases ofRat_cases (hx.trans h) with ⟨-, hsame'⟩ | ⟨-, hsame'⟩
    · rw [hsame, hsame']
      simpa [FloatArithmetic.place, place] using hround
    · rw [hsame, hsame']
      simp [FloatArithmetic.place, place]
  · rcases ofRat_cases (hx.trans h) with ⟨hlt', -⟩ | ⟨-, hsame'⟩
    · exact absurd (hge.trans hround) (not_le.mpr hlt')
    · rw [hsame, hsame']
      simp [FloatArithmetic.place, place]

theorem place_ofRat_ne_none (x : ℚ) :
    (Number.float (ofRat x)).place ≠ none := by
  unfold ofRat
  split_ifs
  · exact Option.some_ne_none _
  · cases decide (x < 0) <;> exact Option.some_ne_none _

/-- So does the product with a positive float. -/
theorem ofRat_mul_le_ofRat_mul
    {x y c : ℚ}
    (hx : 0 ≤ x)
    (h : x ≤ y)
    (hc : 0 < c) :
    Number.le (.float ((ofRat x).mul (finite c))) (.float ((ofRat y).mul (finite c))) = true := by
  have hinfinite : (infinity false).mul (finite c) = infinity false := by
    simp [mul, hc.ne', hc.le]
  have hround := nearest_le_nearest hx h
  rcases ofRat_cases (hx.trans h) with ⟨hlt, hy⟩ | ⟨-, hy⟩
  · rcases ofRat_cases hx with ⟨-, hx'⟩ | ⟨hge, -⟩
    · rw [hx', hy, mul, mul]
      exact ofRat_le_ofRat (mul_nonneg (nearest_nonneg hx) hc.le)
        (mul_le_mul_of_nonneg_right hround hc.le)
    · exact absurd (hge.trans hround) (not_le.mpr hlt)
  · rw [hy, hinfinite]
    rcases ofRat_cases hx with ⟨-, hx'⟩ | ⟨-, hx'⟩
    · rw [hx', mul]
      have hplace := place_ofRat_ne_none (nearest x * c)
      obtain ⟨p, hp⟩ := Option.ne_none_iff_exists'.mp hplace
      unfold Number.le
      rw [hp]
      simp [Number.place, FloatArithmetic.place, place]
    · rw [hx', hinfinite]
      simp [Number.le, Number.place, FloatArithmetic.place, place]

end PyFloat

end PyNumber
