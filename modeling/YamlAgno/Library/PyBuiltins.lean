import YamlAgno.Library.PyNumber
import YamlAgno.Library.PyValue

/-!
# Built-in functions on Python values

`str`, `repr`, `float`, `json.loads` and dotted lookups on the values of `PyValue`.
Scalars are converted here; what stands behind an opaque object, and how a value is
displayed, is given by the interpreter (`PyBuiltins`).
-/

open PyNumber

/-- Exceptions of `float(value)`. -/
inductive NumberError where
  | typeError
  | valueError
  | overflow (error : OverflowError)
deriving DecidableEq

/-- What the interpreter knows of floats, digits, displays and opaque objects. -/
structure PyBuiltins (F : Type) where
  format : FloatFormat F
  beyondAscii : Char → Option ℕ
  repr : PyValue → String
  objectStr : ℕ → String
  objectType : ℕ → String
  objectFloat : ℕ → Except NumberError F
  jsonLoads : String → Except String PyValue

namespace PyBuiltins

variable {F : Type} (B : PyBuiltins F)

/-- `str(value)`. -/
def str : PyValue → String
  | .str value => value
  | .object identity _ => B.objectStr identity
  | value => B.repr value

/-- `type(value).__name__`. -/
def typeName : PyValue → String
  | .none => "NoneType"
  | .bool _ => "bool"
  | .int _ => "int"
  | .str _ => "str"
  | .list _ => "list"
  | .dict _ => "dict"
  | .object identity _ => B.objectType identity

/-- `float(value)`. -/
def float : PyValue → Except NumberError F
  | .bool value => .ok (B.format.ofRat (if value = true then 1 else 0))
  | .int value => (intToFloat B.format.ofRat value).mapError .overflow
  | .str value =>
      match floatOfText B.beyondAscii B.format value with
      | some x => .ok x
      | none => .error .valueError
  | .object identity _ => B.objectFloat identity
  | .none | .list _ | .dict _ => .error .typeError

/-- An integer below a power of two that converts, converts. -/
theorem float_int_of_lt
    {n : ℤ}
    {k : ℕ}
    (h : n.natAbs < 2 ^ k)
    (hk : k < 1024) :
    B.float (.int n) = .ok (B.format.ofRat n) := by
  have hbound := h.trans ((two_pow_lt_floatOverflowBound_iff k).mpr hk)
  rw [float, intToFloat, if_pos hbound]
  rfl

/-- A whole number is read from its text. -/
theorem float_str_of_wholeText
    {s : String}
    {n : ℤ}
    (h : WholeText B.beyondAscii s n) :
    B.float (.str s) = .ok (B.format.ofRat n) := by
  rw [float, floatOfText_of_wholeText B.format h]

end PyBuiltins

namespace PyValue

/-- The parts of a dotted key, `key.split(".")`. -/
def keyParts (key : String) : List String :=
  (key.toList.splitOn '.').map String.ofList

/-- The value under nested keys, `None` if one of them is missing. -/
def resolve : PyValue → List String → PyValue
  | value, [] => value
  | value, part :: parts =>
      match value.item part with
      | some inner => resolve inner parts
      | Option.none => .none

end PyValue
