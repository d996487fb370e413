/-
# `Config.Param` — parameters of the configuration and their checks

`ConfigParam`, the check `isValid` with the comparisons of `float_eq.hpp` it
rests on, and the CRC-32 of `config.cpp`.

A `float` is kept as its bit pattern, as the pool and the flash keep it, so
that a NaN with any payload is a value like any other; arithmetic is on
`Float32.ofBits`.  `long` has 32 bits on the target.
-/
import UavcanAdapter.Base.Words

namespace UavcanAdapter

open Base

/-! ## `float_eq` -/

namespace FloatEq

/-- `std::numeric_limits<float>::epsilon()`. -/
def epsilon : Float32 := .ofBits 0x34000000

/-- `DefaultEpsilonMult`. -/
def defaultEpsilonMult : Float32 := 10

/-- `std::max`. -/
def stdMax (a b : Float32) : Float32 := if a < b then b else a

def exactlyEqual (left right : Float32) : Bool := left ≤ right && left ≥ right

/-- `close` with both epsilons. -/
def closeWithin (a b absoluteEpsilon relativeEpsilon : Float32) : Bool :=
  if a.isNaN || b.isNaN then false
  else if a.isInf || b.isInf then exactlyEqual a b
  else if (a - b).abs ≤ absoluteEpsilon then true
  else (a - b).abs ≤ stdMax a.abs b.abs * relativeEpsilon

/-- `close` of two `float`s. -/
def close (left right : Float32) : Bool :=
  closeWithin left right epsilon (epsilon * defaultEpsilonMult)

-- a step of one unit in the last place is close, a step of a thousandth is not
example : close 1 (.ofBits 0x3F800001) = true ∧ close 1 1.001 = false := by decide +kernel

end FloatEq

/-! ## Descriptors -/

/-- The characters of a C string, without the NUL behind them. -/
structure CString where
  chars : List UInt8
  noNul : 0 ∉ chars
deriving DecidableEq

inductive ConfigDataType
  | float
  | int
  | bool
deriving DecidableEq, Repr

structure ConfigParam where
  name : CString
  default_ : UInt32
  min : UInt32
  max : UInt32
  type : ConfigDataType
deriving DecidableEq

/-- `CONFIG_PARAM_MAX_NAME_LENGTH`. -/
def configParamMaxNameLength : Nat := 92

/-- `long(value)`, as the run-time library of the target converts: towards
zero, and to the nearest limit out of range. -/
def truncate (value : Float32) : Int32 := value.toModel.toInt32

/-- `float(truncated)`. -/
def floatOfLong (truncated : Int32) : Float32 := .ofInt truncated.toInt

def isValid (descr : ConfigParam) (value : UInt32) : Bool :=
  let v := Float32.ofBits value
  let inLimits := !(v > .ofBits descr.max || v < .ofBits descr.min)
  if !v.isFinite then false
  else if descr.name.chars.length > configParamMaxNameLength then false
  else
    match descr.type with
    | .bool => !(!FloatEq.close v 0 && !FloatEq.close v 1)
    -- no break: the limits are checked as well
    | .int => FloatEq.close v (floatOfLong (truncate v)) && inLimits
    | .float => inLimits

/-- A value whose upper halfword was never programmed is not valid. -/
theorem not_isValid_of_torn {descr : ConfigParam} {value : UInt32} (h : Torn value) :
    isValid descr value = false := by
  rw [isValid, not_isFinite_of_torn h]
  rfl

/-! ## CRC-32 -/

/-- The body of the loop of `crc32_step`. -/
def crc32Shift (crc : UInt32) : UInt32 := (crc >>> 1) ^^^ (0xEDB88320 &&& -(crc &&& 1))

def crc32Step (crc : UInt32) (newByte : UInt8) : UInt32 :=
  crc32Shift^[8] (crc ^^^ newByte.toUInt32)

def crc32 (data : List UInt8) : UInt32 := data.foldl crc32Step 0

/-- The layout hash of parameters with these names, registered in order. -/
def layoutHashOf (names : List CString) : UInt32 :=
  (names.flatMap CString.chars).foldl crc32Step 0

theorem layoutHashOf_append_singleton (names : List CString) (name : CString) :
    layoutHashOf (names ++ [name]) = name.chars.foldl crc32Step (layoutHashOf names) := by
  rw [layoutHashOf, List.flatMap_append, List.foldl_append, List.flatMap_singleton, layoutHashOf]

end UavcanAdapter
