/-!
Type ids. An id is one 32-bit word: the low 24 bits are the index of a symbol in a type table and
the three bits above them are flags, so `?[]T` and `[]T` share a symbol and differ in a flag.
-/

namespace Unroll

/-- What an id says about a type beyond its symbol. `option` and `result` wrap the type; `generic`
marks a type that mentions a generic parameter. -/
inductive TypeFlag where
  | option
  | result
  | generic
deriving DecidableEq

def TypeFlag.mask : TypeFlag → UInt32
  | .option => 0x01000000
  | .result => 0x02000000
  | .generic => 0x04000000

structure TypeId where
  bits : UInt32
deriving DecidableEq, Inhabited

namespace TypeId

def indexMask : UInt32 := 0x00ffffff

/-- The two flags that wrap a type: option and result. -/
def wrapperMask : UInt32 := TypeFlag.option.mask ||| TypeFlag.result.mask

/-- The number of different indices. -/
def capacity : Nat := 0x1000000

/-- The flagless id of an index, taken modulo the capacity. -/
def ofIndex (i : Nat) : TypeId := ⟨UInt32.ofNat i &&& indexMask⟩

def index (ty : TypeId) : Nat := (ty.bits &&& indexMask).toNat

/-- The same flags on another index. -/
def withIndex (ty : TypeId) (i : Nat) : TypeId :=
  ⟨(ty.bits &&& ~~~indexMask) ||| (UInt32.ofNat i &&& indexMask)⟩

def has (ty : TypeId) (flag : TypeFlag) : Bool := ty.bits &&& flag.mask != 0

def set (ty : TypeId) (flag : TypeFlag) : TypeId := ⟨ty.bits ||| flag.mask⟩

def clear (ty : TypeId) (flag : TypeFlag) : TypeId := ⟨ty.bits &&& ~~~flag.mask⟩

/-- `ty` wrapped once more in the option and result of `other`. -/
def wrappedLike (ty other : TypeId) : TypeId := ⟨ty.bits ||| (other.bits &&& wrapperMask)⟩

abbrev isOption (ty : TypeId) : Bool := ty.has .option

abbrev isResult (ty : TypeId) : Bool := ty.has .result

abbrev isGeneric (ty : TypeId) : Bool := ty.has .generic

/-! ## The types every table begins with -/

def void : TypeId := ofIndex 0
def bool : TypeId := ofIndex 1
def i8 : TypeId := ofIndex 2
def i16 : TypeId := ofIndex 3
def i32 : TypeId := ofIndex 4
def i64 : TypeId := ofIndex 5
def u8 : TypeId := ofIndex 6
def u16 : TypeId := ofIndex 7
def u32 : TypeId := ofIndex 8
def u64 : TypeId := ofIndex 9
def f32 : TypeId := ofIndex 10
def f64 : TypeId := ofIndex 11
def string : TypeId := ofIndex 12

/-- The names of the predeclared types, in the order of their indices. -/
def builtinNames : List String :=
  ["void", "bool", "i8", "i16", "i32", "i64", "u8", "u16", "u32", "u64", "f32", "f64", "string"]

/-- Plain `void`. An optional or failing `void` is a type like any other. -/
def isVoid (ty : TypeId) : Bool := ty == void

/-- Whether the index is that of a predeclared type with values. -/
def isBuiltin (ty : TypeId) : Bool := bool.index ≤ ty.index && ty.index ≤ string.index

def isInteger (ty : TypeId) : Bool := i8.index ≤ ty.index && ty.index ≤ u64.index

end TypeId

end Unroll
