/-!
Binary64 values in decimal. The digits are the shortest: the fewest that still identify the value
among all binary64 values, and of those the nearest to it, selected in exact integer arithmetic.
They are written in positional notation, with a point where one is needed and never an exponent.
-/

namespace Unroll.Decimal

/-! ## Shortest digits -/

/-- A positive binary64 value, `significand * 2 ^ exponent`. -/
structure Binary where
  significand : Nat
  exponent : Int
  /-- The gap to the value below is half the gap to the value above. -/
  narrowBelow : Bool

/-- The magnitude that the bits of a finite value stand for. -/
def Binary.ofBits (bits : UInt64) : Binary :=
  let fraction := (bits &&& 0xfffffffffffff).toNat
  let biased := ((bits >>> 52) &&& 0x7ff).toNat
  if biased = 0 then ⟨fraction, -1074, false⟩
  else ⟨0x10000000000000 + fraction, (biased : Int) - 1075, fraction == 0 && biased > 1⟩

/-- A non-negative rational number as numerator and denominator. -/
structure Ratio where
  num : Nat
  den : Nat

namespace Ratio

/-- `n * base ^ e` -/
def scaled (n base : Nat) (e : Int) : Ratio := ⟨n * base.pow e.toNat, base.pow (-e).toNat⟩

def cmp (a b : Ratio) : Ordering := compare (a.num * b.den) (b.num * a.den)

def div (a b : Ratio) : Ratio := ⟨a.num * b.den, a.den * b.num⟩

def floor (a : Ratio) : Nat := a.num / a.den

/-- Whether the number lies below the middle between its floor and the next integer. -/
def belowMiddle (a : Ratio) : Bool := 2 * (a.num % a.den) < a.den

end Ratio

namespace Binary

def value (x : Binary) : Ratio := .scaled x.significand 2 x.exponent

/-- Whether a number rounds to `x`: it lies no farther than halfway to a neighbour of `x`. Halfway
itself rounds to the value with the even significand. -/
def roundsTo (x : Binary) (r : Ratio) : Bool :=
  let low := Ratio.scaled (4 * x.significand - if x.narrowBelow then 1 else 2) 2 (x.exponent - 2)
  let high := Ratio.scaled (4 * x.significand + 2) 2 (x.exponent - 2)
  if x.significand % 2 = 0 then low.cmp r != .gt && r.cmp high != .gt
  else low.cmp r == .lt && r.cmp high == .lt

def decimalLength (n : Nat) : Nat := (Nat.toDigits 10 n).length

/-- The least `k` with `x < 10 ^ k`. -/
def magnitude (x : Binary) : Int :=
  let v := x.value
  let k : Int := (decimalLength v.num : Int) - decimalLength v.den
  if v.cmp (.scaled 1 10 k) == .lt then k else k + 1

end Binary

/-- `digits * 10 ^ exponent` -/
structure Numeral where
  digits : Nat
  exponent : Int
deriving DecidableEq

def Numeral.value (d : Numeral) : Ratio := .scaled d.digits 10 d.exponent

namespace Binary

/-- The multiple of `10 ^ e` nearest to `x` that rounds to `x`, the larger of two at the same
distance. -/
def onGrid? (x : Binary) (e : Int) : Option Numeral :=
  let steps := x.value.div (.scaled 1 10 e)
  let below : Numeral := ⟨steps.floor, e⟩
  let above : Numeral := ⟨steps.floor + 1, e⟩
  match x.roundsTo below.value, x.roundsTo above.value with
  | true, true => some (if steps.belowMiddle then below else above)
  | true, false => some below
  | false, true => some above
  | false, false => none

/-- All digits of `x`. -/
def exact (x : Binary) : Numeral :=
  ⟨x.significand * Nat.pow 2 x.exponent.toNat * Nat.pow 5 (-x.exponent).toNat, min x.exponent 0⟩

/-- The decimal with the fewest digits that rounds to `x`. Seventeen digits always suffice. -/
def shortest (x : Binary) : Numeral :=
  let k := x.magnitude
  ((List.range 17).findSome? fun (n : Nat) => x.onGrid? (k - (n + 1))).getD x.exact

end Binary

/-! ## Positional notation -/

/-- Digits without the zeros at their end, and the number of zeros dropped. -/
def dropTrailingZeros (digits : List Char) : List Char × Nat :=
  let kept := (digits.reverse.dropWhile (· == '0')).reverse
  (kept, digits.length - kept.length)

/-- Writes a numeral in full. Digits after the point end in a non-zero digit, and a whole number has
no point. -/
def Numeral.positional (d : Numeral) : String :=
  let (digits, zeros) := dropTrailingZeros (Nat.toDigits 10 d.digits)
  let e := d.exponent + zeros
  let point := (digits.length : Int) + e
  String.ofList <|
    if 0 ≤ e then digits ++ List.replicate e.toNat '0'
    else if 0 < point then digits.take point.toNat ++ '.' :: digits.drop point.toNat
    else '0' :: '.' :: List.replicate (-point).toNat '0' ++ digits

/-- The text of a binary64 value. Zero keeps its sign; a NaN has none. -/
def floatText (x : Float) : String :=
  let bits := x.toBits
  let sign := if bits >>> 63 == 1 then "-" else ""
  let magnitude := bits &&& 0x7fffffffffffffff
  if magnitude > 0x7ff0000000000000 then "NaN"
  else if magnitude == 0x7ff0000000000000 then sign ++ "inf"
  else if magnitude == 0 then sign ++ "0"
  else sign ++ (Binary.ofBits magnitude).shortest.positional

end Unroll.Decimal
