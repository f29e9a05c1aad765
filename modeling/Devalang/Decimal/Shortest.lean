import Devalang.Text.Basic

/-! Binary floating point values, and the shortest decimal that reads back to one. -/
namespace Devalang

/-- A value of the 64-bit binary format, by its bits. -/
structure Double where
  bits : UInt64
deriving DecidableEq

structure Decimal where
  digits : Nat
  exponent : Int
deriving DecidableEq

/-- A power of `base`; a negative exponent counts as zero. -/
def raise (base : Nat) (exponent : Int) : Nat := Nat.pow base exponent.toNat

namespace Double

def isNegative (x : Double) : Bool := (x.bits >>> 63) == 1

def biasedExponent (x : Double) : Nat := ((x.bits >>> 52) &&& 0x7FF).toNat

def fractionBits (x : Double) : Nat := (x.bits &&& 0xFFFFFFFFFFFFF).toNat

def isNaN (x : Double) : Bool := x.biasedExponent == 0x7FF && x.fractionBits != 0

def isInfinite (x : Double) : Bool := x.biasedExponent == 0x7FF && x.fractionBits == 0

def isFinite (x : Double) : Bool := x.biasedExponent != 0x7FF

/-- The whole number `m` of the magnitude `m · 2 ^ q` of a finite value. -/
def mantissa (x : Double) : Nat :=
  if x.biasedExponent = 0 then x.fractionBits else 0x10000000000000 + x.fractionBits

def power (x : Double) : Int :=
  if x.biasedExponent = 0 then -1074 else (x.biasedExponent : Int) - 1075

/-- The gap to the neighbour below is half the gap to the neighbour above. -/
def narrowBelow (x : Double) : Bool := x.fractionBits == 0 && x.biasedExponent > 1

def compareScaled (a : Nat) (i : Int) (n : Nat) (j : Int) : Ordering :=
  compare (a * raise 10 i * raise 2 (-j)) (n * raise 2 j * raise 10 (-i))

/-- The decimal lies among the reals that round to the magnitude of `x`, ties going to even. -/
def readsBack (x : Double) (d : Decimal) : Bool :=
  let low := compareScaled d.digits d.exponent
    (if x.narrowBelow then 4 * x.mantissa - 1 else 4 * x.mantissa - 2) (x.power - 2)
  let high := compareScaled d.digits d.exponent (4 * x.mantissa + 2) (x.power - 2)
  let ends := x.mantissa % 2 == 0
  (low == .gt || (ends && low == .eq)) && (high == .lt || (ends && high == .eq))

/-- The least `k` with the magnitude below `10 ^ k`. -/
def magnitude (x : Double) : Int :=
  let guess := ((x.mantissa.log2 : Int) + x.power) * 30103 / 100000
  ([guess - 1, guess, guess + 1, guess + 2].find?
    fun k => compareScaled 1 k x.mantissa x.power == .gt).getD (guess + 3)

/-- The neighbour of the magnitude on the grid `10 ^ g` that reads back; of two the nearer one, of
two equally near ones the even one. -/
def onGrid (x : Double) (g : Int) : Option Decimal :=
  let num := x.mantissa * raise 2 x.power * raise 10 (-g)
  let den := raise 2 (-x.power) * raise 10 g
  let low : Decimal := ⟨num / den, g⟩
  let high : Decimal := ⟨num / den + 1, g⟩
  match x.readsBack low, x.readsBack high with
  | true, false => some low
  | false, true => some high
  | false, false => none
  | true, true =>
    match compare (2 * num) ((2 * low.digits + 1) * den) with
    | .lt => some low
    | .gt => some high
    | .eq => some (if low.digits % 2 = 0 then low else high)

def exactDecimal (x : Double) : Decimal :=
  if 0 ≤ x.power then ⟨x.mantissa * raise 2 x.power, 0⟩
  else ⟨x.mantissa * raise 5 (-x.power), x.power⟩

end Double

def Decimal.normal : (fuel : Nat) → Decimal → Decimal
  | 0, d => d
  | fuel + 1, d =>
    if d.digits ≠ 0 ∧ d.digits % 10 = 0 then normal fuel ⟨d.digits / 10, d.exponent + 1⟩ else d

/-- The shortest decimal that reads back to the magnitude of a finite value. -/
def Double.shortest (x : Double) : Decimal :=
  if x.mantissa = 0 then ⟨0, 0⟩
  else
    let d := ((List.range 17).findSome? fun (n : Nat) => x.onGrid (x.magnitude - (n + 1))).getD x.exactDecimal
    d.normal d.digits.log2

namespace Double

def infinity (negative : Bool) : Double :=
  ⟨if negative then 0xFFF0000000000000 else 0x7FF0000000000000⟩

def zero (negative : Bool) : Double := ⟨if negative then 0x8000000000000000 else 0⟩

/-- The correctly rounded double of `± digits · 10 ^ exponent`. Decimals far out of range are told
apart by their exponents, so that no large power is computed. -/
def ofDecimal (negative : Bool) (d : Decimal) : Double :=
  if d.digits = 0 ∨ d.digits.log2 / 3 + 1 + d.exponent < -330 then zero negative
  else if 310 < d.exponent then infinity negative
  else
    let x := (Float.ofScientific d.digits (decide (d.exponent < 0)) d.exponent.natAbs).toBits
    ⟨if negative then x ||| 0x8000000000000000 else x⟩

def nan : Double := ⟨0x7FF8000000000000⟩

def quotient (x : Double) : Int × Nat :=
  let n : Int := (x.mantissa * raise 2 x.power : Nat)
  (if x.isNegative then -n else n, raise 2 (-x.power))

def floor (x : Double) : Int := x.quotient.1.fdiv x.quotient.2

def truncate (x : Double) : Int := x.quotient.1.tdiv x.quotient.2

def toInt? (x : Double) : Option Int :=
  if x.isFinite && x.quotient.1 % x.quotient.2 == 0 then some x.floor else none

/-- Numeric equality: both zeros are equal, and nothing equals a NaN. -/
def equal (x y : Double) : Bool :=
  !x.isNaN && !y.isNaN && (x == y || (x.bits <<< 1 == 0 && y.bits <<< 1 == 0))

end Double

end Devalang
