import ProseLint.Number.Decimal

/-! Floating-point numbers of double precision, represented exactly. A finite number is a
signed multiple of a power of two, and every operation rounds the exact result once, to
the nearest representable number and to the even one of two. -/

namespace ProseLint

/-- A double-precision number. A finite one stands for `mantissa * 2 ^ exponent`, where
the mantissa has at most 53 bits and the exponent is at least -1074. -/
inductive Binary64 where
  | finite (negative : Bool) (mantissa : Nat) (exponent : Int)
  | infinite (negative : Bool)
  | nan
  deriving DecidableEq, Repr

namespace Binary64

/-- The quotient rounded to the nearest whole number, halves to the even neighbour. -/
def roundDiv (num den : Nat) : Nat :=
  let q := num / den
  let r := num % den
  if 2 * r < den then q
  else if den < 2 * r then q + 1
  else if q % 2 = 0 then q else q + 1

def twoTo (k : Nat) : Nat := Nat.pow 2 k

def tenTo (k : Nat) : Nat := Nat.pow 10 k

/-- The quotient as numerator and denominator after division by a power of two. -/
def scaleDown (num den : Nat) (exponent : Int) : Nat × Nat :=
  if 0 ≤ exponent then (num, den * twoTo exponent.toNat) else (num * twoTo (-exponent).toNat, den)

/-- The exponent with which the quotient has a mantissa of 53 bits, or the least exponent
when the quotient is smaller than that. -/
def exponentOf (num den : Nat) : Int :=
  let guess : Int := (Nat.log2 num : Int) - (Nat.log2 den : Int) - 52
  let (n, d) := scaleDown num den guess
  let exact := if n / d < twoTo 52 then guess - 1 else guess
  max exact (-1074)

/-- The double nearest to a quotient of natural numbers. -/
def ofRatio (negative : Bool) (num den : Nat) : Binary64 :=
  if num = 0 then .finite negative 0 (-1074)
  else
    let e := exponentOf num den
    let (n, d) := scaleDown num den e
    let m := roundDiv n d
    let (m, e) := if m = twoTo 53 then (twoTo 52, e + 1) else (m, e)
    if 971 < e then .infinite negative else .finite negative m e

/-- The double nearest to a whole number, or nothing when the number is too large. -/
def ofInt? (n : Int) : Option Binary64 :=
  match ofRatio (decide (n < 0)) n.natAbs 1 with
  | .infinite _ => none
  | x => some x

/-- The double nearest to `coefficient * 10 ^ power`. Powers far beyond the range of the
format are cut before any large number is computed. -/
def ofDecimal (negative : Bool) (coefficient : Nat) (power : Int) : Binary64 :=
  let size : Int := power + (Nat.log2 coefficient : Int)
  if coefficient = 0 then .finite negative 0 (-1074)
  else if 5000 < power then .infinite negative
  else if size < -5000 then .finite negative 0 (-1074)
  else if 0 ≤ power then ofRatio negative (coefficient * tenTo power.toNat) 1
  else ofRatio negative coefficient (tenTo (-power).toNat)

/-- The magnitude of a finite number as a quotient. -/
def ratio (mantissa : Nat) (exponent : Int) : Nat × Nat :=
  if 0 ≤ exponent then (mantissa * twoTo exponent.toNat, 1) else (mantissa, twoTo (-exponent).toNat)

/-- The number without its fraction, and nothing for numbers that are not finite. -/
def truncate? : Binary64 → Option Int
  | .finite negative m e =>
      let (n, d) := ratio m e
      some (if negative then -((n / d : Nat) : Int) else ((n / d : Nat) : Int))
  | _ => none

/-- The nearest whole number, halves to the even neighbour. -/
def round? : Binary64 → Option Int
  | .finite negative m e =>
      let (n, d) := ratio m e
      some (if negative then -(roundDiv n d : Int) else (roundDiv n d : Int))
  | _ => none

/-- A finite number multiplied by `2 ^ 1074`, which is whole. -/
def units (negative : Bool) (m : Nat) (e : Int) : Int :=
  let n : Int := (m * twoTo (e + 1074).toNat : Nat)
  if negative then -n else n

/-- Whether one number is less than another. Nothing is less or greater than a number that
is not a number. -/
def lt : Binary64 → Binary64 → Bool
  | .nan, _ => false
  | _, .nan => false
  | .infinite a, .infinite b => a && !b
  | .infinite a, .finite .. => a
  | .finite .., .infinite b => !b
  | .finite a m e, .finite b n f => decide (units a m e < units b n f)

/-- Whether a number is zero, of either sign. -/
def isZero : Binary64 → Bool
  | .finite _ m _ => m == 0
  | _ => false

end Binary64

end ProseLint
