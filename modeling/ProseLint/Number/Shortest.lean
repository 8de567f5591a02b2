import ProseLint.Number.Binary64

/-! Decimal text for double-precision numbers: the fewest digits that read back as the
same number, and a fixed number of significant digits. -/

namespace ProseLint.Binary64

/-- Significant digits `d` of a positive number that is about `d * 10 ^ power`. -/
structure Digits where
  coefficient : Nat
  power : Int
  deriving DecidableEq, Repr

/-- The exponent of the leading decimal digit of a positive quotient below one, where
`places` decimal places have already been found to be zero. -/
def leadingPlace (fuel num den places : Nat) : Int :=
  match fuel with
  | 0 => -(places : Int)
  | fuel + 1 =>
      if den ≤ num then -(places : Int) else leadingPlace fuel (num * 10) den (places + 1)

/-- The exponent of the leading decimal digit of a positive quotient. -/
def leadingPower (num den : Nat) : Int :=
  if den ≤ num then ((Decimal.digits (num / den)).length : Int) - 1
  else leadingPlace 400 num den 0

def scaleTen (num den : Nat) (power : Int) : Nat × Nat :=
  if 0 ≤ power then (num, den * tenTo power.toNat) else (num * tenTo (-power).toNat, den)

/-- Whether `coefficient * 10 ^ power` rounds to the positive number `m * 2 ^ e`. The
interval of numbers that do includes its ends exactly when the mantissa is even. Below a
power of two the next number is only half as far away. -/
def readsBack (m : Nat) (e : Int) (coefficient : Nat) (power : Int) : Bool :=
  let narrow := m == twoTo 52 && decide (-1074 < e)
  let (lowNum, lowDen) :=
    if narrow then ratio (4 * m - 1) (e - 2) else ratio (2 * m - 1) (e - 1)
  let (highNum, highDen) := ratio (2 * m + 1) (e - 1)
  let (n, d) :=
    if 0 ≤ power then (coefficient * tenTo power.toNat, 1)
    else (coefficient, tenTo (-power).toNat)
  if m % 2 = 0 then
    decide (lowNum * d ≤ n * lowDen) && decide (n * highDen ≤ highNum * d)
  else
    decide (lowNum * d < n * lowDen) && decide (n * highDen < highNum * d)

/-- The nearest number with `count` digits that reads back, if there is one. -/
def withDigits? (m : Nat) (e : Int) (count : Nat) : Option Digits :=
  let (num, den) := ratio m e
  let power := leadingPower num den - count + 1
  let (n, d) := scaleTen num den power
  let below := n / d
  let lowOk := readsBack m e below power
  let highOk := readsBack m e (below + 1) power
  if lowOk && highOk then some ⟨roundDiv n d, power⟩
  else if lowOk then some ⟨below, power⟩
  else if highOk then some ⟨below + 1, power⟩
  else none

/-- The shortest digits that read back as the positive number. Seventeen always suffice. -/
def shortest (m : Nat) (e : Int) : Digits :=
  (((List.range 17).filterMap fun k => withDigits? m e (k + 1)).head?).getD ⟨m, 0⟩

/-- The digits without zeros at their end. -/
def dropZeros (fuel coefficient : Nat) (power : Int) : Digits :=
  match fuel with
  | 0 => ⟨coefficient, power⟩
  | fuel + 1 =>
      if coefficient ≠ 0 ∧ coefficient % 10 = 0 then dropZeros fuel (coefficient / 10) (power + 1)
      else ⟨coefficient, power⟩

/-- An exponent with its sign and at least two digits. -/
def exponentText (x : Int) : Text :=
  let d := Decimal.digits x.natAbs
  let padded := if d.length < 2 then '0' :: d else d
  (if x < 0 then '-' else '+') :: padded

/-- Digits with a point where the exponent of the last digit puts it. No point is written
after a whole number. -/
def positional (digits : Text) (power : Int) : Text :=
  if 0 ≤ power then digits ++ List.replicate power.toNat '0'
  else
    let places := (-power).toNat
    if places < digits.length then
      digits.take (digits.length - places) ++ '.' :: digits.drop (digits.length - places)
    else
      '0' :: '.' :: List.replicate (places - digits.length) '0' ++ digits

/-- Digits with a point after the first one and an exponent. -/
def scientific (digits : Text) (power : Int) : Text :=
  let lead := power + (digits.length : Int) - 1
  let mantissa := match digits with
    | [] => []
    | [d] => [d]
    | d :: more => d :: '.' :: more
  mantissa ++ 'e' :: exponentText lead

/-- The text of a number that is not finite. -/
def special (negative : Bool) (word : String) : Text :=
  if negative then '-' :: word.toList else word.toList

/-- The text of the shortest digits. Numbers from a ten-thousandth up to ten quadrillion
are written positionally, whole ones with a zero after the point. -/
def display (infinity notNumber : String) : Binary64 → Text
  | .nan => notNumber.toList
  | .infinite negative => special negative infinity
  | .finite negative m e =>
      let body :=
        if m = 0 then "0.0".toList
        else
          let s := shortest m e
          let s := dropZeros 20 s.coefficient s.power
          let digits := Decimal.digits s.coefficient
          let lead := s.power + (digits.length : Int) - 1
          if -4 ≤ lead ∧ lead < 16 then
            if 0 ≤ s.power then positional digits s.power ++ ".0".toList
            else positional digits s.power
          else scientific digits s.power
      if negative then '-' :: body else body

/-- Six significant digits without zeros at their end. Numbers from a ten-thousandth up to
a million are written positionally. -/
def general : Binary64 → Text
  | .nan => "nan".toList
  | .infinite negative => special negative "inf"
  | .finite negative m e =>
      let body :=
        if m = 0 then ['0']
        else
          let (num, den) := ratio m e
          let power := leadingPower num den - 5
          let (n, d) := scaleTen num den power
          let s := dropZeros 20 (roundDiv n d) power
          let digits := Decimal.digits s.coefficient
          let lead := s.power + (digits.length : Int) - 1
          if -4 ≤ lead ∧ lead < 6 then positional digits s.power else scientific digits s.power
      if negative then '-' :: body else body

end ProseLint.Binary64
