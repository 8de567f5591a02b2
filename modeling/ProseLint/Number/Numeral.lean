import ProseLint.Number.Binary64
import ProseLint.Text.Blank
import ProseLint.Text.Digit
import ProseLint.Text.Lowercase

/-! Numbers written by people: surrounded by white space, with a sign, with digits of any
script, and with single underscores between digits. -/

namespace ProseLint.Numeral

/-- The longest run of digits that is read as a whole number. -/
def maxDigits : Nat := 4300

/-- White space that may surround a number. The four separators of ASCII are not part of
it. -/
def isSurrounding (c : Char) : Bool := isBlank c && !(28 ≤ c.toNat && c.toNat ≤ 31)

/-- The text without the white space around it. -/
def body (t : Text) : Text := Text.dropRightWhile isSurrounding (t.dropWhile isSurrounding)

/-- The digits at the start of a text and what follows. An underscore is passed only
between two digits; the flag says that one may follow. -/
def digitRun (afterDigit : Bool) : Text → List Nat × Text
  | [] => ([], [])
  | c :: rest =>
      match decimalValue? c with
      | some d =>
          let (more, tail) := digitRun true rest
          (d :: more, tail)
      | none =>
          if afterDigit && c == '_' then
            match rest with
            | next :: _ =>
                if isDecimal next then digitRun false rest else ([], c :: rest)
            | [] => ([], c :: rest)
          else ([], c :: rest)

/-- A sign at the start of a text, true for minus, and what follows. -/
def sign : Text → Bool × Text
  | '-' :: rest => (true, rest)
  | '+' :: rest => (false, rest)
  | t => (false, t)

/-- The number that the digits stand for. -/
def digitsValue (digits : List Nat) : Nat := digits.foldl (fun n d => 10 * n + d) 0

/-- A whole number, or nothing for any other text. -/
def int? (t : Text) : Option Int :=
  let (negative, unsigned) := sign (body t)
  let (digits, rest) := digitRun false unsigned
  if digits.isEmpty || !rest.isEmpty || maxDigits < digits.length then none
  else
    let n : Int := digitsValue digits
    some (if negative then -n else n)

/-- The exponent after the digits of a number. Without one the exponent is zero. -/
def exponent? : Text → Option Int
  | [] => some 0
  | c :: rest =>
      if c == 'e' || c == 'E' then
        let (negative, body) := sign rest
        let (digits, tail) := digitRun false body
        if digits.isEmpty || !tail.isEmpty then none
        else
          let n : Int := digitsValue digits
          some (if negative then -n else n)
      else none

def decimal? (negative : Bool) (t : Text) : Option Binary64 :=
  let (whole, rest) := digitRun false t
  let (fraction, rest) := match rest with
    | '.' :: after => digitRun false after
    | other => ([], other)
  if whole.isEmpty && fraction.isEmpty then none
  else (exponent? rest).map fun e =>
    Binary64.ofDecimal negative (digitsValue (whole ++ fraction)) (e - fraction.length)

/-- A number, finite or not, or nothing for any other text. -/
def float? (t : Text) : Option Binary64 :=
  let (negative, unsigned) := sign (body t)
  let word := String.ofList (unsigned.map Char.toLower)
  if word == "inf" || word == "infinity" then some (.infinite negative)
  else if word == "nan" then some .nan
  else decimal? negative unsigned

end ProseLint.Numeral
