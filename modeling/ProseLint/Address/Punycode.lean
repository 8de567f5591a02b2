import ProseLint.Text.Basic

/-! Punycode writes a text of any characters with basic ones alone. The basic characters
come first; the others follow in the order of their codes, each as the distance from the
one before it. Distances are written to the base 36 with thresholds that adapt. -/

namespace ProseLint.Punycode

/-- A digit: letters stand for 0 to 25, the ten decimal digits for 26 to 35. -/
def digitChar (d : Nat) : Char := if d < 26 then Char.ofNat (97 + d) else Char.ofNat (22 + d)

def digitValue? (c : Char) : Option Nat :=
  let n := c.toNat
  if 97 ≤ n ∧ n ≤ 122 then some (n - 97)
  else if 65 ≤ n ∧ n ≤ 90 then some (n - 65)
  else if 48 ≤ n ∧ n ≤ 57 then some (n - 22)
  else none

/-- The threshold of a digit. A smaller digit is the last one of its number. -/
def threshold (place bias : Nat) : Nat := max 1 (min 26 (36 * (place + 1) - bias))

/-- Divides by 35 until the number is small, and counts. -/
def settle (delta count : Nat) : Nat × Nat :=
  if 455 < delta then settle (delta / 35) (count + 1) else (delta, count)
termination_by delta
decreasing_by omega

/-- The bias after a distance has been written, when there are so many characters then. -/
def adapt (delta : Nat) (isFirst : Bool) (count : Nat) : Nat :=
  let halved := if isFirst then delta / 700 else delta / 2
  let (small, steps) := settle (halved + halved / count) 0
  36 * steps + 36 * small / (small + 38)

/-- A distance in digits, from a place on. -/
def writeFrom (bias place n : Nat) : Text :=
  let t := threshold place bias
  if n < t then [digitChar n]
  else digitChar (t + (n - t) % (36 - t)) :: writeFrom bias (place + 1) ((n - t) / (36 - t))
termination_by n
decreasing_by
  have : 1 ≤ threshold place bias := Nat.le_max_left ..
  have : (n - threshold place bias) / (36 - threshold place bias) ≤ n - threshold place bias :=
    Nat.div_le_self ..
  omega

/-- The state of writing: the digits so far, the distance from the last character written,
the bias, and the number of characters written, basic ones included. -/
structure Writer where
  digits : Text
  delta : Nat
  bias : Nat
  count : Nat

def Writer.pass (basics code : Nat) (w : Writer) (c : Char) : Writer :=
  if c.toNat < code then { w with delta := w.delta + 1 }
  else if c.toNat = code then
    ⟨w.digits ++ writeFrom w.bias 0 w.delta, 0,
      adapt w.delta (w.count == basics) (w.count + 1), w.count + 1⟩
  else w

/-- The rounds for the codes from `next` on. -/
def Writer.rounds (t : Text) (basics next : Nat) (w : Writer) : List Nat → Writer
  | [] => w
  | code :: codes =>
      let start := { w with delta := w.delta + (code - next) * (w.count + 1) }
      let done := t.foldl (Writer.pass basics code) start
      Writer.rounds t basics (code + 1) { done with delta := done.delta + 1 } codes

def inOrder (l : List Nat) : List Nat := (l.mergeSort (· ≤ ·)).eraseDups

/-- The text with basic characters alone. -/
def encode (t : Text) : Text :=
  let basic := t.filter (·.toNat < 128)
  let codes := inOrder ((t.map Char.toNat).filter (128 ≤ ·))
  let written := Writer.rounds t basic.length 128 ⟨[], 0, 72, basic.length⟩ codes
  if basic.isEmpty then written.digits else basic ++ '-' :: written.digits

/-- A distance at the start of digits and what follows it. -/
def readFrom (bias place weight value : Nat) : Text → Option (Nat × Text)
  | [] => none
  | c :: rest =>
      match digitValue? c with
      | none => none
      | some d =>
          let t := threshold place bias
          let value := value + d * weight
          if d < t then some (value, rest)
          else readFrom bias (place + 1) (weight * (36 - t)) value rest

def insertAt (i : Nat) (c : Char) (t : Text) : Text := t.take i ++ c :: t.drop i

/-- Reads distances and puts each character in its place. `fuel` is the number of digits
left at most. -/
def readAll (fuel : Nat) (isFirst : Bool) (code : Nat) (place : Int) (bias : Nat) (done : Text)
    (digits : Text) : Option Text :=
  match fuel, digits with
  | _, [] => some done
  | 0, _ => none
  | fuel + 1, digits =>
      match readFrom bias 0 1 0 digits with
      | none => none
      | some (delta, rest) =>
          let count := done.length + 1
          let total := (place + delta + 1).toNat
          let code := code + total / count
          if 0x10FFFF < code then none
          else
            let i := total % count
            readAll fuel false code i (adapt delta isFirst count)
              (insertAt i (Char.ofNat code) done) rest

/-- The position of the last hyphen. -/
def lastHyphen? (t : Text) : Option Nat :=
  (t.reverse.findIdx? (· == '-')).map (t.length - 1 - ·)

/-- The text that was encoded, if all characters are basic and the digits are complete. -/
def decode (t : Text) : Option Text :=
  if t.any (128 ≤ ·.toNat) then none
  else
    let (basic, digits) := match lastHyphen? t with
      | some i => (t.take i, t.drop (i + 1))
      | none => ([], t)
    readAll digits.length true 128 (-1) 72 basic digits

end ProseLint.Punycode
