import ProseLint.Json.Printer
import ProseLint.Json.Reader
import ProseLint.Text.Utf8

/-! Percent signs with two hexadecimal digits, which stand for bytes in addresses. -/

namespace ProseLint.Percent

def hexDigit (d : Nat) : Char := (Json.hexDigit d).toUpper

/-- A byte as a percent sign and two digits. -/
def escape (b : Nat) : Text := ['%', hexDigit (b / 16 % 16), hexDigit (b % 16)]

def isHex (c : Char) : Bool := (Json.hexValue? c).isSome

/-- Marks that need no escape. -/
def plainMarks : Text := ";/?:@&=+$,-_.!~*'()#".toList

/-- Whether a character needs no escape. -/
def isPlain (c : Char) : Bool := c.isAlphanum || plainMarks.contains c

/-- One character, escaped unless it is plain. -/
def escapeChar (c : Char) : Text :=
  if isPlain c then [c] else (Utf8.encodeChar c).flatMap escape

/-- The text with everything escaped that is not plain. Escapes that are already there
stay. -/
def encode : Text → Text
  | '%' :: a :: b :: rest =>
      if isHex a && isHex b then '%' :: a :: b :: encode rest
      else escapeChar '%' ++ encode (a :: b :: rest)
  | c :: rest => escapeChar c ++ encode rest
  | [] => []

/-- The bytes of the escapes at the start of a text and what follows them. -/
def bytesOf : Text → List Nat × Text
  | '%' :: a :: b :: rest =>
      match Json.hexValue? a, Json.hexValue? b with
      | some x, some y =>
          let (bytes, after) := bytesOf rest
          ((16 * x + y) :: bytes, after)
      | _, _ => ([], '%' :: a :: b :: rest)
  | t => ([], t)

/-- The number of bytes of the character that a byte begins. -/
def widthOf (b : Nat) : Nat :=
  if b < 0x80 then 1
  else if 0xC0 ≤ b ∧ b < 0xE0 then 2
  else if 0xE0 ≤ b ∧ b < 0xF0 then 3
  else if 0xF0 ≤ b ∧ b < 0xF8 then 4
  else 0

/-- What stands for a byte that is no part of a character. -/
def replacement : Char := '\uFFFD'

/-- The character of some bytes, or a replacement for each of them. -/
def charOf (bytes : List Nat) : Text :=
  match Utf8.decode (bytes.map UInt8.ofNat) with
  | .ok t => t
  | .error _ => List.replicate bytes.length replacement

/-- The text of some bytes. Characters in `keep` stay escaped. The first `skip` bytes
belong to a character already read. -/
def textOf (keep : Text) (skip : Nat) : List Nat → Text
  | [] => []
  | b :: rest =>
      match skip with
      | k + 1 => textOf keep k rest
      | 0 =>
          let width := widthOf b
          let tail := rest.take (width - 1)
          if b < 0x80 then
            (if keep.contains (Char.ofNat b) then escape b else [Char.ofNat b]) ++
              textOf keep 0 rest
          else if 2 ≤ width ∧ tail.length + 1 = width ∧ tail.all (fun b => b / 64 == 2) then
            charOf (b :: tail) ++ textOf keep (width - 1) rest
          else replacement :: textOf keep 0 rest

/-- The text without its escapes. Runs of escapes are read as UTF-8, and characters in
`keep` stay escaped. -/
def decodeFrom (keep : Text) (fuel : Nat) (t : Text) : Text :=
  match fuel, t with
  | 0, t => t
  | _, [] => []
  | fuel + 1, c :: rest =>
      match bytesOf (c :: rest) with
      | ([], _) => c :: decodeFrom keep fuel rest
      | (bytes, after) => textOf keep 0 bytes ++ decodeFrom keep fuel after

/-- The text without its escapes, apart from those of characters in `keep`. -/
def decode (keep t : Text) : Text := decodeFrom keep t.length t

end ProseLint.Percent
