import ProseLint.Text.Basic

/-! Decoding UTF-8. The first byte that no text can hold there is reported with the place
where its character starts. -/

namespace ProseLint.Utf8

/-- Why bytes are not a text. -/
inductive Reason where
  | invalidStart
  | invalidContinuation
  | unexpectedEnd
  deriving DecidableEq, Repr

def Reason.message : Reason → String
  | .invalidStart => "invalid start byte"
  | .invalidContinuation => "invalid continuation byte"
  | .unexpectedEnd => "unexpected end of data"

/-- The first fault of a byte sequence: where the character starts that cannot be read. -/
structure Fault where
  position : Nat
  reason : Reason
  deriving DecidableEq, Repr

/-- What the bytes after a first byte must be: how many there are, and the bounds of the
next one. All further ones run from 128 to 191. -/
structure Tail where
  count : Nat
  low : Nat
  high : Nat

/-- What follows a first byte of 128 or more, with the bits that it contributes. The
overlong forms, the surrogates and the codes past the last one have no first byte or
narrower bounds. -/
def lead? (b : Nat) : Option (Nat × Tail) :=
  if 0xC2 ≤ b ∧ b ≤ 0xDF then some (b - 0xC0, ⟨1, 0x80, 0xBF⟩)
  else if b = 0xE0 then some (0, ⟨2, 0xA0, 0xBF⟩)
  else if b = 0xED then some (0xD, ⟨2, 0x80, 0x9F⟩)
  else if 0xE1 ≤ b ∧ b ≤ 0xEF then some (b - 0xE0, ⟨2, 0x80, 0xBF⟩)
  else if b = 0xF0 then some (0, ⟨3, 0x90, 0xBF⟩)
  else if b = 0xF4 then some (4, ⟨3, 0x80, 0x8F⟩)
  else if 0xF1 ≤ b ∧ b ≤ 0xF3 then some (b - 0xF0, ⟨3, 0x80, 0xBF⟩)
  else none

/-- The state between two bytes: between characters, or inside one that started at a
position, with the bits read so far and the bytes still owed. -/
inductive State where
  | between
  | inside (start bits : Nat) (owed : Tail)

/-- Reads on from a state, where `i` bytes have been passed. -/
def decodeFrom (state : State) (i : Nat) : List UInt8 → Except Fault Text
  | [] =>
      match state with
      | .between => .ok []
      | .inside start _ _ => .error ⟨start, .unexpectedEnd⟩
  | byte :: rest =>
      let b := byte.toNat
      match state with
      | .between =>
          if b < 0x80 then (decodeFrom .between (i + 1) rest).map (Char.ofNat b :: ·)
          else match lead? b with
            | some (bits, owed) => decodeFrom (.inside i bits owed) (i + 1) rest
            | none => .error ⟨i, .invalidStart⟩
      | .inside start bits owed =>
          if b < owed.low ∨ owed.high < b then .error ⟨start, .invalidContinuation⟩
          else
            let bits := bits * 64 + (b - 0x80)
            if owed.count ≤ 1 then (decodeFrom .between (i + 1) rest).map (Char.ofNat bits :: ·)
            else decodeFrom (.inside start bits ⟨owed.count - 1, 0x80, 0xBF⟩) (i + 1) rest

def decode (bytes : List UInt8) : Except Fault Text := decodeFrom .between 0 bytes

def encodeChar (c : Char) : List Nat :=
  let n := c.toNat
  if n < 0x80 then [n]
  else if n < 0x800 then [0xC0 + n / 64, 0x80 + n % 64]
  else if n < 0x10000 then [0xE0 + n / 4096, 0x80 + n / 64 % 64, 0x80 + n % 64]
  else [0xF0 + n / 262144, 0x80 + n / 4096 % 64, 0x80 + n / 64 % 64, 0x80 + n % 64]

/-- The bytes of a text. -/
def encode (t : Text) : List UInt8 := (t.flatMap encodeChar).map UInt8.ofNat

end ProseLint.Utf8

namespace ProseLint.Text

/-- The text with every line ending written as a line feed. -/
def unifyNewlines : Text → Text
  | [] => []
  | '\r' :: '\n' :: rest => '\n' :: unifyNewlines rest
  | '\r' :: rest => '\n' :: unifyNewlines rest
  | c :: rest => c :: unifyNewlines rest

end ProseLint.Text
