import ProseLint.CommonMark.Character
import ProseLint.CommonMark.References
import ProseLint.Json.Reader
import ProseLint.Number.Decimal

/-! Character references and backslash escapes. -/

namespace ProseLint.CommonMark

/-- The digits of a number in a reference, behind its number sign, with the base. -/
def numeralOf (t : Text) : Nat × Text :=
  match t with
  | c :: rest =>
      if c = 'x' ∨ c = 'X' then (16, rest.takeWhile fun c => (Json.hexValue? c).isSome)
      else (10, t.takeWhile Decimal.isDigit)
  | [] => (10, [])

def numeralValue (base : Nat) (digits : Text) : Nat :=
  digits.foldl (fun n c => base * n + (Json.hexValue? c).getD 0) 0

/-- The name of a named reference: a letter and letters or digits, 32 characters at most. -/
def nameOf (t : Text) : Text :=
  match t with
  | c :: _ => if c.isAlpha then t.takeWhile Char.isAlphanum else []
  | [] => []

/-- The text of a reference in the text and its length, ampersand and semicolon included.
Numbers of characters that may not be referred to stand for a replacement. -/
def reference? (t : Text) : Option (Text × Nat) :=
  match t with
  | '&' :: '#' :: rest =>
      let (base, digits) := numeralOf rest
      let most := if base = 16 then 6 else 7
      let length := digits.length + (if base = 16 then 1 else 0)
      if digits.isEmpty ∨ most < digits.length ∨ rest[length]? ≠ some ';' then none
      else
        let n := numeralValue base digits
        some ([if isReferable n then Char.ofNat n else '\uFFFD'], length + 3)
  | '&' :: rest =>
      let name := nameOf rest
      if name.length < 2 ∨ 32 < name.length ∨ rest[name.length]? ≠ some ';' then none
      else (referenceText? name).map fun text => (text, name.length + 2)
  | _ => none

/-- The text for which a reference in an address or title stands, given what is between
ampersand and semicolon. Here numbers have up to eight digits, and one that may not be
referred to stays as it is. -/
def attributeReference? (body : Text) : Option Text :=
  match body with
  | '#' :: rest =>
      let (base, digits) := numeralOf rest
      let n := numeralValue base digits
      let length := digits.length + (if base = 16 then 1 else 0)
      if digits.isEmpty ∨ 8 < digits.length ∨ length < rest.length ∨ ¬ isReferable n then none
      else some [Char.ofNat n]
  | _ => referenceText? body

/-- What stands between an ampersand and a semicolon: a letter or a number sign and up to
31 letters or digits. -/
def attributeBody? (t : Text) : Option Text :=
  match t with
  | c :: rest =>
      let more := rest.takeWhile Char.isAlphanum
      if (c.isAlpha || c == '#') && 1 ≤ more.length && more.length ≤ 31 &&
          rest[more.length]? == some ';' then some (c :: more)
      else none
  | [] => none

/-- The text with its escapes and references resolved. The first `skip` characters belong
to one already resolved. -/
def unescapeFrom (skip : Nat) : Text → Text
  | [] => []
  | c :: rest =>
      match skip with
      | k + 1 => unescapeFrom k rest
      | 0 =>
          if c = '\\' then match rest with
            | d :: _ => if isAsciiPunctuation d then d :: unescapeFrom 1 rest
                else c :: unescapeFrom 0 rest
            | [] => [c]
          else if c = '&' then match attributeBody? rest with
            | some body => match attributeReference? body with
                | some text => text ++ unescapeFrom (body.length + 1) rest
                | none => c :: unescapeFrom 0 rest
            | none => c :: unescapeFrom 0 rest
          else c :: unescapeFrom 0 rest

def unescape (t : Text) : Text := unescapeFrom 0 t

end ProseLint.CommonMark
