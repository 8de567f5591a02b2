import ProseLint.Json.Basic

/-! Reading data values from text. One value is read, with blanks around it and nothing
else. Of two fields with one key the later value stands in the earlier place. -/

namespace ProseLint.Json

def isSpacing (c : Char) : Bool := c == ' ' || c == '\n' || c == '\t' || c == '\r'

/-- The text from its first character that is no spacing. -/
def skipSpacing (t : Text) : Text := t.dropWhile isSpacing

def hexValue? (c : Char) : Option Nat :=
  let n := c.toNat
  if 48 ≤ n && n ≤ 57 then some (n - 48)
  else if 97 ≤ n && n ≤ 102 then some (n - 87)
  else if 65 ≤ n && n ≤ 70 then some (n - 55)
  else none

def hex4? : Text → Option (Nat × Text)
  | a :: b :: c :: d :: rest =>
      match hexValue? a, hexValue? b, hexValue? c, hexValue? d with
      | some a, some b, some c, some d => some (((a * 16 + b) * 16 + c) * 16 + d, rest)
      | _, _, _, _ => none
  | _ => none

/-- The character of an escape that is one letter long. -/
def shortEscape? (c : Char) : Option Char :=
  if c = '"' then some '"'
  else if c = '\\' then some '\\'
  else if c = '/' then some '/'
  else if c = 'b' then some (Char.ofNat 8)
  else if c = 'f' then some (Char.ofNat 12)
  else if c = 'n' then some '\n'
  else if c = 'r' then some '\r'
  else if c = 't' then some '\t'
  else none

/-- A character named by its code. A half of a surrogate pair without its other half
stands for no character and reads as the replacement character. -/
def charOf (code : Nat) : Char :=
  if 0xD800 ≤ code ∧ code ≤ 0xDFFF then '\uFFFD' else Char.ofNat code

/-- The character after a backslash and the letter u, with what follows. Two escapes that
form a surrogate pair are one character. -/
def unicodeEscape? (t : Text) : Option (Char × Text) :=
  match hex4? t with
  | none => none
  | some (high, rest) =>
      match rest with
      | '\\' :: 'u' :: more =>
          match hex4? more with
          | some (low, after) =>
              if 0xD800 ≤ high ∧ high ≤ 0xDBFF ∧ 0xDC00 ≤ low ∧ low ≤ 0xDFFF then
                some (Char.ofNat (0x10000 + (high - 0xD800) * 0x400 + (low - 0xDC00)), after)
              else some (charOf high, rest)
          | none => some (charOf high, rest)
      | _ => some (charOf high, rest)

/-- The rest of a text in quotes after its opening quote, and what follows the closing
one. Characters below the space must be escaped. -/
def stringBody (fuel : Nat) (t : Text) : Option (Text × Text) :=
  match fuel with
  | 0 => none
  | fuel + 1 =>
      match t with
      | [] => none
      | c :: rest =>
          if c = '"' then some ([], rest)
          else if c = '\\' then
            match rest with
            | [] => none
            | e :: after =>
                if e = 'u' then
                  match unicodeEscape? after with
                  | none => none
                  | some (u, tail) => (stringBody fuel tail).map fun r => (u :: r.1, r.2)
                else
                  match shortEscape? e with
                  | none => none
                  | some s => (stringBody fuel after).map fun r => (s :: r.1, r.2)
          else if c.toNat < 32 then none
          else (stringBody fuel rest).map fun r => (c :: r.1, r.2)

def digitSpan (t : Text) : Text × Text :=
  (t.takeWhile Decimal.isDigit, t.dropWhile Decimal.isDigit)

/-- A point and digits at the start of a text. A point without a digit after it is not
part of a number. -/
def fractionSpan (t : Text) : Text × Text :=
  match t with
  | '.' :: rest =>
      let (digits, after) := digitSpan rest
      if digits.isEmpty then ([], t) else (digits, after)
  | _ => ([], t)

/-- An exponent at the start of a text, if there is a whole one. -/
def exponentSpan (t : Text) : Option Int × Text :=
  match t with
  | c :: rest =>
      if c == 'e' || c == 'E' then
        let (negative, body) := match rest with
          | '-' :: more => (true, more)
          | '+' :: more => (false, more)
          | more => (false, more)
        let (digits, after) := digitSpan body
        if digits.isEmpty then (none, t)
        else
          let n : Int := Decimal.value digits
          (some (if negative then -n else n), after)
      else (none, t)
  | [] => (none, t)

/-- A number without its sign. The whole part is zero or does not start with zero. -/
def number? (negative : Bool) (t : Text) : Option (Json × Text) :=
  let (whole, rest) := match t with
    | '0' :: after => (['0'], after)
    | _ => digitSpan t
  if whole.isEmpty then none
  else
    let (fraction, rest) := fractionSpan rest
    let (exponent, rest) := exponentSpan rest
    if fraction.isEmpty && exponent.isNone then
      let n : Int := Decimal.value whole
      some (.int (if negative then -n else n), rest)
    else
      let x := Binary64.ofDecimal negative (Decimal.value (whole ++ fraction))
        (exponent.getD 0 - fraction.length)
      some (.float x, rest)

/-- Removes a word from the start of a text. -/
def word? (word : String) (t : Text) : Option Text := word.toList.isPrefixOf? t

/-- A number or a name that stands for a value. -/
def scalar? (t : Text) : Option (Json × Text) :=
  match t with
  | '-' :: rest =>
      match word? "Infinity" rest with
      | some after => some (.float (.infinite true), after)
      | none => number? true rest
  | _ =>
      match word? "null" t with
      | some after => some (.null, after)
      | none =>
          match word? "true" t with
          | some after => some (.bool true, after)
          | none =>
              match word? "false" t with
              | some after => some (.bool false, after)
              | none =>
                  match word? "NaN" t with
                  | some after => some (.float .nan, after)
                  | none =>
                      match word? "Infinity" t with
                      | some after => some (.float (.infinite false), after)
                      | none => number? false t

mutual

def value? (fuel : Nat) (t : Text) : Option (Json × Text) :=
  match fuel with
  | 0 => none
  | fuel + 1 =>
      match t with
      | [] => none
      | c :: rest =>
          if c = '"' then
            (stringBody rest.length.succ rest).map fun r => (.str (String.ofList r.1), r.2)
          else if c = '[' then
            match skipSpacing rest with
            | ']' :: after => some (.list [], after)
            | body => (items? fuel body).map fun r => (.list r.1, r.2)
          else if c = '\x7b' then
            match skipSpacing rest with
            | '\x7d' :: after => some (.object [], after)
            | body => (fields? fuel [] body).map fun r => (.object r.1, r.2)
          else scalar? t

/-- The items of a list up to the closing bracket, at least one. -/
def items? (fuel : Nat) (t : Text) : Option (List Json × Text) :=
  match fuel with
  | 0 => none
  | fuel + 1 =>
      match value? fuel t with
      | none => none
      | some (v, rest) =>
          match skipSpacing rest with
          | ',' :: after =>
              (items? fuel (skipSpacing after)).map fun r => (v :: r.1, r.2)
          | ']' :: after => some ([v], after)
          | _ => none

/-- The fields of an object up to the closing brace, at least one, added to those read. -/
def fields? (fuel : Nat) (read : Fields) (t : Text) : Option (Fields × Text) :=
  match fuel with
  | 0 => none
  | fuel + 1 =>
      match t with
      | '"' :: rest =>
          match stringBody rest.length.succ rest with
          | none => none
          | some (key, rest) =>
              match skipSpacing rest with
              | ':' :: after =>
                  match value? fuel (skipSpacing after) with
                  | none => none
                  | some (v, rest) =>
                      let read := put (String.ofList key) v read
                      match skipSpacing rest with
                      | ',' :: after => fields? fuel read (skipSpacing after)
                      | '\x7d' :: after => some (read, after)
                      | _ => none
              | _ => none
      | _ => none

end

/-- The one value that a text holds, or nothing when the text is anything else. -/
def read? (t : Text) : Option Json :=
  match value? (t.length + 1) (skipSpacing t) with
  | some (v, rest) => if (skipSpacing rest).isEmpty then some v else none
  | none => none

end ProseLint.Json
