import ProseLint.Json.Printer
import ProseLint.Text.Printable

/-! Values shown in messages. Text stands in quotes, single ones unless only double ones
avoid an escape, and characters that cannot be shown stand as escapes. -/

namespace ProseLint.Quoted

/-- The lowest `count` hexadecimal digits of a number. -/
def hex (count n : Nat) : Text :=
  match count with
  | 0 => []
  | k + 1 => hex k (n / 16) ++ [Json.hexDigit (n % 16)]

def showChar (quote c : Char) : Text :=
  let n := c.toNat
  if c = quote ∨ c = '\\' then ['\\', c]
  else if c = '\n' then ['\\', 'n']
  else if c = '\r' then ['\\', 'r']
  else if c = '\t' then ['\\', 't']
  else if n < 32 ∨ n = 127 then '\\' :: 'x' :: hex 2 n
  else if n < 127 ∨ isPrintable c then [c]
  else if n < 0x100 then '\\' :: 'x' :: hex 2 n
  else if n < 0x10000 then '\\' :: 'u' :: hex 4 n
  else '\\' :: 'U' :: hex 8 n

def showText (t : Text) : Text :=
  let quote := if t.contains '\'' && !t.contains '"' then '"' else '\''
  quote :: (t.flatMap (showChar quote) ++ [quote])

mutual

/-- A value as it is shown in messages. -/
def showValue : Json → Text
  | .null => "None".toList
  | .bool true => "True".toList
  | .bool false => "False".toList
  | .int n => Decimal.ofInt n
  | .float x => x.display "inf" "nan"
  | .str s => showText s.toList
  | .list [] => ['[', ']']
  | .list (item :: items) => '[' :: (showValue item ++ showItems items ++ [']'])
  | .object [] => ['\x7b', '\x7d']
  | .object (field :: fields) =>
      '\x7b' :: (showField field ++ showFields fields ++ ['\x7d'])

def showField : String × Json → Text
  | (key, value) => showText key.toList ++ ':' :: ' ' :: showValue value

/-- The items after the first. -/
def showItems : List Json → Text
  | [] => []
  | item :: items => ',' :: ' ' :: showValue item ++ showItems items

/-- The fields after the first. -/
def showFields : List (String × Json) → Text
  | [] => []
  | field :: fields => ',' :: ' ' :: showField field ++ showFields fields

end

/-- A value as plain text: a text is itself, other values are shown. -/
def plain : Json → Text
  | .str s => s.toList
  | v => showValue v

end ProseLint.Quoted
