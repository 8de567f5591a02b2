import ProseLint.Json.Basic

/-! The written form of data values. Characters outside ASCII are written as themselves. -/

namespace ProseLint.Json

def hexDigit (d : Nat) : Char := if d < 10 then Char.ofNat (48 + d) else Char.ofNat (87 + d)

/-- A number below 65536 in four hexadecimal digits. -/
def hex4 (n : Nat) : Text :=
  [hexDigit (n / 4096 % 16), hexDigit (n / 256 % 16), hexDigit (n / 16 % 16), hexDigit (n % 16)]

/-- One character inside quotes. Control characters, the quote and the backslash are
escaped. -/
def escapeChar (c : Char) : Text :=
  if c = '"' then ['\\', '"']
  else if c = '\\' then ['\\', '\\']
  else if c = '\n' then ['\\', 'n']
  else if c = '\r' then ['\\', 'r']
  else if c = '\t' then ['\\', 't']
  else if c.toNat = 8 then ['\\', 'b']
  else if c.toNat = 12 then ['\\', 'f']
  else if c.toNat < 32 then '\\' :: 'u' :: hex4 c.toNat
  else [c]

def quote (t : Text) : Text := '"' :: (t.flatMap escapeChar ++ ['"'])

/-- Where the items of a list or an object are put: all on one line, or each on a line of
its own, indented by so many spaces for each level around it. -/
inductive Layout where
  | line
  | block (width : Nat)

namespace Layout

/-- What stands before an item at a depth. -/
def opening (l : Layout) (depth : Nat) : Text :=
  match l with
  | .line => []
  | .block width => '\n' :: List.replicate (width * depth) ' '

def separator (l : Layout) (depth : Nat) : Text :=
  match l with
  | .line => [',', ' ']
  | .block _ => ',' :: l.opening depth

end Layout

mutual

/-- The written form of a value inside `depth` lists and objects. -/
def renderAt (l : Layout) (depth : Nat) : Json → Text
  | .null => "null".toList
  | .bool true => "true".toList
  | .bool false => "false".toList
  | .int n => Decimal.ofInt n
  | .float x => x.display "Infinity" "NaN"
  | .str s => quote s.toList
  | .list [] => ['[', ']']
  | .list (item :: items) =>
      '[' :: (l.opening (depth + 1) ++ renderAt l (depth + 1) item ++
        renderItems l (depth + 1) items ++ l.opening depth ++ [']'])
  | .object [] => ['\x7b', '\x7d']
  | .object (field :: fields) =>
      '\x7b' :: (l.opening (depth + 1) ++ renderField l (depth + 1) field ++
        renderFields l (depth + 1) fields ++ l.opening depth ++ ['\x7d'])

/-- A key, a colon and a value. -/
def renderField (l : Layout) (depth : Nat) : String × Json → Text
  | (key, value) => quote key.toList ++ ':' :: ' ' :: renderAt l depth value

/-- The items after the first, each after a separator. -/
def renderItems (l : Layout) (depth : Nat) : List Json → Text
  | [] => []
  | item :: items => l.separator depth ++ renderAt l depth item ++ renderItems l depth items

/-- The fields after the first, each after a separator. -/
def renderFields (l : Layout) (depth : Nat) : List (String × Json) → Text
  | [] => []
  | field :: fields =>
      l.separator depth ++ renderField l depth field ++ renderFields l depth fields

end

def render (l : Layout) (v : Json) : Text := renderAt l 0 v

/-- The written form of a value as a string. -/
def renderString (l : Layout) (v : Json) : String := String.ofList (render l v)

end ProseLint.Json
