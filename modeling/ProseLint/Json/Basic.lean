import ProseLint.Number.Shortest

/-! Data values with ordered objects. Whole numbers are exact and distinct from
floating-point numbers, and an object keeps its keys in the order in which they were
first written. -/

namespace ProseLint

/-- A data value. -/
inductive Json where
  | null
  | bool (b : Bool)
  | int (n : Int)
  | float (x : Binary64)
  | str (s : String)
  | list (items : List Json)
  | object (fields : List (String × Json))
  deriving Repr, Inhabited

namespace Json

/-- Key and value pairs in order. -/
abbrev Fields := List (String × Json)

/-- Writes a field. A key that is already there keeps its place and takes the new value. -/
def put (key : String) (value : Json) : Fields → Fields
  | [] => [(key, value)]
  | (k, v) :: rest => if k = key then (k, value) :: rest else (k, v) :: put key value rest

def get? (key : String) (fields : Fields) : Option Json := fields.lookup key

def hasKey (key : String) (fields : Fields) : Bool := (fields.lookup key).isSome

/-- What a value yields when it is walked through: the items of a list, the characters of
a text, the keys of an object. Other values cannot be walked through. -/
def elements? : Json → Option (List Json)
  | .list items => some items
  | .str s => some (s.toList.map fun c => .str (String.singleton c))
  | .object fields => some (fields.map fun f => .str f.1)
  | _ => none

/-- Whether a value counts as true. Null, false, zero and everything empty do not. -/
def truthy : Json → Bool
  | .null => false
  | .bool b => b
  | .int n => n != 0
  | .float x => !x.isZero
  | .str s => !s.isEmpty
  | .list items => !items.isEmpty
  | .object fields => !fields.isEmpty

/-- A text as a value. -/
def text (t : Text) : Json := .str (String.ofList t)

/-- A natural number as a value. -/
def nat (n : Nat) : Json := .int n

def option {α : Type} (encode : α → Json) : Option α → Json
  | some a => encode a
  | none => .null

end Json

end ProseLint
