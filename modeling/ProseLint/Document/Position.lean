import ProseLint.Text.Basic

/-! Places in a source text. -/

namespace ProseLint

/-- A line, counted from 1, and an offset in it, counted from 0. -/
structure Position where
  line : Int
  offset : Int
  deriving DecidableEq, Repr, Inhabited

namespace Position

/-- Whether a place stands before another, or is the same: first by line, then by offset. -/
def le (p q : Position) : Bool := p.line < q.line || (p.line == q.line && p.offset ≤ q.offset)

/-- Whether a place stands before another. -/
def lt (p q : Position) : Bool := p.line < q.line || (p.line == q.line && p.offset < q.offset)

/-- Places in order, equal ones as often as they are given. -/
def sort (places : List Position) : List Position := places.mergeSort le

end Position

end ProseLint
