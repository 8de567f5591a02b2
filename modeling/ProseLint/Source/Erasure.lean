import ProseLint.Source.Line

/-! Erasing characters from a line and marking them. Nothing here moves a character or
changes which character stands at a position. -/

namespace ProseLint.Line

/-- The cells with a change made at the positions from `start` up to and not including
`stop`. -/
def change (start stop : Int) (f : Cell → Cell) (cells : List Cell) : List Cell :=
  cells.mapIdx fun i c => if start ≤ i ∧ (i : Int) < stop then f c else c

/-- Erases `count` characters from a position on. -/
def erase (l : Line) (start count : Int) : Line :=
  { l with cells := change start (start + count) (fun c => { c with kept := false }) l.cells }

def eraseAll (l : Line) : Line :=
  { l with cells := l.cells.map fun c => { c with kept := false }, erased := true }

/-- Marks the characters from `start` up to and not including `stop` as inline markup. -/
def markInline (l : Line) (start stop : Int) : Line :=
  { l with cells := change start stop (fun c => { c with inline := true }) l.cells }

def addLink (l : Line) (position : Int) (url : Text) : Line :=
  { l with links := l.links ++ [(position, url)] }

/-- The positions at which `needle` is spelled out, each starting where the one before it
has ended or later. The first `skip` cells belong to one already taken. -/
def spellings (needle : Text) (skip i : Nat) : List Cell → List Nat
  | [] => []
  | c :: cells =>
      match skip with
      | k + 1 => spellings needle k (i + 1) cells
      | 0 =>
          if !needle.isEmpty && Cell.spells needle (c :: cells) then
            i :: spellings needle (needle.length - 1) (i + 1) cells
          else
            spellings needle 0 (i + 1) cells

def eraseSegment (l : Line) (segment : Text) : Line × Nat :=
  let found := spellings segment 0 0 l.cells
  (found.foldl (fun (l : Line) (i : Nat) => l.erase i segment.length) l, found.length)

end ProseLint.Line
