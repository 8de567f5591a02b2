import ProseLint.Text.Blank

/-! One line of source text. Each character keeps its place in the source, so markup can
be erased while the text that remains still points to where it came from. -/

namespace ProseLint

/-- A character of a line. `offset` is its place in the source line. An escaped character
was written after a backslash. A character is `kept` until it is erased, and `inline` says
that inline markup surrounded it. -/
structure Cell where
  char : Char
  offset : Nat
  escaped : Bool
  kept : Bool
  inline : Bool
  deriving DecidableEq, Repr, Inhabited

/-- A line with what a markup language says about it. Level 0 is no header and no list.
Each link has the position where its text starts. -/
structure Line where
  number : Nat
  raw : Text
  cells : List Cell
  sectionLevel : Nat
  listLevel : Int
  listStart : Bool
  erased : Bool
  links : List (Int × Text)
  deriving DecidableEq, Repr, Inhabited

namespace Cell

/-- A character as it was read. -/
def ofChar (c : Char) (offset : Nat) (escaped : Bool) : Cell := ⟨c, offset, escaped, true, false⟩

/-- What an escaped character shows to markup. No text holds this character, so an
escaped character is never taken for markup. -/
def escapedGlyph : Char := '\uFFFE'

/-- What the character shows to markup, or nothing once it is erased. -/
def glyph (c : Cell) : Option Char :=
  if c.kept then some (if c.escaped then escapedGlyph else c.char) else none

/-- What the character shows to markup whether it is erased or not. -/
def glyphOfAll (c : Cell) : Char := if c.escaped then escapedGlyph else c.char

/-- Whether the characters of `needle` stand at the start of the cells, each of them
kept and not escaped. -/
def spells : Text → List Cell → Bool
  | [], _ => true
  | _ :: _, [] => false
  | ch :: needle, c :: cells => c.glyph == some ch && spells needle cells

/-- The first position at which `needle` is spelled out. -/
def find? (needle : Text) : List Cell → Option Nat
  | [] => none
  | c :: cells =>
      if spells needle (c :: cells) then some 0 else (find? needle cells).map (· + 1)

end Cell

namespace Line

/-- The characters of a line from offset `i` on. With escapes a backslash stands for
nothing itself and marks the character after it. A backslash at the end is kept. -/
def cellsFrom (escapes : Bool) (i : Nat) : Text → List Cell
  | [] => []
  | [c] => [.ofChar c i false]
  | c :: d :: rest =>
      if escapes && c == '\\' then .ofChar d (i + 1) true :: cellsFrom escapes (i + 2) rest
      else .ofChar c i false :: cellsFrom escapes (i + 1) (d :: rest)

/-- The cells without the white space at their end. Escaped white space stays. -/
def trim (cells : List Cell) : List Cell :=
  (cells.reverse.dropWhile fun c => isBlank c.char && !c.escaped).reverse

/-- A line as it was read. -/
def ofText (number : Nat) (escapes : Bool) (raw : Text) : Line :=
  ⟨number, raw, trim (cellsFrom escapes 0 raw), 0, 0, false, false, []⟩

/-- The number of characters, erased ones included. -/
def length (l : Line) : Nat := l.cells.length

/-- The characters, erased ones included. -/
def text (l : Line) : Text := l.cells.map (·.char)

/-- The characters that have not been erased. -/
def keptText (l : Line) : Text := (l.cells.filter (·.kept)).map (·.char)

/-- The cell at a position, if the position is on the line. -/
def cell? (l : Line) (position : Int) : Option Cell :=
  if 0 ≤ position then l.cells[position.toNat]? else none

def glyphAt (l : Line) (position : Int) : Option Char := (l.cell? position).bind Cell.glyph

/-- What the line shows to markup at a position, erased characters included. -/
def glyphOfAllAt (l : Line) (position : Int) : Option Char :=
  (l.cell? position).map Cell.glyphOfAll

def charAt (l : Line) (position : Int) : Option Char := (l.cell? position).map (·.char)

/-- Whether the character at a position is on the line and not erased. -/
def isKept (l : Line) (position : Int) : Bool := ((l.cell? position).map (·.kept)).getD false

def isEscaped (l : Line) (position : Int) : Bool :=
  ((l.cell? position).map (·.escaped)).getD false

def isInline (l : Line) (position : Int) : Bool :=
  ((l.cell? position).map (·.inline)).getD false

/-- The place just past the last character. -/
def endOffset (l : Line) : Nat :=
  match l.cells.getLast? with
  | some c => c.offset + 1
  | none => 0

/-- The place of a position in the source line. Positions off the line have the place
just past the last character. -/
def offsetAt (l : Line) (position : Int) : Nat :=
  match l.cell? position with
  | some c => c.offset
  | none => l.endOffset

/-- Whether nothing visible is left of the line. -/
def isEmpty (l : Line) : Bool := l.cells.all fun c => !c.kept || isBlank c.char

def isIndent (c : Char) : Bool := c == ' ' || c == '\t'

/-- The number of spaces and tabs at the start of the line, erased ones included. -/
def indentation (l : Line) : Nat := (l.cells.takeWhile fun c => isIndent c.char).length

/-- Whether `needle` is spelled out at a position. -/
def startsWith (l : Line) (needle : Text) (position : Int) : Bool :=
  needle.isEmpty || (decide (0 ≤ position) && Cell.spells needle (l.cells.drop position.toNat))

/-- The first position from `start` on at which `needle` is spelled out. The empty needle
is found nowhere. -/
def find? (l : Line) (needle : Text) (start : Int) : Option Nat :=
  if needle.isEmpty then none
  else (Cell.find? needle (l.cells.drop start.toNat)).map (· + start.toNat)

end Line

end ProseLint
