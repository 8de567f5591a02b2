import ProseLint.Source.Erasure

/-! Text between an opening and a closing delimiter. The pairs of delimiters are found
first, from left to right and without overlap, and then all of them are erased. An opening
delimiter without a closing one after it stays, and ends the search. -/

namespace ProseLint

/-- What is done with an enclosure: its delimiters are erased, or everything, or the
delimiters while the text between them is marked. -/
inductive EnclosureStyle where
  | markers
  | all
  | inlineMarkup
  deriving DecidableEq, Repr

/-- A kind of enclosure. With `boundary` its delimiters must stand at the edges of words. -/
structure Enclosure where
  opening : Text
  closing : Text
  style : EnclosureStyle
  boundary : Bool

namespace Enclosure

/-- Punctuation that may stand around an enclosure. -/
def boundaryMarks : Text := "-.,:;!?\\/'\"()[]\x7b\x7d<>".toList

/-- Whether a word may end at a character. Nothing at all, or something erased, is an edge. -/
def isBoundary : Option Char → Bool
  | none => true
  | some c => isBlank c || boundaryMarks.contains c

/-- Whether a delimiter is one character repeated and the same character stands beside it.
A single star is then half of a double one. -/
def isPartOfRun (delimiter : Text) (before after : Option Char) : Bool :=
  match delimiter with
  | [] => false
  | d :: rest => rest.all (· == d) && (before == some d || after == some d)

/-- Whether text may stand beside a delimiter on its inner side. -/
def isInside : Option Char → Bool
  | none => false
  | some c => !isBlank c

/-- Whether an opening delimiter may stand between two glyphs. -/
def acceptsOpening (boundary : Bool) (delimiter : Text) (before after : Option Char) : Bool :=
  !isPartOfRun delimiter before after && (!boundary || (isInside after && isBoundary before))

/-- Whether a closing delimiter may stand between two glyphs. -/
def acceptsClosing (boundary : Bool) (delimiter : Text) (before after : Option Char) : Bool :=
  !isPartOfRun delimiter before after && (!boundary || (isInside before && isBoundary after))

def headGlyph (cells : List Cell) : Option Char := cells.head?.bind Cell.glyph

/-- The first position of a delimiter that is accepted between the glyphs around it.
`before` is the glyph in front of the cells. -/
def seek (accepts : Option Char → Option Char → Bool) (delimiter : Text)
    (before : Option Char) : List Cell → Option Nat
  | [] => none
  | c :: cells =>
      if !delimiter.isEmpty && Cell.spells delimiter (c :: cells) &&
          accepts before (headGlyph ((c :: cells).drop delimiter.length)) then some 0
      else (seek accepts delimiter c.glyph cells).map (· + 1)

/-- The positions of the opening and closing delimiters of the enclosures in cells that
start at position `i`. An enclosure holds at least one character. Behind an enclosure its
closing delimiter counts as erased. -/
def pairs (e : Enclosure) (before : Option Char) (i : Nat) (cells : List Cell) :
    List (Nat × Nat) :=
  match cells with
  | [] => []
  | c :: rest =>
      match seek (acceptsOpening e.boundary e.opening) e.opening before (c :: rest) with
      | none => []
      | some b =>
          let content := (c :: rest).drop (b + e.opening.length)
          match seek (acceptsClosing e.boundary e.closing) e.closing (headGlyph content)
              (content.drop 1) with
          | none => []
          | some k =>
              let used := b + e.opening.length + 1 + k + e.closing.length
              let start := i + b
              let stop := start + e.opening.length + 1 + k
              (start, stop) :: pairs e none (i + used) ((c :: rest).drop used)
termination_by cells.length
decreasing_by
  simp only [List.length_drop, List.length_cons]
  omega

end Enclosure

namespace Line

/-- Erases one enclosure, given the positions of its delimiters. -/
def eraseAround (e : Enclosure) (l : Line) (pair : Nat × Nat) : Line :=
  let content := pair.1 + e.opening.length
  let bare := (l.erase pair.1 e.opening.length).erase pair.2 e.closing.length
  match e.style with
  | .markers => bare
  | .all => bare.erase content (pair.2 - content)
  | .inlineMarkup => bare.markInline content pair.2

def eraseEnclosure (l : Line) (e : Enclosure) : Line × Nat :=
  let found := e.pairs none 0 l.cells
  (found.foldl (eraseAround e) l, found.length)

end Line

end ProseLint
