import ProseLint.Document.Suppression
import ProseLint.Markup.Classified
import ProseLint.Markup.Markdown.Inline
import ProseLint.Text.Alphanumeric
import ProseLint.Text.Digit

/-! What the blocks of a Markdown text say about its lines. Headings and list items are
marked, blocks without prose are erased, and so are lines on which no block stands. -/

namespace ProseLint.Markdown

open CommonMark (Inline Block)

/-- Whether a character is a space or a tab, as it shows to markup. -/
def isIndent (glyph : Option Char) : Bool := glyph == some ' ' || glyph == some '\t'

/-- The number of cells at the start that show glyphs of some kind. -/
def runLength (p : Option Char → Bool) (cells : List Cell) : Nat :=
  (cells.takeWhile fun c => p c.glyph).length

/-- The first position at which something visible stands. -/
def firstVisible? (l : Line) : Option Nat :=
  l.cells.findIdx? fun c => match c.glyph with
    | some ch => !isBlank ch
    | none => false

/-- Erases spaces and tabs from a position on. -/
def eraseSpaces (l : Line) (position : Nat) : Line :=
  l.erase position (runLength isIndent (l.cells.drop position))

/-- Erases number signs that close a title, with the white space before them. -/
def eraseClosing (l : Line) : Line :=
  let cells := l.cells.reverse
  let signs := runLength (· == some '#') cells
  let before := cells.drop signs
  let blanks := runLength isIndent before
  let stands := match before with
    | [] => true
    | c :: _ => c.glyph.isNone || isIndent c.glyph
  if decide (0 < signs) && stands then
    l.erase (l.length - signs - blanks : Nat) (signs + blanks : Nat)
  else l

def eraseSigns (l : Line) : Line :=
  match firstVisible? l with
  | none => eraseClosing l
  | some start =>
      let signs := runLength (· == some '#') (l.cells.drop start)
      eraseClosing (eraseSpaces (l.erase start signs) (start + signs))

/-- The level that the tag of a heading names. -/
def levelOf (tag : Text) : Except BlockFault Nat :=
  match tag[1]? with
  | none => .error .noLevel
  | some c => match decimalValue? c with
      | none => .error .badLevel
      | some n => .ok n

/-- Marks the first line of a heading. A heading without number signs has its underline on
the last line. -/
def markHeading (tag mark : Text) : List Line → Except BlockFault (List Line)
  | [] => .ok []
  | title :: rest => do
      let level ← levelOf tag
      if mark.head? == some '#' then
        return { eraseSigns title with sectionLevel := level } :: rest
      else match rest.getLast? with
        | none => return [{ title.eraseAll with sectionLevel := level }]
        | some underline =>
            return { title with sectionLevel := level } :: (rest.dropLast ++ [underline.eraseAll])

def isBullet (mark : Text) : Bool := mark == ['-'] || mark == ['*'] || mark == ['+']

/-- Makes a line continue a list item. A line that starts an item stays as it is. -/
def continueItem (depth : Int) (l : Line) : Line :=
  if l.listStart then l else eraseSpaces { l with listLevel := depth } 0

/-- Marks the lines of a list item. The mark is a bullet, or a number with a character
after it. -/
def markItem (depth : Int) (mark : Text) : List Line → List Line
  | [] => []
  | first :: rest =>
      match firstVisible? first with
      | none => first :: rest
      | some start =>
          let digits := runLength (fun g => (g.map isDigitForm).getD false) (first.cells.drop start)
          let stop := if isBullet mark then start + 1 else start + digits + 1
          let bare := eraseSpaces (first.erase start (stop - start : Nat)) stop
          { bare with listStart := true, listLevel := depth } :: rest.map (continueItem depth)

def eraseQuoteMark (l : Line) : Line :=
  match firstVisible? l with
  | none => l
  | some i =>
      if l.glyphAt i ≠ some '>' then l
      else if l.glyphAt (i + 1) = some ' ' then l.erase i 2
      else l.erase i 1

def changeSpan {ε : Type} (span : Option (Nat × Nat)) (f : List Line → Except ε (List Line))
    (lines : List Line) : Except ε (List Line) :=
  match span with
  | none => .ok lines
  | some (first, stop) =>
      (f ((lines.take stop).drop first)).map fun changed =>
        lines.take first ++ changed ++ lines.drop (max first stop)

/-- The lines with the depth of the lists that are open. -/
structure State where
  lines : List Line
  depth : Int
  deriving DecidableEq, Repr

/-- Changes the lines on which a block stands. -/
def State.change (s : State) (b : Block) (f : List Line → Except BlockFault (List Line)) :
    Except BlockFault State :=
  (changeSpan b.lines f s.lines).map fun lines => { s with lines := lines }

def State.pass (s : State) (b : Block) : Except BlockFault State :=
  match b.kind with
  | .listOpen => .ok { s with depth := s.depth + 1 }
  | .listClose => .ok { s with depth := s.depth - 1 }
  | .item mark => s.change b fun lines => .ok (markItem s.depth mark lines)
  | .heading tag mark => s.change b (markHeading tag mark)
  | .quote => s.change b fun lines => .ok (lines.map eraseQuoteMark)
  | .noProse => s.change b fun lines => .ok (lines.map Line.eraseAll)
  | .inlines pieces => s.change b (eraseInline pieces)
  | .other => .ok s

/-- Whether some block stands on a line, counted from 0. -/
def isCovered (blocks : List Block) (i : Nat) : Bool :=
  blocks.any fun b => match b.lines with
    | some (first, stop) => decide (first ≤ i) && decide (i < stop)
    | none => false

/-- Erases the lines on which no block stands. -/
def eraseUncovered (blocks : List Block) (lines : List Line) : List Line :=
  lines.mapIdx fun i l => if isCovered blocks i then l else l.eraseAll

/-- The names in a suppress comment, if the text is one. -/
def suppressed? (t : Text) : Option (List Text) := do
  let comment ← "<!--".toList.isPrefixOf? t.stripLeft
  let body ← "@suppress".toList.isPrefixOf? (Text.stripLeft comment)
  let body := Text.stripRight body
  if (body.head?.map isWordChar).getD false ∨ ¬ Text.endsWith body "-->".toList then none
  else some (Text.words (body.take (body.length - 3)))

def rules (lines : List Line) : List SuppressRule :=
  lines.filterMap fun l => (suppressed? l.raw).map (.ofComment l.number)

/-- Classifies the lines of a text, given its blocks. -/
def classify (blocks : List Block) (lines : List Line) : Except BlockFault Classified :=
  (blocks.foldlM State.pass ⟨lines, 0⟩).map fun s =>
    ⟨eraseUncovered blocks s.lines, rules lines, []⟩

end ProseLint.Markdown
