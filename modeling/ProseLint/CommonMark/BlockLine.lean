import ProseLint.CommonMark.Character
import ProseLint.Source.Reading

/-! Lines of a text while its blocks are found. The marks of the blocks around a line are
cut off or passed over, and what matters then is how far its text is indented. A tab goes
to the next column that four divides. -/

namespace ProseLint.CommonMark

/-- A line inside the blocks around it. `start` is where its own text begins, and `indent`
the column of that, where -1 says that the line only continues a paragraph. `base` is the
column at which `text` begins for the tabs in it. A line that is not `isEnded` is the last
one and has no line ending. -/
structure BlockLine where
  number : Nat
  text : Text
  isEnded : Bool
  start : Nat
  indent : Int
  base : Nat
  deriving Repr

/-- The blocks around some lines: the indentation that their text has at least, and that of
the list around, or -1. -/
structure Container where
  indent : Nat
  listIndent : Int

/-- The column behind the spaces and tabs at the start of a text that begins at a column,
and their number. -/
def advance (base column : Nat) : Text → Nat × Nat
  | c :: rest =>
      if c = '\t' then
        let (stop, n) := advance base (column + 4 - (column + base) % 4) rest
        (stop, n + 1)
      else if c = ' ' then
        let (stop, n) := advance base (column + 1) rest
        (stop, n + 1)
      else (column, 0)
  | [] => (column, 0)

namespace BlockLine

/-- A line with nothing around it. -/
def ofText (number : Nat) (isEnded : Bool) (text : Text) : BlockLine :=
  let (indent, start) := advance 0 0 text
  ⟨number, text, isEnded, start, indent, 0⟩

/-- The lines of a text from a number on. White space behind the last line ending is no
line. -/
def ofParts (number : Nat) : List Text → List BlockLine
  | [] => []
  | [last] => if last.all isSpacing then [] else [ofText number false last]
  | part :: parts => ofText number true part :: ofParts (number + 1) parts

/-- A character as it is read. -/
def readable (c : Char) : Char := if c = '\x00' then '\uFFFD' else c

def readAll (t : Text) : List BlockLine := ofParts 0 (Text.splitLines (t.map readable))

def body (l : BlockLine) : Text := l.text.drop l.start

/-- Whether there is no text on the line. -/
def isBlank (l : BlockLine) : Bool := l.body.isEmpty

def endedBody (l : BlockLine) : Text := if l.isEnded then l.body ++ ['\n'] else l.body

/-- What is left of a text when an indentation is cut off. Up to `start` any character
counts as one column, and a tab that goes too far leaves spaces. -/
def cut (base indent start column : Nat) : Text → Text
  | [] => List.replicate (column - indent) ' '
  | c :: rest =>
      if indent ≤ column then List.replicate (column - indent) ' ' ++ c :: rest
      else if c = '\t' then
        cut base indent (start - 1) (column + 4 - (column + base) % 4) rest
      else if c = ' ' ∨ 0 < start then cut base indent (start - 1) (column + 1) rest
      else c :: rest

/-- The text of the line without the indentation of the blocks around it. -/
def content (indent : Nat) (l : BlockLine) : Text := cut l.base indent l.start 0 l.text

/-- The text of some lines without the indentation of the blocks around them. -/
def contentOf (indent : Nat) (lines : List BlockLine) : Text :=
  Text.join ['\n'] (lines.map (content indent))

end BlockLine

end ProseLint.CommonMark
