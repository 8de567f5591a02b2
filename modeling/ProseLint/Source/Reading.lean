import ProseLint.Source.Line

/-! Cutting a text into lines. -/

namespace ProseLint

namespace Text

/-- The parts of a text between line endings. A carriage return with a line feed after it
is one line ending. -/
def splitLines : Text → List Text
  | [] => [[]]
  | '\r' :: '\n' :: rest => [] :: splitLines rest
  | c :: rest =>
      if c = '\r' ∨ c = '\n' then [] :: splitLines rest
      else match splitLines rest with
        | [] => [[c]]
        | line :: lines => (c :: line) :: lines

/-- The lines of a text. A line ending at the very end starts no further line. -/
def lines (t : Text) : List Text :=
  let parts := splitLines t
  if parts.getLast? = some [] then parts.dropLast else parts

end Text

/-- The lines of a text, numbered from 1. -/
def Line.readAll (escapes : Bool) (t : Text) : List Line :=
  t.lines.mapIdx fun i raw => .ofText (i + 1) escapes raw

end ProseLint
