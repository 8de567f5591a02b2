import ProseLint.Document.Suppression
import ProseLint.Number.Decimal
import ProseLint.Source.Erasure
import ProseLint.Source.Reading

/-! What a markup language makes of the lines of a text. -/

namespace ProseLint

/-- Something in the source that was read differently from how it looks. -/
inductive MarkupWarning where
  | unclosedComment
  | unclosedBlock (name : Text)
  | mismatchedOverline (line : Nat) (above below : Text)
  deriving DecidableEq, Repr

namespace MarkupWarning

def message : MarkupWarning → Text
  | .unclosedComment => "Unterminated wiki comment block; closed at end of input".toList
  | .unclosedBlock name =>
      "Unterminated //".toList ++ name ++ " block; closed at end of input".toList
  | .mismatchedOverline line above below =>
      "Line ".toList ++ Decimal.digits line ++ ": overline '".toList ++ above ++
        "' does not match underline '".toList ++ below ++ "'".toList

end MarkupWarning

/-- Lines after a markup language has marked headers and lists and erased markup, with the
suppress comments found among them. -/
structure Classified where
  lines : List Line
  rules : List SuppressRule
  warnings : List MarkupWarning
  deriving DecidableEq, Repr

namespace Suppress

/-- What a line starts with that is a suppress comment. -/
def marker : Text := "//@Suppress@".toList

/-- The rule of a line that is a suppress comment. -/
def rule? (l : Line) : Option SuppressRule :=
  (marker.isPrefixOf? l.raw).map fun rest => .ofComment l.number (Text.words rest)

def rules (lines : List Line) : List SuppressRule := lines.filterMap rule?

def eraseComments (lines : List Line) : List Line :=
  lines.map fun l => if (rule? l).isSome then l.eraseAll else l

end Suppress

end ProseLint
