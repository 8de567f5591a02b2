import ProseLint.Document.Tree
import ProseLint.Text.Lowercase

/-! Suppress comments. A comment hides problems from the line after it to the last sentence
of the section in which that line lies. -/

namespace ProseLint

namespace SuppressRule

/-- The rule of a comment on a line. Names are compared without case. -/
def ofComment (line : Int) (names : List Text) : SuppressRule :=
  ⟨line + 1, (names.filter fun n => !n.isAllBlank).map fun n => n.strip.lower⟩

def appliesTo (r : SuppressRule) (validator : Text) : Bool :=
  r.names.isEmpty || r.names.contains validator.lower

def spans (lines : List Int) (line : Int) : Bool :=
  match lines with
  | [] => false
  | first :: rest => rest.foldl min first ≤ line && decide (line ≤ rest.foldl max first)

/-- Whether the rule hides what a validator says about a line. The line of the rule and
the other one must lie in the span of one section. -/
def hides (r : SuppressRule) (d : Document Sentence) (line : Int) (validator : Text) : Bool :=
  decide (r.line ≤ line) && r.appliesTo validator &&
    d.sections.any fun s =>
      let lines := s.sentences.map (·.line)
      spans lines r.line && spans lines line

end SuppressRule

namespace Document

/-- Whether some rule of the document hides what a validator says about a line. -/
def isSuppressed (d : Document Sentence) (line : Int) (validator : Text) : Bool :=
  d.rules.any fun r => r.hides d line validator

end Document

end ProseLint
