import ProseLint.CommonMark.Character
import ProseLint.Text.Caseless

/-! Labels of references. Case and the amount of white space make no difference. -/

namespace ProseLint.CommonMark

/-- The form in which labels are compared. -/
def normalLabel (t : Text) : Text := ((t.trimWhile isWideGap).collapse isWideGap).caseless

/-- The addresses that a text defines for labels, the first one for each label. -/
abbrev Definitions := List (Text × Text)

def Definitions.address? (d : Definitions) (label : Text) : Option Text :=
  d.lookup (normalLabel label)

end ProseLint.CommonMark
