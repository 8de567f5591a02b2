import ProseLint.Json.Basic
import ProseLint.Validation.Site

/-! What validators find. -/

namespace ProseLint

/-- How bad a problem is. -/
inductive Severity where
  | error
  | warning
  deriving DecidableEq, Repr

def Severity.name : Severity → String
  | .error => "error"
  | .warning => "warning"

/-- A problem found by a validator: what is wrong, on which line, in which sentence if in
one, and from which place to which. The file name is filled in when a whole document is
checked. -/
structure Problem where
  validator : Text
  message : Text
  line : Int
  site : Option Site
  fileName : Option Text
  severity : Severity
  start : Option Position
  stop : Option Position
  deriving DecidableEq, Repr

namespace Problem

/-- Where the problem starts in its line: at its own place, else where its sentence
starts. -/
def offset (p : Problem) : Int :=
  match p.start, p.site with
  | some place, _ => place.offset
  | none, some site => site.sentence.start
  | none, none => 0

/-- The content of the sentence, empty without one. -/
def content (p : Problem) : Text := (p.site.map (·.sentence.content)).getD []

/-- A text as a value. The empty text gives null. -/
def textOrNull (t : Text) : Json := if t.isEmpty then .null else .text t

/-- A place as a field, if there is one. -/
def placeField (key : String) : Option Position → Json.Fields
  | some p => [(key, .object [("line", .int p.line), ("offset", .int p.offset)])]
  | none => []

/-- The fields that say what is wrong and where, for a reader who has the sentence and the
document at hand. -/
def ownFields (p : Problem) : Json.Fields :=
  [("validator", .text p.validator), ("message", .text p.message), ("line_number", .int p.line),
    ("offset", .int p.offset), ("severity", .str p.severity.name)] ++
    placeField "start_position" p.start ++ placeField "end_position" p.stop

/-- The problem as a data value. -/
def toJson (p : Problem) : Json :=
  .object (p.ownFields ++ [("file_name", Json.option .text p.fileName),
    ("sentence", textOrNull p.content)])

end Problem

end ProseLint
