import ProseLint.Json.Printer
import ProseLint.Report.Group
import ProseLint.Text.Entity
import ProseLint.Text.Quoted

/-! Reports on checked documents in three forms: lines for people, a data value, and
markup. -/

namespace ProseLint

/-- A document that has been checked: the name of its file and what was found. -/
structure Checked where
  fileName : Option Text
  problems : List Problem
  deriving DecidableEq, Repr

namespace Checked

/-- The name under which the document is reported. -/
def name (c : Checked) : Text :=
  match c.fileName with
  | none => "<input>".toList
  | some [] => "<input>".toList
  | some name => name

def groups (c : Checked) : List ProblemGroup := ProblemGroup.ofProblems c.problems

end Checked

/-- The form of a report. -/
inductive ReportFormat where
  | plain
  | json
  | xml
  deriving DecidableEq, Repr

namespace ReportFormat

def named : List (String × ReportFormat) := [("json", .json), ("plain", .plain), ("xml", .xml)]

def names : List String := named.map (·.1)

def ofName? (name : String) : Option ReportFormat := named.lookup name

/-- What is said about a name that no form has. -/
def unknownMessage (name : Text) : Text :=
  "Unknown result format '".toList ++ name ++ "', expected one of ".toList ++
    Quoted.showValue (.list (names.map .str))

end ReportFormat

namespace Report

def number (n : Int) : Text := Decimal.ofInt n

/-! ## Lines -/

/-- The lines of a group: where the sentence is, then a line for each problem. -/
def groupLines (g : ProblemGroup) : List Text :=
  let place := number g.line ++ ':' :: number g.offset
  ("  ".toList ++ place ++ ' ' :: '"' :: (g.content ++ ['"'])) ::
    g.problems.map fun p => "    ".toList ++ p.validator ++ ": ".toList ++ p.message

def documentLines (c : Checked) : List Text :=
  if c.problems.isEmpty then [c.name ++ ": no errors".toList]
  else (c.name ++ ": ".toList ++ Decimal.digits c.problems.length ++ " errors".toList) ::
    c.groups.flatMap groupLines

/-- The report as lines. -/
def plain (documents : List Checked) : Text :=
  Text.join ['\n'] (documents.flatMap documentLines) ++ ['\n']

/-! ## Data values -/

/-- A document as a data value. -/
def documentJson (c : Checked) : Json :=
  .object [("document", .text c.name), ("errors", .list (c.groups.map (·.toJson)))]

/-- The report as a data value in a layout. -/
def json (layout : Json.Layout) (documents : List Checked) : Text :=
  Json.render layout (.list (documents.map documentJson))

/-! ## Markup -/

/-- An attribute of an element with a space before it. -/
def attributeText (name : String) (value : Text) : Text :=
  ' ' :: (name.toList ++ '=' :: '"' :: (Text.escapeMarkup value ++ ['"']))

def problemElement (p : Problem) : Text :=
  "\n      <error".toList ++ attributeText "validator" p.validator ++
    attributeText "severity" p.severity.name.toList ++ "\n            ".toList ++
    attributeText "line" (number p.line) ++ attributeText "offset" (number p.offset) ++ '>' ::
    Text.escapeMarkup p.message ++ "</error>".toList

def groupElement (g : ProblemGroup) : Text :=
  "\n    <sentence".toList ++ attributeText "line" (number g.line) ++
    attributeText "offset" (number g.offset) ++ ">\n      <content>".toList ++
    Text.escapeMarkup g.content ++ "</content>".toList ++ g.problems.flatMap problemElement ++
    "\n    </sentence>".toList

def documentElement (c : Checked) : Text :=
  "\n  <document".toList ++ attributeText "name" c.name ++
    attributeText "errors" (Decimal.digits c.problems.length) ++ '>' ::
    c.groups.flatMap groupElement ++ "\n  </document>".toList

/-- The report as markup. Every text from outside is escaped, so it cannot close an element
or open one. -/
def xml (documents : List Checked) : Text :=
  "<?xml version=\"1.0\" encoding=\"UTF-8\"?>\n<validation-result>".toList ++
    documents.flatMap documentElement ++ "\n</validation-result>\n".toList

/-- The report in a form. Data values are indented by two spaces. -/
def render (format : ReportFormat) (documents : List Checked) : Text :=
  match format with
  | .plain => plain documents
  | .json => json (.block 2) documents
  | .xml => xml documents

end Report

end ProseLint
