import ProseLint.Proofs.Report.Grouping
import ProseLint.Proofs.Text.Markup
import ProseLint.Report.Basic

/-! Reports as markup. Every element is a stretch of text that ends with a tag, and all that comes
from outside is escaped. So a reader comes across the elements that the documents, sentences and
problems call for, one inside the other, and across no others. -/

namespace ProseLint

namespace Report

open Markup

/-- The tag of a problem without its brackets. -/
def errorTag (p : Problem) : Text :=
  "error".toList ++ (attributeText "validator" p.validator ++
    (attributeText "severity" p.severity.name.toList ++ ("\n            ".toList ++
      (attributeText "line" (number p.line) ++ attributeText "offset" (number p.offset)))))

def problemTags (p : Problem) : List Text := [errorTag p ++ ['>'], "/error>".toList]

/-- What a reader comes across for a problem. -/
def problemEvents (p : Problem) : List Event :=
  [.characters "\n      ".toList,
    .opening "error".toList [("validator".toList, p.validator),
      ("severity".toList, p.severity.name.toList), ("line".toList, number p.line),
      ("offset".toList, number p.offset)],
    .characters p.message, .closing "error".toList]

/-- The tag of a sentence without its brackets. -/
def sentenceTag (g : ProblemGroup) : Text :=
  "sentence".toList ++ (attributeText "line" (number g.line) ++
    attributeText "offset" (number g.offset))

def groupTags (g : ProblemGroup) : List Text :=
  [sentenceTag g ++ ['>'], "content>".toList, "/content>".toList] ++
    g.problems.flatMap problemTags ++ ["/sentence>".toList]

/-- What a reader comes across for a sentence: its content, then its problems. -/
def groupEvents (g : ProblemGroup) : List Event :=
  [.characters "\n    ".toList,
    .opening "sentence".toList [("line".toList, number g.line), ("offset".toList, number g.offset)],
    .characters "\n      ".toList, .opening "content".toList [],
    .characters g.content, .closing "content".toList] ++
  g.problems.flatMap problemEvents ++
  [.characters "\n    ".toList, .closing "sentence".toList]

/-- The tag of a document without its brackets. -/
def documentTag (c : Checked) : Text :=
  "document".toList ++ (attributeText "name" c.name ++
    attributeText "errors" (Decimal.digits c.problems.length))

def documentTags (c : Checked) : List Text :=
  [documentTag c ++ ['>']] ++ c.groups.flatMap groupTags ++ ["/document>".toList]

/-- What a reader comes across for a document. -/
def documentEvents (c : Checked) : List Event :=
  [.characters "\n  ".toList,
    .opening "document".toList [("name".toList, c.name),
      ("errors".toList, Decimal.digits c.problems.length)]] ++
  c.groups.flatMap groupEvents ++
  [.characters "\n  ".toList, .closing "document".toList]

/-- The inside of the declaration in front of a report. -/
def declaration : Text :=
  '?' :: ("xml".toList ++ (attributeText "version" "1.0".toList ++
    attributeText "encoding" "UTF-8".toList) ++ ['?'])

/-- What a reader comes across in a report. -/
def events (documents : List Checked) : List Event :=
  [.characters [],
    .declaration "xml".toList
      [("version".toList, "1.0".toList), ("encoding".toList, "UTF-8".toList)],
    .characters ['\n'], .opening "validation-result".toList []] ++
  documents.flatMap documentEvents ++
  [.characters ['\n'], .closing "validation-result".toList, .characters ['\n']]

def tags (documents : List Checked) : List Text :=
  [declaration ++ ['>'], "validation-result>".toList] ++
    documents.flatMap documentTags ++ ["/validation-result>".toList]

end Report

end ProseLint
