import ProseLint.Text.Template
import ProseLint.Validation.Setup

/-! Validators. A validator looks at one sentence, one section or one document at a time,
and may fail to give an answer. -/

namespace ProseLint

/-- What a validator does with each of its targets. No answer means that it failed. -/
inductive Check where
  | onSentence (find : Site → Option (List Problem))
  | onSection (find : Section Site → Option (List Problem))
  | onDocument (find : Document Site → Option (List Problem))

namespace Check

def scope : Check → String
  | .onSentence _ => "sentence"
  | .onSection _ => "section"
  | .onDocument _ => "document"

/-- The answers for all targets in a document, in order. -/
def answers (c : Check) (d : Document Site) : List (Option (List Problem)) :=
  match c with
  | .onSentence find => d.sentences.map find
  | .onSection find => d.sections.map find
  | .onDocument find => [find d]

end Check

/-- A validator ready for use. -/
structure Validator where
  name : Text
  severity : Severity
  check : Check

/-- A kind of validator: its name, the attributes that it knows with their defaults, and
how its check is made. -/
structure ValidatorKind where
  name : Text
  defaults : Json.Fields
  check : ValidatorSetup → Except ConfigurationFault Check

namespace ValidatorKind

def severityOf? (value : Json) : Option Severity :=
  let word := Text.lower (Text.strip (Quoted.plain value))
  if word == "warn".toList || word == "warning".toList then some .warning
  else if word == "error".toList then some .error
  else none

/-- A warning for each configured attribute that the kind does not know. The severity is
known to every kind. -/
def unknownAttributes (k : ValidatorKind) (attributes : Json.Fields) :
    List ConfigurationWarning :=
  attributes.filterMap fun a =>
    if Json.hasKey a.1 k.defaults || a.1 == "severity" then none
    else some (.unknownAttribute k.name a.1)

def attributes (k : ValidatorKind) (configured : Json.Fields) : Json.Fields :=
  configured.foldl (fun all a => Json.put a.1 a.2 all) k.defaults

/-- Makes a validator from configured attributes. -/
def make (k : ValidatorKind) (configured : Json.Fields) (symbols : SymbolTable) :
    Except ConfigurationFault Validator :=
  let severity := (Json.get? "severity" configured).getD (.str "error")
  match severityOf? severity with
  | none => .error (.rejected (.unknownSeverity k.name severity))
  | some severity =>
      (k.check ⟨k.name, k.attributes configured, symbols, severity⟩).map fun check =>
        ⟨k.name, severity, check⟩

end ValidatorKind

/-- A message from the template of a key. A key without a template is itself the template,
and the empty one stands for the name of the validator. No answer means that the template
cannot be filled in. -/
def ValidatorSetup.wording? (s : ValidatorSetup) (templates : List (Text × Text)) (key : Text)
    (args : List TemplateValue) : Option Text :=
  let fallback := if key.isEmpty then s.name else key
  Template.fill? ((templates.lookup key).getD fallback) args

end ProseLint
