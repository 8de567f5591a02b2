import ProseLint.Configuration.Problem
import ProseLint.Number.Numeral
import ProseLint.Validation.Problem

/-! What a validator is made from. Attributes are read here: each one has a default, and a
configured value of another kind is taken as far as it makes sense. -/

namespace ProseLint

/-- The name, the attributes with the defaults filled in, the symbols and the severity of a
validator to be made. -/
structure ValidatorSetup where
  name : Text
  attributes : Json.Fields
  symbols : SymbolTable
  severity : Severity

namespace ValidatorSetup

def value (s : ValidatorSetup) (key : String) : Json := (Json.get? key s.attributes).getD .null

/-- The fault of an attribute that holds no number. -/
def noNumber (s : ValidatorSetup) (key : String) (kind : NumberKind) : ConfigurationFault :=
  .rejected (.attributeNoNumber s.name key kind (s.value key))

/-- A whole number, or nothing. -/
def wholeOf? : Json → Option Int
  | .int n => some n
  | .bool b => some (if b then 1 else 0)
  | .float x => x.truncate?
  | .str t => Numeral.int? t.toList
  | _ => none

/-- An attribute as a whole number. Numbers are cut off at the point, and texts are read. -/
def int (s : ValidatorSetup) (key : String) : Except ConfigurationFault Int :=
  match s.value key with
  | .float (.infinite _) => .error .tooLarge
  | v =>
      match wholeOf? v with
      | some n => .ok n
      | none => .error (s.noNumber key .whole)

/-- An attribute as a number of any kind. Texts are read. -/
def float (s : ValidatorSetup) (key : String) : Except ConfigurationFault Binary64 :=
  match s.value key with
  | .int n =>
      match Binary64.ofInt? n with
      | some x => .ok x
      | none => .error .tooLarge
  | .bool b => .ok (.ofRatio false (if b then 1 else 0) 1)
  | .float x => .ok x
  | .str t =>
      match Numeral.float? t.toList with
      | some x => .ok x
      | none => .error (s.noNumber key .any)
  | _ => .error (s.noNumber key .any)

def trueWords : List Text := ["1", "true", "yes", "y"].map String.toList

/-- An attribute as a switch. A text must be one of the words for true. -/
def flag (s : ValidatorSetup) (key : String) : Bool :=
  match s.value key with
  | .str t => trueWords.contains (Text.lower (Text.strip t.toList))
  | v => v.truthy

/-- An attribute as a text. Null is the empty text. -/
def text (s : ValidatorSetup) (key : String) : Text :=
  match s.value key with
  | .null => []
  | v => Quoted.plain v

/-- The items of a value: the parts of a text between commas, or what a list holds. -/
def itemsOf? (v : Json) : Option (List Text) :=
  if v.truthy then
    match v with
    | .str t => some (Text.splitOn ',' t.toList)
    | other => other.elements?.map (·.map Quoted.plain)
  else some []

/-- An attribute as a set of texts, in order and without blank ones. A value that is neither
a text nor a list cannot be used. -/
def texts (s : ValidatorSetup) (key : String) : Except ConfigurationFault (List Text) :=
  match itemsOf? (s.value key) with
  | some items =>
      .ok ((((items.map Text.strip).filter (!·.isEmpty)).mergeSort Text.le).eraseDups)
  | none => .error .unusable

/-- A problem with a sentence, or with none. -/
def problem (s : ValidatorSetup) (message : Text) (site : Option Site) : Problem :=
  ⟨s.name, message, (site.map (·.sentence.line)).getD 0, site, none, s.severity, none, none⟩

/-- A problem with the characters of a sentence from `start` up to and not including
`stop`. -/
def problemAt (s : ValidatorSetup) (message : Text) (site : Site) (start stop : Nat) : Problem :=
  { s.problem message (some site) with
    start := site.sentence.positionAt? start,
    stop := site.sentence.positionAt? ((stop : Int) - 1) }

end ValidatorSetup

end ProseLint
