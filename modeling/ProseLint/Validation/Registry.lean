import ProseLint.Configuration.Basic
import ProseLint.Validation.Rule.Size
import ProseLint.Validation.Rule.Spacing
import ProseLint.Validation.Rule.Start
import ProseLint.Validation.Rule.Wording

/-! The kinds of validators that a configuration can name. -/

namespace ProseLint

/-- The kinds that come with the library, in the order in which they are listed. -/
def ValidatorKind.builtin : List ValidatorKind :=
  [Rule.sentenceLength, Rule.commaNumber, Rule.invalidSymbol, Rule.invalidExpression,
    Rule.doubledWord, Rule.startWithCapitalLetter, Rule.spaceBetweenAlphabeticalWord,
    Rule.sectionLength, Rule.paragraphNumber, Rule.paragraphStartWith,
    Rule.frequentSentenceStart]

/-- Kinds of validators in order, each name once. -/
structure Registry where
  kinds : List ValidatorKind

namespace Registry

/-- The kinds that come with the library. -/
def builtin : Registry := ⟨ValidatorKind.builtin⟩

def names (r : Registry) : List Text := r.kinds.map (·.name)

def kind? (r : Registry) (name : Text) : Option ValidatorKind := r.kinds.find? (·.name == name)

/-- Puts a kind in the place of the one with its name, or at the end. -/
def put (k : ValidatorKind) : List ValidatorKind → List ValidatorKind
  | [] => [k]
  | other :: rest => if other.name = k.name then k :: rest else other :: put k rest

/-- Adds a kind. One that takes the place of another gives a warning. -/
def register (r : Registry) (k : ValidatorKind) : Registry × List ConfigurationWarning :=
  (⟨put k r.kinds⟩, if r.names.contains k.name then [.replaced k.name] else [])

/-- Makes a validator from its settings. The warnings come also when no validator does. -/
def create (r : Registry) (symbols : SymbolTable) (s : ValidatorSettings) :
    List ConfigurationWarning × Except ConfigurationFault Validator :=
  match r.kind? s.name with
  | none => ([], .error (.rejected (.unknownValidator s.name r.names)))
  | some k => (k.unknownAttributes s.attributes, k.make s.attributes symbols)

/-- Makes validators one after the other up to the first that cannot be made. -/
def createAll (r : Registry) (symbols : SymbolTable) :
    List ValidatorSettings → List ConfigurationWarning × Except ConfigurationFault (List Validator)
  | [] => ([], .ok [])
  | s :: rest =>
      match r.create symbols s with
      | (warnings, .error fault) => (warnings, .error fault)
      | (warnings, .ok v) =>
          let (more, others) := createAll r symbols rest
          (warnings ++ more, others.map (v :: ·))

end Registry

end ProseLint
