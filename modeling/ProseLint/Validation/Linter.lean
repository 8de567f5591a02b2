import ProseLint.Configuration.Loading
import ProseLint.Validation.Outcome
import ProseLint.Validation.Registry

/-! A configuration made ready for use. -/

namespace ProseLint

/-- Validators together with what documents are read with. -/
structure Linter where
  validators : List Validator
  extractor : Extractor
  tokenizer : Tokenizer

namespace Linter

/-- Makes the validators of a configuration. The warnings come also when there is no
result. -/
def ofConfiguration (r : Registry) (c : Configuration) :
    List ConfigurationWarning × Except ConfigurationFault Linter :=
  match r.createAll c.symbols c.validators with
  | (warnings, .error fault) => (warnings, .error fault)
  | (warnings, .ok validators) =>
      (warnings, match c.extractor with
        | .ok extractor => .ok ⟨validators, extractor, c.tokenizer⟩
        | .error _ => .error .unusable)

def ofLoaded (r : Registry)
    (loaded : Except ConfigurationFault (Configuration × List ConfigurationWarning)) :
    List ConfigurationWarning × Except ConfigurationFault Linter :=
  match loaded with
  | .error fault => ([], .error fault)
  | .ok (c, warnings) =>
      let (more, linter) := ofConfiguration r c
      (warnings ++ more, linter)

def readOptions (l : Linter) (fileName : Option Text) : ReadOptions :=
  ⟨l.extractor, fileName, some l.tokenizer⟩

def check (l : Linter) (d : Document Sentence) : Outcome := Validator.checkAll l.validators [d]

end Linter

end ProseLint
