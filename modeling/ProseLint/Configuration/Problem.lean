import ProseLint.Document.Token
import ProseLint.Symbol.Table

/-! What can be wrong with a configuration. A configuration is checked as a whole, so a
rejected one comes with all of its problems. -/

namespace ProseLint

/-- What is wrong with one entry of the list of validators. -/
inductive ValidatorEntryFault where
  | noObject
  | noName
  | unknown (name : Text)
  | attributesNoObject
  | attributeObject (key : String)
  deriving DecidableEq, Repr

/-- What is wrong with one entry of the list of symbols. -/
inductive SymbolEntryFault where
  | noObject
  | missing (field : String)
  | unknown (name : Text)
  | valueNoCharacter
  | invalidNoText
  deriving DecidableEq, Repr

/-- What is wrong with a part of a configuration. Entries are counted from 0. -/
inductive ConfigurationProblem where
  | language
  | tokenizer
  | noValidators
  | validatorsNoList
  | validator (index : Nat) (fault : ValidatorEntryFault)
  | symbol (index : Nat) (fault : SymbolEntryFault)
  deriving DecidableEq, Repr

/-- The numbers that an attribute can hold. -/
inductive NumberKind where
  | whole
  | any
  deriving DecidableEq, Repr

/-- Why a configuration cannot be used. -/
inductive ConfigurationError where
  | notFound (path : Text)
  | malformed (path : Text)
  | rootNoObject
  | invalid (problems : List ConfigurationProblem)
  | unknownValidator (name : Text) (known : List Text)
  | attributeNoNumber (validator : Text) (key : String) (kind : NumberKind) (value : Json)
  | unknownSeverity (validator : Text) (value : Json)

/-- Why no configuration, or no validator, came out. Only the first cause is reported as an
error of the configuration; the others end the work. -/
inductive ConfigurationFault where
  | rejected (error : ConfigurationError)
  | undecodable
  | directory
  | unusable
  | tooLarge

/-- Something about a configuration that does not keep it from being used. -/
inductive ConfigurationWarning where
  | disabled (index : Nat) (name : Text)
  | unknownAttribute (validator : Text) (key : String)
  | replaced (name : Text)
  deriving DecidableEq, Repr

def ValidatorEntryFault.message : ValidatorEntryFault → Text
  | .noObject => "must be an object or a name".toList
  | .noName => "'name' must be a non-empty string".toList
  | .unknown name => "Unknown validator '".toList ++ name ++ ['\'']
  | .attributesNoObject => "'attributes' must be an object".toList
  | .attributeObject key =>
      "attribute '".toList ++ key.toList ++ "' must be a scalar or a list".toList

def SymbolEntryFault.message : SymbolEntryFault → Text
  | .noObject => "must be an object".toList
  | .missing field => "Missing required field '".toList ++ field.toList ++ ['\'']
  | .unknown name => "Unknown symbol '".toList ++ name ++ ['\'']
  | .valueNoCharacter => "'value' must be a single character".toList
  | .invalidNoText => "'invalid_chars' must be a string".toList

/-- Names shown as a list. -/
def shownNames (names : List String) : Text := Quoted.showValue (.list (names.map .str))

namespace ConfigurationProblem

def entry (kind : String) (index : Nat) (message : Text) : Text :=
  kind.toList ++ " [".toList ++ Decimal.digits index ++ "]: ".toList ++ message

def message : ConfigurationProblem → Text
  | .language => "'lang' must be one of ".toList ++ shownNames SymbolTable.languages
  | .tokenizer => "'tokenizer' must be one of ".toList ++ shownNames Tokenizer.names
  | .noValidators => "Missing required block 'validators'".toList
  | .validatorsNoList => "'validators' must be a list".toList
  | .validator index fault => entry "Validator" index fault.message
  | .symbol index fault => entry "Symbol" index fault.message

end ConfigurationProblem

/-- What an attribute must be, in words. -/
def NumberKind.wanted : NumberKind → String
  | .whole => "an integer"
  | .any => "a number"

namespace ConfigurationError

def problems : ConfigurationError → List ConfigurationProblem
  | .invalid problems => problems
  | _ => []

/-- The error in words, without the single problems. -/
def summary : ConfigurationError → Text
  | .notFound path => "Configuration file not found: ".toList ++ path
  | .malformed path => "Malformed configuration file ".toList ++ path
  | .rootNoObject => "Configuration root must be an object".toList
  | .invalid _ => "Configuration validation failed".toList
  | .unknownValidator name known =>
      "Unknown validator '".toList ++ name ++ "', expected one of ".toList ++
        shownNames ((known.mergeSort Text.le).map String.ofList)
  | .attributeNoNumber validator key kind value =>
      validator ++ ": '".toList ++ key.toList ++ "' must be ".toList ++ kind.wanted.toList ++
        ", got ".toList ++ Quoted.showValue value
  | .unknownSeverity validator value =>
      validator ++ ": unknown severity ".toList ++ Quoted.showValue value

def message (e : ConfigurationError) : Text :=
  if e.problems.isEmpty then e.summary
  else e.summary ++ ": ".toList ++ Text.join "; ".toList (e.problems.map (·.message))

end ConfigurationError

def ConfigurationWarning.message : ConfigurationWarning → Text
  | .disabled index name =>
      ConfigurationProblem.entry "Validator" index ('\'' :: (name ++ "' is disabled".toList))
  | .unknownAttribute validator key =>
      validator ++ ": unknown attribute '".toList ++ key.toList ++ ['\'']
  | .replaced name => "Replacing registered validator '".toList ++ name ++ ['\'']

end ProseLint
