import ProseLint.Configuration.Entry
import ProseLint.Json.Reader
import ProseLint.Markup.File

/-! Loading configurations. Every part of a source is checked on its own, and the problems
of all parts are reported together in the order of the parts. -/

namespace ProseLint

namespace Configuration

/-- The value of a part that must be one of some names. -/
def choice? (key default : String) (names : List String) (source : Json.Fields) : Option String :=
  match (Json.get? key source).getD (.str default) with
  | .str s => if names.contains s then some s else none
  | _ => none

def language? (source : Json.Fields) : Option String :=
  choice? "lang" "en" SymbolTable.languages source

def tokenizer? (source : Json.Fields) : Option Tokenizer :=
  (choice? "tokenizer" "whitespace" Tokenizer.names source).bind Tokenizer.ofName?

/-- The entries of the list of validators, read one by one. -/
def validatorEntries (known : Option (List Text)) (source : Json.Fields) :
    List (Except (List ValidatorEntryFault) ValidatorEntry) :=
  match Json.get? "validators" source with
  | some (.list entries) => entries.map (ValidatorEntry.ofJson known)
  | _ => []

/-- What is wrong with the list of validators as a whole. -/
def blockProblems (source : Json.Fields) : List ConfigurationProblem :=
  match Json.get? "validators" source with
  | none => [.noValidators]
  | some (.list _) => []
  | some _ => [.validatorsNoList]

def validatorProblems (entries : List (Except (List ValidatorEntryFault) ValidatorEntry)) :
    List ConfigurationProblem :=
  (entries.mapIdx fun i e => (faultsOf e).map (.validator i)).flatten

/-- The entries of the list of symbols, read one by one. No answer means that there is
something else in its place or in the place of a name. -/
def symbolEntries? (source : Json.Fields) : Option (List (Except (List SymbolEntryFault) Symbol)) :=
  match ((Json.get? "symbols" source).getD (.list [])).elements? with
  | some entries => entries.mapM SymbolEntry.ofJson?
  | none => none

def symbolProblems (entries : List (Except (List SymbolEntryFault) Symbol)) :
    List ConfigurationProblem :=
  (entries.mapIdx fun i e => (faultsOf e).map (.symbol i)).flatten

/-- The settings of the validators that are switched on. -/
def activeSettings (entries : List (Except (List ValidatorEntryFault) ValidatorEntry)) :
    List ValidatorSettings :=
  entries.filterMap fun e => match e with
    | .ok (.active settings) => some settings
    | _ => none

/-- A warning for each validator that is switched off. -/
def disabledWarnings (entries : List (Except (List ValidatorEntryFault) ValidatorEntry)) :
    List ConfigurationWarning :=
  (entries.mapIdx fun i e => match e with
    | .ok (.disabled name) => [.disabled i name]
    | _ => []).flatten

/-- The fault of a part without a value. -/
def absent {α : Type} (problem : ConfigurationProblem) : Option α → List ConfigurationProblem
  | some _ => []
  | none => [problem]

/-- All problems of a source, given the entries of its two lists. -/
def problems (source : Json.Fields)
    (validators : List (Except (List ValidatorEntryFault) ValidatorEntry))
    (symbols : List (Except (List SymbolEntryFault) Symbol)) : List ConfigurationProblem :=
  absent .language (language? source) ++ absent .tokenizer (tokenizer? source) ++
    blockProblems source ++ validatorProblems validators ++ symbolProblems symbols

/-- Loads a configuration from an object. When there are known names, every validator must
have one of them. -/
def ofFields (known : Option (List Text)) (source : Json.Fields) :
    Except ConfigurationFault (Configuration × List ConfigurationWarning) :=
  match symbolEntries? source with
  | none => .error .unusable
  | some symbols =>
      let validators := validatorEntries known source
      match problems source validators symbols, language? source, tokenizer? source with
      | [], some lang, some tokenizer =>
          let table := SymbolTable.create lang ((Json.get? "variant" source).getD (.str ""))
            (symbols.filterMap Except.toOption)
          .ok (⟨activeSettings validators, table, tokenizer,
            (Json.get? "metadata" source).getD (.object [])⟩, disabledWarnings validators)
      | found, _, _ => .error (.rejected (.invalid found))

/-- Loads a configuration from a data value. -/
def ofJson (known : Option (List Text)) :
    Json → Except ConfigurationFault (Configuration × List ConfigurationWarning)
  | .object source => ofFields known source
  | _ => .error (.rejected .rootNoObject)

/-- The source of the configuration that is used when there is none. -/
def defaultSource (lang : Json) : Json :=
  .object [("lang", lang), ("validators", .list [
    .object [("name", .str "SentenceLength"), ("attributes", .object [("max_len", .int 120)])],
    .object [("name", .str "CommaNumber")],
    .object [("name", .str "InvalidSymbol")],
    .object [("name", .str "DoubledWord")],
    .object [("name", .str "SectionLength"), ("attributes", .object [("max_num", .int 2000)])],
    .object [("name", .str "ParagraphNumber")]])]

/-- The configuration of a language that is used when there is none. -/
def default (lang : Json) :
    Except ConfigurationFault (Configuration × List ConfigurationWarning) :=
  ofJson none (defaultSource lang)

end Configuration

/-- Where a configuration comes from. -/
inductive ConfigurationSource where
  | data (value : Json)
  | file (path : Text)

namespace ConfigurationSource

/-- The data value of a source. A file must hold one value as UTF-8 text. -/
def value (files : Text → FileContent) : ConfigurationSource → Except ConfigurationFault Json
  | .data value => .ok value
  | .file path =>
      let path := Path.normalize path
      match files path with
      | .missing => .error (.rejected (.notFound path))
      | .directory => .error .directory
      | .bytes bytes =>
          match Utf8.decode bytes with
          | .error _ => .error .undecodable
          | .ok text =>
              match Json.read? text with
              | some value => .ok value
              | none => .error (.rejected (.malformed path))

def load (files : Text → FileContent) (known : Option (List Text)) (source : ConfigurationSource) :
    Except ConfigurationFault (Configuration × List ConfigurationWarning) :=
  match source.value files with
  | .ok value => Configuration.ofJson known value
  | .error fault => .error fault

end ConfigurationSource

/-- The configuration in use, and whether it has been loaded or is the empty one. -/
structure ActiveConfiguration where
  configuration : Configuration
  isLoaded : Bool

namespace ActiveConfiguration

def initial : ActiveConfiguration := ⟨.empty, false⟩

/-- Puts a loaded configuration into use. A failure leaves everything as it was. -/
def load (a : ActiveConfiguration) (files : Text → FileContent) (known : Option (List Text))
    (source : ConfigurationSource) :
    ActiveConfiguration × Except ConfigurationFault (List ConfigurationWarning) :=
  match source.load files known with
  | .ok (configuration, warnings) => (⟨configuration, true⟩, .ok warnings)
  | .error fault => (a, .error fault)

/-- The files after the configuration in use has been written to a path. -/
def save (a : ActiveConfiguration) (files : Text → FileContent) (path : Text) :
    Text → FileContent :=
  fun p => if p = Path.normalize path then .bytes (Utf8.encode a.configuration.saved) else files p

end ActiveConfiguration

end ProseLint
