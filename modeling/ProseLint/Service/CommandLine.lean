import ProseLint.Report.Basic
import ProseLint.Service.Arguments
import ProseLint.Validation.Linter

/-! The command line. Files are given by a function, and what would be printed is a value,
so nothing here depends on a file system or a terminal. -/

namespace ProseLint

/-- What a run prints, and the code that it ends with. -/
structure Printed where
  code : Nat
  out : Text
  err : Text
  deriving DecidableEq, Repr

/-- A result with what is logged on the way, also when the work ends early. -/
structure Logged (α : Type) where
  log : List Text
  result : Except ConfigurationFault α

def Linter.log (warnings : List ReadWarning) (o : Outcome) : List Text :=
  warnings.map (·.message) ++ o.failures.map Outcome.failureMessage

namespace CommandLine

/-- The configuration that a request names, or that of its language. -/
def configuration (files : Text → FileContent) (r : Request) :
    Except ConfigurationFault (Configuration × List ConfigurationWarning) :=
  match r.conf with
  | none => Configuration.default (.text r.lang)
  | some path => (ConfigurationSource.file path).load files (some Registry.builtin.names)

/-- What has come of the files so far: the checked documents, what is printed about files
that cannot be read, and what is logged. -/
structure Progress where
  checked : List Checked
  err : Text
  log : List Text

/-- What is printed about a file that cannot be read. -/
def unreadable (path : Text) (e : FileError) : Text :=
  "Failed to read ".toList ++ path ++ ": ".toList ++ e.message ++ ['\n']

def step (files : Text → FileContent) (r : Request) (l : Linter) (p : Progress) (path : Text) :
    Progress :=
  match readPath files path r.format l.extractor (some l.tokenizer) with
  | .error e => { p with err := p.err ++ unreadable path e }
  | .ok reading =>
      let o := l.check reading.document
      ⟨p.checked ++ [⟨reading.document.fileName, o.problems⟩], p.err,
        p.log ++ Linter.log reading.warnings o⟩

def total (checked : List Checked) : Nat := (checked.flatMap (·.problems)).length

/-- Checks all files of a request and reports on those that could be read. -/
def report (files : Text → FileContent) (r : Request) (l : Linter) : Printed × List Text :=
  let p := r.files.foldl (step files r l) ⟨[], [], []⟩
  (⟨if r.limit < total p.checked then 1 else 0, Report.render r.resultFormat p.checked, p.err⟩,
    p.log)

/-- Carries out a request. A configuration that is rejected ends the run with a message;
other faults of a configuration are left to the caller. -/
def run (files : Text → FileContent) (r : Request) : Logged Printed :=
  match Linter.ofLoaded .builtin (configuration files r) with
  | (warnings, .error (.rejected e)) =>
      ⟨warnings.map (·.message),
        .ok ⟨1, [], "Configuration error: ".toList ++ e.message ++ ['\n']⟩⟩
  | (warnings, .error fault) => ⟨warnings.map (·.message), .error fault⟩
  | (warnings, .ok l) =>
      let (printed, log) := report files r l
      ⟨warnings.map (·.message) ++ log, .ok printed⟩

end CommandLine

end ProseLint
