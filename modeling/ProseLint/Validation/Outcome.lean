import ProseLint.Document.Suppression
import ProseLint.Validation.Validator

/-! What comes out when validators look at documents. A validator that fails on one target
loses its answer for that target and nothing else. -/

namespace ProseLint

/-- The problems found and not hidden, how many were hidden, and for each failure the name
of the validator that failed. -/
structure Outcome where
  problems : List Problem
  suppressed : Nat
  failures : List Text
  deriving DecidableEq, Repr

namespace Outcome

def empty : Outcome := ⟨[], 0, []⟩

def append (a b : Outcome) : Outcome :=
  ⟨a.problems ++ b.problems, a.suppressed + b.suppressed, a.failures ++ b.failures⟩

/-- Outcomes one after the other. -/
def concat (outcomes : List Outcome) : Outcome := outcomes.foldr append empty

/-- What is said about a validator that failed. -/
def failureMessage (validator : Text) : Text :=
  "Validator ".toList ++ validator ++ " failed; its result is skipped".toList

end Outcome

/-- What a validator finds in a document. Problems that the document hides are counted and
dropped, and the others get the name of the file. -/
def Validator.run (v : Validator) (d : Document Sentence) : Outcome :=
  let answers := v.check.answers d.numbered
  let found := answers.flatMap fun a => a.getD []
  let kept := found.filter fun p => !d.isSuppressed p.line p.validator
  ⟨kept.map fun p => { p with fileName := d.fileName }, found.length - kept.length,
    (answers.filter Option.isNone).map fun _ => v.name⟩

namespace Validator

/-- What validators find in documents: validator by validator, and for each one document by
document. -/
def checkAll (validators : List Validator) (documents : List (Document Sentence)) : Outcome :=
  .concat (validators.flatMap fun v => documents.map v.run)

/-- What validators find in documents, for each document alone. -/
def checkEach (validators : List Validator) (documents : List (Document Sentence)) :
    List (Document Sentence × Outcome) :=
  documents.map fun d => (d, checkAll validators [d])

end Validator

/-- Counts over all that has been checked. -/
structure Statistics where
  documents : Nat
  problems : Nat
  suppressed : Nat
  failures : Nat
  deriving DecidableEq, Repr

namespace Statistics

def zero : Statistics := ⟨0, 0, 0, 0⟩

/-- The counts after so many more documents with an outcome. -/
def add (s : Statistics) (documents : Nat) (o : Outcome) : Statistics :=
  ⟨s.documents + documents, s.problems + o.problems.length, s.suppressed + o.suppressed,
    s.failures + o.failures.length⟩

end Statistics

end ProseLint
