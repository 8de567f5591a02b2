import ProseLint.Proofs.Validation.Numbering
import ProseLint.Validation.Outcome
import Mathlib.Data.List.Basic

/-! What validators find in documents, invocation by invocation. Every validator is asked about
every target of every document. An invocation that fails brings nothing, and it takes nothing
away from the others. -/

namespace ProseLint

/-- What a validator can be asked about. -/
inductive Target where
  | ofSentence (site : Site)
  | ofSection (s : Section Site)
  | ofDocument (d : Document Site)

namespace Check

/-- The targets in a document, in order. Sentences come section by section, in each one the
header before the paragraphs and the paragraphs before the lists. -/
def targets (c : Check) (d : Document Sentence) : List Target :=
  match c with
  | .onSentence _ => d.sentences.mapIdx fun i s => .ofSentence ⟨i, s⟩
  | .onSection _ => d.numbered.sections.map .ofSection
  | .onDocument _ => [.ofDocument d.numbered]

/-- The answer for one target. A target of another kind has none. -/
def answer : Check → Target → Option (List Problem)
  | .onSentence find, .ofSentence site => find site
  | .onSection find, .ofSection s => find s
  | .onDocument find, .ofDocument d => find d
  | _, _ => none

theorem answers_eq (c : Check) (d : Document Sentence) :
    c.answers d.numbered = (c.targets d).map c.answer := by
  cases c with
  | onSentence find =>
      rw [answers, Document.numbered_sentences, targets, map_mapIdx, map_mapIdx]
      rfl
  | onSection find =>
      rw [answers, targets, List.map_map]
      rfl
  | onDocument find => rfl

/-- The check that fails on some targets and is as before on the others. -/
def failOn (raises : Target → Bool) : Check → Check
  | .onSentence find => .onSentence fun x => if raises (.ofSentence x) then none else find x
  | .onSection find => .onSection fun x => if raises (.ofSection x) then none else find x
  | .onDocument find => .onDocument fun x => if raises (.ofDocument x) then none else find x

theorem failOn_targets (raises : Target → Bool) (c : Check) (d : Document Sentence) :
    (c.failOn raises).targets d = c.targets d := by
  cases c <;> rfl

theorem failOn_answer (raises : Target → Bool) (c : Check) (x : Target) :
    (c.failOn raises).answer x = if raises x then none else c.answer x := by
  cases c <;> cases x <;> simp [failOn, answer]

end Check

namespace Validator

/-- The validator that fails on some targets and is as before on the others. -/
def failOn (raises : Target → Bool) (v : Validator) : Validator :=
  { v with check := v.check.failOn raises }

end Validator

/-! ## Invocations -/

/-- A validator that looks at a target in a document. The index tells validators apart that
are the same. -/
structure Invocation where
  index : Nat
  validator : Validator
  document : Document Sentence
  target : Target

namespace Invocation

/-- The invocations of a validator in a document. -/
def ofRun (i : Nat) (v : Validator) (d : Document Sentence) : List Invocation :=
  (v.check.targets d).map (Invocation.mk i v d)

/-- All invocations: validator by validator, for each one document by document, and in each
document target by target. -/
def all (validators : List Validator) (documents : List (Document Sentence)) : List Invocation :=
  (validators.mapIdx fun i v => documents.flatMap (ofRun i v)).flatten

def answer (call : Invocation) : Option (List Problem) := call.validator.check.answer call.target

/-- Whether the validator failed. -/
def fails (call : Invocation) : Bool := call.answer.isNone

/-- The problems found. A validator that failed has found none. -/
def found (call : Invocation) : List Problem := call.answer.getD []

def isHidden (call : Invocation) (p : Problem) : Bool :=
  call.document.isSuppressed p.line p.validator

/-- The problems that the document hides. -/
def hidden (call : Invocation) : List Problem := call.found.filter call.isHidden

/-- The other problems, each with the name of the file and else as it was found. -/
def returned (call : Invocation) : List Problem :=
  (call.found.filter (!call.isHidden ·)).map ({ · with fileName := call.document.fileName })

/-- The same invocation of a validator that fails on some targets. -/
def failOn (raises : Nat → Target → Bool) (call : Invocation) : Invocation :=
  { call with validator := call.validator.failOn (raises call.index) }

theorem failOn_returned (raises : Nat → Target → Bool) (call : Invocation) :
    (call.failOn raises).returned =
      if raises call.index call.target then [] else call.returned := by
  have hAnswer : (call.failOn raises).answer =
      if raises call.index call.target then none else call.answer :=
    Check.failOn_answer _ _ _
  cases hRaises : raises call.index call.target with
  | true => simp [returned, found, hAnswer, hRaises]
  | false =>
      simp only [returned, found, hAnswer, hRaises]
      rfl

/-- Invocations that are made to fail are as good as left out. -/
theorem flatMap_failOn_returned (raises : Nat → Target → Bool) (calls : List Invocation) :
    (calls.map (failOn raises)).flatMap (·.returned) =
      (calls.filter fun call => !raises call.index call.target).flatMap (·.returned) := by
  induction calls with
  | nil => rfl
  | cons call rest ih =>
      rw [List.map_cons, List.flatMap_cons, ih, failOn_returned]
      cases hRaises : raises call.index call.target <;> simp [hRaises]

theorem ofRun_failOn (raises : Nat → Target → Bool) (i : Nat) (v : Validator)
    (d : Document Sentence) :
    ofRun i (v.failOn (raises i)) d = (ofRun i v d).map (failOn raises) := by
  rw [ofRun, Validator.failOn, Check.failOn_targets, ofRun, List.map_map]
  rfl

theorem all_failOn (raises : Nat → Target → Bool) (validators : List Validator)
    (documents : List (Document Sentence)) :
    all (validators.mapIdx fun i v => v.failOn (raises i)) documents =
      (all validators documents).map (failOn raises) := by
  rw [all, all, List.map_flatten, map_mapIdx, List.mapIdx_mapIdx]
  refine congrArg (fun f => (validators.mapIdx f).flatten) (funext fun i => funext fun v => ?_)
  simp only [Function.comp_apply, List.map_flatMap]
  exact congrArg (documents.flatMap ·) (funext (ofRun_failOn raises i v))

end Invocation

/-! ## Outcomes -/

namespace Outcome

/-- What invocations bring, one after the other. -/
def ofInvocations (calls : List Invocation) : Outcome :=
  ⟨calls.flatMap (·.returned), (calls.flatMap (·.hidden)).length,
    (calls.filter (·.fails)).map (·.validator.name)⟩

theorem ofInvocations_append (before after : List Invocation) :
    ofInvocations (before ++ after) = (ofInvocations before).append (ofInvocations after) := by
  simp only [ofInvocations, append, List.flatMap_append, List.length_append, List.filter_append,
    List.map_append]

theorem concat_ofInvocations (groups : List (List Invocation)) :
    concat (groups.map ofInvocations) = ofInvocations groups.flatten := by
  induction groups with
  | nil => rfl
  | cons calls rest ih =>
      rw [List.flatten_cons, ofInvocations_append, ← ih]
      rfl

end Outcome

namespace Validator

/-- What a validator finds in a document is what its invocations bring, under any index. -/
theorem run_eq (i : Nat) (v : Validator) (d : Document Sentence) :
    v.run d = .ofInvocations (Invocation.ofRun i v d) := by
  let calls := Invocation.ofRun i v d
  let found := calls.flatMap (·.found)
  have hFound : (v.check.answers d.numbered).flatMap (·.getD []) = found := by
    simp only [found, calls, Check.answers_eq, Invocation.ofRun, List.flatMap_map]
    rfl
  have hReturned : (found.filter fun p => !d.isSuppressed p.line p.validator).map
      ({ · with fileName := d.fileName }) = calls.flatMap (·.returned) := by
    simp only [found, calls, Invocation.ofRun, List.flatMap_map, List.filter_flatMap,
      List.map_flatMap]
    rfl
  have hHidden : found.length -
      (found.filter fun p => !d.isSuppressed p.line p.validator).length =
        (calls.flatMap (·.hidden)).length := by
    have hAll := List.length_eq_length_filter_add (l := found)
      fun p => d.isSuppressed p.line p.validator
    have hSame : (found.filter fun p => d.isSuppressed p.line p.validator) =
        calls.flatMap (·.hidden) := by
      simp only [found, calls, Invocation.ofRun, List.flatMap_map, List.filter_flatMap]
      rfl
    rw [← hSame]
    omega
  have hFailed : ((v.check.answers d.numbered).filter Option.isNone).map (fun _ => v.name) =
      (calls.filter (·.fails)).map (·.validator.name) := by
    simp only [calls, Check.answers_eq, Invocation.ofRun, List.filter_map, List.map_map]
    rfl
  simp only [run, hFound, hReturned, hHidden, hFailed]
  rfl

/-- The outcome for validators and documents is what all invocations bring, in order. -/
theorem checkAll_eq (validators : List Validator) (documents : List (Document Sentence)) :
    checkAll validators documents = .ofInvocations (Invocation.all validators documents) := by
  have hRuns : (validators.flatMap fun v => documents.map v.run) =
      ((validators.mapIdx fun i v => documents.map (Invocation.ofRun i v)).flatten).map
        Outcome.ofInvocations := by
    rw [List.map_flatten, map_mapIdx, List.flatMap_def]
    refine congrArg List.flatten (List.ext_getElem (by simp) fun i hLeft hRight => ?_)
    simp [run_eq i]
  rw [checkAll, hRuns, Outcome.concat_ofInvocations, List.flatten_flatten, map_mapIdx]
  rfl

/-- What comes out for validators and documents is what the invocations bring that did not
fail, in order, apart from what a document hides; each problem gets the name of its file and
is else as it was found. The targets are those of the documents, with numbers for their
sentences and nothing else changed. Whatever invocations are made to fail, what they would
have brought is missing and the rest stays in order; a validator sees nothing but its target,
so it fails wherever that target comes again. The counts grow by the documents, by the problems
that are returned and that are hidden, and by the failures. -/
theorem checkAll_dispatches (validators : List Validator) (documents : List (Document Sentence)) :
    let calls := Invocation.all validators documents
    (∀ d : Document Sentence, d.numbered.map (·.sentence) = d) ∧
    (checkAll validators documents).problems = calls.flatMap (·.returned) ∧
    (∀ raises : Nat → Target → Bool,
      (checkAll (validators.mapIdx fun i v => v.failOn (raises i)) documents).problems =
        (calls.filter fun call => !raises call.index call.target).flatMap (·.returned)) ∧
    ∀ s : Statistics, s.add documents.length (checkAll validators documents) =
      ⟨s.documents + documents.length, s.problems + (calls.flatMap (·.returned)).length,
        s.suppressed + (calls.flatMap (·.hidden)).length,
        s.failures + (calls.filter (·.fails)).length⟩ := by
  intro calls
  refine ⟨Document.numbered_map, ?_, fun raises => ?_, fun s => ?_⟩
  · rw [checkAll_eq]
    rfl
  · rw [checkAll_eq, Invocation.all_failOn]
    exact Invocation.flatMap_failOn_returned raises calls
  · rw [checkAll_eq]
    simp only [Statistics.add, Outcome.ofInvocations, List.length_map]
    rfl

end Validator

end ProseLint
