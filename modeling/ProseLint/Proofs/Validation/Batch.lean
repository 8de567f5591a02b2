import ProseLint.Proofs.List.Map
import ProseLint.Validation.Outcome
import Mathlib.Data.List.Perm.Basic

/-! Documents checked together and one by one. Together, the validators take turns and each one
goes through all documents; one by one, the documents take turns. The two loops are exchanged
by looking at what one validator finds in one document. -/

namespace ProseLint

namespace Outcome

theorem concat_append (before after : List Outcome) :
    concat (before ++ after) = (concat before).append (concat after) := by
  induction before with
  | nil => simp [concat, append, empty]
  | cons o rest ih =>
      rw [List.cons_append, concat, List.foldr_cons, ← concat, ih]
      simp [concat, append, List.append_assoc, Nat.add_assoc]

theorem concat_flatten (groups : List (List Outcome)) :
    concat groups.flatten = concat (groups.map concat) := by
  induction groups with
  | nil => rfl
  | cons g rest ih =>
      rw [List.flatten_cons, concat_append, ih]
      rfl

end Outcome

namespace Statistics

theorem add_append (s : Statistics) (m n : Nat) (a b : Outcome) :
    s.add (m + n) (a.append b) = (s.add m a).add n b := by
  simp [add, Outcome.append, Nat.add_assoc]

/-- The order of outcomes does not matter for the counts. -/
theorem add_perm (s : Statistics) (n : Nat) {os os' : List Outcome} (h : os.Perm os') :
    s.add n (.concat os) = s.add n (.concat os') := by
  induction h generalizing s n with
  | nil => rfl
  | cons o _ ih =>
      have hStep : ∀ rest, s.add n (.concat (o :: rest)) = (s.add 0 o).add n (.concat rest) :=
        fun rest => by rw [← add_append, Nat.zero_add]; rfl
      rw [hStep, hStep, ih]
  | swap a b rest =>
      simp [add, Outcome.concat, Outcome.append, Nat.add_left_comm]
  | trans _ _ ihLeft ihRight => rw [ihLeft, ihRight]

/-- Counting documents one at a time comes to the same as counting them at once. -/
theorem foldl_add (s : Statistics) (outcomes : List Outcome) :
    outcomes.foldl (·.add 1 ·) s = s.add outcomes.length (.concat outcomes) := by
  induction outcomes generalizing s with
  | nil => rfl
  | cons o rest ih =>
      rw [List.foldl_cons, ih, ← add_append, List.length_cons, Nat.add_comm 1]
      rfl

end Statistics

/-- What one validator finds in the document at a place of a list. -/
structure Share where
  place : Nat
  outcome : Outcome

namespace Share

/-- The shares of the documents that a validator goes through. -/
def ofValidator (documents : List (Document Sentence)) (v : Validator) : List Share :=
  documents.mapIdx fun i d => ⟨i, v.run d⟩

/-- All shares, validator by validator. -/
def all (validators : List Validator) (documents : List (Document Sentence)) : List Share :=
  validators.flatMap (ofValidator documents)

/-- What all shares bring together. -/
def total (shares : List Share) : Outcome := .concat (shares.map (·.outcome))

/-- The shares of the document at a place. -/
def atPlace (i : Nat) (shares : List Share) : List Share := shares.filter (·.place == i)

variable {documents : List (Document Sentence)}

theorem ofValidator_outcomes (v : Validator) :
    (ofValidator documents v).map (·.outcome) = documents.map v.run := by
  rw [ofValidator, map_mapIdx]
  exact List.mapIdx_eq_iff.mpr fun i => by simp

theorem all_outcomes (validators : List Validator) :
    (all validators documents).map (·.outcome) =
      validators.flatMap fun v => documents.map v.run := by
  rw [all, List.map_flatMap]
  exact congrArg (validators.flatMap ·) (funext ofValidator_outcomes)

theorem mem_all {validators : List Validator} {s : Share} (hMem : s ∈ all validators documents) :
    ∃ v ∈ validators, ∃ d, documents[s.place]? = some d ∧ s.outcome = v.run d := by
  obtain ⟨v, hValidator, hShare⟩ := List.mem_flatMap.mp hMem
  obtain ⟨i, hPlace, rfl⟩ := List.mem_mapIdx.mp hShare
  exact ⟨v, hValidator, documents[i], List.getElem?_eq_getElem hPlace, rfl⟩

/-- Each validator has one share of the document at a place. -/
theorem atPlace_all (validators : List Validator) {i : Nat} {d : Document Sentence}
    (hPlace : documents[i]? = some d) :
    atPlace i (all validators documents) = validators.map fun v => ⟨i, v.run d⟩ := by
  have hOne : ∀ v : Validator, atPlace i (ofValidator documents v) = [⟨i, v.run d⟩] := fun v => by
    rw [atPlace, ofValidator, filter_mapIdx_place (fun _ _ => rfl), hPlace]
    rfl
  calc atPlace i (all validators documents)
      = validators.flatMap fun v => atPlace i (ofValidator documents v) := List.filter_flatMap ..
    _ = validators.flatMap fun v => [⟨i, v.run d⟩] :=
        congrArg (validators.flatMap ·) (funext hOne)
    _ = validators.map fun v => ⟨i, v.run d⟩ := List.map_eq_flatMap.symm

end Share

namespace Validator

theorem checkAll_singleton (validators : List Validator) (d : Document Sentence) :
    checkAll validators [d] = .concat (validators.map (·.run d)) := by
  rw [checkAll, List.map_eq_flatMap]
  rfl

theorem checkAll_eq_total (validators : List Validator) (documents : List (Document Sentence)) :
    checkAll validators documents = Share.total (Share.all validators documents) := by
  rw [Share.total, Share.all_outcomes, checkAll]

theorem checkAll_at_place (validators : List Validator) {documents : List (Document Sentence)}
    {i : Nat} {d : Document Sentence} (hPlace : documents[i]? = some d) :
    checkAll validators [d] = Share.total (Share.atPlace i (Share.all validators documents)) := by
  rw [checkAll_singleton, Share.atPlace_all validators hPlace, Share.total, List.map_map]
  rfl

/-- The loop over validators and the one over documents, exchanged. -/
theorem runs_perm (validators : List Validator) (documents : List (Document Sentence)) :
    (validators.flatMap fun v => documents.map v.run).Perm
      (documents.flatMap fun d => validators.map (·.run d)) := by
  induction validators with
  | nil => simp
  | cons v rest ih =>
      let others := fun d : Document Sentence => rest.map (·.run d)
      have hSplit : (documents.flatMap fun d => v.run d :: others d).Perm
          (documents.map v.run ++ documents.flatMap others) :=
        (List.map_append_flatMap_perm documents v.run others).symm
      exact (List.Perm.append_left (documents.map v.run) ih).trans hSplit.symm

/-- The counts after documents were checked one by one. -/
theorem checkEach_counts (validators : List Validator) (documents : List (Document Sentence))
    (s : Statistics) :
    (checkEach validators documents).foldl (fun s r => s.add 1 r.2) s =
      s.add documents.length (checkAll validators documents) := by
  let each := fun d : Document Sentence => validators.map (·.run d)
  have hOutcomes : (checkEach validators documents).map (·.2) =
      (documents.map each).map Outcome.concat := by
    simp only [checkEach, List.map_map, Function.comp_def, checkAll_singleton, each]
  calc (checkEach validators documents).foldl (fun s r => s.add 1 r.2) s
      = ((documents.map each).map Outcome.concat).foldl (·.add 1 ·) s := by
        rw [← hOutcomes, List.foldl_map]
    _ = s.add documents.length (.concat (documents.flatMap each)) := by
        rw [Statistics.foldl_add, ← Outcome.concat_flatten, List.length_map, List.length_map,
          List.flatMap_def]
    _ = s.add documents.length (checkAll validators documents) :=
        s.add_perm documents.length (runs_perm validators documents).symm

/-- Checking documents together and checking them one by one finds the same. What comes out
together is made of the shares of the validators in the documents and of nothing else. Those of
the document at a place, in the order in which they come, are what comes out for it alone. The
counts grow alike. -/
theorem checkEach_agrees (validators : List Validator) (documents : List (Document Sentence)) :
    let shares := Share.all validators documents
    checkAll validators documents = Share.total shares ∧
    (∀ s ∈ shares, ∃ v ∈ validators, ∃ d, documents[s.place]? = some d ∧ s.outcome = v.run d) ∧
    checkEach validators documents =
      documents.mapIdx (fun i d => (d, Share.total (Share.atPlace i shares))) ∧
    ∀ s : Statistics, s.add documents.length (checkAll validators documents) =
      (checkEach validators documents).foldl (fun s r => s.add 1 r.2) s := by
  intro shares
  refine ⟨checkAll_eq_total validators documents, fun s hMem => Share.mem_all hMem, ?_,
    fun s => (checkEach_counts validators documents s).symm⟩
  symm
  refine List.mapIdx_eq_iff.mpr fun i => ?_
  rw [checkEach, List.getElem?_map]
  cases hPlace : documents[i]? with
  | none => rfl
  | some d => simp only [Option.map_some, checkAll_at_place validators hPlace, shares]

end Validator

end ProseLint
