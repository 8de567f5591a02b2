import Mathlib.Data.List.Induction
import ProseLint.Proofs.Document.Contents

/-! Where list elements stand. Every list step has one place at which it adds an element or goes
on with one, and nothing is ever taken away: what is found at a place behind a run is what the
steps with this place brought, and reading a section from its start to its end gives what the steps
added to it, in their order. -/

namespace ProseLint.Builder

/-! ## Places -/

/-- Where a list element stands: the index of its section, of its block there, and its own. -/
structure ElementPlace where
  sectionIndex : Nat
  block : Nat
  index : Nat
  deriving DecidableEq, Repr

def elementAt? (b : Builder) (p : ElementPlace) : Option (ListElement Sentence) :=
  ((b.blocksAt p.sectionIndex)[p.block]?).bind (·[p.index]?)

/-- A place in the block that the next list element goes to. -/
def placeInOpen (b : Builder) (k : Nat) : ElementPlace := ⟨b.lastIndex, b.nextBlock, k⟩

/-- The index at which extending adds or goes on. -/
def extendedIndex (elements : List (ListElement Sentence)) (level : Int) : Nat :=
  (lastOfLevel? level elements).getD elements.length

/-- A step and what was built before it. -/
structure Step where
  before : Builder
  operation : Operation

/-- The steps of a run. -/
def steps (b : Builder) : List Operation → List Step
  | [] => []
  | operation :: rest => ⟨b, operation⟩ :: steps (b.apply operation) rest

theorem steps_concat (operations : List Operation) (operation : Operation) (b : Builder) :
    steps b (operations ++ [operation]) =
      steps b operations ++ [⟨operations.foldl apply b, operation⟩] := by
  induction operations generalizing b with
  | nil => rfl
  | cons first rest ih => rw [List.cons_append, steps, ih, steps, List.foldl_cons, List.cons_append]

theorem run_concat (operations : List Operation) (operation : Operation) :
    run (operations ++ [operation]) = (run operations).apply operation := by
  simp [run]

/-- The place of the list element that a step adds or extends. -/
def Step.place? (s : Step) : Option ElementPlace :=
  match s.operation with
  | .addListElement _ _ => some (s.before.placeInOpen s.before.openBlock.length)
  | .extendListElement level _ =>
      some (s.before.placeInOpen (extendedIndex s.before.openBlock level))
  | _ => none

/-- The level at which a step adds or extends a list element. -/
def Operation.level? : Operation → Option Int
  | .addListElement level _ | .extendListElement level _ => some level
  | _ => none

/-! ## What is at a place -/

section

variable {level : Int} {elements : List (ListElement Sentence)}

theorem lastOfLevel?_eq_none :
    lastOfLevel? level elements = none ↔ ∀ e ∈ elements, e.level ≠ level := by
  simp [lastOfLevel?]

theorem lastOfLevel?_eq_some {before after : List (ListElement Sentence)}
    {e : ListElement Sentence} (hLevel : e.level = level) (hLast : ∀ x ∈ after, x.level ≠ level) :
    lastOfLevel? level (before ++ e :: after) = some before.length := by
  have hNone : after.reverse.findIdx? (·.level == level) = none := by simpa using hLast
  have hFound : (before ++ e :: after).reverse.findIdx? (·.level == level) =
      some after.length := by
    rw [List.reverse_append, List.reverse_cons, List.append_assoc, List.findIdx?_append, hNone]
    simp [List.findIdx?_cons, hLevel]
  rw [lastOfLevel?, hFound]
  simp

theorem level_of_lastOfLevel? {i : Nat} (h : lastOfLevel? level elements = some i) :
    ∃ e, elements[i]? = some e ∧ e.level = level := by
  obtain ⟨k, hFound, rfl⟩ := Option.map_eq_some_iff.mp h
  obtain ⟨hLt, hLevel, -⟩ := List.findIdx?_eq_some_iff_getElem.mp hFound
  refine ⟨elements.reverse[k], ?_, by simpa using hLevel⟩
  rw [List.length_reverse] at hLt
  rw [← List.getElem?_reverse hLt, List.getElem?_eq_getElem]

theorem getElem?_concat {α : Type} (items : List α) (a : α) (n : Nat) :
    (items ++ [a])[n]? = if n = items.length then some a else items[n]? := by
  split
  · next hEnd => rw [hEnd, List.getElem?_concat_length]
  · next hOther =>
      rcases Nat.lt_or_gt_of_ne hOther with hLt | hGt
      · exact List.getElem?_append_left hLt
      · rw [List.getElem?_eq_none hGt.le, List.getElem?_eq_none (by simp; omega)]

theorem level_of_extendedIndex {e : ListElement Sentence}
    (h : elements[extendedIndex elements level]? = some e) : e.level = level := by
  rw [extendedIndex] at h
  cases hFound : lastOfLevel? level elements with
  | none =>
      rw [hFound, Option.getD_none, List.getElem?_eq_none (Nat.le_refl _)] at h
      cases h
  | some i =>
      obtain ⟨last, hAt, hLevel⟩ := level_of_lastOfLevel? hFound
      rw [hFound, Option.getD_some, hAt] at h
      cases h
      exact hLevel

theorem getElem?_extended (added : List Sentence) (n : Nat) :
    (extended elements level added)[n]? =
      if n = extendedIndex elements level then
        some ⟨level, ((elements[extendedIndex elements level]?).map (·.sentences)).getD [] ++ added⟩
      else elements[n]? := by
  rw [extended, extendedIndex]
  cases hFound : lastOfLevel? level elements with
  | none =>
      rw [Option.getD_none, List.getElem?_eq_none (Nat.le_refl _)]
      exact getElem?_concat elements _ n
  | some i =>
      obtain ⟨e, hAt, hLevel⟩ := level_of_lastOfLevel? hFound
      simp only [Option.getD_some, List.getElem?_modify, hAt]
      split
      · next hHere =>
          subst hHere
          simp [hAt, ← hLevel]
      · next hOther => simp [Ne.symm hOther]

end

theorem elementAt?_placeInOpen (b : Builder) (k : Nat) :
    b.elementAt? (b.placeInOpen k) = b.openBlock[k]? := by
  rw [elementAt?, placeInOpen, openBlock]
  cases (b.blocksAt b.lastIndex)[b.nextBlock]? <;> rfl

/-- Going on with one element of the open block, or adding one at its end, changes what is at the
place of this element and nothing else. -/
theorem withOpen_elementAt? {b c : Builder} {elements : List (ListElement Sentence)}
    {added : ListElement Sentence} {k : Nat}
    (hBlocks : ∀ i, c.blocksAt i = if i = b.lastIndex then b.withOpen elements else b.blocksAt i)
    (hElements : ∀ n : Nat, elements[n]? = if n = k then some added else b.openBlock[n]?)
    (p : ElementPlace) :
    c.elementAt? p = if b.placeInOpen k = p then some added else b.elementAt? p := by
  have hLength : ((b.blocksAt b.lastIndex).take b.nextBlock).length = b.nextBlock := by
    simp [nextBlock_le]
  by_cases hOpen : ∃ n, p = b.placeInOpen n
  · obtain ⟨n, rfl⟩ := hOpen
    have hHere : b.placeInOpen k = b.placeInOpen n ↔ n = k := by simp [placeInOpen, eq_comm]
    simp only [hHere, elementAt?_placeInOpen, ← hElements]
    rw [elementAt?, placeInOpen, hBlocks, if_pos rfl, withOpen, getElem?_concat, hLength,
      if_pos rfl, Option.bind_some]
  · rw [if_neg fun h => hOpen ⟨k, h.symm⟩, elementAt?, elementAt?, hBlocks]
    split
    · next hSection =>
        have hBlock : p.block ≠ b.nextBlock := fun h => hOpen ⟨p.index, by
          rw [placeInOpen, ← hSection, ← h]⟩
        have hLe := le_nextBlock_succ b
        rw [withOpen, getElem?_concat, hLength, if_neg hBlock, hSection, List.getElem?_take]
        split
        · rfl
        · rw [List.getElem?_eq_none (show (b.blocksAt b.lastIndex).length ≤ p.block by omega)]
    · rfl

/-- A step leaves the elements at other places as they are. At its own place it adds an element
of its level, or goes on with one that is there. -/
theorem apply_elementAt? (b : Builder) (operation : Operation) (p : ElementPlace) :
    (b.apply operation).elementAt? p =
      if (⟨b, operation⟩ : Step).place? = some p then
        operation.level?.map
          (⟨·, ((b.elementAt? p).map (·.sentences)).getD [] ++ operation.sentences⟩)
      else b.elementAt? p := by
  cases operation with
  | setFileName | addRule => rfl
  | addSection | addParagraph | addSentence =>
      rw [if_neg nofun, elementAt?, elementAt?, apply_blocksAt]
      split
      · next hLast => rw [hLast]; rfl
      · rfl
  | addListBlock =>
      rw [if_neg nofun, elementAt?, elementAt?, apply_blocksAt]
      split
      · next hLast =>
          rw [hLast, Operation.blocks, getElem?_concat]
          split
          · next hEnd => rw [hEnd, List.getElem?_eq_none (Nat.le_refl _)]; rfl
          · rfl
      · rfl
  | addListElement level added =>
      refine (withOpen_elementAt? (addListElement_blocksAt b level added)
        (getElem?_concat b.openBlock _) p).trans ?_
      simp only [Step.place?, Option.some_inj]
      split
      · next hHere =>
          rw [← hHere, elementAt?_placeInOpen, List.getElem?_eq_none (Nat.le_refl _)]
          rfl
      · rfl
  | extendListElement level added =>
      refine (withOpen_elementAt? (extendListElement_blocksAt b level added)
        (getElem?_extended added) p).trans ?_
      simp only [Step.place?, Option.some_inj]
      split
      · next hHere =>
          rw [← hHere, elementAt?_placeInOpen]
          rfl
      · rfl

theorem level_of_place? {b : Builder} {operation : Operation} {p : ElementPlace}
    {e : ListElement Sentence} (h : (⟨b, operation⟩ : Step).place? = some p)
    (hAt : b.elementAt? p = some e) : operation.level? = some e.level := by
  cases operation with
  | setFileName | addRule | addSection | addParagraph | addSentence | addListBlock => cases h
  | addListElement level added =>
      cases h
      rw [elementAt?_placeInOpen, List.getElem?_eq_none (Nat.le_refl _)] at hAt
      cases hAt
  | extendListElement level added =>
      cases h
      rw [elementAt?_placeInOpen] at hAt
      rw [level_of_extendedIndex hAt, Operation.level?]

/-- What the steps that write to a place make of it. -/
def Wrote (written : List Step) : Option (ListElement Sentence) → Prop
  | none => written = []
  | some e => written ≠ [] ∧ (∀ s ∈ written, s.operation.level? = some e.level) ∧
      e.sentences = written.flatMap (·.operation.sentences)

theorem Wrote.concat {written : List Step} {s : Step} {found : Option (ListElement Sentence)}
    (h : Wrote written found) {level : Int} (hStep : s.operation.level? = some level)
    (hLevel : ∀ e, found = some e → e.level = level) :
    Wrote (written ++ [s])
      (some ⟨level, (found.map (·.sentences)).getD [] ++ s.operation.sentences⟩) := by
  cases found with
  | none =>
      cases show written = [] from h
      simp [Wrote, hStep]
  | some e =>
      obtain ⟨-, hLevels, hSentences⟩ := h
      cases hLevel e rfl
      refine ⟨by simp, fun t hMem => ?_, by simp [hSentences]⟩
      rcases List.mem_append.mp hMem with hEarlier | hLast
      · exact hLevels t hEarlier
      · rwa [List.mem_singleton.mp hLast]

/-- What stands at a place is what the steps that wrote to it brought, one after the other. -/
theorem run_elementAt? (operations : List Operation) (p : ElementPlace) :
    Wrote ((steps empty operations).filter (·.place? = some p))
      ((run operations).elementAt? p) := by
  induction operations using List.reverseRecOn with
  | nil => rfl
  | append_singleton operations operation ih =>
      have hSteps : steps empty (operations ++ [operation]) =
          steps empty operations ++ [⟨run operations, operation⟩] := steps_concat ..
      rw [hSteps, run_concat, apply_elementAt?, List.filter_append]
      split
      · next hHere =>
          obtain ⟨level, hLevel⟩ : ∃ level, operation.level? = some level := by
            cases operation with
            | setFileName | addRule | addSection | addParagraph | addSentence | addListBlock =>
                cases hHere
            | addListElement level | extendListElement level => exact ⟨level, rfl⟩
          rw [hLevel, Option.map_some, List.filter_cons_of_pos (by simpa using hHere)]
          refine ih.concat hLevel fun e hAt => ?_
          have hSame := level_of_place? hHere hAt
          rw [hLevel] at hSame
          exact (Option.some.inj hSame).symm
      · next hOther =>
          rw [List.filter_cons_of_neg (by simpa using hOther), List.filter_nil, List.append_nil]
          exact ih

/-! ## In what order -/

/-- The items of some lists one after the other, with a mark where each list starts. -/
def marked {α : Type} (lists : List (List α)) : List (Option α) :=
  lists.flatMap fun list => none :: list.map some

theorem marked_append {α : Type} (lists more : List (List α)) :
    marked (lists ++ more) = marked lists ++ marked more :=
  List.flatMap_append

theorem marked_singleton {α : Type} (list : List α) : marked [list] = none :: list.map some :=
  List.flatMap_singleton _ _

theorem marked_appendToLast {α : Type} {lists : List (List α)} (h : lists ≠ []) (a : α) :
    marked (appendToLast lists a) = marked lists ++ [some a] := by
  obtain ⟨before, last, rfl⟩ := (List.eq_nil_or_concat' lists).resolve_left h
  simp [appendToLast_concat, marked_append, marked_singleton]

/-- What a step adds to the paragraphs of the section at an index: a mark for a paragraph, and a
sentence. -/
def Step.paragraphItems (i : Nat) (s : Step) : List (Option Sentence) :=
  if i = s.before.lastIndex then
    match s.operation with
    | .addParagraph => [none]
    | .addSentence sentence =>
        (if s.before.needsParagraph then [none] else []) ++ [some sentence]
    | _ => []
  else []

theorem apply_paragraphItems (b : Builder) (operation : Operation) (i : Nat) :
    marked ((b.apply operation).paragraphsAt i) =
      marked (b.paragraphsAt i) ++ (⟨b, operation⟩ : Step).paragraphItems i := by
  rw [apply_paragraphsAt, Step.paragraphItems]
  split
  · next hLast =>
      rw [hLast]
      cases operation with
      | setFileName | addRule | addSection | addListBlock | addListElement | extendListElement =>
          exact (List.append_nil _).symm
      | addParagraph => exact marked_append _ _
      | addSentence sentence =>
          rw [Operation.paragraphs]
          cases hNeeds : b.needsParagraph with
          | true => exact marked_append _ _
          | false =>
              rw [needsParagraph, Bool.or_eq_false_iff, List.isEmpty_eq_false_iff] at hNeeds
              exact marked_appendToLast hNeeds.2 sentence
  · rw [List.append_nil]

/-- The paragraphs of a section are what the steps added to it, in the order of the steps. -/
theorem run_paragraphItems (operations : List Operation) (i : Nat) :
    marked ((run operations).paragraphsAt i) =
      (steps empty operations).flatMap (·.paragraphItems i) := by
  induction operations using List.reverseRecOn with
  | nil => rfl
  | append_singleton operations operation ih =>
      rw [run_concat, apply_paragraphItems, ih, steps_concat, List.flatMap_append,
        List.flatMap_singleton]
      rfl

/-- The places of the list elements of a section, block by block. -/
def places (i : Nat) (blocks : List (List (ListElement Sentence))) : List (List ElementPlace) :=
  blocks.mapIdx fun k block => (List.range block.length).map (⟨i, k, ·⟩)

theorem marked_places_withOpen (b : Builder) (elements : List (ListElement Sentence)) :
    marked (places b.lastIndex (b.withOpen elements)) =
      marked (places b.lastIndex ((b.blocksAt b.lastIndex).take b.nextBlock)) ++
        none :: (List.range elements.length).map (some <| b.placeInOpen ·) := by
  have hLength : ((b.blocksAt b.lastIndex).take b.nextBlock).length = b.nextBlock := by
    simp [nextBlock_le]
  rw [withOpen, places, List.mapIdx_append, marked_append, hLength]
  simp [places, marked, placeInOpen]

/-- A mark for the block that the next list element opens, if it opens one. -/
def opening (b : Builder) : List (Option ElementPlace) := if b.hasOpenBlock then [] else [none]

theorem marked_places_openBlock (b : Builder) :
    marked (places b.lastIndex (b.withOpen b.openBlock)) =
      marked (places b.lastIndex (b.blocksAt b.lastIndex)) ++ b.opening := by
  rcases take_nextBlock b with ⟨hOpen, hBlocks⟩ | ⟨hClosed, hNone, hNext⟩
  · rw [withOpen, ← hBlocks, opening, if_pos hOpen, List.append_nil]
  · rw [marked_places_withOpen, hNone, hNext, List.take_length, opening, if_neg (by simp [hClosed])]
    rfl

/-- What a step adds to the list blocks of the section at an index: a mark for a block, and the
place of an element. -/
def Step.blockItems (i : Nat) (s : Step) : List (Option ElementPlace) :=
  if i = s.before.lastIndex then
    match s.operation with
    | .addListBlock => [none]
    | .addListElement _ _ => s.before.opening ++ [s.place?]
    | .extendListElement level _ =>
        match s.before.openOfLevel? level with
        | some _ => []
        | none => s.before.opening ++ [s.place?]
    | _ => []
  else []

theorem marked_places_concat (b : Builder) (e : ListElement Sentence) :
    marked (places b.lastIndex (b.withOpen (b.openBlock ++ [e]))) =
      marked (places b.lastIndex (b.blocksAt b.lastIndex)) ++
        (b.opening ++ [some (b.placeInOpen b.openBlock.length)]) := by
  rw [← List.append_assoc, ← marked_places_openBlock, marked_places_withOpen,
    marked_places_withOpen]
  simp [List.range_succ]

theorem apply_blockItems (b : Builder) (operation : Operation) (i : Nat) :
    marked (places i ((b.apply operation).blocksAt i)) =
      marked (places i (b.blocksAt i)) ++ (⟨b, operation⟩ : Step).blockItems i := by
  rw [apply_blocksAt, Step.blockItems]
  split
  · next hLast =>
      rw [hLast]
      cases operation with
      | setFileName | addRule | addSection | addParagraph | addSentence =>
          exact (List.append_nil _).symm
      | addListBlock =>
          rw [Operation.blocks, places, List.mapIdx_append, marked_append]
          rfl
      | addListElement level added => exact marked_places_concat b _
      | extendListElement level added =>
          simp only [Operation.blocks, extended, openOfLevel?, Step.place?, extendedIndex]
          cases hFound : lastOfLevel? level b.openBlock with
          | none => exact marked_places_concat b _
          | some k =>
              have hOpen : b.hasOpenBlock = true := by
                rcases take_nextBlock b with ⟨hOpen, -⟩ | ⟨-, hNone, -⟩
                · exact hOpen
                · rw [hNone] at hFound
                  cases hFound
              have hSame := marked_places_openBlock b
              rw [opening, if_pos hOpen, List.append_nil, marked_places_withOpen] at hSame
              rw [marked_places_withOpen, List.length_modify, hSame]
              exact (List.append_nil _).symm
  · rw [List.append_nil]

/-- The list blocks of a section and the elements in them are what the steps added to it, in the
order of the steps. -/
theorem run_blockItems (operations : List Operation) (i : Nat) :
    marked (places i ((run operations).blocksAt i)) =
      (steps empty operations).flatMap (·.blockItems i) := by
  induction operations using List.reverseRecOn with
  | nil => rfl
  | append_singleton operations operation ih =>
      rw [run_concat, apply_blockItems, ih, steps_concat, List.flatMap_append,
        List.flatMap_singleton]
      rfl

end ProseLint.Builder
