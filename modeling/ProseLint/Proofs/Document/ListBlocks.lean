import ProseLint.Proofs.Document.ElementPlaces

/-! List blocks while a document is built: when one is open, which elements share one, and what
extending an element does. -/

namespace ProseLint.Builder

/-! ## One block or two -/

/-- A step that ends a list block while the section goes on. -/
def Operation.separates : Operation → Bool
  | .addParagraph | .addSentence _ | .addListBlock => true
  | .setFileName _ | .addRule _ | .addSection _ _ | .addListElement _ _ |
    .extendListElement _ _ => false

/-- Whether a step adds or extends a list element. -/
def Operation.isElement : Operation → Bool
  | .addListElement _ _ | .extendListElement _ _ => true
  | .setFileName _ | .addRule _ | .addSection _ _ | .addParagraph | .addSentence _ |
    .addListBlock => false

/-- A list element goes to the next block, which is open then. -/
theorem apply_isElement (b : Builder) (operation : Operation) (h : operation.isElement = true) :
    (b.apply operation).lastIndex = b.lastIndex ∧ (b.apply operation).hasOpenBlock = true ∧
      (b.apply operation).nextBlock = b.nextBlock := by
  have hLast : (b.apply operation).lastIndex = b.lastIndex := by
    rw [apply_lastIndex]
    cases operation <;> first | rfl | cases h
  have hLength : ((b.apply operation).blocksAt b.lastIndex).length = b.nextBlock + 1 := by
    rw [apply_blocksAt, if_pos rfl]
    cases operation <;> first | exact length_withOpen b _ | cases h
  have hList : (b.apply operation).inList = true := by
    rw [apply_inList]
    cases operation <;> first | rfl | cases h
  have hOpen : (b.apply operation).hasOpenBlock = true := by
    rw [hasOpenBlock_eq, hLast, hList, Bool.true_and, Bool.not_eq_true', List.isEmpty_eq_false_iff,
      ← List.length_pos_iff]
    omega
  refine ⟨hLast, hOpen, ?_⟩
  rw [nextBlock, if_pos hOpen, hLast]
  omega

theorem apply_lastBlocks {b : Builder} {operation : Operation}
    (hKeep : (b.apply operation).lastIndex = b.lastIndex) :
    (b.apply operation).blocksAt (b.apply operation).lastIndex = operation.blocks b := by
  rw [apply_blocksAt, if_pos hKeep]

theorem nextBlock_of_closing {b : Builder} {operation : Operation}
    (hKeep : (b.apply operation).lastIndex = b.lastIndex)
    (hList : (b.apply operation).inList = false)
    (hSame : operation.blocks b = b.blocksAt b.lastIndex) :
    (b.apply operation).nextBlock = (b.blocksAt b.lastIndex).length := by
  rw [nextBlock_of_closed hList, apply_lastBlocks hKeep, hSame]

/-- Behind a separating step the next list element goes behind all blocks that there were. -/
theorem length_le_nextBlock {operation : Operation} (h : operation.separates = true)
    (b : Builder) : (b.blocksAt b.lastIndex).length ≤ (b.apply operation).nextBlock := by
  have hKeep : (b.apply operation).lastIndex = b.lastIndex := by
    rw [apply_lastIndex]
    cases operation <;> first | rfl | cases h
  cases operation with
  | setFileName | addRule | addSection | addListElement | extendListElement => cases h
  | addParagraph => exact (nextBlock_of_closing hKeep (apply_inList b .addParagraph) rfl).ge
  | addSentence sentence =>
      exact (nextBlock_of_closing hKeep (apply_inList b (.addSentence sentence)) rfl).ge
  | addListBlock =>
      have hNext := le_nextBlock_succ (b.apply .addListBlock)
      rw [apply_lastBlocks hKeep, Operation.blocks, List.length_append,
        List.length_singleton] at hNext
      omega

/-- An open block stays the one that the next list element goes to, unless a step separates it
from what follows. -/
theorem nextBlock_of_not_separates {operation : Operation} (h : operation.separates = false)
    {b : Builder} (hKeep : (b.apply operation).lastIndex = b.lastIndex)
    (hOpen : b.hasOpenBlock = true) :
    (b.apply operation).hasOpenBlock = true ∧ (b.apply operation).nextBlock = b.nextBlock := by
  cases operation with
  | addParagraph | addSentence | addListBlock => cases h
  | setFileName | addRule => exact ⟨hOpen, rfl⟩
  | addSection level header =>
      rw [apply_lastIndex] at hKeep
      have hPos := List.length_pos_iff.mpr (sections_ne_nil_of_open hOpen)
      simp only [lastIndex] at hKeep
      omega
  | addListElement | extendListElement => exact (apply_isElement b _ rfl).2

/-- The next list element never goes to an earlier block of its section. -/
theorem nextBlock_le_apply {b : Builder} {operation : Operation}
    (hKeep : (b.apply operation).lastIndex = b.lastIndex) :
    b.nextBlock ≤ (b.apply operation).nextBlock := by
  have hLe := nextBlock_le b
  cases hSeparates : operation.separates with
  | true => exact hLe.trans (length_le_nextBlock hSeparates b)
  | false =>
      cases operation with
      | addParagraph | addSentence | addListBlock => cases hSeparates
      | setFileName | addRule => exact Nat.le_refl _
      | addSection level header => exact hLe.trans (nextBlock_of_closing hKeep rfl rfl).ge
      | addListElement | extendListElement => exact (apply_isElement b _ rfl).2.2.ge

theorem foldl_nextBlock (operations : List Operation) (b : Builder)
    (hKeep : (operations.foldl apply b).lastIndex = b.lastIndex) :
    b.nextBlock ≤ (operations.foldl apply b).nextBlock ∧
      (b.hasOpenBlock = true → ((operations.foldl apply b).nextBlock = b.nextBlock ↔
        ∀ operation ∈ operations, operation.separates = false)) := by
  induction operations generalizing b with
  | nil => simp
  | cons operation rest ih =>
      rw [List.foldl_cons] at hKeep ⊢
      have hStay : (b.apply operation).lastIndex = b.lastIndex := by
        have hFirst := lastIndex_le_apply b operation
        have hRest := lastIndex_le_foldl rest (b.apply operation)
        omega
      obtain ⟨hLe, hIff⟩ := ih (b.apply operation) (hKeep.trans hStay.symm)
      refine ⟨(nextBlock_le_apply hStay).trans hLe, fun hOpen => ?_⟩
      rw [List.forall_mem_cons]
      cases hSeparates : operation.separates with
      | true =>
          have hBefore := nextBlock_of_open hOpen
          have hBehind := length_le_nextBlock hSeparates b
          exact ⟨fun h => by omega, fun h => Bool.noConfusion h.1⟩
      | false =>
          obtain ⟨hStillOpen, hSame⟩ := nextBlock_of_not_separates hSeparates hStay hOpen
          rw [← hSame, hIff hStillOpen]
          exact ⟨fun h => ⟨rfl, h⟩, And.right⟩

theorem place?_eq_some {b : Builder} {operation : Operation} {p : ElementPlace}
    (h : (⟨b, operation⟩ : Step).place? = some p) :
    operation.isElement = true ∧ p.sectionIndex = b.lastIndex ∧ p.block = b.nextBlock := by
  cases operation with
  | setFileName | addRule | addSection | addParagraph | addSentence | addListBlock => cases h
  | addListElement | extendListElement =>
      cases h
      exact ⟨rfl, rfl, rfl⟩

/-- List elements of one section are in one block unless a step between them separates them. -/
theorem run_block_eq_iff {before between : List Operation} {first second : Operation}
    {p q : ElementPlace} (hFirst : (⟨run before, first⟩ : Step).place? = some p)
    (hSecond : (⟨run (before ++ first :: between), second⟩ : Step).place? = some q)
    (hSection : p.sectionIndex = q.sectionIndex) :
    p.block = q.block ↔ ∀ operation ∈ between, operation.separates = false := by
  obtain ⟨hElement, hFirstSection, hFirstBlock⟩ := place?_eq_some hFirst
  obtain ⟨-, hSecondSection, hSecondBlock⟩ := place?_eq_some hSecond
  obtain ⟨hLast, hOpen, hNext⟩ := apply_isElement (run before) first hElement
  have hRun : run (before ++ first :: between) =
      between.foldl apply ((run before).apply first) := by
    simp [run]
  rw [hRun] at hSecondSection hSecondBlock
  have hIff := (foldl_nextBlock between ((run before).apply first) (by omega)).2 hOpen
  rw [← hIff]
  omega

/-! ## Extending -/

theorem changeLast_congr {b : Builder} {f g : Section Sentence → Section Sentence}
    (h : ∀ s, b.current? = some s → f s = g s) : b.changeLast f = b.changeLast g := by
  unfold changeLast
  congr 1
  apply List.ext_getElem?
  intro i
  rw [List.getElem?_modify, List.getElem?_modify]
  cases hAt : b.sections[i]? with
  | none => rfl
  | some s =>
      simp only [Option.map_eq_map, Option.map_some, Option.some_inj]
      split
      · next hLast => exact h s (by rw [current?, List.getLast?_eq_getElem?, hLast, hAt])
      · rfl

section

variable {b : Builder} {level : Int} {added : List Sentence}

/-- Extending goes on with the last element of its level in the open block. -/
theorem extendListElement_of_last {blocks : List (List (ListElement Sentence))}
    {before after : List (ListElement Sentence)} {e : ListElement Sentence}
    (hList : b.inList = true) (hBlocks : b.blocksAt b.lastIndex = blocks ++ [before ++ e :: after])
    (hLevel : e.level = level) (hLast : ∀ x ∈ after, x.level ≠ level) :
    b.extendListElement level added = b.changeLast fun s =>
      { s with
        listBlocks := blocks ++
          [before ++ { e with sentences := e.sentences ++ added } :: after] } := by
  have hOpenBlock : b.openBlock = before ++ e :: after := by
    rcases take_nextBlock b with ⟨-, hTake⟩ | ⟨hClosed, -⟩
    · rw [hBlocks] at hTake
      exact (List.singleton_inj.mp (List.append_inj_right' hTake rfl)).symm
    · simp [hasOpenBlock_eq, hList, hBlocks] at hClosed
  have hSome : b.sections ≠ [] := fun hNil => by simp [blocksAt, partAt, hNil] at hBlocks
  have hFound : b.openOfLevel? level = some before.length := by
    rw [openOfLevel?, hOpenBlock, lastOfLevel?_eq_some hLevel hLast]
  rw [extendListElement_of_found hFound, requireSection_eq hSome]
  refine changeLast_congr fun s hCurrent => ?_
  have hListBlocks : s.listBlocks = blocks ++ [before ++ e :: after] := by
    rw [← hBlocks, blocksAt, partAt, lastIndex, ← List.getLast?_eq_getElem?, ← current?, hCurrent]
    rfl
  have hElements : (before ++ e :: after).modify before.length
      (fun e => { e with sentences := e.sentences ++ added }) =
        before ++ { e with sentences := e.sentences ++ added } :: after := by
    simp [List.modify_eq_take_cons_drop]
  simp only [hListBlocks, modify_last_concat, hElements]

/-- Without an element of its level in an open block, extending adds one. -/
theorem extendListElement_of_none
    (h : b.inList = true → ∀ block, (b.blocksAt b.lastIndex).getLast? = some block →
      ∀ e ∈ block, e.level ≠ level) :
    b.extendListElement level added = b.addListElement level added := by
  have hNone : lastOfLevel? level b.openBlock = none := by
    rcases take_nextBlock b with ⟨hOpen, hBlocks⟩ | ⟨-, hNil, -⟩
    · rw [hasOpenBlock_eq, Bool.and_eq_true] at hOpen
      exact lastOfLevel?_eq_none.mpr (h hOpen.1 _ (by rw [hBlocks, List.getLast?_concat]))
    · rw [hNil]
      rfl
  exact extendListElement_of_new hNone added

end

/-! ## The flag -/

namespace Operation

/-- Whether a step adds to the sections of a document. -/
def isContent : Operation → Bool
  | .setFileName _ | .addRule _ => false
  | .addSection _ _ | .addParagraph | .addSentence _ | .addListBlock | .addListElement _ _ |
    .extendListElement _ _ => true

def isList : Operation → Bool
  | .addListBlock | .addListElement _ _ | .extendListElement _ _ => true
  | .setFileName _ | .addRule _ | .addSection _ _ | .addParagraph | .addSentence _ => false

end Operation

theorem apply_sections_ne_nil (b : Builder) {operation : Operation}
    (h : operation.isContent = true) : (b.apply operation).sections ≠ [] := by
  cases operation with
  | setFileName | addRule => cases h
  | addSection level header =>
      exact List.ne_nil_of_length_eq_add_one (addSection_length b level header)
  | addParagraph => exact addParagraph_ne_nil b
  | addSentence sentence =>
      rw [apply, addSentence_eq_if]
      split
      · exact changeLast_ne_nil (addParagraph_ne_nil _) _
      · exact changeLast_ne_nil (requireSection_ne_nil _) _
  | addListBlock => exact addListBlock_ne_nil b
  | addListElement | extendListElement =>
      exact sections_ne_nil_of_open (apply_isElement b _ rfl).2.1

/-- There is a section from the first step on that adds to a document. -/
theorem run_sections_eq_nil_iff (operations : List Operation) :
    (run operations).sections = [] ↔ operations.filter (·.isContent) = [] := by
  induction operations using List.reverseRecOn with
  | nil => exact ⟨fun _ => rfl, fun _ => rfl⟩
  | append_singleton operations operation ih =>
      rw [run_concat, List.filter_append, List.append_eq_nil_iff, ← ih]
      cases hContent : operation.isContent with
      | true => simp [apply_sections_ne_nil _ hContent, hContent]
      | false =>
          have hSame : ((run operations).apply operation).sections = (run operations).sections := by
            cases operation <;> first | rfl | cases hContent
          simp [hSame, hContent]

/-- List elements go to an open block exactly behind a list step, but for a list block that is the
first thing of all. -/
theorem run_inList_iff (operations : List Operation) :
    (run operations).inList = true ↔
      (∃ operation, (operations.filter (·.isContent)).getLast? = some operation ∧
        operation.isList = true) ∧
      operations.filter (·.isContent) ≠ [.addListBlock] := by
  induction operations using List.reverseRecOn with
  | nil => simp [run, empty]
  | append_singleton operations operation ih =>
      rw [run_concat, apply_inList, List.filter_append]
      cases operation with
      | setFileName | addRule => simpa [Operation.inList, Operation.isContent] using ih
      | addSection | addParagraph | addSentence =>
          simp [Operation.inList, Operation.isContent, Operation.isList]
      | addListBlock =>
          simp [Operation.inList, Operation.isContent, Operation.isList, run_sections_eq_nil_iff]
      | addListElement | extendListElement =>
          refine ⟨fun _ => ⟨⟨_, List.getLast?_concat, rfl⟩, fun hAlone => ?_⟩, fun _ => rfl⟩
          have hLast := congrArg List.getLast? hAlone
          rw [List.filter_singleton] at hLast
          simp [Operation.isContent] at hLast

/-- While list elements go to an open block, the section that was added last has one. -/
theorem run_blocksAt_ne_nil (operations : List Operation) :
    (run operations).inList = true →
      (run operations).blocksAt (run operations).lastIndex ≠ [] := by
  apply run_induction (P := fun b => b.inList = true → b.blocksAt b.lastIndex ≠ [])
  · exact nofun
  · intro b operation ih hList
    rw [apply_inList] at hList
    have hBlocks := apply_blocksAt b operation (b.apply operation).lastIndex
    cases operation with
    | setFileName | addRule => exact ih hList
    | addSection | addParagraph | addSentence => cases hList
    | addListBlock =>
        rw [hBlocks, if_pos (apply_lastIndex b .addListBlock)]
        exact List.concat_ne_nil _ _
    | addListElement level added =>
        rw [hBlocks, if_pos (apply_lastIndex b (.addListElement level added))]
        exact List.append_ne_nil_of_right_ne_nil _ (List.cons_ne_nil _ _)
    | extendListElement level added =>
        rw [hBlocks, if_pos (apply_lastIndex b (.extendListElement level added))]
        exact List.append_ne_nil_of_right_ne_nil _ (List.cons_ne_nil _ _)

/-! ## All of it -/

/-- List blocks of a document that is being built. List elements go to an open block exactly
behind a list step, but for a list block that is the first thing of all, and then the section has
one. Two list elements of a section share a block exactly when no paragraph, sentence or list
block came between them. Extending goes on with the last element of its level in the open block,
or adds one. What a section holds is what the steps brought to it, in their order. -/
theorem run_listBlocks (operations : List Operation) :
    ((run operations).inList = true ↔
      (∃ operation, (operations.filter (·.isContent)).getLast? = some operation ∧
        operation.isList = true) ∧
      operations.filter (·.isContent) ≠ [.addListBlock]) ∧
    ((run operations).inList = true →
      (run operations).blocksAt (run operations).lastIndex ≠ []) ∧
    (∀ before first between second after p q,
      operations = before ++ first :: between ++ second :: after →
      (⟨run before, first⟩ : Step).place? = some p →
      (⟨run (before ++ first :: between), second⟩ : Step).place? = some q →
      p.sectionIndex = q.sectionIndex →
      (p.block = q.block ↔ ∀ operation ∈ between, operation.separates = false)) ∧
    (∀ level added blocks before e after, (run operations).inList = true →
      (run operations).blocksAt (run operations).lastIndex = blocks ++ [before ++ e :: after] →
      e.level = level → (∀ x ∈ after, x.level ≠ level) →
      (run operations).extendListElement level added = (run operations).changeLast fun s =>
        { s with
          listBlocks := blocks ++
            [before ++ { e with sentences := e.sentences ++ added } :: after] }) ∧
    (∀ level added, ((run operations).inList = true → ∀ block,
        ((run operations).blocksAt (run operations).lastIndex).getLast? = some block →
        ∀ e ∈ block, e.level ≠ level) →
      (run operations).extendListElement level added =
        (run operations).addListElement level added) ∧
    (∀ i, marked ((run operations).paragraphsAt i) =
      (steps empty operations).flatMap (·.paragraphItems i)) ∧
    (∀ i, marked (places i ((run operations).blocksAt i)) =
      (steps empty operations).flatMap (·.blockItems i)) ∧
    (∀ p, Wrote ((steps empty operations).filter (·.place? = some p))
      ((run operations).elementAt? p)) := by
  refine ⟨run_inList_iff operations, run_blocksAt_ne_nil operations, ?_, ?_, ?_,
    run_paragraphItems operations, run_blockItems operations, run_elementAt? operations⟩
  · intro before first between second after p q _ hFirst hSecond hSection
    exact run_block_eq_iff hFirst hSecond hSection
  · intro level added blocks before e after hList hBlocks hLevel hLast
    exact extendListElement_of_last hList hBlocks hLevel hLast
  · intro level added hNone
    exact extendListElement_of_none hNone

example : ((run [.addListElement 1 [], .addListElement 2 [], .addParagraph,
    .addListElement 1 []]).blocksAt 0).map (·.map (·.level)) = [[1, 2], [1]] := by
  decide +kernel

/-- A list block that opens a document is closed at once. -/
theorem exists_listBlock_closed_at_once :
    ¬ ∀ operations, (run operations).inList = true ↔
      ∃ operation, (operations.filter (·.isContent)).getLast? = some operation ∧
        operation.isList = true :=
  fun h => absurd ((h [.addListBlock]).mpr ⟨_, rfl, rfl⟩) (by decide)

end ProseLint.Builder
