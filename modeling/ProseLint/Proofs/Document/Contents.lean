import ProseLint.Proofs.Document.Nesting

/-! What the sections of a document hold while it is built, told step by step. All steps share
the section that was added last, its last list block, and one flag that says whether this block is
still open. A step is described by the index of that section, by the block that the next list
element goes to, and by the elements that are there already. -/

namespace ProseLint.Builder

/-! ## Sections and their parts -/

/-- A part of the section at an index. A section that is not there has none. -/
def partAt {α : Type} (g : Section Sentence → List α) (b : Builder) (i : Nat) : List α :=
  ((b.sections[i]?).map g).getD []

/-- The index of the section that the next paragraph or list element goes to. -/
def lastIndex (b : Builder) : Nat := b.sections.length - 1

section

variable {α : Type} {g : Section Sentence → List α}

/-- A part that a new section does not have, and that does not tell what encloses what. -/
structure IsContent (g : Section Sentence → List α) : Prop where
  enclose : ∀ s i, g (s.enclose i) = g s
  new : ∀ level header parent, g (.ofHeader level header parent) = []

theorem addSection_partAt (hg : IsContent g) (b : Builder) (level : Int) (header : List Sentence)
    (i : Nat) : (b.addSection level header).partAt g i = b.partAt g i := by
  have hAttach := Section.attach_map hg.enclose b.sections
    (.ofHeader level header (b.parentFor level))
  rw [hg.new] at hAttach
  rw [partAt, partAt, ← List.getElem?_map, ← List.getElem?_map, addSection, hAttach]
  rcases Nat.lt_trichotomy i (b.sections.map g).length with hLt | rfl | hGt
  · rw [List.getElem?_append_left hLt]
  · rw [List.getElem?_concat_length, List.getElem?_eq_none (Nat.le_refl _)]
    rfl
  · rw [List.getElem?_eq_none (by simp at hGt ⊢; omega), List.getElem?_eq_none hGt.le]

theorem requireSection_partAt (hg : IsContent g) (b : Builder) (i : Nat) :
    b.requireSection.partAt g i = b.partAt g i := by
  unfold requireSection
  split
  · exact addSection_partAt hg b 0 [] i
  · rfl

theorem addSection_length (b : Builder) (level : Int) (header : List Sentence) :
    (b.addSection level header).sections.length = b.sections.length + 1 :=
  Section.attach_length _ _

theorem requireSection_lastIndex (b : Builder) : b.requireSection.lastIndex = b.lastIndex := by
  unfold requireSection
  split
  · next hNone =>
      rw [List.isEmpty_iff] at hNone
      rw [lastIndex, addSection_length, lastIndex, hNone]
      rfl
  · rfl

theorem changeLast_lastIndex (b : Builder) (f : Section Sentence → Section Sentence) :
    (b.changeLast f).lastIndex = b.lastIndex := by
  simp [lastIndex, changeLast]

theorem changeLast_partAt {b : Builder} (h : b.sections ≠ [])
    {f : Section Sentence → Section Sentence} {k : List α → List α}
    (hf : ∀ s, g (f s) = k (g s)) (i : Nat) :
    (b.changeLast f).partAt g i =
      if i = b.lastIndex then k (b.partAt g i) else b.partAt g i := by
  unfold partAt changeLast lastIndex
  rw [List.getElem?_modify]
  split
  · next hLast =>
      have hPos := List.length_pos_iff.mpr h
      rw [if_pos hLast.symm, List.getElem?_eq_getElem (show i < b.sections.length by omega)]
      exact hf _
  · next hOther =>
      rw [if_neg (Ne.symm hOther)]
      cases b.sections[i]? <;> rfl

theorem changeLast_partAt_same {b : Builder} {f : Section Sentence → Section Sentence}
    (hf : ∀ s, g (f s) = g s) (i : Nat) : (b.changeLast f).partAt g i = b.partAt g i := by
  unfold partAt changeLast
  rw [List.getElem?_modify]
  cases b.sections[i]? with
  | none => rfl
  | some s =>
      simp only [Option.map_some, Option.getD_some]
      split
      · exact hf s
      · rfl

end

/-- The paragraphs of the section at an index. -/
def paragraphsAt (b : Builder) (i : Nat) : List (List Sentence) := b.partAt (·.paragraphs) i

/-- The list blocks of the section at an index. -/
def blocksAt (b : Builder) (i : Nat) : List (List (ListElement Sentence)) :=
  b.partAt (·.listBlocks) i

theorem paragraphs_isContent : IsContent (α := List Sentence) (·.paragraphs) :=
  ⟨fun _ _ => rfl, fun _ _ _ => rfl⟩

theorem listBlocks_isContent : IsContent (α := List (ListElement Sentence)) (·.listBlocks) :=
  ⟨fun _ _ => rfl, fun _ _ _ => rfl⟩

theorem changeLast_paragraphsAt {b : Builder} (h : b.sections ≠ [])
    (k : List (List Sentence) → List (List Sentence)) (i : Nat) :
    (b.changeLast fun s => { s with paragraphs := k s.paragraphs }).paragraphsAt i =
      if i = b.lastIndex then k (b.paragraphsAt i) else b.paragraphsAt i :=
  changeLast_partAt (g := (·.paragraphs)) h (fun _ => rfl) i

theorem changeLast_blocksAt {b : Builder} (h : b.sections ≠ [])
    (k : List (List (ListElement Sentence)) → List (List (ListElement Sentence))) (i : Nat) :
    (b.changeLast fun s => { s with listBlocks := k s.listBlocks }).blocksAt i =
      if i = b.lastIndex then k (b.blocksAt i) else b.blocksAt i :=
  changeLast_partAt (g := (·.listBlocks)) h (fun _ => rfl) i

theorem changeLast_paragraphsAt_same (b : Builder)
    (k : List (List (ListElement Sentence)) → List (List (ListElement Sentence))) (i : Nat) :
    (b.changeLast fun s => { s with listBlocks := k s.listBlocks }).paragraphsAt i =
      b.paragraphsAt i :=
  changeLast_partAt_same (g := (·.paragraphs))
    (f := fun s => { s with listBlocks := k s.listBlocks }) (fun _ => rfl) i

theorem changeLast_blocksAt_same (b : Builder) (k : List (List Sentence) → List (List Sentence))
    (i : Nat) :
    (b.changeLast fun s => { s with paragraphs := k s.paragraphs }).blocksAt i = b.blocksAt i :=
  changeLast_partAt_same (g := (·.listBlocks))
    (f := fun s => { s with paragraphs := k s.paragraphs }) (fun _ => rfl) i

/-! ## Where the next list element goes -/

/-- The number of blocks before the one that the next list element goes to. -/
def nextBlock (b : Builder) : Nat :=
  if b.hasOpenBlock then (b.blocksAt b.lastIndex).length - 1 else (b.blocksAt b.lastIndex).length

/-- The elements of the block that the next list element goes to. It is a new one if none is
open. -/
def openBlock (b : Builder) : List (ListElement Sentence) :=
  ((b.blocksAt b.lastIndex)[b.nextBlock]?).getD []

theorem hasOpenBlock_eq (b : Builder) :
    b.hasOpenBlock = (b.inList && !(b.blocksAt b.lastIndex).isEmpty) := by
  unfold hasOpenBlock current? blocksAt partAt lastIndex
  rw [List.getLast?_eq_getElem?]
  cases b.sections[b.sections.length - 1]? <;> rfl

theorem sections_ne_nil_of_open {b : Builder} (h : b.hasOpenBlock = true) : b.sections ≠ [] :=
  fun hNil => by simp [hasOpenBlock, current?, hNil] at h

theorem blocks_ne_nil_of_open {b : Builder} (h : b.hasOpenBlock = true) :
    b.blocksAt b.lastIndex ≠ [] := by
  rw [hasOpenBlock_eq, Bool.and_eq_true] at h
  simpa using h.2

theorem nextBlock_of_open {b : Builder} (h : b.hasOpenBlock = true) :
    b.nextBlock + 1 = (b.blocksAt b.lastIndex).length := by
  have hPos := List.length_pos_iff.mpr (blocks_ne_nil_of_open h)
  rw [nextBlock, if_pos h]
  omega

theorem nextBlock_of_closed {b : Builder} (h : b.inList = false) :
    b.nextBlock = (b.blocksAt b.lastIndex).length := by
  rw [nextBlock, hasOpenBlock_eq, h]
  rfl

theorem nextBlock_le (b : Builder) : b.nextBlock ≤ (b.blocksAt b.lastIndex).length := by
  unfold nextBlock
  split
  · exact Nat.sub_le _ _
  · exact Nat.le_refl _

theorem le_nextBlock_succ (b : Builder) : (b.blocksAt b.lastIndex).length ≤ b.nextBlock + 1 := by
  unfold nextBlock
  split <;> omega

/-- The blocks of the last section are those before the next element, and the open one. -/
theorem take_nextBlock (b : Builder) :
    (b.hasOpenBlock = true ∧
      b.blocksAt b.lastIndex = (b.blocksAt b.lastIndex).take b.nextBlock ++ [b.openBlock]) ∨
    (b.hasOpenBlock = false ∧ b.openBlock = [] ∧
      b.nextBlock = (b.blocksAt b.lastIndex).length) := by
  cases hOpen : b.hasOpenBlock with
  | false =>
      have hNext : b.nextBlock = (b.blocksAt b.lastIndex).length := by simp [nextBlock, hOpen]
      exact .inr ⟨rfl, by simp [openBlock, hNext], hNext⟩
  | true =>
      have hSome := blocks_ne_nil_of_open hOpen
      have hNext : b.nextBlock = (b.blocksAt b.lastIndex).length - 1 := by simp [nextBlock, hOpen]
      refine .inl ⟨rfl, ?_⟩
      rw [openBlock, hNext, ← List.dropLast_eq_take, ← List.getLast?_eq_getElem?,
        List.getLast?_eq_some_getLast hSome, Option.getD_some, List.dropLast_append_getLast]

/-! ## What a step does to list blocks -/

theorem requireSection_blocksAt (b : Builder) (i : Nat) :
    b.requireSection.blocksAt i = b.blocksAt i :=
  requireSection_partAt listBlocks_isContent b i

theorem requireSection_hasOpenBlock (b : Builder) :
    b.requireSection.hasOpenBlock = b.hasOpenBlock := by
  rw [hasOpenBlock_eq, hasOpenBlock_eq, requireSection_blocksAt, requireSection_lastIndex]
  by_cases hNone : b.sections = []
  · simp [blocksAt, partAt, hNone]
  · rw [requireSection_eq hNone]

theorem requireSection_nextBlock (b : Builder) : b.requireSection.nextBlock = b.nextBlock := by
  rw [nextBlock, nextBlock, requireSection_hasOpenBlock, requireSection_blocksAt,
    requireSection_lastIndex]

theorem requireSection_openBlock (b : Builder) : b.requireSection.openBlock = b.openBlock := by
  rw [openBlock, openBlock, requireSection_nextBlock, requireSection_blocksAt,
    requireSection_lastIndex]

theorem addListBlock_blocksAt (b : Builder) (i : Nat) :
    b.addListBlock.blocksAt i =
      if i = b.lastIndex then b.blocksAt i ++ [[]] else b.blocksAt i := by
  rw [addListBlock, changeLast_blocksAt (requireSection_ne_nil _) (· ++ [[]]),
    requireSection_blocksAt, requireSection_lastIndex]
  rfl

theorem addListBlock_ne_nil (b : Builder) : b.addListBlock.sections ≠ [] :=
  changeLast_ne_nil (requireSection_ne_nil _) _

theorem addListBlock_lastIndex (b : Builder) : b.addListBlock.lastIndex = b.lastIndex := by
  rw [addListBlock, changeLast_lastIndex, requireSection_lastIndex]
  rfl

/-- The blocks before the next element, with some elements in the block behind them. -/
def withOpen (b : Builder) (elements : List (ListElement Sentence)) :
    List (List (ListElement Sentence)) :=
  (b.blocksAt b.lastIndex).take b.nextBlock ++ [elements]

theorem length_withOpen (b : Builder) (elements : List (ListElement Sentence)) :
    (b.withOpen elements).length = b.nextBlock + 1 := by
  simp [withOpen, nextBlock_le]

theorem addListElement_blocksAt (b : Builder) (level : Int) (added : List Sentence) (i : Nat) :
    (b.addListElement level added).blocksAt i =
      if i = b.lastIndex then b.withOpen (b.openBlock ++ [⟨level, added⟩])
      else b.blocksAt i := by
  unfold addListElement
  simp only [requireSection_hasOpenBlock]
  rcases take_nextBlock b with ⟨hOpen, hBlocks⟩ | ⟨hClosed, hNone, hNext⟩
  · rw [if_pos hOpen, changeLast_blocksAt (requireSection_ne_nil b) (appendToLast · _),
      requireSection_blocksAt, requireSection_lastIndex]
    split
    · next hLast => rw [hLast, hBlocks, appendToLast_concat, withOpen]
    · rfl
  · rw [if_neg (by simp [hClosed]), changeLast_blocksAt (addListBlock_ne_nil _) (appendToLast · _),
      addListBlock_blocksAt, addListBlock_lastIndex, requireSection_blocksAt,
      requireSection_lastIndex]
    split
    · next hLast => rw [appendToLast_concat, withOpen, hNone, hNext, hLast, List.take_length]
    · rfl

/-- The position in the open block of the last element of a level. -/
def openOfLevel? (b : Builder) (level : Int) : Option Nat := lastOfLevel? level b.openBlock

theorem addListElement_requireSection (b : Builder) (level : Int) (added : List Sentence) :
    b.requireSection.addListElement level added = b.addListElement level added := by
  have hTwice := requireSection_eq (requireSection_ne_nil b)
  unfold addListElement
  simp only [hTwice]

theorem extendTarget_eq (b : Builder) (level : Int) :
    (if b.requireSection.hasOpenBlock then
      (b.requireSection.current?.bind (·.listBlocks.getLast?)).bind (lastOfLevel? level)
    else none) = b.openOfLevel? level := by
  have hBlocks : b.requireSection.current?.bind (·.listBlocks.getLast?) =
      (b.requireSection.blocksAt b.requireSection.lastIndex).getLast? := by
    rw [current?, List.getLast?_eq_getElem?, blocksAt, partAt, lastIndex]
    cases b.requireSection.sections[b.requireSection.sections.length - 1]? <;> rfl
  rw [openOfLevel?, ← requireSection_openBlock]
  rcases take_nextBlock b.requireSection with ⟨hOpen, hLast⟩ | ⟨hClosed, hNone, -⟩
  · rw [if_pos hOpen, hBlocks, hLast, List.getLast?_concat, Option.bind_some]
  · simp [hClosed, hNone, lastOfLevel?]

section

variable {b : Builder} {level : Int}

theorem extendListElement_of_new (h : b.openOfLevel? level = none) (added : List Sentence) :
    b.extendListElement level added = b.addListElement level added := by
  rw [← addListElement_requireSection]
  unfold extendListElement
  simp only [extendTarget_eq, h]

theorem extendListElement_of_found {i : Nat} (h : b.openOfLevel? level = some i)
    (added : List Sentence) :
    b.extendListElement level added = b.requireSection.changeLast fun s =>
      { s with
        listBlocks := s.listBlocks.modify (s.listBlocks.length - 1) fun elements =>
          elements.modify i fun e => { e with sentences := e.sentences ++ added } } := by
  unfold extendListElement
  simp only [extendTarget_eq, h]

end

/-- What extending does to the elements of the open block. -/
def extended (elements : List (ListElement Sentence)) (level : Int) (added : List Sentence) :
    List (ListElement Sentence) :=
  match lastOfLevel? level elements with
  | some i => elements.modify i fun e => { e with sentences := e.sentences ++ added }
  | none => elements ++ [⟨level, added⟩]

theorem extendListElement_blocksAt (b : Builder) (level : Int) (added : List Sentence) (i : Nat) :
    (b.extendListElement level added).blocksAt i =
      if i = b.lastIndex then b.withOpen (extended b.openBlock level added)
      else b.blocksAt i := by
  rw [extended]
  cases hFound : b.openOfLevel? level with
  | none =>
      rw [extendListElement_of_new hFound]
      simp only [show lastOfLevel? level b.openBlock = none from hFound]
      exact addListElement_blocksAt b level added i
  | some k =>
      rw [extendListElement_of_found hFound, changeLast_blocksAt (requireSection_ne_nil b)
        (fun blocks => blocks.modify (blocks.length - 1) _), requireSection_blocksAt,
        requireSection_lastIndex]
      simp only [show lastOfLevel? level b.openBlock = some k from hFound]
      rcases take_nextBlock b with ⟨-, hBlocks⟩ | ⟨-, hNone, -⟩
      · split
        · next hLast => rw [hLast, hBlocks, modify_last_concat, withOpen]
        · rfl
      · simp [openOfLevel?, hNone, lastOfLevel?] at hFound

theorem addParagraph_blocksAt (b : Builder) (i : Nat) :
    b.addParagraph.blocksAt i = b.blocksAt i := by
  rw [addParagraph, changeLast_blocksAt_same _ (· ++ [[]]), requireSection_blocksAt]
  rfl

theorem addSentence_blocksAt (b : Builder) (sentence : Sentence) (i : Nat) :
    (b.addSentence sentence).blocksAt i = b.blocksAt i := by
  unfold addSentence
  extract_lets opened noParagraph ready
  rw [changeLast_blocksAt_same _ (appendToLast · sentence)]
  simp only [ready]
  split
  · exact (addParagraph_blocksAt _ i).trans (requireSection_blocksAt b i)
  · exact requireSection_blocksAt b i

/-- The list blocks of the last section behind a step. -/
def Operation.blocks (b : Builder) : Operation → List (List (ListElement Sentence))
  | .addListBlock => b.blocksAt b.lastIndex ++ [[]]
  | .addListElement level added => b.withOpen (b.openBlock ++ [⟨level, added⟩])
  | .extendListElement level added => b.withOpen (extended b.openBlock level added)
  | .setFileName _ | .addRule _ | .addSection _ _ | .addParagraph | .addSentence _ =>
      b.blocksAt b.lastIndex

/-- A step changes the list blocks of the section that was added last, and no others. -/
theorem apply_blocksAt (b : Builder) (operation : Operation) (i : Nat) :
    (b.apply operation).blocksAt i =
      if i = b.lastIndex then operation.blocks b else b.blocksAt i := by
  have hSame : b.blocksAt i =
      if i = b.lastIndex then b.blocksAt b.lastIndex else b.blocksAt i := by
    split
    · next hLast => rw [hLast]
    · rfl
  cases operation with
  | setFileName | addRule => exact hSame
  | addSection level header =>
      exact (addSection_partAt listBlocks_isContent b level header i).trans hSame
  | addParagraph => exact (addParagraph_blocksAt b i).trans hSame
  | addSentence sentence => exact (addSentence_blocksAt b sentence i).trans hSame
  | addListBlock =>
      refine (addListBlock_blocksAt b i).trans ?_
      split
      · next hLast => rw [hLast, Operation.blocks]
      · rfl
  | addListElement level added => exact addListElement_blocksAt b level added i
  | extendListElement level added => exact extendListElement_blocksAt b level added i

/-! ## What a step does to paragraphs -/

theorem requireSection_paragraphsAt (b : Builder) (i : Nat) :
    b.requireSection.paragraphsAt i = b.paragraphsAt i :=
  requireSection_partAt paragraphs_isContent b i

theorem addParagraph_ne_nil (b : Builder) : b.addParagraph.sections ≠ [] :=
  changeLast_ne_nil (requireSection_ne_nil _) _

theorem addParagraph_lastIndex (b : Builder) : b.addParagraph.lastIndex = b.lastIndex := by
  rw [addParagraph, changeLast_lastIndex, requireSection_lastIndex]
  rfl

theorem addParagraph_paragraphsAt (b : Builder) (i : Nat) :
    b.addParagraph.paragraphsAt i =
      if i = b.lastIndex then b.paragraphsAt i ++ [[]] else b.paragraphsAt i := by
  rw [addParagraph, changeLast_paragraphsAt (requireSection_ne_nil _) (· ++ [[]]),
    requireSection_paragraphsAt, requireSection_lastIndex]
  rfl

/-- Whether the next sentence opens a paragraph. -/
def needsParagraph (b : Builder) : Bool := b.inList || (b.paragraphsAt b.lastIndex).isEmpty

theorem addSentence_eq_if (b : Builder) (sentence : Sentence) :
    b.addSentence sentence =
      (if b.needsParagraph then b.requireSection.addParagraph else b.requireSection).changeLast
        fun s => { s with paragraphs := appendToLast s.paragraphs sentence } := by
  unfold addSentence
  extract_lets opened noParagraph ready
  have hNone : noParagraph = (b.paragraphsAt b.lastIndex).isEmpty := by
    rw [← requireSection_paragraphsAt, ← requireSection_lastIndex, paragraphsAt, partAt, lastIndex,
      ← List.getLast?_eq_getElem?]
    simp only [noParagraph, opened, current?]
    cases b.requireSection.sections.getLast? <;> rfl
  have hNeeds : (noParagraph || opened.inList) = b.needsParagraph := by
    rw [hNone, needsParagraph, Bool.or_comm]
    by_cases hNil : b.sections = []
    · simp [paragraphsAt, partAt, hNil]
    · simp only [opened, requireSection_eq hNil]
  simp only [ready, hNeeds, opened]

theorem addSentence_paragraphsAt (b : Builder) (sentence : Sentence) (i : Nat) :
    (b.addSentence sentence).paragraphsAt i =
      if i = b.lastIndex then
        appendToLast (if b.needsParagraph then b.paragraphsAt i ++ [[]] else b.paragraphsAt i)
          sentence
      else b.paragraphsAt i := by
  rw [addSentence_eq_if]
  split
  · rw [changeLast_paragraphsAt (addParagraph_ne_nil _) (appendToLast · sentence),
      addParagraph_lastIndex, addParagraph_paragraphsAt, requireSection_lastIndex,
      requireSection_paragraphsAt]
    split <;> rfl
  · rw [changeLast_paragraphsAt (requireSection_ne_nil _) (appendToLast · sentence),
      requireSection_lastIndex, requireSection_paragraphsAt]

theorem addListBlock_paragraphsAt (b : Builder) (i : Nat) :
    b.addListBlock.paragraphsAt i = b.paragraphsAt i := by
  rw [addListBlock, changeLast_paragraphsAt_same _ (· ++ [[]]), requireSection_paragraphsAt]
  rfl

theorem addListElement_paragraphsAt (b : Builder) (level : Int) (added : List Sentence) (i : Nat) :
    (b.addListElement level added).paragraphsAt i = b.paragraphsAt i := by
  unfold addListElement
  simp only
  rw [changeLast_paragraphsAt_same _ (appendToLast · _)]
  split
  · exact requireSection_paragraphsAt b i
  · exact (addListBlock_paragraphsAt _ i).trans (requireSection_paragraphsAt b i)

theorem extendListElement_paragraphsAt (b : Builder) (level : Int) (added : List Sentence)
    (i : Nat) : (b.extendListElement level added).paragraphsAt i = b.paragraphsAt i := by
  cases hFound : b.openOfLevel? level with
  | none => rw [extendListElement_of_new hFound, addListElement_paragraphsAt]
  | some k =>
      rw [extendListElement_of_found hFound, changeLast_paragraphsAt_same _
        (fun blocks => blocks.modify (blocks.length - 1) _), requireSection_paragraphsAt]

/-- The paragraphs of the last section behind a step. -/
def Operation.paragraphs (b : Builder) : Operation → List (List Sentence)
  | .addParagraph => b.paragraphsAt b.lastIndex ++ [[]]
  | .addSentence sentence =>
      if b.needsParagraph then b.paragraphsAt b.lastIndex ++ [[sentence]]
      else appendToLast (b.paragraphsAt b.lastIndex) sentence
  | .setFileName _ | .addRule _ | .addSection _ _ | .addListBlock | .addListElement _ _ |
    .extendListElement _ _ => b.paragraphsAt b.lastIndex

/-- A step changes the paragraphs of the section that was added last, and no others. -/
theorem apply_paragraphsAt (b : Builder) (operation : Operation) (i : Nat) :
    (b.apply operation).paragraphsAt i =
      if i = b.lastIndex then operation.paragraphs b else b.paragraphsAt i := by
  have hSame : b.paragraphsAt i =
      if i = b.lastIndex then b.paragraphsAt b.lastIndex else b.paragraphsAt i := by
    split
    · next hLast => rw [hLast]
    · rfl
  cases operation with
  | setFileName | addRule => exact hSame
  | addSection level header =>
      exact (addSection_partAt paragraphs_isContent b level header i).trans hSame
  | addParagraph =>
      refine (addParagraph_paragraphsAt b i).trans ?_
      split
      · next hLast => rw [hLast, Operation.paragraphs]
      · rfl
  | addSentence sentence =>
      refine (addSentence_paragraphsAt b sentence i).trans ?_
      split
      · next hLast =>
          rw [hLast, Operation.paragraphs]
          split
          · exact appendToLast_concat _ [] sentence
          · rfl
      · rfl
  | addListBlock => exact (addListBlock_paragraphsAt b i).trans hSame
  | addListElement level added => exact (addListElement_paragraphsAt b level added i).trans hSame
  | extendListElement level added =>
      exact (extendListElement_paragraphsAt b level added i).trans hSame

/-! ## What a step does to the flag and to the number of sections -/

theorem addSentence_closes (b : Builder) (sentence : Sentence) :
    (b.addSentence sentence).inList = false := by
  cases hOpen : b.inList with
  | false => exact addSentence_inList hOpen sentence
  | true =>
      rw [addSentence_eq_if, if_pos (by simp [needsParagraph, hOpen])]
      exact addParagraph_inList _

/-- A list block that has to open a section as well is closed at once. -/
theorem addListBlock_inList (b : Builder) : b.addListBlock.inList = !b.sections.isEmpty := by
  unfold addListBlock requireSection
  simp only [changeLast]
  cases hNone : b.sections.isEmpty with
  | true => rfl
  | false => rfl

/-- Whether list elements go to the last block behind a step. -/
def Operation.inList (b : Builder) : Operation → Bool
  | .setFileName _ | .addRule _ => b.inList
  | .addSection _ _ | .addParagraph | .addSentence _ => false
  | .addListBlock => !b.sections.isEmpty
  | .addListElement _ _ | .extendListElement _ _ => true

theorem apply_inList (b : Builder) (operation : Operation) :
    (b.apply operation).inList = operation.inList b := by
  cases operation with
  | setFileName | addRule | addSection => rfl
  | addParagraph => exact addParagraph_inList b
  | addSentence sentence => exact addSentence_closes b sentence
  | addListBlock => exact addListBlock_inList b
  | addListElement level added => exact addListElement_inList b level added
  | extendListElement level added => exact extendListElement_inList b level added

theorem addSentence_lastIndex (b : Builder) (sentence : Sentence) :
    (b.addSentence sentence).lastIndex = b.lastIndex := by
  rw [addSentence_eq_if, changeLast_lastIndex]
  split
  · rw [addParagraph_lastIndex, requireSection_lastIndex]
  · exact requireSection_lastIndex b

theorem addListElement_lastIndex (b : Builder) (level : Int) (added : List Sentence) :
    (b.addListElement level added).lastIndex = b.lastIndex := by
  unfold addListElement
  simp only
  rw [changeLast_lastIndex]
  split
  · exact requireSection_lastIndex b
  · rw [addListBlock_lastIndex, requireSection_lastIndex]

theorem extendListElement_lastIndex (b : Builder) (level : Int) (added : List Sentence) :
    (b.extendListElement level added).lastIndex = b.lastIndex := by
  cases hFound : b.openOfLevel? level with
  | none => rw [extendListElement_of_new hFound, addListElement_lastIndex]
  | some k =>
      rw [extendListElement_of_found hFound, changeLast_lastIndex, requireSection_lastIndex]

/-- Only a new section moves the place to which paragraphs and list elements go. -/
theorem apply_lastIndex (b : Builder) (operation : Operation) :
    (b.apply operation).lastIndex = match operation with
      | .addSection _ _ => b.sections.length
      | _ => b.lastIndex := by
  cases operation with
  | setFileName | addRule => rfl
  | addSection level header => exact congrArg (· - 1) (addSection_length b level header)
  | addParagraph => exact addParagraph_lastIndex b
  | addSentence sentence => exact addSentence_lastIndex b sentence
  | addListBlock => exact addListBlock_lastIndex b
  | addListElement level added => exact addListElement_lastIndex b level added
  | extendListElement level added => exact extendListElement_lastIndex b level added

theorem lastIndex_le_apply (b : Builder) (operation : Operation) :
    b.lastIndex ≤ (b.apply operation).lastIndex := by
  rw [apply_lastIndex]
  split
  · exact Nat.sub_le _ _
  · exact Nat.le_refl _

theorem lastIndex_le_foldl (operations : List Operation) (b : Builder) :
    b.lastIndex ≤ (operations.foldl apply b).lastIndex := by
  induction operations generalizing b with
  | nil => exact Nat.le_refl _
  | cons operation rest ih => exact (lastIndex_le_apply b operation).trans (ih _)

end ProseLint.Builder
