import ProseLint.Document.Builder

/-! What each step of building does. Every step but the opening of a section changes the
section that was added last, and no step touches a sentence that is already there. -/

namespace ProseLint

/-- Changing one item of a list adds to what all items yield what it adds to the item. -/
theorem flatMap_modify_perm {α β : Type} (f : α → α) (g : α → List β) (added : List β)
    (items : List α) (i : Nat) (hLt : i < items.length)
    (hAdd : ∀ a, items[i]? = some a → (g (f a)).Perm (g a ++ added)) :
    ((items.modify i f).flatMap g).Perm (items.flatMap g ++ added) := by
  induction items generalizing i with
  | nil => simp at hLt
  | cons a rest ih =>
      cases i with
      | zero =>
          simp only [List.modify_zero_cons, List.flatMap_cons]
          have hHead := (hAdd a rfl).append_right (rest.flatMap g)
          refine hHead.trans ?_
          rw [List.append_assoc, List.append_assoc]
          exact List.perm_append_comm.append_left _
      | succ i =>
          simp only [List.modify_succ_cons, List.flatMap_cons, List.append_assoc]
          exact (ih i (by simpa using hLt) (by simpa using hAdd)).append_left _

/-- Changing one item, seen through a map under which the change is another one. -/
theorem map_modify {α β : Type} {f : α → α} {k : β → β} {g : α → β} (h : ∀ a, g (f a) = k (g a))
    (items : List α) (i : Nat) : (items.modify i f).map g = (items.map g).modify i k := by
  apply List.ext_getElem (by simp)
  intro j hLeft hRight
  simp only [List.getElem_map, List.getElem_modify]
  split
  · exact h _
  · rfl

theorem map_modify_of_eq {α β : Type} {f : α → α} {g : α → β} (h : ∀ a, g (f a) = g a)
    (items : List α) (i : Nat) : (items.modify i f).map g = items.map g := by
  rw [map_modify (k := id) h, List.modify_id]

theorem flatten_flatMap {α β : Type} (f : α → List β) (lists : List (List α)) :
    lists.flatten.flatMap f = lists.flatMap (·.flatMap f) := by
  rw [List.flatten_eq_flatMap, List.flatMap_assoc]
  rfl

namespace Sentence

/-- The sentence as a finished document holds it. -/
def finish (tokenizer : Option Tokenizer) (s : Sentence) : Sentence :=
  match tokenizer with
  | some t => s.tokenize t
  | none => s

@[simp] theorem finish_content (tokenizer : Option Tokenizer) (s : Sentence) :
    (s.finish tokenizer).content = s.content := by
  cases tokenizer <;> rfl

@[simp] theorem finish_positions (tokenizer : Option Tokenizer) (s : Sentence) :
    (s.finish tokenizer).positions = s.positions := by
  cases tokenizer <;> rfl

@[simp] theorem finish_position (tokenizer : Option Tokenizer) (s : Sentence) :
    (s.finish tokenizer).position = s.position := by
  cases tokenizer <;> rfl

end Sentence

namespace Section

variable {σ τ : Type}

theorem map_id (s : Section σ) : s.map id = s := by
  have hElement : ListElement.map (id : σ → σ) = id := funext fun e => by simp [ListElement.map]
  simp [map, hElement]

theorem map_comp_map {ρ : Type} (g : τ → ρ) (f : σ → τ) :
    (map g ∘ map f : Section σ → Section ρ) = map (g ∘ f) := by
  funext s
  simp [map, ListElement.map, Function.comp_def]

theorem map_listSentences (f : σ → τ) (s : Section σ) :
    (s.map f).listSentences = s.listSentences.map f := by
  have hBlocks : (s.map f).listBlocks.flatten = s.listBlocks.flatten.map (·.map f) := by
    rw [List.map_flatten]
    rfl
  rw [listSentences, hBlocks, List.flatMap_map, listSentences, List.map_flatMap]
  rfl

theorem map_sentences (f : σ → τ) (s : Section σ) : (s.map f).sentences = s.sentences.map f := by
  have hParagraphs : (s.map f).paragraphSentences = s.paragraphSentences.map f := by
    rw [paragraphSentences, paragraphSentences, List.map_flatten]
    rfl
  rw [sentences, hParagraphs, map_listSentences, sentences, List.map_append, List.map_append]
  rfl

theorem mem_sentences {s : Section σ} {x : σ} :
    x ∈ s.sentences ↔ x ∈ s.header ∨ (∃ p ∈ s.paragraphs, x ∈ p) ∨
      ∃ b ∈ s.listBlocks, ∃ e ∈ b, x ∈ e.sentences := by
  rw [sentences, listSentences, flatten_flatMap]
  simp only [paragraphSentences, List.mem_append, List.mem_flatten, List.mem_flatMap, or_assoc]

/-- What ties a section to the others. -/
def frame (s : Section σ) : Int × Option Nat × List Nat := (s.level, s.parent, s.subsections)

/-- Attaching adds a section and changes nothing else but what encloses what. -/
theorem attach_map {α : Type} {g : Section σ → α} (hg : ∀ r i, g (r.enclose i) = g r)
    (sections : List (Section σ)) (s : Section σ) :
    (attach sections s).map g = sections.map g ++ [g s] := by
  unfold attach
  split
  · next p hParent =>
      rw [List.map_append, map_modify_of_eq (f := (·.enclose sections.length)) (hg · _)]
      rfl
  · rw [List.map_append]
    rfl

theorem attach_sentences (sections : List (Section σ)) (s : Section σ) :
    (attach sections s).flatMap Section.sentences =
      sections.flatMap Section.sentences ++ s.sentences := by
  rw [List.flatMap_def, attach_map fun _ _ => rfl, List.flatten_append, ← List.flatMap_def]
  simp

end Section

namespace Builder

/-- All sentences of the document built so far. -/
def sentences (b : Builder) : List Sentence := b.sections.flatMap Section.sentences

/-! ## The last section -/

theorem requireSection_eq {b : Builder} (h : b.sections ≠ []) : b.requireSection = b := by
  simp [requireSection, h]

theorem requireSection_ne_nil (b : Builder) : b.requireSection.sections ≠ [] := by
  unfold requireSection
  split
  · unfold addSection Section.attach
    simp only
    split <;> simp
  · next h => simpa using h

theorem addSection_sentences (b : Builder) (level : Int) (header : List Sentence) :
    (b.addSection level header).sentences = b.sentences ++ header := by
  simp only [sentences, addSection, Section.attach_sentences]
  simp [Section.sentences, Section.ofHeader, Section.paragraphSentences, Section.listSentences]

@[simp] theorem requireSection_sentences (b : Builder) :
    b.requireSection.sentences = b.sentences := by
  unfold requireSection
  split
  · simp [addSection_sentences]
  · rfl

/-- Opening a section ends a list, and nothing else changes whether one is open. -/
theorem requireSection_inList {b : Builder} (h : b.inList = false) :
    b.requireSection.inList = false := by
  unfold requireSection
  split
  · rfl
  · exact h

theorem changeLast_ne_nil {b : Builder} (h : b.sections ≠ [])
    (f : Section Sentence → Section Sentence) : (b.changeLast f).sections ≠ [] := by
  rw [← List.length_pos_iff] at h ⊢
  simpa [changeLast] using h

theorem changeLast_changeLast (b : Builder) (f g : Section Sentence → Section Sentence) :
    (b.changeLast f).changeLast g = b.changeLast (g ∘ f) := by
  simp [changeLast, List.modify_modify_eq]

theorem changeLast_current? (b : Builder) (f : Section Sentence → Section Sentence) :
    (b.changeLast f).current? = b.current?.map f := by
  simp only [current?, changeLast, List.getLast?_eq_getElem?, List.length_modify,
    List.getElem?_modify]
  simp

theorem changeLast_sentences_perm {b : Builder} (h : b.sections ≠ [])
    {f : Section Sentence → Section Sentence} {added : List Sentence}
    (hAdd : ∀ s, b.current? = some s → (f s).sentences.Perm (s.sentences ++ added)) :
    (b.changeLast f).sentences.Perm (b.sentences ++ added) := by
  have hPos := List.length_pos_iff.mpr h
  refine flatMap_modify_perm f _ added b.sections _ (by omega) fun s hLast => hAdd s ?_
  rw [current?, List.getLast?_eq_getElem?, hLast]

/-! ## Lists of lists -/

theorem appendToLast_flatten_perm {α : Type} {lists : List (List α)} (h : lists ≠ []) (a : α) :
    (appendToLast lists a).flatten.Perm (lists.flatten ++ [a]) := by
  have hPos := List.length_pos_iff.mpr h
  have hPerm := flatMap_modify_perm (· ++ [a]) id [a] lists (lists.length - 1) (by omega)
    (fun list _ => List.Perm.refl _)
  simpa [appendToLast, List.flatMap_id] using hPerm

theorem modify_last_concat {α : Type} (items : List α) (last : α) (f : α → α) :
    (items ++ [last]).modify ((items ++ [last]).length - 1) f = items ++ [f last] := by
  simp [List.modify_eq_take_cons_drop]

theorem appendToLast_concat {α : Type} (lists : List (List α)) (last : List α) (a : α) :
    appendToLast (lists ++ [last]) a = lists ++ [last ++ [a]] :=
  modify_last_concat lists last (· ++ [a])

/-! ## Steps -/

theorem withParagraphs_sentences_perm {s : Section Sentence} {paragraphs : List (List Sentence)}
    {added : List Sentence} (h : paragraphs.flatten.Perm (s.paragraphs.flatten ++ added)) :
    ({ s with paragraphs := paragraphs } : Section Sentence).sentences.Perm
      (s.sentences ++ added) := by
  simp only [Section.sentences, Section.paragraphSentences, Section.listSentences,
    List.append_assoc]
  refine List.Perm.append_left _ ((h.append_right _).trans ?_)
  rw [List.append_assoc]
  exact List.perm_append_comm.append_left _

theorem withListBlocks_sentences_perm {s : Section Sentence}
    {listBlocks : List (List (ListElement Sentence))} {added : List Sentence}
    (h : (listBlocks.flatten.flatMap (·.sentences)).Perm (s.listSentences ++ added)) :
    ({ s with listBlocks := listBlocks } : Section Sentence).sentences.Perm
      (s.sentences ++ added) := by
  simp only [Section.sentences, Section.paragraphSentences, Section.listSentences,
    List.append_assoc]
  exact (h.append_left _).append_left _

theorem addParagraph_sentences_perm (b : Builder) :
    b.addParagraph.sentences.Perm b.sentences := by
  have hSame : ∀ s : Section Sentence,
      ({ s with paragraphs := s.paragraphs ++ [[]] } : Section Sentence).sentences.Perm
        (s.sentences ++ []) := fun s => withParagraphs_sentences_perm (by simp)
  have hPerm := changeLast_sentences_perm (requireSection_ne_nil { b with inList := false })
    fun s _ => hSame s
  rw [List.append_nil, requireSection_sentences] at hPerm
  exact hPerm

theorem addParagraph_current? {b : Builder} {s : Section Sentence}
    (h : b.addParagraph.current? = some s) : s.paragraphs ≠ [] := by
  rw [addParagraph, changeLast_current?] at h
  obtain ⟨t, _, rfl⟩ := Option.map_eq_some_iff.mp h
  simp

theorem addSentence_sentences_perm (b : Builder) (sentence : Sentence) :
    (b.addSentence sentence).sentences.Perm (b.sentences ++ [sentence]) := by
  unfold addSentence
  extract_lets opened noParagraph ready
  have hReady : ready.sentences.Perm b.sentences := by
    simp only [ready, opened]
    split
    · exact (addParagraph_sentences_perm _).trans (.of_eq (requireSection_sentences b))
    · exact .of_eq (requireSection_sentences b)
  have hSome : ready.sections ≠ [] := by
    simp only [ready, opened]
    split
    · exact changeLast_ne_nil (requireSection_ne_nil _) _
    · exact requireSection_ne_nil b
  have hParagraph : ∀ s, ready.current? = some s → s.paragraphs ≠ [] := by
    intro s hLast
    simp only [ready] at hLast
    split at hLast
    · exact addParagraph_current? hLast
    · next hOpen =>
        simp only [noParagraph, hLast, Bool.or_eq_true, not_or] at hOpen
        simpa using hOpen.1
  refine (changeLast_sentences_perm hSome fun s hLast => ?_).trans (hReady.append_right _)
  exact withParagraphs_sentences_perm (appendToLast_flatten_perm (hParagraph s hLast) sentence)

/-- With a paragraph open, a sentence goes to the end of it. -/
theorem addSentence_eq {b : Builder} (hSome : b.sections ≠ []) (hClosed : b.inList = false)
    (hParagraph : ∀ s, b.current? = some s → s.paragraphs ≠ []) (sentence : Sentence) :
    b.addSentence sentence =
      b.changeLast fun s => { s with paragraphs := appendToLast s.paragraphs sentence } := by
  obtain ⟨s, hLast⟩ := Option.ne_none_iff_exists'.mp (mt List.getLast?_eq_none_iff.mp hSome)
  have hOpen : s.paragraphs.isEmpty = false := by simpa using hParagraph s hLast
  simp only [addSentence, requireSection_eq hSome, current?, hLast, hOpen, hClosed, Bool.or_self,
    Bool.false_eq_true, if_false]

theorem addListBlock_sentences_perm (b : Builder) :
    b.addListBlock.sentences.Perm b.sentences := by
  have hSame : ∀ s : Section Sentence,
      ({ s with listBlocks := s.listBlocks ++ [[]] } : Section Sentence).sentences.Perm
        (s.sentences ++ []) :=
    fun s => withListBlocks_sentences_perm (by simp [Section.listSentences])
  have hPerm := changeLast_sentences_perm (requireSection_ne_nil { b with inList := true })
    fun s _ => hSame s
  rw [List.append_nil, requireSection_sentences] at hPerm
  exact hPerm

theorem hasOpenBlock_current? {b : Builder} {s : Section Sentence} (h : b.hasOpenBlock = true)
    (hLast : b.current? = some s) : s.listBlocks ≠ [] := by
  simp only [hasOpenBlock, hLast, Bool.and_eq_true, Bool.not_eq_true'] at h
  simpa using h.2

theorem addListBlock_current? {b : Builder} {s : Section Sentence}
    (h : b.addListBlock.current? = some s) : s.listBlocks ≠ [] := by
  rw [addListBlock, changeLast_current?] at h
  obtain ⟨t, _, rfl⟩ := Option.map_eq_some_iff.mp h
  simp

theorem addListElement_sentences_perm (b : Builder) (level : Int) (added : List Sentence) :
    (b.addListElement level added).sentences.Perm (b.sentences ++ added) := by
  unfold addListElement
  extract_lets opened ready
  have hReady : ready.sentences.Perm b.sentences := by
    simp only [ready, opened]
    split
    · exact .of_eq (requireSection_sentences b)
    · exact (addListBlock_sentences_perm _).trans (.of_eq (requireSection_sentences b))
  have hSome : ready.sections ≠ [] := by
    simp only [ready, opened]
    split
    · exact requireSection_ne_nil b
    · exact changeLast_ne_nil (requireSection_ne_nil _) _
  have hBlock : ∀ s, ready.current? = some s → s.listBlocks ≠ [] := by
    intro s hLast
    simp only [ready] at hLast
    split at hLast
    · next hOpen => exact hasOpenBlock_current? hOpen hLast
    · exact addListBlock_current? hLast
  refine (changeLast_sentences_perm hSome fun s hLast => ?_).trans (hReady.append_right _)
  apply withListBlocks_sentences_perm
  have hPerm := (appendToLast_flatten_perm (hBlock s hLast) ⟨level, added⟩).flatMap_right
    (·.sentences)
  simpa [Section.listSentences] using hPerm

theorem lastOfLevel?_lt {level : Int} {elements : List (ListElement Sentence)} {i : Nat}
    (h : lastOfLevel? level elements = some i) : i < elements.length := by
  obtain ⟨k, hFound, rfl⟩ := Option.map_eq_some_iff.mp h
  have hLt := (List.findIdx?_eq_some_iff_findIdx_eq.mp hFound).1
  rw [List.length_reverse] at hLt
  omega

theorem extendListElement_sentences_perm (b : Builder) (level : Int) (added : List Sentence) :
    (b.extendListElement level added).sentences.Perm (b.sentences ++ added) := by
  rw [← requireSection_sentences b]
  unfold extendListElement
  simp only
  split
  · exact addListElement_sentences_perm _ level added
  · next i hTarget =>
      split at hTarget
      · next hOpen =>
          refine changeLast_sentences_perm (requireSection_ne_nil b) fun s hLast => ?_
          simp only [hLast, Option.bind_some] at hTarget
          obtain ⟨elements, hElements, hFound⟩ := Option.bind_eq_some_iff.mp hTarget
          have hPos := List.length_pos_iff.mpr (hasOpenBlock_current? hOpen hLast)
          apply withListBlocks_sentences_perm
          have hPerm := flatMap_modify_perm
            (fun elements : List (ListElement Sentence) =>
              elements.modify i fun e => { e with sentences := e.sentences ++ added })
            (·.flatMap (·.sentences)) added s.listBlocks (s.listBlocks.length - 1) (by omega) ?_
          · rwa [flatten_flatMap, Section.listSentences, flatten_flatMap]
          · intro last hIs
            rw [List.getLast?_eq_getElem?, hIs, Option.some_inj] at hElements
            subst hElements
            exact flatMap_modify_perm _ _ added last i (lastOfLevel?_lt hFound)
              fun e _ => List.Perm.refl _
      · cases hTarget

/-! ## Open lists -/

theorem addParagraph_inList (b : Builder) : b.addParagraph.inList = false :=
  requireSection_inList (b := { b with inList := false }) rfl

theorem addSentence_inList {b : Builder} (h : b.inList = false) (sentence : Sentence) :
    (b.addSentence sentence).inList = false := by
  unfold addSentence
  extract_lets opened noParagraph ready
  show ready.inList = false
  simp only [ready]
  split
  · exact addParagraph_inList _
  · exact requireSection_inList h

theorem addListElement_inList (b : Builder) (level : Int) (added : List Sentence) :
    (b.addListElement level added).inList = true := by
  unfold addListElement
  simp only [changeLast]
  split
  · next hOpen => exact (Bool.and_eq_true_iff.mp hOpen).1
  · have hSome : ({ b.requireSection with inList := true } : Builder).sections ≠ [] :=
      requireSection_ne_nil b
    rw [addListBlock, requireSection_eq hSome]
    rfl

theorem extendListElement_inList (b : Builder) (level : Int) (added : List Sentence) :
    (b.extendListElement level added).inList = true := by
  unfold extendListElement
  simp only
  split
  · exact addListElement_inList _ level added
  · next i hTarget =>
      split at hTarget
      · next hOpen => exact (Bool.and_eq_true_iff.mp hOpen).1
      · cases hTarget

/-! ## Runs -/

/-- One step of building. -/
inductive Operation where
  | setFileName (name : Option Text)
  | addRule (rule : SuppressRule)
  | addSection (level : Int) (header : List Sentence)
  | addParagraph
  | addSentence (sentence : Sentence)
  | addListBlock
  | addListElement (level : Int) (sentences : List Sentence)
  | extendListElement (level : Int) (sentences : List Sentence)

/-- Takes a step. -/
def apply (b : Builder) : Operation → Builder
  | .setFileName name => b.setFileName name
  | .addRule rule => b.addRule rule
  | .addSection level header => b.addSection level header
  | .addParagraph => b.addParagraph
  | .addSentence sentence => b.addSentence sentence
  | .addListBlock => b.addListBlock
  | .addListElement level sentences => b.addListElement level sentences
  | .extendListElement level sentences => b.extendListElement level sentences

/-- Takes steps one after the other, from nothing. -/
def run (operations : List Operation) : Builder := operations.foldl apply empty

/-- What holds of nothing and is kept by every step holds after any run. -/
theorem run_induction {P : Builder → Prop} (hEmpty : P empty)
    (hStep : ∀ b operation, P b → P (b.apply operation)) (operations : List Operation) :
    P (run operations) := by
  suffices hAll : ∀ b, P b → P (operations.foldl apply b) from hAll empty hEmpty
  induction operations with
  | nil => exact fun b h => h
  | cons operation rest ih => exact fun b h => ih _ (hStep b operation h)

namespace Operation

/-- The sentences that a step brings. -/
def sentences : Operation → List Sentence
  | .addSection _ header => header
  | .addSentence sentence => [sentence]
  | .addListElement _ sentences => sentences
  | .extendListElement _ sentences => sentences
  | .setFileName _ | .addRule _ | .addParagraph | .addListBlock => []

end Operation

/-- A step adds the sentences that it brings, wherever they go, and keeps all others. -/
theorem apply_sentences_perm (b : Builder) (operation : Operation) :
    (b.apply operation).sentences.Perm (b.sentences ++ operation.sentences) := by
  cases operation with
  | setFileName name => simp [apply, setFileName, sentences, Operation.sentences]
  | addRule rule => simp [apply, addRule, sentences, Operation.sentences]
  | addSection level header => exact .of_eq (addSection_sentences b level header)
  | addParagraph =>
      rw [Operation.sentences, List.append_nil]
      exact addParagraph_sentences_perm b
  | addSentence sentence => exact addSentence_sentences_perm b sentence
  | addListBlock =>
      rw [Operation.sentences, List.append_nil]
      exact addListBlock_sentences_perm b
  | addListElement level added => exact addListElement_sentences_perm b level added
  | extendListElement level added => exact extendListElement_sentences_perm b level added

/-- Steps add the sentences that they bring. -/
theorem foldl_sentences_perm (operations : List Operation) (b : Builder) :
    (operations.foldl apply b).sentences.Perm
      (b.sentences ++ operations.flatMap Operation.sentences) := by
  induction operations generalizing b with
  | nil => simp
  | cons operation rest ih =>
      refine (ih _).trans (((apply_sentences_perm b operation).append_right _).trans ?_)
      simp

/-- A document holds exactly the sentences that were brought, each as often as it was. -/
theorem run_sentences_perm (operations : List Operation) :
    (run operations).sentences.Perm (operations.flatMap Operation.sentences) :=
  foldl_sentences_perm operations empty

/-! ## Finished documents -/

/-- The sections of a finished document are those that were built, with tokens in their
sentences if there is a tokenizer. -/
theorem build_sections (b : Builder) (tokenizer : Option Tokenizer) :
    (b.build tokenizer).sections = b.sections.map (·.map (Sentence.finish tokenizer)) := by
  cases tokenizer with
  | none =>
      have hSame : ∀ s : Section Sentence, s.map (Sentence.finish none) = s := Section.map_id
      simp [build, hSame]
  | some t => rfl

theorem build_sentences (b : Builder) (tokenizer : Option Tokenizer) :
    (b.build tokenizer).sentences = b.sentences.map (Sentence.finish tokenizer) := by
  rw [Document.sentences, build_sections, List.flatMap_map, sentences, List.map_flatMap]
  simp only [Section.map_sentences]

end Builder

end ProseLint
