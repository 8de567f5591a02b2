import ProseLint.Proofs.Document.Building

/-! Building does not look into sentences and rules. When the sentences and rules that steps
bring are changed one by one, the same document is built with its sentences and rules changed. -/

namespace ProseLint

namespace Section

variable {σ τ : Type}

theorem attach_relabel (f : σ → τ) (sections : List (Section σ)) (s : Section σ) :
    attach (sections.map (·.map f)) (s.map f) = (attach sections s).map (·.map f) := by
  have hParent : (s.map f).parent = s.parent := rfl
  unfold attach
  rw [hParent]
  cases s.parent with
  | none => rw [List.map_append]; rfl
  | some p =>
      have hModify := map_modify (f := (·.enclose sections.length))
        (k := (·.enclose sections.length)) (g := map f) (fun _ => rfl) sections p
      simp only [List.length_map, List.map_append, hModify]
      rfl

end Section

namespace Builder

variable (f : Sentence → Sentence) (g : SuppressRule → SuppressRule)

/-- The builder with every sentence and every rule changed. -/
def relabel (b : Builder) : Builder :=
  { b with sections := b.sections.map (·.map f), rules := b.rules.map g }

@[simp] theorem relabel_inList (b : Builder) : (b.relabel f g).inList = b.inList := rfl

@[simp] theorem relabel_isEmpty (b : Builder) :
    (b.relabel f g).sections.isEmpty = b.sections.isEmpty := by
  simp [relabel]

theorem relabel_withInList (b : Builder) (inList : Bool) :
    ({ b.relabel f g with inList := inList } : Builder) =
      ({ b with inList := inList } : Builder).relabel f g := rfl

@[simp] theorem relabel_current? (b : Builder) :
    (b.relabel f g).current? = b.current?.map (·.map f) := by
  simp [current?, relabel]

/-- Where a section belongs is told by levels alone. -/
theorem enclosing_relabel (sections : List (Section Sentence)) (level : Int) (i : Nat) :
    enclosing (sections.map (·.map f)) level i = enclosing sections level i := by
  induction i using Nat.strongRecOn with
  | ind i ih =>
      rw [enclosing, enclosing, List.getElem?_map]
      cases sections[i]? with
      | none => rfl
      | some s =>
          have hLevel : (s.map f).level = s.level := rfl
          have hParent : (s.map f).parent = s.parent := rfl
          simp only [Option.map_some, hLevel, hParent]
          split
          · rfl
          · cases s.parent with
            | none => rfl
            | some p =>
                simp only
                split
                · next hBefore => exact ih p hBefore
                · rfl

theorem addSection_relabel (b : Builder) (level : Int) (header : List Sentence) :
    (b.relabel f g).addSection level (header.map f) = (b.addSection level header).relabel f g := by
  have hParent : (b.relabel f g).parentFor level = b.parentFor level := by
    simp only [parentFor, relabel, List.length_map, enclosing_relabel]
  have hSections : ∀ parent,
      Section.attach (b.relabel f g).sections (.ofHeader level (header.map f) parent) =
        (Section.attach b.sections (.ofHeader level header parent)).map (·.map f) :=
    fun parent => Section.attach_relabel f b.sections (.ofHeader level header parent)
  simp only [addSection, hParent, hSections, relabel_isEmpty]
  rfl

@[simp] theorem requireSection_relabel (b : Builder) :
    (b.relabel f g).requireSection = b.requireSection.relabel f g := by
  unfold requireSection
  rw [relabel_isEmpty]
  split
  · exact addSection_relabel f g b 0 []
  · rfl

theorem changeLast_relabel {change change' : Section Sentence → Section Sentence}
    (h : ∀ s, (change s).map f = change' (s.map f)) (b : Builder) :
    (b.relabel f g).changeLast change' = (b.changeLast change).relabel f g := by
  simp only [changeLast, relabel, List.length_map, map_modify h]

theorem appendToLast_map {α β : Type} (k : α → β) (lists : List (List α)) (a : α) :
    appendToLast (lists.map (·.map k)) (k a) = (appendToLast lists a).map (·.map k) := by
  rw [appendToLast, appendToLast, List.length_map]
  exact (map_modify (fun list => List.map_append) lists _).symm

theorem addParagraph_relabel (b : Builder) :
    (b.relabel f g).addParagraph = b.addParagraph.relabel f g := by
  unfold addParagraph
  rw [relabel_withInList, requireSection_relabel]
  exact changeLast_relabel f g (fun s => by simp [Section.map]) _

theorem addSentence_relabel (b : Builder) (sentence : Sentence) :
    (b.relabel f g).addSentence (f sentence) = (b.addSentence sentence).relabel f g := by
  have hReady : ∀ (opens : Bool) (opened : Builder),
      (if opens then (opened.relabel f g).addParagraph else opened.relabel f g) =
        (if opens then opened.addParagraph else opened).relabel f g := by
    intro opens opened
    cases opens with
    | false => rfl
    | true => exact addParagraph_relabel f g opened
  have hAppend : ∀ opened : Builder,
      (opened.relabel f g).changeLast
          (fun s => { s with paragraphs := appendToLast s.paragraphs (f sentence) }) =
        (opened.changeLast
          fun s => { s with paragraphs := appendToLast s.paragraphs sentence }).relabel f g :=
    changeLast_relabel f g fun s => by simp only [Section.map, appendToLast_map]
  unfold addSentence
  simp only [requireSection_relabel, relabel_inList, relabel_current?]
  cases b.requireSection.current? with
  | none =>
      simp only [Option.map_none]
      rw [hReady]
      exact hAppend _
  | some s =>
      have hParagraphs : (s.map f).paragraphs.isEmpty = s.paragraphs.isEmpty := List.isEmpty_map
      simp only [Option.map_some, hParagraphs]
      rw [hReady]
      exact hAppend _

theorem addListBlock_relabel (b : Builder) :
    (b.relabel f g).addListBlock = b.addListBlock.relabel f g := by
  unfold addListBlock
  rw [relabel_withInList, requireSection_relabel]
  exact changeLast_relabel f g (fun s => by simp [Section.map]) _

@[simp] theorem hasOpenBlock_relabel (b : Builder) :
    (b.relabel f g).hasOpenBlock = b.hasOpenBlock := by
  simp only [hasOpenBlock, relabel_inList, relabel_current?]
  cases b.current? with
  | none => rfl
  | some s => simp [Section.map]

theorem addListElement_relabel (b : Builder) (level : Int) (sentences : List Sentence) :
    (b.relabel f g).addListElement level (sentences.map f) =
      (b.addListElement level sentences).relabel f g := by
  have hReady : ∀ opened : Builder,
      (if opened.hasOpenBlock then opened.relabel f g else (opened.relabel f g).addListBlock) =
        (if opened.hasOpenBlock then opened else opened.addListBlock).relabel f g := by
    intro opened
    split
    · rfl
    · exact addListBlock_relabel f g opened
  have hElement : ∀ lists : List (List (ListElement Sentence)),
      appendToLast (lists.map (·.map (·.map f))) ⟨level, sentences.map f⟩ =
        (appendToLast lists ⟨level, sentences⟩).map (·.map (·.map f)) :=
    fun lists => appendToLast_map (ListElement.map f) lists ⟨level, sentences⟩
  unfold addListElement
  simp only [requireSection_relabel, hasOpenBlock_relabel]
  rw [hReady]
  exact changeLast_relabel f g (fun s => by simp only [Section.map, hElement]) _

theorem lastOfLevel?_relabel (level : Int) (elements : List (ListElement Sentence)) :
    lastOfLevel? level (elements.map (·.map f)) = lastOfLevel? level elements := by
  rw [lastOfLevel?, lastOfLevel?, List.length_map, ← List.map_reverse, List.findIdx?_map]
  rfl

theorem extendListElement_relabel (b : Builder) (level : Int) (sentences : List Sentence) :
    (b.relabel f g).extendListElement level (sentences.map f) =
      (b.extendListElement level sentences).relabel f g := by
  have hTarget : ((b.requireSection.relabel f g).current?.bind (·.listBlocks.getLast?)).bind
      (lastOfLevel? level) =
        (b.requireSection.current?.bind (·.listBlocks.getLast?)).bind (lastOfLevel? level) := by
    rw [relabel_current?]
    cases b.requireSection.current? with
    | none => rfl
    | some s =>
        simp only [Option.map_some, Option.bind_some, Section.map, List.getLast?_map]
        cases s.listBlocks.getLast? with
        | none => rfl
        | some elements => exact lastOfLevel?_relabel f level elements
  unfold extendListElement
  simp only [requireSection_relabel, hasOpenBlock_relabel]
  rw [hTarget]
  generalize (if b.requireSection.hasOpenBlock then
    (b.requireSection.current?.bind (·.listBlocks.getLast?)).bind (lastOfLevel? level)
    else none) = target
  cases target with
  | none => exact addListElement_relabel f g _ level sentences
  | some i =>
      have hElements : ∀ elements : List (ListElement Sentence),
          (elements.modify i fun e => { e with sentences := e.sentences ++ sentences }).map
              (·.map f) =
            (elements.map (·.map f)).modify i
              fun e => { e with sentences := e.sentences ++ sentences.map f } :=
        fun elements => map_modify (fun e => by simp [ListElement.map]) elements i
      refine changeLast_relabel f g (fun s => ?_) _
      simp only [Section.map, map_modify hElements, List.length_map]
      rfl

/-! ## Runs -/

/-- The step with the sentences and the rule that it brings changed. -/
def Operation.relabel : Operation → Operation
  | .setFileName name => .setFileName name
  | .addRule rule => .addRule (g rule)
  | .addSection level header => .addSection level (header.map f)
  | .addParagraph => .addParagraph
  | .addSentence sentence => .addSentence (f sentence)
  | .addListBlock => .addListBlock
  | .addListElement level sentences => .addListElement level (sentences.map f)
  | .extendListElement level sentences => .extendListElement level (sentences.map f)

theorem apply_relabel (b : Builder) (operation : Operation) :
    (b.relabel f g).apply (operation.relabel f g) = (b.apply operation).relabel f g := by
  cases operation with
  | setFileName name => rfl
  | addRule rule => simp [Operation.relabel, apply, addRule, relabel]
  | addSection level header => exact addSection_relabel f g b level header
  | addParagraph => exact addParagraph_relabel f g b
  | addSentence sentence => exact addSentence_relabel f g b sentence
  | addListBlock => exact addListBlock_relabel f g b
  | addListElement level sentences => exact addListElement_relabel f g b level sentences
  | extendListElement level sentences => exact extendListElement_relabel f g b level sentences

/-- A run on other sentences and rules takes the same course. -/
theorem run_relabel (operations : List Operation) :
    run (operations.map (·.relabel f g)) = (run operations).relabel f g := by
  suffices hAll : ∀ b : Builder, (operations.map (·.relabel f g)).foldl apply (b.relabel f g) =
      (operations.foldl apply b).relabel f g from hAll empty
  induction operations with
  | nil => exact fun b => rfl
  | cons operation rest ih =>
      intro b
      rw [List.map_cons, List.foldl_cons, List.foldl_cons, apply_relabel]
      exact ih _

end Builder

end ProseLint
