import ProseLint.Markup.Reading
import ProseLint.Proofs.Document.ElementPlaces
import ProseLint.Proofs.Layout.Headers
import ProseLint.Proofs.Layout.Links
import ProseLint.Proofs.Markup.Starts

/-! Sentences that are marked as the first of something. Cutting up a group of lines marks the first
sentence of the group. A header and a paragraph are one group each, so one sentence is marked there.
A list element is a group with all those that go on with it, and each of these brings a mark. -/

namespace ProseLint

open Layout

/-! ## Marks -/

namespace Sentence

/-- The first sentence is marked as the first, and no other one is. -/
def MarksFirst (unit : List Sentence) : Prop :=
  ∀ (i : Nat) (_ : i < unit.length), unit[i].isFirst = decide (i = 0)

instance (unit : List Sentence) : Decidable (MarksFirst unit) := Nat.decidableBallLT _ _

theorem marksFirst_nil : MarksFirst [] := nofun

/-- Tokens say nothing about marks. -/
theorem MarksFirst.finish {unit : List Sentence} (h : MarksFirst unit)
    (tokenizer : Option Tokenizer) : MarksFirst (unit.map (Sentence.finish tokenizer)) := by
  intro i hLt
  rw [List.getElem_map, finish_isFirst]
  exact h i (by simpa using hLt)

/-- Behind other sentences a list brings a mark too many. -/
theorem MarksFirst.not_append {before unit : List Sentence} (h : MarksFirst unit)
    (hBefore : before ≠ []) (hSome : unit ≠ []) : ¬ MarksFirst (before ++ unit) := by
  intro hAll
  have hPos := List.length_pos_iff.mpr hSome
  have hMarked := hAll before.length (by simpa using hPos)
  have hFirst := h 0 hPos
  simp only [List.getElem_append_right (Nat.le_refl _), Nat.sub_self, hFirst] at hMarked
  simp [hBefore] at hMarked

end Sentence

theorem Passage.sentences_marksFirst (e : Extractor) (p : Passage) :
    Sentence.MarksFirst (p.sentences e) := by
  intro i hLt
  simp only [sentences, List.getElem_mapIdx]
  rfl

/-! ## Paragraphs and list elements -/

namespace Builder

/-- The list is a paragraph of the document built so far. -/
def HasParagraph (b : Builder) (paragraph : List Sentence) : Prop :=
  ∃ i, paragraph ∈ b.paragraphsAt i

/-- The element is in a list of the document built so far. -/
def HasElement (b : Builder) (element : ListElement Sentence) : Prop :=
  ∃ i, ∃ block ∈ b.blocksAt i, element ∈ block

variable {b : Builder}

theorem partAt_of_getElem? {α : Type} {g : Section Sentence → List α} {i : Nat}
    {s : Section Sentence} (h : b.sections[i]? = some s) : b.partAt g i = g s := by
  rw [partAt, h]
  rfl

theorem hasParagraph_of_mem {s : Section Sentence} (hSection : s ∈ b.sections)
    {paragraph : List Sentence} (h : paragraph ∈ s.paragraphs) : b.HasParagraph paragraph := by
  obtain ⟨i, hAt⟩ := List.getElem?_of_mem hSection
  exact ⟨i, by rwa [paragraphsAt, partAt_of_getElem? hAt]⟩

theorem hasElement_of_mem {s : Section Sentence} (hSection : s ∈ b.sections)
    {block : List (ListElement Sentence)} (hBlock : block ∈ s.listBlocks)
    {element : ListElement Sentence} (h : element ∈ block) : b.HasElement element := by
  obtain ⟨i, hAt⟩ := List.getElem?_of_mem hSection
  exact ⟨i, block, by rwa [blocksAt, partAt_of_getElem? hAt], h⟩

theorem hasElement_of_mem_openBlock {element : ListElement Sentence} (h : element ∈ b.openBlock) :
    b.HasElement element := by
  rw [openBlock] at h
  cases hAt : (b.blocksAt b.lastIndex)[b.nextBlock]? with
  | none => simp [hAt] at h
  | some block =>
      rw [hAt] at h
      exact ⟨b.lastIndex, block, List.mem_of_getElem? hAt, h⟩

/-- When one block is put in the place of the open one, every element is in that block or was there
before. -/
theorem hasElement_of_mem_withOpen {elements block : List (ListElement Sentence)}
    (hBlock : block ∈ b.withOpen elements) {element : ListElement Sentence} (h : element ∈ block) :
    b.HasElement element ∨ element ∈ elements := by
  rcases List.mem_append.mp hBlock with hOther | hNew
  · exact .inl ⟨b.lastIndex, block, List.mem_of_mem_take hOther, h⟩
  · rw [List.mem_singleton.mp hNew] at h
    exact .inr h

/-- Extending adds an element, or makes one of the same level longer. -/
theorem mem_extended {elements : List (ListElement Sentence)} {level : Int}
    {added : List Sentence} {element : ListElement Sentence}
    (h : element ∈ extended elements level added) :
    element ∈ elements ∨ element = ⟨level, added⟩ ∨
      ∃ old ∈ elements, old.level = level ∧ element = ⟨level, old.sentences ++ added⟩ := by
  obtain ⟨n, hAt⟩ := List.getElem?_of_mem h
  rw [getElem?_extended] at hAt
  split at hAt
  · cases hOld : elements[extendedIndex elements level]? with
    | none =>
        rw [hOld] at hAt
        exact .inr (.inl (Option.some_inj.mp hAt).symm)
    | some old =>
        rw [hOld] at hAt
        exact .inr (.inr ⟨old, List.mem_of_getElem? hOld, level_of_extendedIndex hOld,
          (Option.some_inj.mp hAt).symm⟩)
  · exact .inl (List.mem_of_getElem? hAt)

end Builder

namespace Layout

variable {e : Extractor}

namespace Group

theorem add_paragraphsAt (e : Extractor) (b : Builder) (g : Group) (i : Nat) :
    (g.add e b).paragraphsAt i =
      if g.role = .paragraph ∧ i = b.lastIndex then
        b.paragraphsAt i ++ [Line.sentences e g.lines]
      else b.paragraphsAt i := by
  obtain ⟨role, lines⟩ := g
  cases role with
  | header level => exact Builder.addSection_partAt Builder.paragraphs_isContent b level _ i
  | element level => exact Builder.addListElement_paragraphsAt b level _ i
  | continuation level => exact Builder.extendListElement_paragraphsAt b level _ i
  | paragraph =>
      rw [add_paragraph, addParagraphOf_eq,
        Builder.changeLast_paragraphsAt (Builder.requireSection_ne_nil _) (· ++ [_]),
        Builder.requireSection_lastIndex, Builder.requireSection_paragraphsAt]
      simp only [true_and]
      rfl

/-- The list blocks of the last section behind a group. -/
def blocks (e : Extractor) (b : Builder) (g : Group) : List (List (ListElement Sentence)) :=
  match g.role with
  | .element level => b.withOpen (b.openBlock ++ [⟨level, Line.sentences e g.lines⟩])
  | .continuation level =>
      b.withOpen (Builder.extended b.openBlock level (Line.sentences e g.lines))
  | .header _ | .paragraph => b.blocksAt b.lastIndex

theorem add_blocksAt (e : Extractor) (b : Builder) (g : Group) (i : Nat) :
    (g.add e b).blocksAt i = if i = b.lastIndex then g.blocks e b else b.blocksAt i := by
  have hSame : b.blocksAt i =
      if i = b.lastIndex then b.blocksAt b.lastIndex else b.blocksAt i := by
    split
    · next hLast => rw [hLast]
    · rfl
  obtain ⟨role, lines⟩ := g
  cases role with
  | header level =>
      exact (Builder.addSection_partAt Builder.listBlocks_isContent b level _ i).trans hSame
  | element level => exact Builder.addListElement_blocksAt b level _ i
  | continuation level => exact Builder.extendListElement_blocksAt b level _ i
  | paragraph =>
      rw [add_paragraph, addParagraphOf_eq, Builder.changeLast_blocksAt_same _ (· ++ [_]),
        Builder.requireSection_blocksAt]
      exact hSame

/-- A paragraph was there before a group is laid out, or it is the group. -/
theorem hasParagraph_of_add {b : Builder} {g : Group} {paragraph : List Sentence}
    (h : (g.add e b).HasParagraph paragraph) :
    b.HasParagraph paragraph ∨ paragraph = Line.sentences e g.lines := by
  obtain ⟨i, hMem⟩ := h
  rw [add_paragraphsAt] at hMem
  split at hMem
  · rcases List.mem_append.mp hMem with hOld | hNew
    · exact .inl ⟨i, hOld⟩
    · exact .inr (List.mem_singleton.mp hNew)
  · exact .inl ⟨i, hMem⟩

/-- A list element was there before a group is laid out, or it is the group, or the group has gone
on with it. -/
theorem hasElement_of_add {b : Builder} {g : Group} {element : ListElement Sentence}
    (h : (g.add e b).HasElement element) :
    b.HasElement element ∨
      (g.role = .element element.level ∨ g.role = .continuation element.level) ∧
        element.sentences = Line.sentences e g.lines ∨
      ∃ old, b.HasElement old ∧ old.level = element.level ∧
        g.role = .continuation element.level ∧
        element.sentences = old.sentences ++ Line.sentences e g.lines := by
  obtain ⟨i, block, hBlock, hMem⟩ := h
  rw [add_blocksAt] at hBlock
  split at hBlock
  · obtain ⟨role, lines⟩ := g
    cases role with
    | header level | paragraph => exact .inl ⟨b.lastIndex, block, hBlock, hMem⟩
    | element level =>
        rcases Builder.hasElement_of_mem_withOpen hBlock hMem with hOld | hOpen
        · exact .inl hOld
        · rcases List.mem_append.mp hOpen with hOld | hNew
          · exact .inl (Builder.hasElement_of_mem_openBlock hOld)
          · cases List.mem_singleton.mp hNew
            exact .inr (.inl ⟨.inl rfl, rfl⟩)
    | continuation level =>
        rcases Builder.hasElement_of_mem_withOpen hBlock hMem with hOld | hOpen
        · exact .inl hOld
        · rcases Builder.mem_extended hOpen with hOld | rfl | ⟨old, hOld, hLevel, rfl⟩
          · exact .inl (Builder.hasElement_of_mem_openBlock hOld)
          · exact .inr (.inl ⟨.inr rfl, rfl⟩)
          · exact .inr (.inr ⟨old, Builder.hasElement_of_mem_openBlock hOld, hLevel, rfl, rfl⟩)
  · exact .inl ⟨i, block, hBlock, hMem⟩

end Group

/-- The element holds what becomes of a group of lines, which begins it, and of all those that go on
with it later. -/
structure IsItem (cut : Group → List Sentence) (gs : List Group) (element : ListElement Sentence)
    (first : Group) (later : List Group) : Prop where
  sublist : (first :: later).Sublist gs
  begins : first.role = .element element.level ∨ first.role = .continuation element.level
  goesOn : ∀ g ∈ later, g.role = .continuation element.level
  sentences : element.sentences = (first :: later).flatMap cut

namespace IsItem

variable {cut : Group → List Sentence} {gs : List Group} {element : ListElement Sentence}
  {first : Group} {later : List Group}

theorem append (h : IsItem cut gs element first later) (more : List Group) :
    IsItem cut (gs ++ more) element first later where
  sublist := h.sublist.trans (List.sublist_append_left gs more)
  begins := h.begins
  goesOn := h.goesOn
  sentences := h.sentences

theorem concat (h : IsItem cut gs element first later) {g : Group}
    (hRole : g.role = .continuation element.level) :
    IsItem cut (gs ++ [g]) ⟨element.level, element.sentences ++ cut g⟩ first (later ++ [g]) where
  sublist := h.sublist.append (.refl [g])
  begins := h.begins
  goesOn := forall_mem_concat h.goesOn hRole
  sentences := by
    rw [← List.cons_append, List.flatMap_append, List.flatMap_singleton, h.sentences]

theorem map (h : IsItem cut gs element first later) (f : Sentence → Sentence) :
    IsItem (fun g => (cut g).map f) gs (element.map f) first later where
  sublist := h.sublist
  begins := h.begins
  goesOn := h.goesOn
  sentences := by rw [ListElement.map, h.sentences, List.map_flatMap]

/-- One mark stands in an element when it is the group that began it and nothing else. -/
theorem marksFirst_iff (h : IsItem cut gs element first later)
    (hCut : ∀ g ∈ first :: later, cut g ≠ [] ∧ Sentence.MarksFirst (cut g)) :
    Sentence.MarksFirst element.sentences ↔ later = [] := by
  rw [h.sentences]
  constructor
  · intro hOnce
    by_contra hMore
    obtain ⟨before, last, rfl⟩ := (List.eq_nil_or_concat' later).resolve_left hMore
    rw [← List.cons_append, List.flatMap_append, List.flatMap_singleton, List.flatMap_cons] at hOnce
    obtain ⟨hSome, hMarks⟩ := hCut last (by simp)
    exact hMarks.not_append (by simp [(hCut first List.mem_cons_self).1]) hSome hOnce
  · rintro rfl
    rw [List.flatMap_singleton]
    exact (hCut first List.mem_cons_self).2

end IsItem

/-! ## Whole documents -/

theorem foldl_add_hasParagraph {b : Builder} (hNone : ∀ paragraph, ¬ b.HasParagraph paragraph)
    {gs : List Group} {paragraph : List Sentence}
    (h : (gs.foldl (Group.add e) b).HasParagraph paragraph) :
    ∃ g ∈ gs, paragraph = Line.sentences e g.lines := by
  induction gs using List.reverseRecOn with
  | nil => exact (hNone paragraph h).elim
  | append_singleton gs g ih =>
      rw [List.foldl_concat] at h
      rcases Group.hasParagraph_of_add h with hOld | rfl
      · obtain ⟨k, hMem, hSame⟩ := ih hOld
        exact ⟨k, List.mem_append_left [g] hMem, hSame⟩
      · exact ⟨g, List.mem_concat_self, rfl⟩

theorem foldl_add_hasElement {b : Builder} (hNone : ∀ element, ¬ b.HasElement element)
    {gs : List Group} {element : ListElement Sentence}
    (h : (gs.foldl (Group.add e) b).HasElement element) :
    ∃ first later, IsItem (fun g => Line.sentences e g.lines) gs element first later := by
  induction gs using List.reverseRecOn generalizing element with
  | nil => exact (hNone element h).elim
  | append_singleton gs g ih =>
      rw [List.foldl_concat] at h
      rcases Group.hasElement_of_add h with hOld | ⟨hRole, hNew⟩ | ⟨old, hOld, hLevel, hRole, hMore⟩
      · obtain ⟨first, later, hItem⟩ := ih hOld
        exact ⟨first, later, hItem.append [g]⟩
      · refine ⟨g, [], List.sublist_append_right gs [g], hRole, nofun, ?_⟩
        rw [hNew, List.flatMap_singleton]
      · obtain ⟨first, later, hItem⟩ := ih hOld
        obtain ⟨level, sentences⟩ := element
        cases hLevel
        cases hMore
        exact ⟨first, later ++ [g], hItem.concat hRole⟩

section

variable (e : Extractor) (lines : List Line) (rules : List SuppressRule) (fileName : Option Text)

theorem startOf_partAt {α : Type} {g : Section Sentence → List α} (hg : Builder.IsContent g)
    (i : Nat) : (startOf lines rules fileName).partAt g i = [] := by
  rw [Builder.partAt, startOf_sections]
  split
  · cases i with
    | zero => exact hg.new 0 [] none
    | succ i => rfl
  · rfl

/-- A header holds the sentences of one line, if any. -/
theorem build_header {s : Section Sentence} (h : s ∈ (build e lines rules fileName).sections) :
    s.header = [] ∨ ∃ l ∈ lines, s.header = Line.sentences e [l] := by
  have hTitle : s.title ∈ (build e lines rules fileName).titles := List.mem_map_of_mem h
  rw [build_titles] at hTitle
  rcases List.mem_append.mp hTitle with hRoot | hLine
  · split at hRoot
    · exact .inl (congrArg Prod.snd (List.mem_singleton.mp hRoot))
    · cases hRoot
  · obtain ⟨l, hMem, hSame⟩ := List.mem_map.mp hLine
    exact .inr ⟨l, (List.mem_filter.mp hMem).1, (congrArg Prod.snd hSame).symm⟩

theorem build_paragraph {paragraph : List Sentence}
    (h : (build e lines rules fileName).HasParagraph paragraph) :
    ∃ g ∈ groups false lines, paragraph = Line.sentences e g.lines := by
  rw [build_eq_foldl] at h
  apply foldl_add_hasParagraph _ h
  rintro paragraph ⟨i, hMem⟩
  rw [Builder.paragraphsAt, startOf_partAt _ _ _ Builder.paragraphs_isContent] at hMem
  cases hMem

theorem build_element {element : ListElement Sentence}
    (h : (build e lines rules fileName).HasElement element) :
    ∃ first later, IsItem (fun g => Line.sentences e g.lines) (groups false lines) element first
      later := by
  rw [build_eq_foldl] at h
  apply foldl_add_hasElement _ h
  rintro element ⟨i, block, hBlock, _⟩
  rw [Builder.blocksAt, startOf_partAt _ _ _ Builder.listBlocks_isContent] at hBlock
  cases hBlock

end

/-- A group of lines makes sentences, and the first of them is marked. -/
theorem Group.sentences_marksFirst {inList : Bool} {lines : List Line} {g : Group}
    (h : g ∈ groups inList lines) (tokenizer : Option Tokenizer) :
    let cut := (Line.sentences e g.lines).map (Sentence.finish tokenizer)
    cut ≠ [] ∧ Sentence.MarksFirst cut := by
  intro cut
  obtain ⟨_, hSome, hText⟩ := mem_groups h
  obtain ⟨l, hLine⟩ := List.exists_mem_of_ne_nil _ hSome
  have hSpans := Passage.spans_ne_nil e ⟨l, hLine, hText l hLine⟩
  constructor
  · rw [Ne, List.map_eq_nil_iff, Line.sentences, Passage.sentences, List.mapIdx_eq_nil_iff]
    exact hSpans
  · exact (Passage.sentences_marksFirst e _).finish tokenizer

end Layout

/-- Every header and every paragraph has a mark on its first sentence and on no other. A list
element has one mark for the lines that begin it and one for each of its later paragraphs, so it has
a mark on its first sentence and on no other exactly when it has no later paragraph. -/
theorem Format.read_marksFirst_iff (f : Format) (o : ReadOptions) (t : Text) :
    let gs := groups false (f.classify t).lines
    let cut := fun g : Group =>
      (Line.sentences o.extractor g.lines).map (Sentence.finish o.tokenizer)
    ∀ s ∈ (f.read o t).document.sections,
      Sentence.MarksFirst s.header ∧
      (∀ paragraph ∈ s.paragraphs, Sentence.MarksFirst paragraph) ∧
      ∀ block ∈ s.listBlocks, ∀ element ∈ block, ∃ first later,
        IsItem cut gs element first later ∧
        (∀ g ∈ first :: later, cut g ≠ [] ∧ Sentence.MarksFirst (cut g)) ∧
        (Sentence.MarksFirst element.sentences ↔ later = []) := by
  intro gs cut s hSection
  have hCut : ∀ g ∈ gs, cut g ≠ [] ∧ Sentence.MarksFirst (cut g) :=
    fun g hMem => Group.sentences_marksFirst hMem o.tokenizer
  rw [read, Classified.read, Builder.build_sections] at hSection
  obtain ⟨built, hBuilt, rfl⟩ := List.mem_map.mp hSection
  refine ⟨?_, ?_, ?_⟩
  · apply Sentence.MarksFirst.finish
    rcases build_header _ _ _ _ hBuilt with hNone | ⟨l, _, hLine⟩
    · rw [hNone]
      exact Sentence.marksFirst_nil
    · rw [hLine]
      exact Passage.sentences_marksFirst _ _
  · intro paragraph hMem
    obtain ⟨old, hOld, rfl⟩ := List.mem_map.mp hMem
    obtain ⟨g, hGroup, rfl⟩ := build_paragraph _ _ _ _ (Builder.hasParagraph_of_mem hBuilt hOld)
    exact (hCut g hGroup).2
  · intro block hBlock element hMem
    obtain ⟨oldBlock, hOldBlock, rfl⟩ := List.mem_map.mp hBlock
    obtain ⟨old, hOld, rfl⟩ := List.mem_map.mp hMem
    obtain ⟨first, later, hItem⟩ :=
      build_element _ _ _ _ (Builder.hasElement_of_mem hBuilt hOldBlock hOld)
    have hFinished := hItem.map (Sentence.finish o.tokenizer)
    have hMarks : ∀ g ∈ first :: later, cut g ≠ [] ∧ Sentence.MarksFirst (cut g) :=
      fun g hIn => hCut g (hItem.sublist.subset hIn)
    exact ⟨first, later, hFinished, hMarks, hFinished.marksFirst_iff hMarks⟩

/-- A letter is read as itself. -/
theorem CommonMark.inlines_letter {c : Char} (h : c = 'A' ∨ c = 'B') :
    inlines [] [c] = [.text [c]] := by
  rw [inlines, Source.pieces]
  rcases h with rfl | rfl <;>
  · unfold Source.readOn Source.runAt Source.skipWhile Source.readOn
    with_unfolding_all rfl

/-- The later paragraph of a list item brings a second mark into the element. -/
theorem Format.exists_element_marked_twice :
    let d := (Format.markdown.read ⟨.standard, none, none⟩ "- A\n\n  B\n".toList).document
    ∃ s ∈ d.sections, ∃ block ∈ s.listBlocks, ∃ element ∈ block,
      element.sentences.map (fun x => (x.content, x.isFirst)) =
          [("A".toList, true), ("B".toList, true)] ∧
        ¬ Sentence.MarksFirst element.sentences := by
  have hParsed : CommonMark.readLines CommonMark.maxNesting ⟨0, -1⟩ ⟨0, 3⟩
      (CommonMark.BlockLine.readAll "- A\n\n  B\n".toList) =
      ⟨[.of .listOpen 0 3, .of (.item ['-']) 0 3, .inlines ['A'] 0 1, .inlines ['B'] 2 3,
        .block ⟨.listClose, none⟩], 3⟩ := by
    with_unfolding_all rfl
  have hBlocks : CommonMark.blocks "- A\n\n  B\n".toList =
      [⟨.listOpen, some (0, 3)⟩, ⟨.item ['-'], some (0, 3)⟩,
        ⟨.inlines [.text ['A']], some (0, 1)⟩, ⟨.inlines [.text ['B']], some (2, 3)⟩,
        ⟨.listClose, none⟩] := by
    rw [← CommonMark.inlines_letter (.inl rfl), ← CommonMark.inlines_letter (.inr rfl)]
    exact congrArg (fun o => CommonMark.blocksOf o.parsed) hParsed
  simp only [read, classify, Markdown.classifyText, hBlocks]
  with_unfolding_all decide

end ProseLint
