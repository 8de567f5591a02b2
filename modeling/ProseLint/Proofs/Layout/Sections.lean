import ProseLint.Proofs.Layout.Groups

/-! Sections take consecutive lines. A group of lines goes to the section that was added last,
or opens one, so what holds between the sentences of any two groups in order holds between the
sentences of any two sections in order. Inside a section nothing is said about the order. -/

namespace ProseLint

namespace Builder

/-! ## Changes of the last section -/

/-- The builder differs only in its last section, which it may have had to open. -/
def ChangesLast (b c : Builder) : Prop :=
  ∃ f, c.sections = (b.requireSection.changeLast f).sections

theorem ChangesLast.exists_concat {b c : Builder} (h : b.ChangesLast c) :
    ∃ before last changed, b.requireSection.sections = before ++ [last] ∧
      c.sections = before ++ [changed] := by
  obtain ⟨f, hSections⟩ := h
  obtain hNone | ⟨before, last, hLast⟩ := List.eq_nil_or_concat b.requireSection.sections
  · exact (requireSection_ne_nil b hNone).elim
  · rw [List.concat_eq_append] at hLast
    refine ⟨before, last, f last, hLast, ?_⟩
    rw [hSections, changeLast, hLast, modify_last_concat]

theorem addListElement_changesLast (b : Builder) (level : Int) (sentences : List Sentence) :
    b.ChangesLast (b.addListElement level sentences) := by
  unfold addListElement
  simp only
  split
  · exact ⟨_, rfl⟩
  · have hSome : ({ b.requireSection with inList := true } : Builder).sections ≠ [] :=
      requireSection_ne_nil b
    rw [addListBlock, requireSection_eq hSome, changeLast_changeLast]
    exact ⟨_, rfl⟩

theorem extendListElement_changesLast (b : Builder) (level : Int) (sentences : List Sentence) :
    b.ChangesLast (b.extendListElement level sentences) := by
  unfold extendListElement
  simp only
  split
  · obtain ⟨f, hSections⟩ := addListElement_changesLast b.requireSection level sentences
    rw [requireSection_eq (requireSection_ne_nil b)] at hSections
    exact ⟨f, hSections⟩
  · exact ⟨_, rfl⟩

theorem withInList_requireSection_sections (b : Builder) (open1 : Bool) :
    ({ b with inList := open1 } : Builder).requireSection.sections = b.requireSection.sections := by
  unfold requireSection
  simp only
  split <;> rfl

end Builder

namespace Layout

variable {e : Extractor}

namespace Group

/-- Only a header opens a section. -/
theorem add_changesLast (b : Builder) {g : Group} (hRole : ∀ level, g.role ≠ .header level) :
    b.ChangesLast (g.add e b) := by
  obtain ⟨role, lines⟩ := g
  cases role with
  | header level => exact (hRole level rfl).elim
  | element level => exact Builder.addListElement_changesLast b level _
  | continuation level => exact Builder.extendListElement_changesLast b level _
  | paragraph =>
      rw [add_paragraph, addParagraphOf_eq]
      refine ⟨fun s => { s with paragraphs := s.paragraphs ++ [Line.sentences e lines] }, ?_⟩
      simp only [Builder.changeLast, Builder.withInList_requireSection_sections]

theorem add_sentences_perm (b : Builder) (g : Group) :
    (g.add e b).sentences.Perm (b.sentences ++ Line.sentences e g.lines) := by
  rw [← operations_sentences]
  exact Builder.foldl_sentences_perm _ b

end Group

/-! ## Sections in order -/

variable (R : Sentence → Sentence → Prop)

/-- The relation holds from every sentence of the one list to every sentence of the other. -/
def Across (before after : List Sentence) : Prop := ∀ x ∈ before, ∀ y ∈ after, R x y

/-- The relation holds from the sentences of every section to those of the sections behind. -/
def InOrder (sections : List (Section Sentence)) : Prop :=
  sections.Pairwise fun a b => Across R a.sentences b.sentences

variable {R}

theorem addSection_inOrder {b : Builder} (h : InOrder R b.sections) (level : Int)
    {header : List Sentence} (hBehind : Across R b.sentences header) :
    InOrder R (b.addSection level header).sections := by
  have hHeader : ∀ parent, (Section.ofHeader level header parent).sentences = header := by
    simp [Section.sentences, Section.ofHeader, Section.paragraphSentences, Section.listSentences]
  rw [InOrder, ← List.pairwise_map (f := Section.sentences)] at h ⊢
  rw [Builder.addSection, Section.attach_map fun _ _ => rfl, hHeader]
  refine List.pairwise_append.mpr ⟨h, List.pairwise_singleton _ _, fun before hMem after hIs => ?_⟩
  obtain ⟨s, hSection, rfl⟩ := List.mem_map.mp hMem
  rw [List.mem_singleton.mp hIs]
  exact fun x hx => hBehind x (List.mem_flatMap.mpr ⟨s, hSection, hx⟩)

theorem requireSection_inOrder {b : Builder} (h : InOrder R b.sections) :
    InOrder R b.requireSection.sections := by
  unfold Builder.requireSection
  split
  · exact addSection_inOrder h 0 fun _ _ _ hNone => absurd hNone List.not_mem_nil
  · exact h

/-- A group whose sentences come behind all others keeps the sections in order. -/
theorem Group.add_inOrder {b : Builder} (h : InOrder R b.sections) {g : Group}
    (hBehind : Across R b.sentences (Line.sentences e g.lines)) :
    InOrder R (g.add e b).sections := by
  by_cases hRole : ∃ level, g.role = .header level
  · obtain ⟨role, lines⟩ := g
    obtain ⟨level, rfl⟩ := hRole
    exact addSection_inOrder h level hBehind
  · -- The last section has grown by the new sentences, wherever in it they went.
    obtain ⟨before, last, changed, hLast, hChanged⟩ :=
      (add_changesLast (e := e) b fun level hIs => hRole ⟨level, hIs⟩).exists_concat
    have hOpened := requireSection_inOrder h
    have hSentences : b.sentences = before.flatMap Section.sentences ++ last.sentences := by
      rw [← Builder.requireSection_sentences, Builder.sentences, hLast, List.flatMap_append,
        List.flatMap_singleton]
    have hGrown : changed.sentences.Perm (last.sentences ++ Line.sentences e g.lines) := by
      have hPerm := add_sentences_perm (e := e) b g
      rw [Builder.sentences, hChanged, hSentences, List.flatMap_append, List.flatMap_singleton,
        List.append_assoc] at hPerm
      exact (List.perm_append_left_iff _).mp hPerm
    rw [hLast] at hOpened
    rw [hChanged]
    obtain ⟨hBefore, _, hAcross⟩ := List.pairwise_append.mp hOpened
    refine List.pairwise_append.mpr ⟨hBefore, List.pairwise_singleton _ _, fun s hs r hr => ?_⟩
    rw [List.mem_singleton.mp hr]
    intro x hx y hy
    rcases List.mem_append.mp (hGrown.mem_iff.mp hy) with hOld | hNew
    · exact hAcross s hs last (List.mem_singleton_self last) x hx y hOld
    · refine hBehind x ?_ y hNew
      rw [hSentences]
      exact List.mem_append_left _ (List.mem_flatMap.mpr ⟨s, hs, hx⟩)

theorem foldl_add_inOrder {gs : List Group}
    (hGroups : gs.Pairwise fun g h =>
      Across R (Line.sentences e g.lines) (Line.sentences e h.lines))
    {b : Builder} (h : InOrder R b.sections)
    (hBehind : ∀ g ∈ gs, Across R b.sentences (Line.sentences e g.lines)) :
    InOrder R (gs.foldl (Group.add e) b).sections := by
  induction gs generalizing b with
  | nil => exact h
  | cons g rest ih =>
      obtain ⟨hFirst, hRest⟩ := List.pairwise_cons.mp hGroups
      refine ih hRest (Group.add_inOrder h (hBehind g List.mem_cons_self)) fun next hNext => ?_
      intro x hx y hy
      rcases List.mem_append.mp ((Group.add_sentences_perm b g).mem_iff.mp hx) with hOld | hNew
      · exact hBehind next (List.mem_cons_of_mem g hNext) x hOld y hy
      · exact hFirst next hNext x hNew y hy

/-- What holds across the groups of some lines, in order, holds across the sections that are
laid out from them. -/
theorem build_inOrder {lines : List Line}
    (hGroups : (groups false lines).Pairwise fun g h =>
      Across R (Line.sentences e g.lines) (Line.sentences e h.lines))
    (rules : List SuppressRule) (fileName : Option Text) :
    InOrder R (build e lines rules fileName).sections := by
  have hStart : ∀ s ∈ (startOf lines rules fileName).sections, s.sentences = [] := by
    rw [startOf_sections]
    split <;> simp [Section.ofHeader, Section.sentences, Section.paragraphSentences,
      Section.listSentences]
  rw [build_eq_foldl]
  refine foldl_add_inOrder hGroups ?_ fun g _ x hx => ?_
  · rw [startOf_sections]
    split <;> simp [InOrder]
  · obtain ⟨s, hSection, hIn⟩ := List.mem_flatMap.mp hx
    rw [hStart s hSection] at hIn
    cases hIn

end Layout

end ProseLint
