import ProseLint.Proofs.Layout.Groups
import ProseLint.Proofs.Source.Origin
import Mathlib.Data.List.Nodup
import Mathlib.Data.List.Perm.Basic

/-! Layout loses and doubles nothing. What is seen of the lines is what is seen of the sentences,
with its places, and no part of a document that is laid out is empty. -/

namespace ProseLint

open Layout

/-! ## What is seen of lines -/

namespace Line

/-- The line was read from a text. Its characters may have been erased and it may have been
marked since. -/
def IsRead (l : Line) : Prop :=
  ∃ number escapes raw, l.origin = (Line.ofText number escapes raw).origin

theorem IsRead.offsets_pairwise {l : Line} (h : l.IsRead) :
    l.cells.Pairwise (·.offset < ·.offset) := by
  obtain ⟨number, escapes, raw, hOrigin⟩ := h
  exact offsets_pairwise_of_origin hOrigin (ofText_pairwise number escapes raw)

theorem IsRead.visible_nodup {l : Line} (h : l.IsRead) : l.visible.Nodup := by
  refine List.Nodup.filter _ ?_
  rw [placed, Passage.glyphsOf, List.map_map]
  refine List.pairwise_map.mpr ((h.offsets_pairwise.filter _).imp fun {c d} hLt hSame => ?_)
  have hOffset := congrArg (fun p : Char × Position => p.2.offset) hSame
  simp only [Function.comp_apply, Glyph.placed] at hOffset
  omega

theorem flatMap_visible_nodup {lines : List Line} (hRead : ∀ l ∈ lines, l.IsRead)
    (hNumbers : (lines.map Line.number).Nodup) : (lines.flatMap Line.visible).Nodup := by
  refine List.nodup_flatMap.mpr ⟨fun l hMem => (hRead l hMem).visible_nodup, ?_⟩
  refine (List.pairwise_map.mp hNumbers).imp fun {l m} hNe p hLeft hRight => hNe ?_
  obtain ⟨c, _, _, _, rfl⟩ := mem_visible.mp hLeft
  obtain ⟨d, _, _, _, hSame⟩ := mem_visible.mp hRight
  have hNumber := congrArg (fun p : Char × Position => p.2.line) hSame
  exact Int.ofNat.inj hNumber

theorem filter_flatMap_visible (lines : List Line) :
    (lines.filter (!·.isEmpty)).flatMap Line.visible = lines.flatMap Line.visible := by
  induction lines with
  | nil => rfl
  | cons l rest ih =>
      rw [List.filter_cons, List.flatMap_cons]
      split
      · rw [List.flatMap_cons, ih]
      · next hEmpty =>
          rw [ih, visible_eq_nil_iff.mpr (by simpa using hEmpty), List.nil_append]

end Line

/-! ## What is seen of documents -/

theorem Extractor.make_separator_eq {symbols quotations words : List Text} {e : Extractor}
    (h : Extractor.make symbols quotations words = .ok e) : ∀ c ∈ e.separator, c = ' ' := by
  unfold Extractor.make at h
  simp only at h
  split at h
  · cases h
  · cases h
    intro c hSeparator
    simp only [Option.mem_def] at hSeparator
    split at hSeparator
    · exact (Option.some_inj.mp hSeparator).symm
    · cases hSeparator
  · cases h

theorem Extractor.make_separator {symbols quotations words : List Text} {e : Extractor}
    (h : Extractor.make symbols quotations words = .ok e) :
    ∀ c ∈ e.separator, isBlank c = true := by
  intro c hSeparator
  rw [Extractor.make_separator_eq h c hSeparator]
  decide

/-- What is seen of a group of lines is what is seen of its sentences, in the same order. -/
theorem Layout.Group.sentences_visible {e : Extractor} (hBlank : ∀ c ∈ e.separator, isBlank c = true)
    {inList : Bool} {lines : List Line} {g : Group} (hGroup : g ∈ groups inList lines) :
    (Line.sentences e g.lines).flatMap Sentence.visible = g.lines.flatMap Line.visible := by
  rw [Line.sentences, Passage.sentences_visible, Group.glyphs_eq_joined hGroup,
    Passage.joined_visible hBlank]

/-- A document holds what is seen of its lines. Only the order may differ, since in a section
the lists come behind the paragraphs. -/
theorem build_visible_perm {e : Extractor} (hBlank : ∀ c ∈ e.separator, isBlank c = true)
    (lines : List Line) (rules : List SuppressRule) (fileName : Option Text)
    (tokenizer : Option Tokenizer) :
    (((build e lines rules fileName).build tokenizer).sentences.flatMap Sentence.visible).Perm
      (lines.flatMap Line.visible) := by
  have hGroups : ∀ gs ⊆ groups false lines,
      (gs.flatMap fun g => Line.sentences e g.lines).flatMap Sentence.visible =
        (gs.flatMap (·.lines)).flatMap Line.visible := by
    intro gs hSub
    rw [List.flatMap_assoc, List.flatMap_assoc, List.flatMap_def, List.flatMap_def]
    congr 1
    exact List.map_congr_left fun g hMem => Group.sentences_visible hBlank (hSub hMem)
  have hTokens : (fun s => (Sentence.finish tokenizer s).visible) = Sentence.visible := by
    funext s
    simp [Sentence.visible, Sentence.placed]
  rw [Builder.build_sentences, List.flatMap_map, hTokens]
  refine ((build_sentences_perm e lines rules fileName).flatMap_right _).trans (.of_eq ?_)
  rw [hGroups _ (List.Subset.refl _), groups_lines, Line.filter_flatMap_visible]

/-- An item that lists without repetition hold together is in one of them only, and there at
one index only. Items that the filter leaves out may be repeated. -/
theorem existsUnique_index_of_nodup {α β : Type} {f : α → List β} {p : β → Bool} {items : List α}
    (hNodup : (items.flatMap fun a => (f a).filter p).Nodup) {b : β}
    (hMem : b ∈ items.flatMap fun a => (f a).filter p) :
    ∃! place : Nat × Nat, ∃ a, items[place.1]? = some a ∧ (f a)[place.2]? = some b := by
  obtain ⟨a, hItem, hIn⟩ := List.mem_flatMap.mp hMem
  obtain ⟨hHeld, hKept⟩ := List.mem_filter.mp hIn
  obtain ⟨k, hk⟩ := List.getElem?_of_mem hItem
  obtain ⟨i, hi⟩ := List.getElem?_of_mem hHeld
  obtain ⟨hEach, hApart⟩ := List.nodup_flatMap.mp hNodup
  refine ⟨(k, i), ⟨a, hk, hi⟩, ?_⟩
  rintro ⟨m, j⟩ ⟨c, hm, hj⟩
  have hFound : b ∈ (f c).filter p :=
    List.mem_filter.mpr ⟨List.mem_of_getElem? hj, hKept⟩
  -- Two lists that hold the item would repeat it, and so would two places in one list.
  have hList : m = k := by
    obtain ⟨hmLt, rfl⟩ := List.getElem?_eq_some_iff.mp hm
    obtain ⟨hkLt, rfl⟩ := List.getElem?_eq_some_iff.mp hk
    have hDisjoint := List.pairwise_iff_getElem.mp hApart
    rcases Nat.lt_trichotomy m k with hLt | hEq | hGt
    · exact (hDisjoint m k hmLt hkLt hLt hFound hIn).elim
    · exact hEq
    · exact (hDisjoint k m hkLt hmLt hGt hIn hFound).elim
  subst hList
  rw [hk, Option.some_inj] at hm
  subst hm
  have hIndex : j = i := by
    obtain ⟨hjLt, hjAt⟩ := List.getElem?_eq_some_iff.mp hj
    obtain ⟨hiLt, hiAt⟩ := List.getElem?_eq_some_iff.mp hi
    have hDistinct := List.pairwise_iff_getElem.mp (List.pairwise_filter.mp (hEach a hItem))
    rcases Nat.lt_trichotomy j i with hLt | hEq | hGt
    · exact (hDistinct j i hjLt hiLt hLt (hjAt ▸ hKept) (hiAt ▸ hKept) (hjAt.trans hiAt.symm)).elim
    · exact hEq
    · exact (hDistinct i j hiLt hjLt hGt (hiAt ▸ hKept) (hjAt ▸ hKept) (hiAt.trans hjAt.symm)).elim
  rw [hIndex]

/-! ## Nothing is empty -/

/-- Something is in the list block, and in each of its elements. -/
def IsFilledBlock {σ : Type} (block : List (ListElement σ)) : Prop :=
  block ≠ [] ∧ ∀ element ∈ block, element.sentences ≠ []

/-- No paragraph, no list block and no element of one is empty. The header may be. -/
structure Section.IsFilled {σ : Type} (s : Section σ) : Prop where
  paragraphs : ∀ paragraph ∈ s.paragraphs, paragraph ≠ []
  listBlocks : ∀ block ∈ s.listBlocks, IsFilledBlock block

namespace Section.IsFilled

variable {σ : Type}

theorem ofHeader (level : Int) (header : List σ) (parent : Option Nat) :
    (Section.ofHeader level header parent).IsFilled :=
  ⟨by simp [Section.ofHeader], by simp [Section.ofHeader]⟩

theorem attach {sections : List (Section σ)} {s : Section σ} (hAll : ∀ r ∈ sections, r.IsFilled)
    (h : s.IsFilled) : ∀ r ∈ Section.attach sections s, r.IsFilled := by
  unfold Section.attach
  split
  · next p hParent =>
      refine forall_mem_concat ?_ h
      exact forall_mem_modify p hAll fun r hr => ⟨hr.paragraphs, hr.listBlocks⟩
  · exact forall_mem_concat hAll h

theorem map {τ : Type} {s : Section σ} (h : s.IsFilled) (f : σ → τ) : (s.map f).IsFilled where
  paragraphs := by
    intro paragraph hMem
    obtain ⟨old, hOld, rfl⟩ := List.mem_map.mp hMem
    simpa using h.paragraphs old hOld
  listBlocks := by
    intro block hMem
    obtain ⟨old, hOld, rfl⟩ := List.mem_map.mp hMem
    obtain ⟨hSome, hElements⟩ := h.listBlocks old hOld
    refine ⟨by simpa using hSome, fun element hIn => ?_⟩
    obtain ⟨e, he, rfl⟩ := List.mem_map.mp hIn
    simpa [ListElement.map] using hElements e he

end Section.IsFilled

namespace Builder

/-- Nothing in the document built so far is empty. -/
def IsFilled (b : Builder) : Prop := ∀ s ∈ b.sections, s.IsFilled

theorem IsFilled.addSection {b : Builder} (h : b.IsFilled) (level : Int)
    (header : List Sentence) : (b.addSection level header).IsFilled :=
  Section.IsFilled.attach h (.ofHeader level header _)

theorem IsFilled.requireSection {b : Builder} (h : b.IsFilled) : b.requireSection.IsFilled := by
  unfold Builder.requireSection
  split
  · exact h.addSection 0 []
  · exact h

theorem IsFilled.changeLast {b : Builder} (h : b.IsFilled) {f : Section Sentence → Section Sentence}
    (hf : ∀ s, s.IsFilled → (f s).IsFilled) : (b.changeLast f).IsFilled :=
  forall_mem_modify _ h hf

theorem IsFilled.addListElement {b : Builder} (h : b.IsFilled) (level : Int)
    {sentences : List Sentence} (hSome : sentences ≠ []) :
    (b.addListElement level sentences).IsFilled := by
  unfold Builder.addListElement
  simp only
  split
  · refine h.requireSection.changeLast fun s hs => ⟨hs.paragraphs, ?_⟩
    refine forall_mem_modify _ hs.listBlocks fun block hBlock => ⟨by simp, ?_⟩
    exact forall_mem_concat hBlock.2 hSome
  · have hOpened : ({ b.requireSection with inList := true } : Builder).IsFilled := h.requireSection
    -- The block is empty only between the two changes, so they count as one.
    rw [addListBlock, changeLast_changeLast]
    refine hOpened.requireSection.changeLast fun s hs => ⟨hs.paragraphs, ?_⟩
    simp only [Function.comp_apply, appendToLast_concat]
    exact forall_mem_concat hs.listBlocks ⟨by simp, by simpa using hSome⟩

theorem IsFilled.extendListElement {b : Builder} (h : b.IsFilled) (level : Int)
    {sentences : List Sentence} (hSome : sentences ≠ []) :
    (b.extendListElement level sentences).IsFilled := by
  unfold Builder.extendListElement
  simp only
  split
  · exact h.requireSection.addListElement level hSome
  · refine h.requireSection.changeLast fun s hs => ⟨hs.paragraphs, ?_⟩
    refine forall_mem_modify _ hs.listBlocks fun block hBlock => ⟨?_, ?_⟩
    · simpa [← List.length_pos_iff] using hBlock.1
    · exact forall_mem_modify _ hBlock.2 fun element _ => by simp [hSome]

end Builder

theorem Layout.Group.add_isFilled (e : Extractor) {b : Builder} (h : b.IsFilled) (g : Group)
    (hSome : Line.sentences e g.lines ≠ []) : (g.add e b).IsFilled := by
  obtain ⟨role, lines⟩ := g
  cases role with
  | header level => exact h.addSection level _
  | element level => exact h.addListElement level hSome
  | continuation level => exact h.extendListElement level hSome
  | paragraph =>
      rw [Group.add_paragraph, addParagraphOf_eq]
      have hClosed : ({ b with inList := false } : Builder).IsFilled := h
      exact hClosed.requireSection.changeLast fun s hs =>
        ⟨forall_mem_concat hs.paragraphs hSome, hs.listBlocks⟩

theorem startOf_isFilled (lines : List Line) (rules : List SuppressRule)
    (fileName : Option Text) : (startOf lines rules fileName).IsFilled := by
  intro s hMem
  rw [startOf_sections] at hMem
  split at hMem
  · rw [List.mem_singleton.mp hMem]
    exact .ofHeader 0 [] none
  · cases hMem

theorem build_isFilled {e : Extractor} (hBlank : ∀ c ∈ e.separator, isBlank c = true)
    (lines : List Line) (rules : List SuppressRule) (fileName : Option Text) :
    (build e lines rules fileName).IsFilled := by
  have hSome : ∀ g ∈ groups false lines, Line.sentences e g.lines ≠ [] := by
    intro g hGroup hNone
    obtain ⟨_, hLines, hText⟩ := mem_groups hGroup
    obtain ⟨l, hLine⟩ := List.exists_mem_of_ne_nil _ hLines
    -- Without a sentence nothing of the first line would be seen, but that line is not empty.
    have hVisible := Group.sentences_visible hBlank hGroup
    rw [hNone, List.flatMap_nil, eq_comm, List.flatMap_eq_nil_iff] at hVisible
    have hEmpty := Line.visible_eq_nil_iff.mp (hVisible l hLine)
    rw [hText l hLine] at hEmpty
    cases hEmpty
  have hAll : ∀ b : Builder, b.IsFilled → ((groups false lines).foldl (Group.add e) b).IsFilled := by
    generalize groups false lines = gs at hSome
    induction gs with
    | nil => exact fun b h => h
    | cons g rest ih =>
        intro b h
        refine ih (fun r hMem => hSome r (List.mem_cons_of_mem g hMem)) _ ?_
        exact Group.add_isFilled e h g (hSome g List.mem_cons_self)
  rw [build_eq_foldl]
  exact hAll _ (startOf_isFilled lines rules fileName)

theorem build_isAnchored {e : Extractor} {lines : List Line} {rules : List SuppressRule}
    {fileName : Option Text} {tokenizer : Option Tokenizer} {s : Sentence}
    (h : s ∈ ((build e lines rules fileName).build tokenizer).sentences) : s.IsAnchored := by
  obtain ⟨g, _, cut, hFrom, rfl⟩ := mem_build_sentences h
  exact (Passage.sentence_spec hFrom).1.finish tokenizer

/-- A character with its place stands at an index in the sentence at another one. -/
def Document.Shows (d : Document Sentence) (p : Char × Position) (place : Nat × Nat) : Prop :=
  ∃ s, d.sentences[place.1]? = some s ∧ s.placed[place.2]? = some p

/-- Laying out lines loses nothing that is seen of them, doubles nothing and adds nothing that
is seen. Every sentence shows something, and no paragraph, list block or list element is
empty. The lines may have been erased and marked in any way. -/
theorem build_conserves {symbols quotations words : List Text} {e : Extractor}
    (hMake : Extractor.make symbols quotations words = .ok e) {lines : List Line}
    (hRead : ∀ l ∈ lines, l.IsRead) (hNumbers : (lines.map Line.number).Nodup)
    (rules : List SuppressRule) (fileName : Option Text) (tokenizer : Option Tokenizer) :
    let d := (build e lines rules fileName).build tokenizer
    (∀ l ∈ lines, ∀ c ∈ l.cells, c.kept = true → isBlank c.char = false →
      ∃! place, d.Shows (c.char, ⟨l.number, c.offset⟩) place) ∧
    (∀ s ∈ d.sentences, ∀ (i : Nat) (char : Char),
      s.content[i]? = some char → isBlank char = false →
        ∃ l ∈ lines, ∃ c ∈ l.cells, c.kept = true ∧ c.char = char ∧
          s.positions[i]? = some (⟨l.number, c.offset⟩ : Position)) ∧
    (∀ s ∈ d.sentences, ∃ char ∈ s.content, isBlank char = false) ∧
    ∀ s ∈ d.sections, s.IsFilled := by
  intro d
  have hBlank := Extractor.make_separator hMake
  have hPerm := build_visible_perm hBlank lines rules fileName tokenizer
  have hNodup := hPerm.nodup_iff.mpr (Line.flatMap_visible_nodup hRead hNumbers)
  refine ⟨?_, ?_, ?_, ?_⟩
  · intro l hLine c hCell hKept hSeen
    refine existsUnique_index_of_nodup (f := Sentence.placed) (p := isVisible) hNodup
      (hPerm.mem_iff.mpr ?_)
    exact List.mem_flatMap.mpr ⟨l, hLine, Line.mem_visible.mpr ⟨c, hCell, hKept, hSeen, rfl⟩⟩
  · intro s hMem i char hAt hSeen
    have hAnchored := build_isAnchored hMem
    have hLt : i < s.positions.length := by
      rw [hAnchored.length_eq]
      exact (List.getElem?_eq_some_iff.mp hAt).1
    have hPlaced : s.placed[i]? = some (char, s.positions[i]) :=
      List.getElem?_zip_eq_some.mpr ⟨hAt, List.getElem?_eq_getElem hLt⟩
    have hVisible : (char, s.positions[i]) ∈ d.sentences.flatMap Sentence.visible :=
      List.mem_flatMap.mpr ⟨s, hMem, List.mem_filter.mpr
        ⟨List.mem_of_getElem? hPlaced, by simp [isVisible, hSeen]⟩⟩
    obtain ⟨l, hLine, hOn⟩ := List.mem_flatMap.mp (hPerm.mem_iff.mp hVisible)
    obtain ⟨c, hCell, hKept, _, hSame⟩ := Line.mem_visible.mp hOn
    obtain ⟨hChar, hPosition⟩ := Prod.mk.inj hSame
    refine ⟨l, hLine, c, hCell, hKept, hChar.symm, ?_⟩
    rw [List.getElem?_eq_getElem hLt, hPosition]
  · intro s hMem
    obtain ⟨g, _, cut, hFrom, rfl⟩ := mem_build_sentences hMem
    simpa using (Passage.sentence_spec hFrom).2.1
  · intro s hMem
    rw [Builder.build_sections] at hMem
    obtain ⟨built, hBuilt, rfl⟩ := List.mem_map.mp hMem
    exact (build_isFilled hBlank lines rules fileName built hBuilt).map _

/-- A list item that goes on in the next line, below a header: the mark of the item is gone,
and every other character is in one place. -/
theorem build_conserves_item :
    let item : Line :=
      { (Line.ofText 2 true "* a".toList).erase 0 2 with listLevel := 1, listStart := true }
    let more : Line := { Line.ofText 3 true "  b.".toList with listLevel := 1 }
    let lines : List Line := [{ Line.ofText 1 true "Top".toList with sectionLevel := 1 }, item, more]
    let d := (build .standard lines [] none).build none
    d.sentences.map (·.content) = ["Top".toList, "a   b.".toList] ∧
      ∃! place, d.Shows ('a', ⟨2, 2⟩) place := by
  intro item more lines d
  have hMake : Extractor.make Extractor.standardSymbols Extractor.standardQuotations
      Extractor.standardWords = .ok .standard := rfl
  have hRead : ∀ l ∈ lines, l.IsRead := by
    simp only [lines, List.forall_mem_cons]
    exact ⟨⟨1, true, _, rfl⟩, ⟨2, true, _, rfl⟩, ⟨3, true, _, rfl⟩, by simp⟩
  have hNumbers : (lines.map Line.number).Nodup := by decide
  refine ⟨by decide +kernel, ?_⟩
  exact (build_conserves hMake hRead hNumbers [] none none).1 item (by simp [lines])
    ⟨'a', 2, false, true, false⟩ (by decide) rfl (by decide)

end ProseLint
