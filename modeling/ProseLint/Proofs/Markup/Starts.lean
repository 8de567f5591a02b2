import ProseLint.Proofs.Markup.Documents

/-! Where sentences start. The place of a sentence is that of its first character, which may be
the separator behind the line above. So a sentence that goes on from another one can start one
line above the first thing that is seen of it, and never further up. -/

namespace ProseLint

open Layout

namespace Sentence

variable {s : Sentence}

/-- The line of the first thing that is seen of the sentence. -/
def firstLine? (s : Sentence) : Option Int := s.visible.head?.map (·.2.line)

/-- The first thing that is seen of the sentence is on the line of the sentence. -/
def ShowsOnLine (s : Sentence) : Prop := s.firstLine? = some s.line

/-- The first thing that is seen of the sentence is one line below the line of the sentence,
where the sentence has nothing but white space. -/
def ShowsBelowLine (s : Sentence) : Prop :=
  s.firstLine? = some (s.line + 1) ∧ ∀ p ∈ s.placed, p.2.line = s.line → isBlank p.1 = true

@[simp] theorem finish_line (tokenizer : Option Tokenizer) (s : Sentence) :
    (s.finish tokenizer).line = s.line :=
  congrArg (·.line) (s.finish_position tokenizer)

@[simp] theorem finish_isFirst (tokenizer : Option Tokenizer) (s : Sentence) :
    (s.finish tokenizer).isFirst = s.isFirst := by
  cases tokenizer <;> rfl

/-- A character whose place comes before that of another one. -/
def Before (p q : Char × Position) : Prop := p.2.lt q.2 = true

theorem IsAnchored.exists_placed_eq_cons (h : s.IsAnchored) :
    ∃ c rest, s.placed = (c, s.position) :: rest := by
  obtain ⟨behind, hPositions⟩ := List.head?_eq_some_iff.mp h.head_eq
  obtain ⟨c, more, hContent⟩ : ∃ c more, s.content = c :: more := by
    refine List.exists_cons_of_length_pos ?_
    rw [← h.length_eq, hPositions]
    exact Nat.succ_pos _
  exact ⟨c, more.zip behind, by rw [placed, hPositions, hContent]; rfl⟩

theorem IsAnchored.exists_head?_visible (h : s.IsAnchored)
    (hShown : ∃ c ∈ s.content, isBlank c = false) : ∃ p, s.visible.head? = some p := by
  obtain ⟨c, hContent, hSeen⟩ := hShown
  have hChars : s.placed.map (·.1) = s.content := List.map_fst_zip (Nat.le_of_eq h.length_eq.symm)
  rw [← hChars] at hContent
  obtain ⟨p, hPlaced, rfl⟩ := List.mem_map.mp hContent
  have hVisible : p ∈ s.visible := List.mem_filter.mpr ⟨hPlaced, by simp [isVisible, hSeen]⟩
  exact ⟨_, List.head?_eq_some_head (List.ne_nil_of_mem hVisible)⟩

theorem IsAnchored.line_le (h : s.IsAnchored) (hOrder : s.placed.Pairwise Before)
    {p : Char × Position} (hPlaced : p ∈ s.placed) : s.line ≤ p.2.line := by
  obtain ⟨c, rest, hCons⟩ := h.exists_placed_eq_cons
  rw [hCons] at hOrder hPlaced
  rcases List.mem_cons.mp hPlaced with rfl | hLater
  · exact Int.le_refl _
  · exact Position.line_le_of_lt ((List.pairwise_cons.mp hOrder).1 p hLater)

/-- Nothing is seen of a sentence above the first thing that is seen. -/
theorem line_le_of_mem_visible (hOrder : s.placed.Pairwise Before) {p q : Char × Position}
    (hFirst : s.visible.head? = some p) (hSeen : q ∈ s.visible) : p.2.line ≤ q.2.line := by
  obtain ⟨rest, hCons⟩ := List.head?_eq_some_iff.mp hFirst
  have hVisible : s.visible.Pairwise Before := hOrder.filter _
  rw [hCons] at hVisible hSeen
  rcases List.mem_cons.mp hSeen with rfl | hLater
  · exact Int.le_refl _
  · exact Position.line_le_of_lt ((List.pairwise_cons.mp hVisible).1 q hLater)

end Sentence

/-- A sentence that is marked as the first of a passage has nothing before it. -/
theorem Passage.sentences_eq_cons {e : Extractor} {p : Passage} {s : Sentence}
    (h : s ∈ p.sentences e) (hFirst : s.isFirst = true) : ∃ rest, p.sentences e = s :: rest := by
  simp only [sentences] at h ⊢
  cases hSpans : spans e p.content with
  | nil => simp [hSpans] at h
  | cons span more =>
      rw [hSpans, List.mapIdx_cons, List.mem_cons] at h
      rw [List.mapIdx_cons]
      rcases h with rfl | hLater
      · exact ⟨_, rfl⟩
      · obtain ⟨i, hLt, rfl⟩ := List.mem_mapIdx.mp hLater
        cases hFirst

namespace Layout.Group

variable {e : Extractor} {lines : List Line} {g : Group} {s : Sentence}
variable (hRead : Line.AreRead lines) (hGroup : g ∈ groups false lines)
variable (hMem : s ∈ Line.sentences e g.lines)

include hGroup hMem in
theorem placed_isInfix : s.placed <:+: (Passage.joined e.separator g.lines).map Glyph.placed := by
  rw [← Group.glyphs_eq_joined hGroup]
  exact (Passage.sentence_spec hMem).2.2

include hRead hGroup in
theorem joined_pairwise_before :
    ((Passage.joined e.separator g.lines).map Glyph.placed).Pairwise Sentence.Before := by
  have hSub : g.lines <:+: lines := (mem_groups hGroup).1
  have hJoined : Rising ((Passage.joined e.separator g.lines).map (·.position)) :=
    Passage.joined_rising (fun l hLine => hRead.isRead l (hSub.subset hLine))
      (hRead.numbers.sublist hSub.sublist)
  rw [Rising, List.pairwise_map] at hJoined
  exact List.pairwise_map.mpr hJoined

include hRead hGroup hMem in
theorem placed_pairwise_before : s.placed.Pairwise Sentence.Before :=
  (joined_pairwise_before hRead hGroup).sublist (placed_isInfix hGroup hMem).sublist

include hRead hGroup hMem in
/-- A line of the group that stands below the start of a sentence and above something of it
shows something of the sentence. -/
theorem exists_visible_of_between (hBlank : ∀ c ∈ e.separator, isBlank c = true) {l : Line}
    (hLine : l ∈ g.lines) {q : Char × Position} (hPlaced : q ∈ s.placed)
    (hBelow : s.line < l.number) (hAbove : (l.number : Int) < q.2.line) :
    ∃ p ∈ s.visible, p.2.line = l.number := by
  have hText : l.visible ≠ [] := Line.visible_ne_nil ((mem_groups hGroup).2.2 l hLine)
  obtain ⟨p, hVisible⟩ := List.exists_mem_of_ne_nil _ hText
  have hNumber : p.2.line = l.number := by
    obtain ⟨c, _, _, _, rfl⟩ := Line.mem_visible.mp hVisible
    rfl
  have hJoined : p ∈ (Passage.joined e.separator g.lines).map Glyph.placed := by
    have hAll : p ∈ g.lines.flatMap Line.visible := List.mem_flatMap.mpr ⟨l, hLine, hVisible⟩
    rw [← Passage.joined_visible hBlank] at hAll
    exact (List.mem_filter.mp hAll).1
  obtain ⟨c, rest, hCons⟩ := (Passage.sentence_spec hMem).1.exists_placed_eq_cons
  have hIn : p ∈ s.placed :=
    mem_of_isInfix_of_between (fun _ _ => Position.lt_asymm) (placed_isInfix hGroup hMem)
      (joined_pairwise_before hRead hGroup) (a := (c, s.position)) (by simp [hCons]) hJoined hPlaced
      (Position.lt_of_line_lt (hNumber ▸ hBelow)) (Position.lt_of_line_lt (hNumber ▸ hAbove))
  exact ⟨p, List.mem_filter.mpr ⟨hIn, (List.mem_filter.mp hVisible).2⟩, hNumber⟩

include hRead hGroup hMem in
/-- The first sentence of a group shows something on the first line of the group, so it cannot
start above. -/
theorem line_le_of_isFirst (hBlank : ∀ c ∈ e.separator, isBlank c = true)
    (hFirst : s.isFirst = true) {p : Char × Position} (hHead : s.visible.head? = some p) :
    p.2.line ≤ s.line := by
  obtain ⟨rest, hCons⟩ := Passage.sentences_eq_cons hMem hFirst
  obtain ⟨hSub, hSome, hText⟩ := mem_groups hGroup
  obtain ⟨top, others, hLines⟩ := List.exists_cons_of_ne_nil hSome
  have hTop : top.visible ≠ [] := Line.visible_ne_nil (hText top (by simp [hLines]))
  have hAll : s.visible ++ rest.flatMap Sentence.visible =
      top.visible ++ others.flatMap Line.visible := by
    have hSame := Group.sentences_visible hBlank hGroup
    rwa [show Line.sentences e g.lines = s :: rest from hCons, hLines] at hSame
  have hOnTop : p ∈ top.visible := by
    have hHeads := congrArg List.head? hAll
    rw [List.head?_append, hHead, List.head?_append_of_ne_nil _ hTop] at hHeads
    exact List.mem_of_head? hHeads.symm
  have hNumber : p.2.line = top.number := by
    obtain ⟨c, _, _, _, rfl⟩ := Line.mem_visible.mp hOnTop
    rfl
  obtain ⟨l, hLine, hStart⟩ := Group.exists_line_of_mem hGroup hMem (p := s.position)
    (List.mem_of_head? (Passage.sentence_spec hMem).1.head_eq)
  have hLe : top.number ≤ l.number := by
    have hNumbers := hRead.numbers.sublist hSub.sublist
    rw [hLines] at hNumbers hLine
    rcases List.mem_cons.mp hLine with rfl | hLater
    · exact Nat.le_refl _
    · exact Nat.le_of_lt ((List.pairwise_cons.mp hNumbers).1 l hLater)
  calc p.2.line = top.number := hNumber
    _ ≤ l.number := Int.ofNat_le.mpr hLe
    _ = s.line := hStart.symm

include hRead hGroup hMem in
/-- A sentence of a group shows something on the line where it starts, or else on the next one.
The first sentence of a group does so on the line where it starts. -/
theorem showsOnLine_or_below (hBlank : ∀ c ∈ e.separator, isBlank c = true)
    (hNumbered : ∀ (n : Nat) (l : Line), lines[n]? = some l → l.number = n + 1) :
    s.ShowsOnLine ∨ (s.ShowsBelowLine ∧ s.isFirst = false) := by
  obtain ⟨hAnchored, hShown, _⟩ := Passage.sentence_spec hMem
  have hOrder := placed_pairwise_before hRead hGroup hMem
  obtain ⟨p, hHead⟩ := hAnchored.exists_head?_visible hShown
  have hPlaced : p ∈ s.placed := (List.mem_filter.mp (List.mem_of_head? hHead)).1
  rcases Int.lt_or_eq_of_le (hAnchored.line_le hOrder hPlaced) with hBelow | hSame
  · refine Or.inr ⟨⟨?_, fun q hIn hLine => ?_⟩, ?_⟩
    · rw [Sentence.firstLine?, hHead, Option.map_some, Option.some_inj]
      -- a line in between would show something of the sentence before its first visible character
      obtain ⟨upper, hUpper, hStart⟩ := Group.exists_line_of_mem hGroup hMem (p := s.position)
        (List.mem_of_head? hAnchored.head_eq)
      obtain ⟨lower, hLower, hFirst⟩ := Group.exists_line_of_mem hGroup hMem (p := p.2)
        (List.of_mem_zip hPlaced).2
      by_contra hGap
      have hStart' : s.line = upper.number := hStart
      obtain ⟨l, hLine, hNumber⟩ := Group.exists_line_between hRead hNumbered hGroup hUpper
        hLower (n := upper.number + 1) (by omega) (by omega)
      obtain ⟨q, hSeen, hOn⟩ := exists_visible_of_between hRead hGroup hMem hBlank hLine hPlaced
        (by omega) (by omega)
      have hLe := Sentence.line_le_of_mem_visible hOrder hHead hSeen
      omega
    · by_contra hSeen
      have hVisible : q ∈ s.visible := List.mem_filter.mpr ⟨hIn, by simpa [isVisible] using hSeen⟩
      have hLe := Sentence.line_le_of_mem_visible hOrder hHead hVisible
      omega
    · by_contra hFirst
      have hLe := line_le_of_isFirst hRead hGroup hMem hBlank (by simpa using hFirst) hHead
      omega
  · exact Or.inl (by rw [Sentence.ShowsOnLine, Sentence.firstLine?, hHead, hSame]; rfl)

end Layout.Group

/-- In every document that is read, whatever the format and the blocks, every sentence shows
something, and the first thing that is seen of it is on the line of the sentence. The one
exception is a sentence that follows another one in its header, paragraph or list element: its
line may be the one just above, where it has nothing but white space. -/
theorem Document.IsReadFrom.sentence_line {symbols quotations words : List Text} {o : ReadOptions}
    (hMake : Extractor.make symbols quotations words = .ok o.extractor) {t : Text}
    {d : Document Sentence} (hRead : d.IsReadFrom o t) {s : Sentence} (hMem : s ∈ d.sentences) :
    s.ShowsOnLine ∨ (s.ShowsBelowLine ∧ s.isFirst = false) := by
  obtain ⟨c, escapes, hOrigin, rfl⟩ := hRead.exists_origin
  obtain ⟨g, hGroup, cut, hFrom, rfl⟩ := mem_build_sentences hMem
  have hCut := Group.showsOnLine_or_below (Line.areRead_of_origin hOrigin) hGroup hFrom
    (Extractor.make_separator hMake) fun _ _ hLine => Line.number_of_origin hOrigin hLine
  simpa [Sentence.ShowsOnLine, Sentence.ShowsBelowLine, Sentence.firstLine?] using hCut

/-- Two sentences on two lines, where the second one starts with the space that joins them. -/
theorem Document.sentence_line_two :
    let options : ReadOptions := ⟨.standard, none, none⟩
    ∃ s ∈ (Format.plain.read options "One.\nTwo.".toList).document.sentences,
      s.content = " Two.".toList ∧ s.line = 1 ∧
        (s.ShowsOnLine ∨ (s.ShowsBelowLine ∧ s.isFirst = false)) := by
  intro options
  have hMake : Extractor.make Extractor.standardSymbols Extractor.standardQuotations
      Extractor.standardWords = .ok options.extractor := rfl
  have hSecond : ∃ s ∈ (Format.plain.read options "One.\nTwo.".toList).document.sentences,
      s.content = " Two.".toList ∧ s.line = 1 := by with_unfolding_all decide
  obtain ⟨s, hMem, hContent, hLine⟩ := hSecond
  exact ⟨s, hMem, hContent, hLine,
    Document.IsReadFrom.sentence_line hMake (.format .plain) hMem⟩

/-- The second of these sentences shows nothing on its line. -/
theorem Document.not_forall_showsOnLine :
    ¬ ∀ s ∈ (Format.plain.read ⟨.standard, none, none⟩ "One.\nTwo.".toList).document.sentences,
      s.ShowsOnLine := by
  unfold Sentence.ShowsOnLine
  with_unfolding_all decide

end ProseLint
