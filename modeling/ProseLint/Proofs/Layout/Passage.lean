import ProseLint.Layout.Passage
import ProseLint.Proofs.Boundary.Partition

/-! Characters with their places, from lines through passages to sentences. A passage holds
the characters left on its lines in order, with a separator between two lines, and its
sentences hold the visible characters of the passage in order. -/

namespace ProseLint

/-- Whether something is seen of a placed character. -/
def isVisible (p : Char × Position) : Bool := !isBlank p.1

namespace Glyph

/-- The character with the place that it came from. -/
def placed (g : Glyph) : Char × Position := (g.char, g.position)

end Glyph

namespace Line

/-- The characters left on a line with their places. -/
def placed (l : Line) : List (Char × Position) := (Passage.glyphsOf l).map Glyph.placed

/-- What is seen of a line. -/
def visible (l : Line) : List (Char × Position) := l.placed.filter isVisible

theorem mem_placed {l : Line} {p : Char × Position} :
    p ∈ l.placed ↔ ∃ c ∈ l.cells, c.kept = true ∧ p = (c.char, ⟨l.number, c.offset⟩) := by
  simp only [placed, Passage.glyphsOf, List.map_map, List.mem_map, List.mem_filter,
    Function.comp_apply, Glyph.placed]
  constructor
  · rintro ⟨c, ⟨hMem, hKept⟩, rfl⟩
    exact ⟨c, hMem, hKept, rfl⟩
  · rintro ⟨c, hMem, hKept, rfl⟩
    exact ⟨c, ⟨hMem, hKept⟩, rfl⟩

theorem mem_visible {l : Line} {p : Char × Position} :
    p ∈ l.visible ↔ ∃ c ∈ l.cells,
      c.kept = true ∧ isBlank c.char = false ∧ p = (c.char, ⟨l.number, c.offset⟩) := by
  simp only [visible, List.mem_filter, mem_placed, isVisible, Bool.not_eq_true']
  constructor
  · rintro ⟨⟨c, hMem, hKept, rfl⟩, hSeen⟩
    exact ⟨c, hMem, hKept, hSeen, rfl⟩
  · rintro ⟨c, hMem, hKept, hSeen, rfl⟩
    exact ⟨⟨c, hMem, hKept, rfl⟩, hSeen⟩

/-- A line is empty when nothing is seen of it. White space may be left on it. -/
theorem visible_eq_nil_iff {l : Line} : l.visible = [] ↔ l.isEmpty = true := by
  simp only [List.eq_nil_iff_forall_not_mem, mem_visible, isEmpty, List.all_eq_true,
    Bool.or_eq_true, Bool.not_eq_true']
  constructor
  · intro hNone c hMem
    cases hKept : c.kept with
    | false => exact Or.inl rfl
    | true =>
        cases hSeen : isBlank c.char with
        | true => exact Or.inr rfl
        | false => exact (hNone _ ⟨c, hMem, hKept, hSeen, rfl⟩).elim
  · rintro hAll p ⟨c, hMem, hKept, hSeen, rfl⟩
    rcases hAll c hMem with hErased | hBlank
    · simp [hErased] at hKept
    · simp [hBlank] at hSeen

theorem visible_ne_nil {l : Line} (h : l.isEmpty = false) : l.visible ≠ [] := by
  intro hNone
  rw [visible_eq_nil_iff.mp hNone] at h
  cases h

theorem glyphsOf_ne_nil {l : Line} (h : l.isEmpty = false) : Passage.glyphsOf l ≠ [] := by
  intro hNil
  exact visible_ne_nil h (by rw [visible, placed, hNil]; rfl)

end Line

namespace Sentence

/-- The characters of a sentence with their places. -/
def placed (s : Sentence) : List (Char × Position) := s.content.zip s.positions

/-- What is seen of a sentence. -/
def visible (s : Sentence) : List (Char × Position) := s.placed.filter isVisible

theorem withFirst_visible (s : Sentence) (isFirst : Bool) :
    ({ s with isFirst := isFirst } : Sentence).visible = s.visible := rfl

/-- The sentence starts where its first character does, and every character has a place. -/
structure IsAnchored (s : Sentence) : Prop where
  length_eq : s.positions.length = s.content.length
  head_eq : s.positions.head? = some s.position

theorem ofPositions_positions (content : Text) (positions : List Position) (links : List Text)
    (markup : List (Int × Int)) (hLength : positions.length = content.length) :
    (ofPositions content positions links markup).positions = positions := by
  simp only [ofPositions, atPlace]
  split
  · next hEmpty =>
      rw [List.isEmpty_iff] at hEmpty
      subst hEmpty
      rw [← hLength]
      rfl
  · rfl

theorem ofPositions_isAnchored (content : Text) (positions : List Position) (links : List Text)
    (markup : List (Int × Int)) (hLength : positions.length = content.length)
    (hSome : positions ≠ []) : (ofPositions content positions links markup).IsAnchored where
  length_eq := by
    rw [ofPositions_positions _ _ _ _ hLength]
    exact hLength
  head_eq := by
    rw [ofPositions_positions _ _ _ _ hLength]
    cases positions with
    | nil => exact (hSome rfl).elim
    | cons p rest => rfl

end Sentence

namespace Passage

/-! ## Joining lines -/

/-- The characters left on some lines, with a separator between any two neighbours. -/
def joined (separator : Option Char) : List Line → List Glyph
  | [] => []
  | [l] => glyphsOf l
  | l :: next :: rest =>
      glyphsOf l ++ (separatorAfter separator l ++ joined separator (next :: rest))

theorem appendAll_glyphs (separator : Option Char) (l : Line) (rest : List Line)
    (p : Passage) (before : List Glyph) (hGlyphs : p.glyphs = before ++ glyphsOf l)
    (hSome : p.glyphs ≠ []) :
    (appendAll separator p (some l) rest).glyphs = before ++ joined separator (l :: rest) := by
  induction rest generalizing p l before with
  | nil => exact hGlyphs
  | cons next rest ih =>
      have hAppend : (p.append separator (some l) next).glyphs =
          (p.glyphs ++ separatorAfter separator l) ++ glyphsOf next := by
        have hFull : p.glyphs.isEmpty = false := by simpa using hSome
        simp only [append, hFull, Bool.false_eq_true, if_false]
      rw [appendAll, ih next _ _ hAppend (by simp [hAppend, hSome]), hGlyphs, joined]
      simp only [List.append_assoc]

/-- A separator stands behind every line but the last, provided that something is left of the
first line. Nothing is asked of the lines behind it. -/
theorem ofLines_glyphs (separator : Option Char) (l : Line) (rest : List Line)
    (hSome : glyphsOf l ≠ []) :
    (ofLines separator (l :: rest)).glyphs = joined separator (l :: rest) := by
  have hFirst : (Passage.append separator ⟨[], []⟩ none l).glyphs = [] ++ glyphsOf l := by
    simp [append]
  have hGlyphs := appendAll_glyphs separator l rest _ [] hFirst (by simpa [hFirst] using hSome)
  simpa [ofLines, appendAll] using hGlyphs

/-- A character of joined lines is left on one of them, or it is the separator behind a line
that another one follows. -/
theorem mem_joined {separator : Option Char} {lines : List Line} {g : Glyph}
    (h : g ∈ joined separator lines) :
    (∃ l ∈ lines, g ∈ glyphsOf l) ∨
      ∃ before after, [before, after] <:+: lines ∧ g ∈ separatorAfter separator before := by
  induction lines using joined.induct with
  | case1 => simp [joined] at h
  | case2 l => exact Or.inl ⟨l, by simp, h⟩
  | case3 l next rest ih =>
      simp only [joined, List.mem_append] at h
      rcases h with hFirst | hGlue | hRest
      · exact Or.inl ⟨l, by simp, hFirst⟩
      · exact Or.inr ⟨l, next, ⟨[], rest, rfl⟩, hGlue⟩
      · rcases ih hRest with ⟨m, hMem, hLeft⟩ | ⟨before, after, hInfix, hGlue⟩
        · exact Or.inl ⟨m, List.mem_cons_of_mem _ hMem, hLeft⟩
        · exact Or.inr ⟨before, after, hInfix.trans ⟨[l], [], by simp⟩, hGlue⟩

/-- Nothing is seen of a separator that is white space, so joining loses and adds nothing
that is seen. -/
theorem joined_visible {separator : Option Char} (hBlank : ∀ c ∈ separator, isBlank c = true)
    (lines : List Line) :
    ((joined separator lines).map Glyph.placed).filter isVisible =
      lines.flatMap Line.visible := by
  induction lines using joined.induct with
  | case1 => rfl
  | case2 l => simp [joined, Line.visible, Line.placed]
  | case3 l next rest ih =>
      have hGlue : ((separatorAfter separator l).map Glyph.placed).filter isVisible = [] := by
        cases separator with
        | none => rfl
        | some c => simp [separatorAfter, Glyph.placed, isVisible, hBlank c rfl]
      rw [joined, List.map_append, List.map_append, List.filter_append, List.filter_append,
        hGlue, ih, List.nil_append, List.flatMap_cons]
      rfl

/-! ## Cutting into sentences -/

theorem spans_eq_filter (e : Extractor) (t : Text) :
    spans e t = (e.cuts t).filter fun r => !(t.slice r.1 r.2).isAllBlank := rfl

/-- The characters of a span of a passage. -/
def within (p : Passage) (span : Nat × Nat) : List Glyph := (p.glyphs.take span.2).drop span.1

theorem content_slice (p : Passage) (span : Nat × Nat) :
    Text.slice p.content span.1 span.2 = (p.within span).map (·.char) := by
  simp [Text.slice, content, within, List.map_take, List.map_drop]

theorem within_isInfix (p : Passage) (span : Nat × Nat) : p.within span <:+: p.glyphs :=
  (List.drop_suffix _ _).isInfix.trans (List.take_prefix _ _).isInfix

theorem sentenceOf_content (p : Passage) (links : List Text) (span : Nat × Nat) :
    (p.sentenceOf links span).content = (p.within span).map (·.char) := rfl

theorem sentenceOf_positions (p : Passage) (links : List Text) (span : Nat × Nat) :
    (p.sentenceOf links span).positions = (p.within span).map (·.position) :=
  Sentence.ofPositions_positions _ _ _ _ (by simp)

theorem sentenceOf_placed (p : Passage) (links : List Text) (span : Nat × Nat) :
    (p.sentenceOf links span).placed = (p.within span).map Glyph.placed := by
  rw [Sentence.placed, sentenceOf_content, sentenceOf_positions, List.zip_map']
  rfl

theorem exists_visible_of_mem_spans {e : Extractor} {p : Passage} {span : Nat × Nat}
    (h : span ∈ spans e p.content) : ∃ g ∈ p.within span, isBlank g.char = false := by
  rw [spans_eq_filter, List.mem_filter, content_slice] at h
  simpa [Text.isAllBlank] using h.2

/-- Every sentence of a passage is the sentence of a span in which something is seen. -/
theorem mem_sentences {e : Extractor} {p : Passage} {s : Sentence} (h : s ∈ p.sentences e) :
    ∃ span links isFirst, (∃ g ∈ p.within span, isBlank g.char = false) ∧
      s = { p.sentenceOf links span with isFirst := isFirst } := by
  obtain ⟨i, hLt, hEq⟩ := List.mem_mapIdx.mp h
  exact ⟨_, _, _, exists_visible_of_mem_spans (List.getElem_mem hLt), hEq.symm⟩

/-- A sentence of a passage is a stretch of it that has a visible character. -/
theorem sentence_spec {e : Extractor} {p : Passage} {s : Sentence} (h : s ∈ p.sentences e) :
    s.IsAnchored ∧ (∃ c ∈ s.content, isBlank c = false) ∧
      s.placed <:+: p.glyphs.map Glyph.placed := by
  obtain ⟨span, links, isFirst, ⟨g, hMem, hSeen⟩, rfl⟩ := mem_sentences h
  refine ⟨?_, ⟨g.char, ?_, hSeen⟩, ?_⟩
  · have hAnchored : (p.sentenceOf links span).IsAnchored :=
      Sentence.ofPositions_isAnchored _ _ _ _ (by simp)
        (List.ne_nil_of_mem (List.mem_map_of_mem hMem))
    exact ⟨hAnchored.length_eq, hAnchored.head_eq⟩
  · exact List.mem_map_of_mem hMem
  · have hPlaced := sentenceOf_placed p links span
    exact hPlaced ▸ (within_isInfix p span).map _

theorem map_mapIdx_eq {α β γ : Type} (f : Nat → α → β) (g : β → γ) (k : α → γ)
    (hf : ∀ i a, g (f i a) = k a) (l : List α) : (l.mapIdx f).map g = l.map k := by
  apply List.ext_getElem (by simp)
  intro i hLeft hRight
  simp [hf]

/-- The sentences of a passage hold everything that is seen of it, in order and once. Only
stretches of white space are left out. -/
theorem sentences_visible (e : Extractor) (p : Passage) :
    (p.sentences e).flatMap Sentence.visible =
      (p.glyphs.map Glyph.placed).filter isVisible := by
  let seen (span : Nat × Nat) := ((p.within span).map Glyph.placed).filter isVisible
  have hUnseen : ∀ r, (!(Text.slice p.content r.1 r.2).isAllBlank) = false → seen r = [] := by
    intro r hBlank
    rw [content_slice] at hBlank
    simp only [seen, List.filter_map, List.map_eq_nil_iff, List.filter_eq_nil_iff]
    intro g hMem
    simp only [Text.isAllBlank, Bool.not_eq_false', List.all_map, List.all_eq_true] at hBlank
    simp [isVisible, Glyph.placed, show isBlank g.char = true from hBlank g hMem]
  calc
    (p.sentences e).flatMap Sentence.visible = (spans e p.content).flatMap seen := by
      rw [List.flatMap_def, List.flatMap_def, sentences, map_mapIdx_eq _ _ seen]
      intro i span
      simp only [Sentence.withFirst_visible]
      exact congrArg (List.filter isVisible) (sentenceOf_placed p _ span)
    _ = (e.cuts p.content).flatMap seen := by
      rw [spans_eq_filter]
      induction e.cuts p.content with
      | nil => rfl
      | cons r rest ih =>
          rw [List.flatMap_cons, List.filter_cons]
          split
          · rw [List.flatMap_cons, ih]
          · next hBlank => rw [ih, hUnseen r (by simpa using hBlank), List.nil_append]
    _ = (p.glyphs.map Glyph.placed).filter isVisible := by
      have hAll := e.flatMap_cuts p.content p.glyphs (by simp [content])
      simp only [seen, within]
      rw [← List.filter_flatMap, ← List.map_flatMap, hAll]

end Passage

end ProseLint
