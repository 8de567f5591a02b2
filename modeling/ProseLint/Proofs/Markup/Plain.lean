import ProseLint.Markup.Reading
import ProseLint.Proofs.Layout.Conservation
import ProseLint.Proofs.Layout.Paragraphs

/-! Plain text, written out and read again. When the paragraphs of a plain text are written with
a blank line between any two of them, each one as the line that its sentences make, the same
paragraphs with the same sentences are read. -/

namespace ProseLint

open Layout

namespace Line

variable {t : Text} {l : Line}

theorem exists_of_mem_readAll {escapes : Bool} (h : l ∈ readAll escapes t) :
    ∃ n, ∃ raw ∈ t.lines, l = ofText n escapes raw := by
  obtain ⟨i, hLt, rfl⟩ := List.mem_mapIdx.mp h
  exact ⟨i + 1, _, List.getElem_mem hLt, rfl⟩

theorem isUnmarked_of_mem_readAll {escapes : Bool} (h : l ∈ readAll escapes t) : l.IsUnmarked := by
  obtain ⟨n, raw, _, rfl⟩ := exists_of_mem_readAll h
  exact ⟨rfl, rfl, rfl⟩

theorem keptText_isUnbroken (h : l ∈ readAll false t) : l.keptText.IsUnbroken := by
  obtain ⟨n, raw, hRaw, rfl⟩ := exists_of_mem_readAll h
  rw [keptText_ofText]
  exact fun c hMem => Text.isUnbroken_of_mem_splitLines (t.lines_isPrefix.subset hRaw) c
    (Text.mem_of_mem_stripRight hMem)

theorem keptText_endsVisibly (h : l ∈ readAll false t) (hText : l.isEmpty = false) :
    l.keptText.EndsVisibly := by
  obtain ⟨n, raw, _, rfl⟩ := exists_of_mem_readAll h
  rw [isEmpty_eq] at hText
  rw [keptText_ofText] at hText ⊢
  refine Text.stripRight_endsVisibly fun hNone => ?_
  rw [hNone] at hText
  cases hText

end Line

namespace Layout

variable {e : Extractor}

/-- The text of a paragraph of plain text is a single line that ends in something visible. -/
theorem mem_paragraphTexts (hSpace : ∀ c ∈ e.separator, c = ' ') {t part : Text}
    (h : part ∈ paragraphTexts e (Line.readAll false t)) :
    part.IsUnbroken ∧ part.EndsVisibly := by
  obtain ⟨g, hGroup, rfl⟩ := List.mem_map.mp h
  obtain ⟨hInfix, hSome, hText⟩ := mem_groups hGroup
  rw [Passage.content, Group.glyphs_eq_joined hGroup, Passage.joined_char]
  constructor
  · intro c hMem
    rcases Text.mem_join hMem with hSeparator | ⟨part, hPart, hIn⟩
    · rw [hSpace c (by simpa using hSeparator)]
      decide
    · obtain ⟨l, hLine, rfl⟩ := List.mem_map.mp hPart
      exact Line.keptText_isUnbroken (hInfix.subset hLine) c hIn
  · refine Text.join_endsVisibly (by simpa using hSome) fun part hPart => ?_
    obtain ⟨l, hLine, rfl⟩ := List.mem_map.mp hPart
    exact Line.keptText_endsVisibly (hInfix.subset hLine) (hText l hLine)

/-- A line with an empty line below it, or none, is a paragraph by itself. -/
theorem groups_cons_alone {l : Line} (hMarks : l.IsUnmarked) (hText : l.isEmpty = false)
    {rest : List Line} (hBelow : ∀ m ∈ rest.head?, m.isEmpty = true) :
    groups false (l :: rest) = ⟨.paragraph, [l]⟩ :: groups false rest := by
  have hAlone : rest.takeWhile Role.paragraph.takes = [] ∧
      rest.dropWhile Role.paragraph.takes = rest := by
    cases rest with
    | nil => exact ⟨rfl, rfl⟩
    | cons m more =>
        have hStop : ¬ Role.paragraph.takes m = true := by
          rw [Role.takes_eq_false (hBelow m rfl)]
          exact Bool.false_ne_true
        exact ⟨List.takeWhile_cons_of_neg hStop, List.dropWhile_cons_of_neg hStop⟩
  rw [groups, if_neg (by simp [hText]), role_of_isUnmarked hMarks]
  simp only [hAlone.1, hAlone.2]
  rfl

theorem paragraphTexts_cons_alone (e : Extractor) {l : Line} (hMarks : l.IsUnmarked)
    (hText : l.isEmpty = false) {rest : List Line} (hBelow : ∀ m ∈ rest.head?, m.isEmpty = true) :
    paragraphTexts e (l :: rest) = l.keptText :: paragraphTexts e rest := by
  have hContent : (Passage.ofLines e.separator [l]).content = l.keptText := by
    rw [Passage.content, Passage.ofLines_glyphs _ l [] (Line.glyphsOf_ne_nil hText)]
    exact Passage.glyphsOf_char l
  rw [paragraphTexts, groups_cons_alone hMarks hText hBelow, List.map_cons, hContent]
  rfl

theorem paragraphTexts_cons_empty (e : Extractor) {l : Line} (h : l.isEmpty = true)
    (rest : List Line) : paragraphTexts e (l :: rest) = paragraphTexts e rest := by
  rw [paragraphTexts, groups, if_pos h]
  rfl

/-- Paragraphs that are written with empty lines between them are read as they were. -/
theorem paragraphTexts_intersperse (e : Extractor) {parts : List Text}
    (h : ∀ part ∈ parts, part.EndsVisibly) (number : Nat → Nat) :
    paragraphTexts e ((parts.intersperse []).mapIdx fun i => Line.ofText (number i) false) =
      parts := by
  induction parts generalizing number with
  | nil => simp [paragraphTexts, groups]
  | cons part rest ih =>
      obtain ⟨hPart, hRest⟩ := List.forall_mem_cons.mp h
      have hKept : (Line.ofText (number 0) false part).keptText = part := by
        rw [Line.keptText_ofText, Text.stripRight_eq_self hPart]
      have hText : (Line.ofText (number 0) false part).isEmpty = false := by
        rw [Line.isEmpty_eq, hKept]
        exact hPart.isAllBlank_eq_false
      cases rest with
      | nil =>
          rw [List.intersperse_singleton, List.mapIdx_cons, List.mapIdx_nil,
            paragraphTexts_cons_alone e ⟨rfl, rfl, rfl⟩ hText (by simp), hKept]
          simp [paragraphTexts, groups]
      | cons next rest =>
          rw [List.intersperse_cons_cons, List.mapIdx_cons, List.mapIdx_cons,
            paragraphTexts_cons_alone e ⟨rfl, rfl, rfl⟩ hText (fun m hMem => by cases hMem; rfl),
            paragraphTexts_cons_empty e rfl, hKept]
          exact congrArg _ (ih hRest fun i => number (i + 1 + 1))

end Layout

/-- The sentences of each paragraph put together, and the paragraphs with a blank line between
any two of them. -/
def Document.prose (d : Document Sentence) : Text :=
  Text.join Text.blankLine (d.paragraphContents.map List.flatten)

theorem Format.plain_paragraphContents (o : ReadOptions) (t : Text) :
    (Format.plain.read o t).document.paragraphContents =
      (paragraphTexts o.extractor (Line.readAll false t)).map (Passage.pieces o.extractor) :=
  build_paragraphContents o.extractor (fun _ hMem => Line.isUnmarked_of_mem_readAll hMem) []
    o.fileName o.tokenizer

/-- Plain text keeps its sentences when it is written out and read again. Every paragraph is
written as the line that its sentences make, with a blank line between two paragraphs; reading
that with the same extractor gives the same paragraphs, each with the same sentences. Something
must be seen of every end symbol. -/
theorem Format.plain_reread {symbols quotations words : List Text} {e : Extractor}
    (hMake : Extractor.make symbols quotations words = .ok e)
    (hSeen : ∀ symbol ∈ symbols, ∃ c ∈ symbol, isBlank c = false) (o again : ReadOptions)
    (t : Text) :
    let d := (Format.plain.read { o with extractor := e } t).document
    (Format.plain.read { again with extractor := e } d.prose).document.paragraphContents =
      d.paragraphContents := by
  intro d
  have hVisible : e.rule.IsVisible := Extractor.make_isVisible hMake hSeen
  have hTexts : ∀ part ∈ paragraphTexts e (Line.readAll false t),
      part.IsUnbroken ∧ part.EndsVisibly := fun part hMem =>
    mem_paragraphTexts (Extractor.make_separator_eq hMake) hMem
  have hFirst : d.paragraphContents =
      (paragraphTexts e (Line.readAll false t)).map (Passage.pieces e) :=
    Format.plain_paragraphContents { o with extractor := e } t
  -- No piece of a paragraph is left out, so what is written are the paragraphs as they were.
  have hProse : d.prose = Text.join Text.blankLine (paragraphTexts e (Line.readAll false t)) := by
    rw [Document.prose, hFirst, List.map_map]
    refine congrArg _ ((List.map_congr_left fun part hMem => ?_).trans (List.map_id _))
    exact Passage.pieces_flatten hVisible (hTexts part hMem).2
  have hLines : paragraphTexts e (Line.readAll false d.prose) =
      paragraphTexts e (Line.readAll false t) := by
    rw [hProse, Line.readAll, Text.lines_join_blankLine (fun part hMem => (hTexts part hMem).1)
      fun part hMem => (hTexts part hMem).2.ne_nil]
    exact paragraphTexts_intersperse e (fun part hMem => (hTexts part hMem).2) fun i => i + 1
  rw [Format.plain_paragraphContents, hFirst]
  exact congrArg _ hLines

/-- Two paragraphs, the first one on two lines with white space around them. -/
theorem Format.plain_reread_two :
    let o : ReadOptions := ⟨.standard, none, none⟩
    let text := "  One. Two\nlines.  \n \n\nThree (a.m.) is late.".toList
    let d := (Format.plain.read o text).document
    d.prose = "  One. Two lines.\n\nThree (a.m.) is late.".toList ∧
      d.paragraphContents =
        [["  One.".toList, " Two lines.".toList], ["Three (a.m.) is late.".toList]] ∧
      (Format.plain.read o d.prose).document.paragraphContents = d.paragraphContents := by
  intro o text d
  have hMake : Extractor.make Extractor.standardSymbols Extractor.standardQuotations
      Extractor.standardWords = .ok .standard := rfl
  have hSeen : ∀ symbol ∈ Extractor.standardSymbols, ∃ c ∈ symbol, isBlank c = false := by
    have hAll : Extractor.standardSymbols.all (·.any (!isBlank ·)) = true := by decide
    simpa using hAll
  exact ⟨by with_unfolding_all decide, by with_unfolding_all decide, plain_reread hMake hSeen o o _⟩

end ProseLint
