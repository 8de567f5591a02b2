import ProseLint.Proofs.Boundary.Visible
import ProseLint.Proofs.Layout.Groups
import ProseLint.Proofs.Source.Lines

/-! Paragraphs of lines without marks. Such lines make one section, with a paragraph for each
group of lines, and the sentences of a paragraph are the pieces into which its text is cut. -/

namespace ProseLint

namespace Passage

/-- The contents of the sentences into which a text is cut. -/
def pieces (e : Extractor) (t : Text) : List Text := (spans e t).map fun r => t.slice r.1 r.2

theorem sentences_content (e : Extractor) (p : Passage) :
    (p.sentences e).map (·.content) = pieces e p.content := by
  rw [sentences, pieces, map_mapIdx_eq _ _ fun span => Text.slice p.content span.1 span.2]
  intro i span
  exact (content_slice p span).symm

/-- The pieces of a text are the whole text when its last character is seen and something of
every end token. -/
theorem pieces_flatten {e : Extractor} (hVisible : e.rule.IsVisible) {t : Text}
    (hLast : t.EndsVisibly) : (pieces e t).flatten = t := by
  have hAll : spans e t = e.cuts t := by
    rw [spans_eq_filter]
    refine List.filter_eq_self.mpr fun range hMem => ?_
    rw [Extractor.isAllBlank_of_mem_cuts hVisible hLast hMem]
    rfl
  rw [pieces, hAll, ← List.flatMap_def]
  exact e.flatMap_cuts t t rfl

theorem glyphsOf_char (l : Line) : (glyphsOf l).map (·.char) = l.keptText := by
  rw [glyphsOf, List.map_map]
  rfl

/-- The text of joined lines is what is left of them, joined. -/
theorem joined_char (separator : Option Char) (lines : List Line) :
    (joined separator lines).map (·.char) =
      Text.join separator.toList (lines.map Line.keptText) := by
  have hGlue : ∀ l, (separatorAfter separator l).map (·.char) = separator.toList := by
    cases separator <;> exact fun _ => rfl
  induction lines using joined.induct with
  | case1 => rfl
  | case2 l => exact glyphsOf_char l
  | case3 l next rest ih =>
      rw [joined, List.map_append, List.map_append, glyphsOf_char, hGlue, ih]
      exact (Text.join_cons_cons _ _ _ _).symm

end Passage

/-- The line is neither a header nor a part of a list. -/
structure Line.IsUnmarked (l : Line) : Prop where
  sectionLevel : l.sectionLevel = 0
  listLevel : l.listLevel = 0
  listStart : l.listStart = false

namespace Document

/-- The contents of the sentences of each paragraph. -/
def paragraphContents (d : Document Sentence) : List (List Text) :=
  d.sections.flatMap fun s => s.paragraphs.map (·.map (·.content))

end Document

namespace Layout

variable {lines : List Line}

theorem role_of_isUnmarked {inList : Bool} {l : Line} (h : l.IsUnmarked) :
    Role.of inList l = .paragraph := by
  simp [Role.of, h.sectionLevel, h.listLevel, h.listStart]

theorem groups_paragraph (hLines : ∀ l ∈ lines, l.IsUnmarked) {inList : Bool} {g : Group}
    (h : g ∈ groups inList lines) : g.role = .paragraph := by
  induction inList, lines using groups.induct with
  | case1 inList => simp [groups] at h
  | case2 inList l rest hEmpty ih =>
      rw [groups, if_pos hEmpty] at h
      exact ih (fun m hMem => hLines m (List.mem_cons_of_mem l hMem)) h
  | case3 inList l rest hText role ih =>
      rw [groups, if_neg hText, List.mem_cons] at h
      rcases h with rfl | hLater
      · exact role_of_isUnmarked (hLines l List.mem_cons_self)
      · refine ih (fun m hMem => hLines m (List.mem_cons_of_mem l ?_)) hLater
        exact (List.dropWhile_suffix _).subset hMem

theorem needsRoot_of_isUnmarked (hLines : ∀ l ∈ lines, l.IsUnmarked) :
    needsRoot lines = true := by
  unfold needsRoot
  split
  · rfl
  · next l hFind => simp [(hLines l (List.mem_of_find?_eq_some hFind)).sectionLevel]

/-- Paragraphs go to the section that is there, one behind the other. -/
theorem foldl_add_paragraph (e : Extractor) {gs : List Group} (h : ∀ g ∈ gs, g.role = .paragraph)
    {b : Builder} {s : Section Sentence} (hOne : b.sections = [s]) :
    (gs.foldl (Group.add e) b).sections =
      [{ s with paragraphs := s.paragraphs ++ gs.map fun g => Line.sentences e g.lines }] := by
  induction gs generalizing b s with
  | nil => simpa using hOne
  | cons g rest ih =>
      obtain ⟨role, lines⟩ := g
      obtain rfl : role = .paragraph := h _ List.mem_cons_self
      have hAdded : (Group.add e b ⟨.paragraph, lines⟩).sections =
          [{ s with paragraphs := s.paragraphs ++ [Line.sentences e lines] }] := by
        rw [Group.add_paragraph, addParagraphOf_eq,
          Builder.requireSection_eq (b := { b with inList := false }) (by simp [hOne])]
        simp [Builder.changeLast, hOne]
      rw [List.foldl_cons, ih (fun k hMem => h k (List.mem_cons_of_mem _ hMem)) hAdded]
      simp

/-- The texts of the paragraphs that the lines make. -/
def paragraphTexts (e : Extractor) (lines : List Line) : List Text :=
  (groups false lines).map fun g => (Passage.ofLines e.separator g.lines).content

/-- Lines without marks are laid out as paragraphs, each cut into the pieces of its text. -/
theorem build_paragraphContents (e : Extractor) (hLines : ∀ l ∈ lines, l.IsUnmarked)
    (rules : List SuppressRule) (fileName : Option Text) (tokenizer : Option Tokenizer) :
    ((build e lines rules fileName).build tokenizer).paragraphContents =
      (paragraphTexts e lines).map (Passage.pieces e) := by
  have hStart : (startOf lines rules fileName).sections = [Section.ofHeader 0 [] none] := by
    rw [startOf_sections, if_pos (needsRoot_of_isUnmarked hLines)]
  rw [Document.paragraphContents, Builder.build_sections, build_eq_foldl,
    foldl_add_paragraph e (fun g hMem => groups_paragraph hLines hMem) hStart]
  simp only [List.map_cons, List.map_nil, List.flatMap_cons, List.flatMap_nil, List.append_nil,
    Section.map, Section.ofHeader, List.nil_append, List.map_map, paragraphTexts]
  refine List.map_congr_left fun g _ => ?_
  simp only [Function.comp_apply, List.map_map]
  rw [← Passage.sentences_content]
  exact List.map_congr_left fun s _ => Sentence.finish_content tokenizer s

end Layout

end ProseLint
