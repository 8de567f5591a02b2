import ProseLint.Proofs.Layout.Groups
import ProseLint.Proofs.Markup.Origin

/-! Where the characters of a document come from. Whatever a markup language makes of a text,
the characters in the sentences stand in the text at the places that the sentences give, apart
from the separators between joined lines. -/

namespace ProseLint

open Layout

/-- The character stands in the text at its place. Lines are numbered from 1. -/
def IsWritten (t : Text) (p : Char × Position) : Prop :=
  ∃ (n : Nat) (raw : Text) (offset : Nat),
    t.splitLines[n]? = some raw ∧ raw[offset]? = some p.1 ∧ p.2 = ⟨(n + 1 : Nat), offset⟩

/-- The character is the separator between a line and the one below it, which are joined
because they are in one group. Its place is on the upper line, just past the last character
that was read there. Characters erased since then count as well. -/
def IsGlue (e : Extractor) (escapes : Bool) (t : Text) (lines : List Line)
    (p : Char × Position) : Prop :=
  ∃ (n : Nat) (raw : Text) (last : Cell) (g : Group) (upper lower : Line),
    e.separator = some p.1 ∧
    g ∈ groups false lines ∧ [upper, lower] <:+: g.lines ∧
    upper.number = n + 1 ∧ lower.number = n + 2 ∧
    t.splitLines[n]? = some raw ∧
    (Line.ofText (n + 1) escapes raw).cells.getLast? = some last ∧
    p.2 = ⟨(n + 1 : Nat), (last.offset + 1 : Nat)⟩

/-- The sentence starts at its first character, and every character has one place, where it
stands in the text or where it joins two lines. -/
structure Sentence.IsTraced (e : Extractor) (escapes : Bool) (t : Text) (lines : List Line)
    (s : Sentence) : Prop extends s.IsAnchored where
  traced : ∀ p ∈ s.placed, IsWritten t p ∨ IsGlue e escapes t lines p

/-! ## Lines that keep their origin -/

section Origin

variable {escapes : Bool} {t : Text} {lines : List Line}
variable (hOrigin : lines.map Line.origin = (Line.readAll escapes t).map Line.origin)

include hOrigin

/-- A line at an index has the number after it, and the characters that were read there. -/
theorem exists_read_line {n : Nat} {l : Line} (hLine : lines[n]? = some l) :
    ∃ raw, t.splitLines[n]? = some raw ∧ l.origin = (Line.ofText (n + 1) escapes raw).origin := by
  have hAt : (lines.map Line.origin)[n]? = some l.origin := by rw [List.getElem?_map, hLine]; rfl
  rw [hOrigin, List.getElem?_map, Line.getElem?_readAll] at hAt
  obtain ⟨m, hRead, hSame⟩ := Option.map_eq_some_iff.mp hAt
  obtain ⟨raw, hRaw, rfl⟩ := Option.map_eq_some_iff.mp hRead
  obtain ⟨behind, hSplit⟩ := t.lines_isPrefix
  refine ⟨raw, ?_, hSame.symm⟩
  rw [← hSplit, List.getElem?_append_left (List.getElem?_eq_some_iff.mp hRaw).1, hRaw]

theorem isWritten_of_mem_placed {l : Line} (hLine : l ∈ lines) {p : Char × Position}
    (hPlaced : p ∈ l.placed) : IsWritten t p := by
  obtain ⟨n, hAt⟩ := List.getElem?_of_mem hLine
  obtain ⟨raw, hRaw, hSame⟩ := exists_read_line hOrigin hAt
  obtain ⟨c, hCell, _, rfl⟩ := Line.mem_placed.mp hPlaced
  obtain ⟨d, hMem, hChar, hOffset⟩ := Line.exists_mem_of_origin hSame hCell
  refine ⟨n, raw, c.offset, hRaw, ?_, ?_⟩
  · rw [← hChar, ← hOffset]
    exact Line.mem_ofText hMem
  · rw [Line.number_eq_of_origin hSame]
    rfl

theorem isGlue_of_mem_separatorAfter {e : Extractor} {g : Group} (hGroup : g ∈ groups false lines)
    {upper lower : Line} (hJoined : [upper, lower] <:+: g.lines) {glyph : Glyph}
    (hGlyph : glyph ∈ Passage.separatorAfter e.separator upper) :
    IsGlue e escapes t lines glyph.placed := by
  obtain ⟨hInfix, _, hText⟩ := mem_groups hGroup
  obtain ⟨before, behind, hLines⟩ := hJoined.trans hInfix
  have hUpper : lines[before.length]? = some upper := by simp [← hLines]
  have hLower : lines[before.length + 1]? = some lower := by simp [← hLines]
  obtain ⟨raw, hRaw, hSame⟩ := exists_read_line hOrigin hUpper
  obtain ⟨_, _, hNext⟩ := exists_read_line hOrigin hLower
  have hCells : upper.cells ≠ [] := by
    intro hNil
    have hSeen := hText upper (hJoined.subset (by simp))
    simp [Line.isEmpty, hNil] at hSeen
  have hRead : (Line.ofText (before.length + 1) escapes raw).cells ≠ [] := by
    rw [← List.length_pos_iff] at hCells ⊢
    rwa [← Line.length_eq_of_origin hSame]
  obtain ⟨last, hLast⟩ := Option.ne_none_iff_exists'.mp (mt List.getLast?_eq_none_iff.mp hRead)
  have hEnd : upper.endOffset = last.offset + 1 := by
    rw [Line.endOffset_eq_of_origin hSame, Line.endOffset, hLast]
  cases hSeparator : e.separator with
  | none => simp [Passage.separatorAfter, hSeparator] at hGlyph
  | some c =>
      simp only [Passage.separatorAfter, hSeparator, List.mem_singleton] at hGlyph
      subst hGlyph
      refine ⟨before.length, raw, last, g, upper, lower, hSeparator, hGroup, hJoined,
        Line.number_eq_of_origin hSame, Line.number_eq_of_origin hNext, hRaw, hLast, ?_⟩
      rw [Glyph.placed, hEnd, Line.number_eq_of_origin hSame]
      rfl

/-- The sentences of a group of lines are traced. The lines may have been erased and marked
in any way since they were read. -/
theorem isTraced_of_mem_group {e : Extractor} {g : Group} (hGroup : g ∈ groups false lines)
    {s : Sentence} (hMem : s ∈ Line.sentences e g.lines) : s.IsTraced e escapes t lines := by
  obtain ⟨hAnchored, _, hInfix⟩ := Passage.sentence_spec hMem
  refine ⟨hAnchored, fun p hPlaced => ?_⟩
  obtain ⟨glyph, hGlyph, rfl⟩ := List.mem_map.mp (hInfix.subset hPlaced)
  obtain ⟨hSub, _, _⟩ := mem_groups hGroup
  rw [Group.glyphs_eq_joined hGroup] at hGlyph
  rcases Passage.mem_joined hGlyph with ⟨m, hLine, hLeft⟩ | ⟨upper, lower, hJoined, hGlue⟩
  · exact Or.inl (isWritten_of_mem_placed hOrigin (hSub.subset hLine) (List.mem_map_of_mem hLeft))
  · exact Or.inr (isGlue_of_mem_separatorAfter hOrigin hGroup hJoined hGlue)

end Origin

theorem Sentence.IsTraced.finish {e : Extractor} {escapes : Bool} {t : Text} {lines : List Line}
    {s : Sentence} (h : s.IsTraced e escapes t lines) (tokenizer : Option Tokenizer) :
    (s.finish tokenizer).IsTraced e escapes t lines where
  toIsAnchored := h.toIsAnchored.finish tokenizer
  traced := by simpa [Sentence.placed] using h.traced

theorem Classified.read_isTraced {c : Classified} {escapes : Bool} {t : Text}
    (hOrigin : c.lines.map Line.origin = (Line.readAll escapes t).map Line.origin)
    (o : ReadOptions) {s : Sentence} (hMem : s ∈ (c.read o).document.sentences) :
    s.IsTraced o.extractor escapes t c.lines := by
  obtain ⟨g, hGroup, cut, hFrom, rfl⟩ := mem_build_sentences hMem
  exact (isTraced_of_mem_group hOrigin hGroup hFrom).finish o.tokenizer

/-- In every document that is read, each character of each sentence has one place, and it
stands there in the text or is a separator there. This holds for all formats, and for Markdown
whatever blocks its reader reports. Nothing is assumed of what ends a sentence. -/
theorem read_sentences_traced (o : ReadOptions) (t : Text) :
    (∀ f : Format, ∀ s ∈ (f.read o t).document.sentences,
      s.IsTraced o.extractor f.hasEscapes t (f.classify t).lines) ∧
    ∀ (blocks : List CommonMark.Block) (c : Classified),
      Markdown.classify blocks (Line.readAll true t) = .ok c →
        ∀ s ∈ (c.read o).document.sentences, s.IsTraced o.extractor true t c.lines :=
  ⟨fun f _ hMem => Classified.read_isTraced (f.classify_origin t) o hMem,
    fun _ _ hClassify _ hMem =>
      Classified.read_isTraced (Markdown.classify_origin hClassify) o hMem⟩

/-- Emphasis over two lines: its marks are gone, and a space joins what is left. -/
theorem read_emphasis_traced :
    let text := "Go *on\nand on*.".toList
    let pieces : List CommonMark.Inline :=
      [.text "Go ".toList, .delimiter ['*'], .text "on".toList, .lineBreak false,
        .text "and on".toList, .delimiter ['*'], .text ['.']]
    let options : ReadOptions := ⟨.standard, none, none⟩
    ∃ c, Markdown.classify [⟨.inlines pieces, some (0, 2)⟩] (Line.readAll true text) = .ok c ∧
      (c.read options).document.sentences.map (·.content) = ["Go on and on.".toList] ∧
      ∀ s ∈ (c.read options).document.sentences, s.IsTraced .standard true text c.lines := by
  intro text pieces options
  refine ⟨_, rfl, by with_unfolding_all decide, ?_⟩
  exact (read_sentences_traced options text).2 [⟨.inlines pieces, some (0, 2)⟩] _ rfl

end ProseLint
