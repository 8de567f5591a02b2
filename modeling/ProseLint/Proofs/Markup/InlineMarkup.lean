import ProseLint.Proofs.Layout.InlineRanges
import ProseLint.Proofs.Markup.Documents

/-! Inline markup in documents that are read. Whatever the format, a sentence tells which of its
characters inline markup surrounded in the text. -/

namespace ProseLint

open Layout

/-- The sentence tells of just those of its characters that they came from inline markup that are
marked on their lines, and never of a separator. -/
structure Sentence.TellsInline (e : Extractor) (escapes : Bool) (t : Text) (lines : List Line)
    (s : Sentence) : Prop extends s.IsAnchored where
  inline_iff : ∀ i : Int, s.isInlineMarkup i = true ↔
    ∃ k : Nat, i = k ∧ ∃ p, s.placed[k]? = some p ∧ ∃ l ∈ lines, l.MarksInline p
  glue : ∀ (k : Nat) p, s.placed[k]? = some p → IsGlue e escapes t lines p →
    s.isInlineMarkup k = false

section Origin

variable {escapes : Bool} {t : Text} {lines : List Line}
variable (hOrigin : lines.map Line.origin = (Line.readAll escapes t).map Line.origin)

include hOrigin

/-- No character that was read stands where two lines are joined. -/
theorem IsGlue.not_marksInline {e : Extractor} {p : Char × Position}
    (h : IsGlue e escapes t lines p) {l : Line} (hLine : l ∈ lines) : ¬ l.MarksInline p := by
  rintro ⟨c, hCell, -, -, rfl⟩
  obtain ⟨n, raw, last, _, _, _, _, _, _, _, _, hRaw, hLast, hPlace⟩ := h
  simp only [Position.mk.injEq] at hPlace
  obtain ⟨k, hAt⟩ := List.getElem?_of_mem hLine
  obtain ⟨read, hRead, hSame⟩ := exists_read_line hOrigin hAt
  have hNumber := Line.number_of_origin hOrigin hAt
  obtain rfl : k = n := by omega
  obtain rfl : read = raw := Option.some.inj (hRead.symm.trans hRaw)
  have hEnd : l.endOffset = last.offset + 1 := by
    rw [Line.endOffset_eq_of_origin hSame, Line.endOffset, hLast]
  have hLt := ((Line.areRead_of_origin hOrigin).isRead l hLine).offset_lt_endOffset hCell
  omega

end Origin

theorem Classified.read_tellsInline {c : Classified} {escapes : Bool} {t : Text}
    (hOrigin : c.lines.map Line.origin = (Line.readAll escapes t).map Line.origin)
    (o : ReadOptions) {s : Sentence} (hMem : s ∈ (c.read o).document.sentences) :
    s.TellsInline o.extractor escapes t c.lines where
  toIsAnchored := build_isAnchored hMem
  inline_iff := build_isInlineMarkup (Line.areRead_of_origin hOrigin) hMem
  glue := by
    intro k p hPlaced hGlue
    apply Bool.eq_false_iff.mpr
    intro hInline
    obtain ⟨i, hSame, q, hAt, l, hLine, hMarked⟩ :=
      (build_isInlineMarkup (Line.areRead_of_origin hOrigin) hMem k).mp hInline
    obtain rfl := Int.ofNat.inj hSame
    obtain rfl : q = p := Option.some.inj (hAt.symm.trans hPlaced)
    exact hGlue.not_marksInline hOrigin hLine hMarked

/-- The ranges of flags are not empty, lie among the flags, stand in order with a flag that is not
set between any two, and hold just those that are set. So in every document that is read a sentence
tells exactly which of its characters are marked as inline markup. This holds for all formats, and
for Markdown whatever blocks its reader reports. -/
theorem inlineMarkup_exact :
    (∀ flags : List Bool,
      (∀ r ∈ Passage.markupRanges flags, r.1 < r.2 ∧ r.2 ≤ flags.length) ∧
      ((Passage.markupRanges flags).Pairwise fun p q =>
        ∃ k, p.2 ≤ k ∧ k < q.1 ∧ flags[k]? = some false) ∧
      ∀ k, flags[k]? = some true ↔ ∃ r ∈ Passage.markupRanges flags, r.1 ≤ k ∧ k < r.2) ∧
    ∀ (o : ReadOptions) (t : Text),
      (∀ f : Format, ∀ s ∈ (f.read o t).document.sentences,
        s.TellsInline o.extractor f.hasEscapes t (f.classify t).lines) ∧
      ∀ (blocks : List CommonMark.Block) (c : Classified),
        Markdown.classify blocks (Line.readAll true t) = .ok c →
          ∀ s ∈ (c.read o).document.sentences, s.TellsInline o.extractor true t c.lines := by
  refine ⟨fun flags => ⟨fun r hMem => ?_, ?_, fun k => ?_⟩, fun o t => ⟨fun f s hMem => ?_,
    fun blocks c hClassify s hMem => ?_⟩⟩
  · have hBounds := (Passage.markupRanges_areRuns flags).bounds r hMem
    exact ⟨hBounds.2.1, by omega⟩
  · simpa only [Passage.flagAt?_zero] using (Passage.markupRanges_areRuns flags).apart
  · exact (Passage.mem_markupRanges_iff flags k).symm
  · exact Classified.read_tellsInline (f.classify_origin t) o hMem
  · exact Classified.read_tellsInline (Markdown.classify_origin hClassify) o hMem

/-- Code and emphasis on two lines, which are joined between them. -/
theorem inlineMarkup_exact_joined :
    let text := "A ``b``\n*c* d.".toList
    let options : ReadOptions := ⟨.standard, none, none⟩
    (Format.rest.read options text).document.sentences.map
        (fun s => (s.content, (List.range 8).map fun i => s.isInlineMarkup i)) =
      [("A b c d.".toList, [false, false, true, false, true, false, false, false])] ∧
    ∀ s ∈ (Format.rest.read options text).document.sentences,
      s.TellsInline .standard true text (Format.rest.classify text).lines := by
  intro text options
  exact ⟨by with_unfolding_all decide, (inlineMarkup_exact.2 options text).1 .rest⟩

end ProseLint
