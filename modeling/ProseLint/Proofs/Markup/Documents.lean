import ProseLint.Proofs.Layout.Order
import ProseLint.Proofs.Markup.Provenance

/-! Documents that are read. What holds of every layout of lines that come from a text, in
order, holds of the documents of all formats. -/

namespace ProseLint

/-- The document is what comes from reading the text, in one of the formats. Markdown may come
with any blocks, also with some that are not those of the text. -/
inductive Document.IsReadFrom (o : ReadOptions) (t : Text) : Document Sentence → Prop where
  | format (f : Format) : IsReadFrom o t (f.read o t).document
  | blocks {blocks : List CommonMark.Block} {c : Classified}
      (hClassify : Markdown.classify blocks (Line.readAll true t) = .ok c) :
      IsReadFrom o t (c.read o).document

/-- A line is numbered by its place in the text. -/
theorem Line.number_of_origin {escapes : Bool} {t : Text} {lines : List Line}
    (hOrigin : lines.map Line.origin = (Line.readAll escapes t).map Line.origin) {n : Nat}
    {l : Line} (hLine : lines[n]? = some l) : l.number = n + 1 := by
  obtain ⟨_, _, hSame⟩ := exists_read_line hOrigin hLine
  exact number_eq_of_origin hSame

/-- Lines keep the order of the text when they are erased and marked. -/
theorem Line.areRead_of_origin {escapes : Bool} {t : Text} {lines : List Line}
    (hOrigin : lines.map Line.origin = (Line.readAll escapes t).map Line.origin) :
    Line.AreRead lines where
  isRead := by
    intro l hMem
    obtain ⟨n, hAt⟩ := List.getElem?_of_mem hMem
    obtain ⟨raw, _, hSame⟩ := exists_read_line hOrigin hAt
    exact ⟨n + 1, escapes, raw, hSame⟩
  numbers := by
    refine List.pairwise_iff_getElem.mpr fun i j hi hj hLt => ?_
    rw [number_of_origin hOrigin (List.getElem?_eq_getElem hi),
      number_of_origin hOrigin (List.getElem?_eq_getElem hj)]
    exact Nat.succ_lt_succ hLt

namespace Document.IsReadFrom

variable {o : ReadOptions} {t : Text} {d : Document Sentence}

/-- Whatever the format, the document is laid out from the lines of the text, erased and marked
in some way. -/
theorem exists_origin (h : d.IsReadFrom o t) :
    ∃ (c : Classified) (escapes : Bool),
      c.lines.map Line.origin = (Line.readAll escapes t).map Line.origin ∧
        d = (c.read o).document := by
  cases h with
  | format f => exact ⟨f.classify t, _, f.classify_origin t, rfl⟩
  | blocks hClassify => exact ⟨_, true, Markdown.classify_origin hClassify, rfl⟩

theorem exists_classified (h : d.IsReadFrom o t) :
    ∃ c : Classified, Line.AreRead c.lines ∧ d = (c.read o).document := by
  obtain ⟨c, _, hOrigin, hDocument⟩ := h.exists_origin
  exact ⟨c, Line.areRead_of_origin hOrigin, hDocument⟩

theorem isAnchored (h : d.IsReadFrom o t) {s : Sentence} (hMem : s ∈ d.sentences) :
    s.IsAnchored := by
  obtain ⟨c, _, rfl⟩ := h.exists_classified
  exact build_isAnchored hMem

theorem positions_rising (h : d.IsReadFrom o t) {s : Sentence} (hMem : s ∈ d.sentences) :
    Rising s.positions := by
  obtain ⟨c, hRead, rfl⟩ := h.exists_classified
  exact Layout.build_positions_rising hRead hMem

/-- Sentences are cut into words when they have no tokens, and the tokens that they may have
are the same words. -/
theorem tokensOrCut_eq (h : d.IsReadFrom o t) {s : Sentence} (hMem : s ∈ d.sentences) :
    s.tokensOrCut = Token.ofText s.content := by
  obtain ⟨c, _, rfl⟩ := h.exists_classified
  obtain ⟨g, _, cut, hFrom, rfl⟩ := Layout.mem_build_sentences hMem
  obtain ⟨span, links, isFirst, _, rfl⟩ := Passage.mem_sentences hFrom
  cases o.tokenizer with
  | none => rfl
  | some tokenizer =>
      cases tokenizer
      unfold Sentence.tokensOrCut
      split
      · rfl
      · rfl

theorem sections_above (h : d.IsReadFrom o t) : Layout.InOrder Sentence.Above d.sections := by
  obtain ⟨c, hRead, rfl⟩ := h.exists_classified
  exact Layout.build_sections_above hRead c.rules o.fileName o.tokenizer

end Document.IsReadFrom

end ProseLint
