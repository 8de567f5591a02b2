import ProseLint.Proofs.Layout.Units
import ProseLint.Proofs.Markup.Documents

/-! From characters to places and back. The places of a sentence rise, so no two of its characters
have the same one, and looking up the place of a character comes back to the character. A separator
between two lines has a place as well, at which none of the characters of its line stands. -/

namespace ProseLint

namespace Sentence

variable {s : Sentence}

/-- Where the places rise, a place is found at the one index that has it. -/
theorem indexOf?_of_rising (h : Rising s.positions) {i : Nat} {p : Position}
    (hAt : s.positions[i]? = some p) : s.indexOf? p = some i := by
  obtain ⟨hLt, rfl⟩ := List.getElem?_eq_some_iff.mp hAt
  refine List.findIdx?_eq_some_iff_getElem.mpr ⟨hLt, beq_self_eq_true _, fun j hj hSame => ?_⟩
  have hBefore := List.pairwise_iff_getElem.mp h j i (Nat.lt_trans hj hLt) hLt hj
  rw [beq_iff_eq.mp hSame] at hBefore
  exact Position.lt_asymm hBefore hBefore

theorem indexOf?_eq_none_iff {p : Position} : s.indexOf? p = none ↔ p ∉ s.positions := by
  rw [indexOf?, List.findIdx?_eq_none_iff]
  constructor
  · intro hNone hMem
    simpa using hNone p hMem
  · intro hNot q hMem
    exact beq_false_of_ne fun hSame => hNot (hSame ▸ hMem)

/-- Every place belongs to a character. -/
theorem IsAnchored.mem_positions_iff (h : s.IsAnchored) {p : Position} :
    p ∈ s.positions ↔ ∃ c, (c, p) ∈ s.placed := by
  constructor
  · intro hMem
    obtain ⟨i, hAt⟩ := List.getElem?_of_mem hMem
    have hLt : i < s.content.length := by
      rw [← h.length_eq]
      exact (List.getElem?_eq_some_iff.mp hAt).1
    exact ⟨s.content[i], List.mem_of_getElem?
      (List.getElem?_zip_eq_some.mpr ⟨List.getElem?_eq_getElem hLt, hAt⟩)⟩
  · rintro ⟨c, hPlaced⟩
    exact (List.of_mem_zip hPlaced).2

end Sentence

namespace Document.IsReadFrom

variable {o : ReadOptions} {t : Text} {d : Document Sentence}

theorem units_rising (h : d.IsReadFrom o t) :
    ∀ s ∈ d.sections, s.EachUnit fun unit => Rising (unit.flatMap (·.positions)) := by
  obtain ⟨c, hRead, rfl⟩ := h.exists_classified
  exact Layout.build_units_rising hRead c.rules o.fileName o.tokenizer

/-- Whatever the format, the places of a sentence rise, and so they do from a sentence to the next
one of the same header, paragraph or list element. So every index of a sentence has a place that
leads back to the index, and the places that lead nowhere are those of no character. -/
theorem places_invert (h : d.IsReadFrom o t) :
    (∀ s ∈ d.sections, s.EachUnit fun unit => Rising (unit.flatMap (·.positions))) ∧
    ∀ s ∈ d.sentences, Rising s.positions ∧
      (∀ i < s.length, ∃ p, s.positionAt? i = some p ∧ s.indexOf? p = some i) ∧
      ∀ p, s.indexOf? p = none ↔ ∀ c, (c, p) ∉ s.placed := by
  refine ⟨h.units_rising, fun s hMem => ?_⟩
  have hRising := h.positions_rising hMem
  have hAnchored := h.isAnchored hMem
  refine ⟨hRising, fun i hLt => ?_, fun p => ?_⟩
  · have hPlace : i < s.positions.length := by rwa [hAnchored.length_eq]
    have hAt := List.getElem?_eq_getElem hPlace
    exact ⟨s.positions[i], by simp [Sentence.positionAt?, hAt],
      Sentence.indexOf?_of_rising hRising hAt⟩
  · rw [Sentence.indexOf?_eq_none_iff, hAnchored.mem_positions_iff, not_exists]

/-- An escaped star, and a sentence that goes on in the next line. The separator between the lines
stands where the white space at the end of the first one began, and the backslash is nowhere. -/
theorem places_invert_joined :
    let text := "One \\*two. Three  \nfour".toList
    let d := (Format.wiki.read ⟨.standard, none, none⟩ text).document
    d.sentences.map (fun s => (s.content, s.indexOf? ⟨1, 16⟩, s.indexOf? ⟨1, 4⟩)) =
        [("One *two.".toList, none, none), (" Three four".toList, some 6, none)] ∧
      ∀ s ∈ d.sentences, ∀ i < s.length,
        ∃ p, s.positionAt? i = some p ∧ s.indexOf? p = some i := by
  intro text d
  have hRead : d.IsReadFrom ⟨.standard, none, none⟩ text := .format .wiki
  exact ⟨by with_unfolding_all decide, fun s hMem => ((places_invert hRead).2 s hMem).2.1⟩

end Document.IsReadFrom

end ProseLint
