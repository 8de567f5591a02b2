import ProseLint.Proofs.Markup.Documents

/-! What is hidden stays in one section. The sections of a document that is read stand on
separate lines, in order, and a suppress comment hides nothing outside the section on whose
lines it counts. -/

namespace ProseLint

/-! ## Spans of lines -/

namespace SuppressRule

/-- A span reaches from the least line to the greatest. -/
theorem spans_iff {lines : List Int} {line : Int} :
    spans lines line = true ↔ (∃ l ∈ lines, l ≤ line) ∧ ∃ l ∈ lines, line ≤ l := by
  cases lines with
  | nil => simp [spans]
  | cons first rest =>
      have hMin : (first :: rest).min? = some (rest.foldl min first) := List.min?_cons'
      have hMax : (first :: rest).max? = some (rest.foldl max first) := List.max?_cons'
      obtain ⟨hLeast, hBelow⟩ := List.min?_eq_some_iff.mp hMin
      obtain ⟨hMost, hAbove⟩ := List.max?_eq_some_iff.mp hMax
      simp only [spans, Bool.and_eq_true, decide_eq_true_eq]
      constructor
      · rintro ⟨hFrom, hTo⟩
        exact ⟨⟨_, hLeast, hFrom⟩, ⟨_, hMost, hTo⟩⟩
      · rintro ⟨⟨l, hl, hFrom⟩, ⟨m, hm, hTo⟩⟩
        exact ⟨Int.le_trans (hBelow l hl) hFrom, Int.le_trans hTo (hAbove m hm)⟩

theorem spans_of_mem {lines : List Int} {line : Int} (h : line ∈ lines) :
    spans lines line = true :=
  spans_iff.mpr ⟨⟨line, h, Int.le_refl _⟩, ⟨line, h, Int.le_refl _⟩⟩

end SuppressRule

namespace Section

/-- The lines on which the sentences of a section start. -/
def lines (s : Section Sentence) : List Int := s.sentences.map (·.line)

end Section

/-- Sections one above the other have no line in common, not even one between their sentences. -/
theorem Layout.Across.spans_disjoint {a b : Section Sentence}
    (h : Across Sentence.Above a.sentences b.sentences)
    (ha : ∀ s ∈ a.sentences, s.IsAnchored) (hb : ∀ s ∈ b.sentences, s.IsAnchored) (line : Int) :
    ¬ (SuppressRule.spans a.lines line = true ∧ SuppressRule.spans b.lines line = true) := by
  rintro ⟨hUpper, hLower⟩
  obtain ⟨_, hTo, hBelow⟩ := (SuppressRule.spans_iff.mp hUpper).2
  obtain ⟨_, hFrom, hAbove⟩ := (SuppressRule.spans_iff.mp hLower).1
  obtain ⟨x, hx, rfl⟩ := List.mem_map.mp hTo
  obtain ⟨y, hy, rfl⟩ := List.mem_map.mp hFrom
  have hLess : x.line < y.line :=
    h x hx y hy x.position (List.mem_of_head? (ha x hx).head_eq) y.position
      (List.mem_of_head? (hb y hy).head_eq)
  omega

namespace Document

namespace IsReadFrom

variable {o : ReadOptions} {t : Text} {d : Document Sentence} {i j : Nat}
variable {a b : Section Sentence}

theorem across (h : d.IsReadFrom o t) (ha : d.sections[i]? = some a)
    (hb : d.sections[j]? = some b) (hLt : i < j) :
    Layout.Across Sentence.Above a.sentences b.sentences := by
  obtain ⟨hi, rfl⟩ := List.getElem?_eq_some_iff.mp ha
  obtain ⟨hj, rfl⟩ := List.getElem?_eq_some_iff.mp hb
  exact List.pairwise_iff_getElem.mp h.sections_above i j hi hj hLt

theorem spans_disjoint (h : d.IsReadFrom o t) (ha : d.sections[i]? = some a)
    (hb : d.sections[j]? = some b) (hLt : i < j) (line : Int) :
    ¬ (SuppressRule.spans a.lines line = true ∧ SuppressRule.spans b.lines line = true) :=
  (h.across ha hb hLt).spans_disjoint
    (fun _ hx => h.isAnchored (List.mem_flatMap.mpr ⟨a, List.mem_of_getElem? ha, hx⟩))
    (fun _ hx => h.isAnchored (List.mem_flatMap.mpr ⟨b, List.mem_of_getElem? hb, hx⟩)) line

/-- A line is in the span of one section at most. -/
theorem section_unique (h : d.IsReadFrom o t) (ha : d.sections[i]? = some a)
    (hb : d.sections[j]? = some b) {line : Int} (hLeft : SuppressRule.spans a.lines line = true)
    (hRight : SuppressRule.spans b.lines line = true) : i = j := by
  rcases Nat.lt_trichotomy i j with hLt | hEq | hGt
  · exact (h.spans_disjoint ha hb hLt line ⟨hLeft, hRight⟩).elim
  · exact hEq
  · exact (h.spans_disjoint hb ha hGt line ⟨hRight, hLeft⟩).elim

/-- A rule that hides something about a sentence counts on the lines of its section. -/
theorem spans_of_hides (h : d.IsReadFrom o t) (ha : d.sections[i]? = some a) {x : Sentence}
    (hx : x ∈ a.sentences) {r : SuppressRule} {validator : Text}
    (hHides : r.hides d x.line validator = true) : SuppressRule.spans a.lines r.line = true := by
  simp only [SuppressRule.hides, Bool.and_eq_true, List.any_eq_true] at hHides
  obtain ⟨_, near, hNear, hRule, hLine⟩ := hHides
  obtain ⟨k, hk⟩ := List.getElem?_of_mem hNear
  have hOwn : SuppressRule.spans a.lines x.line = true :=
    SuppressRule.spans_of_mem (List.mem_map_of_mem hx)
  rw [h.section_unique ha hk hOwn hLine, hk, Option.some_inj] at ha
  exact ha ▸ hRule

end IsReadFrom

/-- The sections of a document that is read follow each other in the source: every character
of a section stands before every character of a later one, so no two sections have a line in
common. Whatever rule is given, the sentences for which it hides anything, by any validator,
are all in one section. -/
theorem sections_apart {o : ReadOptions} {t : Text} {d : Document Sentence}
    (h : d.IsReadFrom o t) :
    (∀ (i j : Nat) (a b : Section Sentence), i < j →
      d.sections[i]? = some a → d.sections[j]? = some b →
        (∀ x ∈ a.sentences, ∀ p ∈ x.positions, ∀ y ∈ b.sentences, ∀ q ∈ y.positions,
          p.lt q = true) ∧
        ∀ line, ¬ (SuppressRule.spans a.lines line = true ∧
          SuppressRule.spans b.lines line = true)) ∧
    ∀ r : SuppressRule, ∃ i, ∀ (validator : Text) (j : Nat) (s : Section Sentence),
      d.sections[j]? = some s → ∀ x ∈ s.sentences,
        r.hides d x.line validator = true → j = i := by
  refine ⟨fun i j a b hLt ha hb => ⟨fun x hx p hp y hy q hq => ?_, ?_⟩, fun r => ?_⟩
  · exact Position.lt_of_line_lt (h.across ha hb hLt x hx y hy p hp q hq)
  · exact h.spans_disjoint ha hb hLt
  · by_cases hSome : ∃ (i : Nat) (a : Section Sentence),
        d.sections[i]? = some a ∧ SuppressRule.spans a.lines r.line = true
    · obtain ⟨i, a, ha, hRule⟩ := hSome
      refine ⟨i, fun validator j s hs x hx hHides => ?_⟩
      exact h.section_unique hs ha (h.spans_of_hides hs hx hHides) hRule
    · refine ⟨0, fun validator j s hs x hx hHides => ?_⟩
      exact (hSome ⟨j, s, hs, h.spans_of_hides hs hx hHides⟩).elim

/-- A comment in the first of two sections hides the sentence below it, and nothing of the
second section. -/
theorem sections_apart_comment :
    let text := "= One\n\n//@Suppress@ Wording\nFirst.\n\n= Two\n\nSecond.\n".toList
    let d := (Format.review.read ⟨.standard, none, none⟩ text).document
    let rule : SuppressRule := ⟨4, ["wording".toList]⟩
    d.sentences.map (fun s => (s.line, d.isSuppressed s.line "Wording".toList)) =
        [(1, false), (4, true), (6, false), (8, false)] ∧
      ∃ i, ∀ (validator : Text) (j : Nat) (s : Section Sentence), d.sections[j]? = some s →
        ∀ x ∈ s.sentences, rule.hides d x.line validator = true → j = i := by
  intro text d rule
  exact ⟨by with_unfolding_all decide, (sections_apart (.format .review)).2 rule⟩

end Document

end ProseLint
