import ProseLint.Proofs.Markup.Looks
import ProseLint.Proofs.Source.Edits
import ProseLint.Proofs.Source.Enclosures
import ProseLint.Proofs.Text.Visible

/-! Escaped characters and the inline markup of structured text. Thirteen passes erase something
from a line. Eleven of them look for delimiters among the characters that show, and an escaped
character shows nothing that is spelled. The other two match a pattern against the text of the
line, where an escaped character stands like any other, and look at the escapes of single places
only: of the backquote that opens a reference, and of the first underscore behind a word. -/

namespace ProseLint

namespace Line

/-! ## What a line shows -/

theorem charAt_eq_of_origin {l m : Line} (h : l.origin = m.origin) (position : Int) :
    l.charAt position = m.charAt position := by
  have hText : l.cells.map (·.char) = m.cells.map (·.char) := text_eq_of_origin h
  unfold charAt cell?
  split
  · rw [← List.getElem?_map, ← List.getElem?_map, hText]
  · rfl

theorem glyphAt_eq (l : Line) (position : Int) :
    l.glyphAt position = if l.isKept position then
      (if l.isEscaped position then some Cell.escapedGlyph else l.charAt position) else none := by
  unfold glyphAt isKept isEscaped charAt
  cases l.cell? position with
  | none => rfl
  | some c =>
      simp only [Option.bind_some, Option.map_some, Option.getD_some, Cell.glyph]
      split
      · split <;> rfl
      · rfl

theorem glyphAt_congr {l m : Line} (hOrigin : l.origin = m.origin) {position : Int}
    (hKept : l.isKept position = m.isKept position) : l.glyphAt position = m.glyphAt position := by
  rw [glyphAt_eq, glyphAt_eq, hKept, isEscaped_eq_of_origin hOrigin, charAt_eq_of_origin hOrigin]

theorem isKept_of_glyphAt {l : Line} {position : Int} {c : Char}
    (h : l.glyphAt position = some c) : l.isKept position = true := by
  rw [glyphAt_eq] at h
  split at h
  · assumption
  · cases h

theorem not_isEscaped_of_glyphAt {l : Line} {position : Int} {c : Char}
    (h : l.glyphAt position = some c) (hSign : c ≠ Cell.escapedGlyph) :
    l.isEscaped position = false := by
  obtain ⟨d, hCell, hGlyph⟩ := Option.bind_eq_some_iff.mp h
  simp [isEscaped, hCell, (glyph_eq_some hSign hGlyph).2.2]

theorem Sheds.glyphAt {l m : Line} (h : Sheds l m) {position : Int} {c : Char}
    (hGlyph : m.glyphAt position = some c) : l.glyphAt position = some c := by
  have hKept := isKept_of_glyphAt hGlyph
  rw [← hGlyph]
  exact glyphAt_congr h.origin_eq.symm (by rw [hKept, h.kept position hKept])

/-! ## The step at which a character goes -/

theorem foldl_keeps {α : Type} {f : Line → α → Line} {position : Int} {steps : List α}
    (hf : ∀ a ∈ steps, ∀ l, (f l a).isKept position = l.isKept position) (l : Line) :
    (steps.foldl f l).isKept position = l.isKept position := by
  induction steps generalizing l with
  | nil => rfl
  | cons a steps ih =>
      rw [List.forall_mem_cons] at hf
      rw [List.foldl_cons, ih hf.2, hf.1]

/-- A character that some steps erase goes at one of them. -/
theorem exists_step_of_gone {α : Type} {f : Line → α → Line} {position : Int} {steps : List α}
    {l : Line} (hKept : l.isKept position = true)
    (hGone : (steps.foldl f l).isKept position = false) :
    ∃ before a after, steps = before ++ a :: after ∧
      (before.foldl f l).isKept position = true ∧
      (f (before.foldl f l) a).isKept position = false := by
  induction steps generalizing l with
  | nil => simp [hKept] at hGone
  | cons a steps ih =>
      cases hHere : (f l a).isKept position with
      | false => exact ⟨[], a, steps, rfl, hKept, hHere⟩
      | true =>
          obtain ⟨before, b, after, rfl, hBefore, hStep⟩ := ih hHere hGone
          exact ⟨a :: before, b, after, rfl, hBefore, hStep⟩

/-! ## Enclosures -/

/-- No character of a delimiter is escaped. -/
theorem Carries.not_isEscaped {l : Line} {delimiter : Text} {i j : Nat}
    (h : l.Carries delimiter i) (hFrom : i ≤ j) (hTo : j < i + delimiter.length) :
    l.isEscaped j = false := by
  obtain ⟨c, hCell, -, -, hPlain⟩ := h (j - i) (by omega)
  rw [Nat.add_sub_cancel' hFrom] at hCell
  simp [isEscaped, cell?, hCell, hPlain]

/-- An enclosure whose text is only marked takes no escaped character away. -/
theorem eraseEnclosure_spares {e : Enclosure} (hStyle : e.style = .inlineMarkup)
    (hOpening : Cell.escapedGlyph ∉ e.opening) (hClosing : Cell.escapedGlyph ∉ e.closing)
    (l : Line) {j : Nat} (hEscaped : l.isEscaped j = true) :
    (l.eraseEnclosure e).1.isKept j = l.isKept j := by
  obtain ⟨-, ⟨pairs, -, hPairs, hDone⟩, -⟩ := eraseEnclosure_accounts l e hOpening hClosing
  have hOutside : pairs.any (e.erases j) = false := by
    refine List.any_eq_false.mpr fun pair hMem hErases => ?_
    simp only [Enclosure.erases, hStyle, Bool.or_eq_true, decide_eq_true_eq, reduceCtorEq,
      false_and, or_false] at hErases
    rcases hErases with ⟨hFrom, hTo⟩ | ⟨hFrom, hTo⟩
    · simp [(hPairs.opening pair hMem).not_isEscaped hFrom hTo] at hEscaped
    · simp [(hPairs.closing pair hMem).not_isEscaped hFrom hTo] at hEscaped
  rw [hDone]
  simp only [isKept, cell?, Enclosure.change, List.getElem?_mapIdx, Int.toNat_natCast]
  cases l.cells[j]? with
  | none => rfl
  | some c => simp [Enclosure.changed, hOutside]

end Line

namespace Rest

open Line

theorem enclosures_mark {e : Enclosure} (h : e ∈ enclosures) :
    e.style = .inlineMarkup ∧ Cell.escapedGlyph ∉ e.opening ∧ Cell.escapedGlyph ∉ e.closing := by
  have hAll : enclosures.all (fun e => decide (e.style = .inlineMarkup ∧
      Cell.escapedGlyph ∉ e.opening ∧ Cell.escapedGlyph ∉ e.closing)) = true := by
    decide +kernel
  exact of_decide_eq_true (List.all_eq_true.mp hAll e h)

/-! ## References between backquotes -/

/-- Whether a reference that the pattern finds is taken for one. The signs at its end are not
looked at. -/
def PhraseLink.IsTaken (l : Line) (link : PhraseLink) : Prop :=
  l.glyphAt link.start = some '\x60' ∧ l.glyphAt link.labelEnd ≠ none

instance (l : Line) (link : PhraseLink) : Decidable (link.IsTaken l) :=
  inferInstanceAs (Decidable (_ ∧ _))

theorem PhraseLink.IsTaken.of_sheds {l m : Line} {link : PhraseLink} (h : link.IsTaken m)
    (hSheds : Sheds l m) : link.IsTaken l := by
  obtain ⟨c, hEnd⟩ := Option.ne_none_iff_exists'.mp h.2
  exact ⟨hSheds.glyphAt h.1, by simp [hSheds.glyphAt hEnd]⟩

theorem erasePhraseLink_of_not_taken {l : Line} {link : PhraseLink} (h : ¬ link.IsTaken l) :
    erasePhraseLink l link = l := by
  rw [erasePhraseLink, if_pos]
  by_contra hTaken
  exact h (by simpa [PhraseLink.IsTaken] using hTaken)

theorem isKept_erasePhraseLink {l : Line} {link : PhraseLink} (h : link.IsTaken l)
    (position : Int) :
    (erasePhraseLink l link).isKept position = (l.isKept position &&
      !decide (link.start ≤ position ∧ position < link.start + 1) &&
      !decide (link.labelEnd ≤ position ∧
        position < link.labelEnd + (link.stop - link.labelEnd : Int))) := by
  rw [erasePhraseLink, if_neg (by simpa [PhraseLink.IsTaken] using h)]
  cases link.url with
  | none => simp only [isKept_erase]
  | some url => simp only [isKept_addLink, isKept_erase]

theorem erasePhraseLink_sheds (l : Line) (link : PhraseLink) :
    Sheds l (erasePhraseLink l link) := by
  by_cases hTaken : link.IsTaken l
  · refine ⟨erasePhraseLink_origin l link, fun p hKept => ?_⟩
    rw [isKept_erasePhraseLink hTaken, Bool.and_eq_true, Bool.and_eq_true] at hKept
    exact hKept.1.1
  · rw [erasePhraseLink_of_not_taken hTaken]
    exact .refl l

theorem erasePhraseLinks_sheds (l : Line) : Sheds l (erasePhraseLinks l) :=
  .foldl erasePhraseLink_sheds _ l

/-- A reference at the start of a text that stands at position `i`. -/
inductive PhraseLink.Spelled (i : Nat) : Text → PhraseLink → Prop where
  | named {label tail : Text} {n : Nat} (hLabel : label ≠ []) (hEnd : referenceEnd? tail = some n) :
      Spelled i ('\x60' :: (label ++ tail))
        ⟨i, i + 1 + label.length, i + 1 + label.length + n, none⟩
  | addressed {label address tail : Text} {n : Nat} (hLabel : label ≠ [])
      (hEnd : referenceEnd? tail = some n) :
      Spelled i ('\x60' :: (label ++ '<' :: (address ++ '>' :: tail)))
        ⟨i, i + 1 + max (Text.stripRight label).length 1,
          i + 1 + label.length + 1 + address.length + 1 + n, some address⟩

theorem two_le_of_referenceEnd? {t : Text} {n : Nat} (h : referenceEnd? t = some n) : 2 ≤ n := by
  revert h
  fun_cases referenceEnd? t with
  | case1 | case2 =>
      rintro ⟨⟩
      decide
  | case3 => exact nofun

theorem spelled_of_phraseLinkAt? {i : Nat} {t : Text} {link : PhraseLink}
    (h : phraseLinkAt? i t = some link) : link.Spelled i t := by
  revert h
  fun_cases phraseLinkAt? i t with
  | case3 body label hLabel rest hRest address hAddress after hAfter =>
      intro h
      obtain ⟨n, hEnd, rfl⟩ := Option.map_eq_some_iff.mp h
      have hBody : body = label ++ '<' :: (address ++ '>' :: after) := by
        rw [← hAfter, List.takeWhile_append_dropWhile, ← hRest, List.takeWhile_append_dropWhile]
      rw [hBody]
      exact .addressed (by simpa using hLabel) hEnd
  | case5 body label hLabel hNone =>
      intro h
      obtain ⟨n, hEnd, rfl⟩ := Option.map_eq_some_iff.mp h
      have hBody : body = label ++ body.dropWhile isLabelChar :=
        List.takeWhile_append_dropWhile.symm
      rw [hBody]
      exact .named (by simpa using hLabel) hEnd
  | case1 | case2 | case4 | case6 => exact nofun

namespace PhraseLink.Spelled

variable {i : Nat} {t : Text} {link : PhraseLink}

theorem start_eq (h : link.Spelled i t) : link.start = i := by
  cases h <;> rfl

theorem start_lt_labelEnd (h : link.Spelled i t) : link.start < link.labelEnd := by
  cases h with
  | named hLabel hEnd =>
      have hPos := List.length_pos_iff.mpr hLabel
      simp only
      omega
  | addressed hLabel hEnd =>
      simp only
      omega

theorem labelEnd_lt_stop (h : link.Spelled i t) : link.labelEnd < link.stop := by
  cases h with
  | named hLabel hEnd =>
      have hTwo := two_le_of_referenceEnd? hEnd
      simp only
      omega
  | @addressed label address tail n hLabel hEnd =>
      have hPos := List.length_pos_iff.mpr hLabel
      have hStrip := (Text.stripRight_isPrefix label).length_le
      simp only
      omega

/-- The address of a reference stands between its label and its end. -/
theorem address (h : link.Spelled i t) {url : Text} (hUrl : link.url = some url) :
    ∃ k, link.labelEnd < i + k ∧ i + k + url.length < link.stop ∧
      (t.drop k).take url.length = url := by
  cases h with
  | named hLabel hEnd => cases hUrl
  | @addressed label address tail n hLabel hEnd =>
      cases hUrl
      have hPos := List.length_pos_iff.mpr hLabel
      have hStrip := (Text.stripRight_isPrefix label).length_le
      refine ⟨1 + label.length + 1, by simp only; omega, by simp only; omega, ?_⟩
      have hDrop : ('\x60' :: (label ++ '<' :: (url ++ '>' :: tail))).drop (1 + label.length + 1) =
          url ++ '>' :: tail := by
        rw [Nat.add_assoc, Nat.add_comm 1]
        simp
      rw [hDrop, List.take_left]

end PhraseLink.Spelled

/-- What the pattern finds stands in the text, behind what has been taken already. -/
theorem mem_phraseLinksFrom {skip i : Nat} {t : Text} :
    ∀ link ∈ phraseLinksFrom skip i t,
      i + skip ≤ link.start ∧ link.Spelled link.start (t.drop (link.start - i)) := by
  induction skip, i, t using phraseLinksFrom.induct with
  | case1 skip i => exact nofun
  | case2 i c rest k ih =>
      intro link hMem
      obtain ⟨hFrom, hSpelled⟩ := ih link hMem
      refine ⟨by omega, ?_⟩
      rwa [show link.start - i = link.start - (i + 1) + 1 by omega]
  | case3 i c rest link hFound ih =>
      have hHere := spelled_of_phraseLinkAt? hFound
      rw [phraseLinksFrom]
      simp only [hFound, List.forall_mem_cons]
      have hStart := hHere.start_eq
      refine ⟨⟨by omega, by simpa [hStart] using hHere⟩, fun other hMem => ?_⟩
      obtain ⟨hFrom, hSpelled⟩ := ih other hMem
      refine ⟨by omega, ?_⟩
      rwa [show other.start - i = other.start - (i + 1) + 1 by omega]
  | case4 i c rest hNone ih =>
      intro link hMem
      rw [phraseLinksFrom] at hMem
      simp only [hNone] at hMem
      obtain ⟨hFrom, hSpelled⟩ := ih link hMem
      refine ⟨by omega, ?_⟩
      rwa [show link.start - i = link.start - (i + 1) + 1 by omega]

theorem phraseLinksFrom_apart (skip i : Nat) (t : Text) :
    (phraseLinksFrom skip i t).Pairwise fun a b => a.stop ≤ b.start := by
  induction skip, i, t using phraseLinksFrom.induct with
  | case1 skip i => exact .nil
  | case2 i c rest k ih => exact ih
  | case3 i c rest link hFound ih =>
      rw [phraseLinksFrom]
      simp only [hFound]
      refine .cons (fun other hMem => ?_) ih
      have hFrom := (mem_phraseLinksFrom other hMem).1
      omega
  | case4 i c rest hNone ih =>
      rw [phraseLinksFrom]
      simpa only [hNone] using ih

/-- An escaped character that the references between backquotes take away is behind the label of
one of them. -/
theorem erasePhraseLinks_spares (l : Line) {j : Nat} (hEscaped : l.isEscaped j = true)
    (hKept : l.isKept j = true) (hGone : (erasePhraseLinks l).isKept j = false) :
    ∃ link ∈ phraseLinksFrom 0 0 l.text, link.IsTaken l ∧ link.labelEnd ≤ j ∧ j < link.stop := by
  obtain ⟨before, link, after, hLinks, hBefore, hStep⟩ := exists_step_of_gone hKept hGone
  have hSheds : Sheds l (before.foldl erasePhraseLink l) := .foldl erasePhraseLink_sheds before l
  by_cases hTaken : link.IsTaken (before.foldl erasePhraseLink l)
  · have hMem : link ∈ phraseLinksFrom 0 0 l.text := by simp [hLinks]
    have hEnds := (mem_phraseLinksFrom link hMem).2.labelEnd_lt_stop
    have hOpening := not_isEscaped_of_glyphAt (hTaken.of_sheds hSheds).1 (by decide)
    have hNotStart : j ≠ link.start := fun hSame => by simp [hSame, hOpening] at hEscaped
    rw [isKept_erasePhraseLink hTaken, hBefore, Bool.true_and, Bool.and_eq_false_iff] at hStep
    refine ⟨link, hMem, hTaken.of_sheds hSheds, ?_⟩
    simp only [Bool.not_eq_false', decide_eq_true_eq] at hStep
    omega
  · rw [erasePhraseLink_of_not_taken hTaken, hBefore] at hStep
    cases hStep

/-- A reference that is taken loses everything behind its label. -/
theorem erasePhraseLinks_isKept {l : Line} {link : PhraseLink}
    (hMem : link ∈ phraseLinksFrom 0 0 l.text) (hTaken : link.IsTaken l) {j : Nat}
    (hFrom : link.labelEnd ≤ j) (hTo : j < link.stop) :
    (erasePhraseLinks l).isKept j = false := by
  obtain ⟨before, after, hLinks⟩ := List.append_of_mem hMem
  have hApart := phraseLinksFrom_apart 0 0 l.text
  rw [hLinks, List.pairwise_append] at hApart
  have hStart := (mem_phraseLinksFrom link hMem).2.start_lt_labelEnd
  -- The references before it end before it starts, and leave its signs alone.
  have hSame : ∀ p : Nat, link.start ≤ p →
      (before.foldl erasePhraseLink l).isKept p = l.isKept p := by
    intro p hBehind
    refine foldl_keeps (fun other hOther m => ?_) l
    by_cases hOtherTaken : other.IsTaken m
    · have hStop := hApart.2.2 other hOther link List.mem_cons_self
      have hOtherMem : other ∈ phraseLinksFrom 0 0 l.text := by
        rw [hLinks]
        exact List.mem_append_left _ hOther
      have hSpelled := (mem_phraseLinksFrom other hOtherMem).2
      have hOtherStart := hSpelled.start_lt_labelEnd
      have hOtherEnd := hSpelled.labelEnd_lt_stop
      rw [isKept_erasePhraseLink hOtherTaken, decide_eq_false (by omega),
        decide_eq_false (by omega)]
      simp
    · rw [erasePhraseLink_of_not_taken hOtherTaken]
  have hOrigin : (before.foldl erasePhraseLink l).origin = l.origin :=
    foldl_origin erasePhraseLink erasePhraseLink_origin before l
  have hStill : link.IsTaken (before.foldl erasePhraseLink l) :=
    ⟨(glyphAt_congr hOrigin (hSame _ (Nat.le_refl _))).trans hTaken.1,
      (glyphAt_congr hOrigin (hSame _ (Nat.le_of_lt hStart))).trans_ne hTaken.2⟩
  rw [erasePhraseLinks, hLinks, List.foldl_append, List.foldl_cons]
  refine (Sheds.foldl erasePhraseLink_sheds after _).gone ?_
  have hIn : (link.labelEnd : Int) ≤ j ∧
      (j : Int) < link.labelEnd + (link.stop - link.labelEnd : Int) := by omega
  rw [isKept_erasePhraseLink hStill, decide_eq_true hIn]
  simp

/-! ## Underscores behind words -/

theorem underscores?_eq_some {t : Text} {n : Nat} (h : underscores? t = some n) :
    n = 1 ∨ n = 2 := by
  revert h
  fun_cases underscores? t <;> simp +contextual [eq_comm]

theorem mem_referencesFrom {afterWord : Bool} {skip i : Nat} {t : Text} :
    ∀ r ∈ referencesFrom afterWord skip i t, r.2 = 1 ∨ r.2 = 2 := by
  induction afterWord, skip, i, t using referencesFrom.induct with
  | case1 afterWord skip i => exact nofun
  | case2 afterWord i c rest k ih => exact ih
  | case3 afterWord i c rest n hFound ih =>
      rw [referencesFrom]
      simp only [hFound, List.forall_mem_cons]
      refine ⟨?_, ih⟩
      split at hFound
      · exact underscores?_eq_some hFound
      · cases hFound
  | case4 afterWord i c rest hNone ih =>
      rw [referencesFrom]
      simpa only [hNone] using ih

theorem eraseReference_sheds (l : Line) (r : Nat × Nat) : Sheds l (eraseReference l r) := by
  unfold eraseReference
  split
  · exact .erase l _ _
  · exact .refl l

/-- An escaped character that goes with the underscores behind a word is the second of two. -/
theorem eraseReference_spares {l : Line} {r : Nat × Nat} (hLength : r.2 = 1 ∨ r.2 = 2) {j : Nat}
    (hEscaped : l.isEscaped j = true) (hKept : l.isKept j = true)
    (hGone : (eraseReference l r).isKept j = false) :
    j = r.1 + 1 ∧ r.2 = 2 ∧ l.isKept r.1 = true ∧ l.isEscaped r.1 = false := by
  unfold eraseReference at hGone
  split at hGone
  · next hFirst =>
      rw [Bool.and_eq_true, Bool.not_eq_true'] at hFirst
      have hNotFirst : j ≠ r.1 := fun hSame => by simp [hSame, hFirst.2] at hEscaped
      simp only [isKept_erase, hKept, Bool.true_and, Bool.not_eq_false', decide_eq_true_eq]
        at hGone
      exact ⟨by omega, by omega, hFirst⟩
  · simp [hKept] at hGone

/-! ## All passes -/

/-- The line behind the passes for references between backquotes and for enclosures. -/
def enclosed (l : Line) : Line :=
  enclosures.foldl (fun l e => (l.eraseEnclosure e).1) (erasePhraseLinks l)

theorem enclosed_sheds (l : Line) : Sheds (erasePhraseLinks l) (enclosed l) :=
  .foldl Sheds.eraseEnclosure _ _

theorem eraseInline_eq (l : Line) :
    eraseInline l = (referencesFrom false 0 0 l.text).foldl eraseReference (enclosed l) := by
  have hSheds := (erasePhraseLinks_sheds l).trans (enclosed_sheds l)
  rw [← text_eq_of_origin hSheds.origin_eq]
  rfl

theorem eraseEnclosure_spares_of_mem {e : Enclosure} (hMem : e ∈ enclosures) (l : Line) {j : Nat}
    (hEscaped : l.isEscaped j = true) : (l.eraseEnclosure e).1.isKept j = l.isKept j :=
  have ⟨hStyle, hOpening, hClosing⟩ := enclosures_mark hMem
  eraseEnclosure_spares hStyle hOpening hClosing l hEscaped

theorem eraseInline_spares_cases {l : Line} {j : Nat} (hEscaped : l.isEscaped j = true)
    (hKept : l.isKept j = true) (hGone : (eraseInline l).isKept j = false) :
    (∃ link ∈ phraseLinksFrom 0 0 l.text, link.IsTaken l ∧ link.labelEnd ≤ j ∧ j < link.stop) ∨
      ∃ i, j = i + 1 ∧ (i, 2) ∈ referencesFrom false 0 0 l.text ∧ l.isKept i = true ∧
        l.isEscaped i = false := by
  have hLinks := erasePhraseLinks_sheds l
  cases hHere : (erasePhraseLinks l).isKept j with
  | false => exact .inl (erasePhraseLinks_spares l hEscaped hKept hHere)
  | true =>
      have hEnclosed : (enclosed l).isKept j = true := by
        by_contra hLost
        obtain ⟨before, e, after, hAll, hBefore, hStep⟩ :=
          exists_step_of_gone hHere (Bool.eq_false_iff.mpr hLost)
        have hSheds := hLinks.trans (.foldl Sheds.eraseEnclosure before _)
        rw [eraseEnclosure_spares_of_mem (by simp [hAll]) _
          ((hSheds.isEscaped_eq j).trans hEscaped), hBefore] at hStep
        cases hStep
      rw [eraseInline_eq] at hGone
      obtain ⟨before, r, after, hAll, hBefore, hStep⟩ := exists_step_of_gone hEnclosed hGone
      have hSheds := (hLinks.trans (enclosed_sheds l)).trans
        (.foldl eraseReference_sheds before _)
      have hMem : r ∈ referencesFrom false 0 0 l.text := by simp [hAll]
      obtain ⟨hPlace, hLength, hFirst, hPlain⟩ := eraseReference_spares (mem_referencesFrom r hMem)
        ((hSheds.isEscaped_eq j).trans hEscaped) hBefore hStep
      refine .inr ⟨r.1, hPlace, ?_, hSheds.kept _ hFirst, (hSheds.isEscaped_eq _).symm.trans hPlain⟩
      rwa [← hLength]

theorem eraseInline_gone_of_links {l : Line} {position : Int}
    (h : (erasePhraseLinks l).isKept position = false) :
    (eraseInline l).isKept position = false := by
  rw [eraseInline_eq]
  exact ((enclosed_sheds l).trans (.foldl eraseReference_sheds _ _)).gone h

/-- What inline markup does with escaped characters, pass by pass and in all. No enclosure takes
one away. One that goes stands behind the label of a reference between backquotes, or is the second
of two underscores behind a word, and neither the backquote that opens the one nor the first of the
other is escaped. An address goes with the reference it belongs to, whatever is escaped in it. -/
theorem eraseInline_spares (l : Line) :
    (∀ e ∈ enclosures, ∀ (m : Line) (j : Nat), m.isEscaped j = true →
      (m.eraseEnclosure e).1.isKept j = m.isKept j) ∧
    (∀ (m : Line) (j : Nat), m.isEscaped j = true → m.isKept j = true →
      (erasePhraseLinks m).isKept j = false →
      ∃ link ∈ phraseLinksFrom 0 0 m.text, link.IsTaken m ∧ link.labelEnd ≤ j ∧ j < link.stop) ∧
    (∀ (m : Line) (j : Nat), ∀ r ∈ referencesFrom false 0 0 m.text, m.isEscaped j = true →
      m.isKept j = true → (eraseReference m r).isKept j = false →
      j = r.1 + 1 ∧ r.2 = 2 ∧ m.isKept r.1 = true ∧ m.isEscaped r.1 = false) ∧
    (∀ j : Nat, l.isEscaped j = true → l.isKept j = true → (eraseInline l).isKept j = false →
      (∃ link ∈ phraseLinksFrom 0 0 l.text, link.IsTaken l ∧ link.labelEnd ≤ j ∧ j < link.stop) ∨
      ∃ i, j = i + 1 ∧ (i, 2) ∈ referencesFrom false 0 0 l.text ∧ l.isKept i = true ∧
        l.isEscaped i = false) ∧
    (∀ link ∈ phraseLinksFrom 0 0 l.text, link.IsTaken l → ∀ url, link.url = some url →
      ∃ k, link.labelEnd < k ∧ k + url.length < link.stop ∧
        l.text.slice k (k + url.length) = url ∧
        ∀ j : Nat, k ≤ j → j < k + url.length → (eraseInline l).isKept j = false) := by
  refine ⟨fun e hMem m j hEscaped => eraseEnclosure_spares_of_mem hMem m hEscaped,
    fun m j hEscaped hKept hGone => erasePhraseLinks_spares m hEscaped hKept hGone,
    fun m j r hMem hEscaped hKept hGone =>
      eraseReference_spares (mem_referencesFrom r hMem) hEscaped hKept hGone,
    fun j hEscaped hKept hGone => eraseInline_spares_cases hEscaped hKept hGone,
    fun link hMem hTaken url hUrl => ?_⟩
  obtain ⟨k, hBehind, hBefore, hAddress⟩ := (mem_phraseLinksFrom link hMem).2.address hUrl
  refine ⟨link.start + k, hBehind, hBefore, ?_, fun j hFrom hTo =>
    eraseInline_gone_of_links (erasePhraseLinks_isKept hMem hTaken (by omega) (by omega))⟩
  rw [Text.slice, List.drop_take, Nat.add_sub_cancel_left]
  simpa using hAddress

/-- An address with an escaped underscore in it goes with its reference. -/
theorem eraseInline_takes_escaped_address :
    ¬ ∀ (l : Line) (j : Nat), l.isEscaped j = true → (eraseInline l).isKept j = l.isKept j :=
  fun h => absurd (h (ofText 1 true "\x60a <b\\_c>\x60_".toList) 5 (by decide +kernel))
    (by decide +kernel)

end Rest

end ProseLint
