import ProseLint.Markup.Reading
import ProseLint.Proofs.Layout.Conservation
import ProseLint.Proofs.Layout.Lowering
import ProseLint.Proofs.Markup.Separation

/-! Blank lines in structured text. A blank line behind another one closes whatever is open, so
the lines below are read as if nothing stood above. Where they are read so anyway, it only lowers
them by one. -/

namespace ProseLint.Rest

open Line

/-! ## Where classified lines and rules stand -/

/-! Lines keep the numbers of the text, and a rule counts from the line behind its comment. -/

section Numbers

variable {s : State} {raws : List Text}

theorem number_of_mem {l : Line} (h : l ∈ (classifyFrom s (ofTexts true raws)).lines) :
    0 < l.number ∧ l.number ≤ raws.length := by
  have hOrigin : (classifyFrom s (ofTexts true raws)).lines.map origin =
      (ofTexts true raws).map origin := by
    rw [← Suppress.eraseComments_origin (ofTexts true raws)]
    exact (classifyLines_origin _ _ _).trans (titles_origin _)
  obtain ⟨m, hMem, hSame⟩ := List.mem_map.mp (hOrigin ▸ List.mem_map_of_mem (f := origin) h)
  obtain ⟨i, hLt, rfl⟩ := List.mem_mapIdx.mp hMem
  rw [← number_eq_of_origin hSame]
  exact ⟨Nat.succ_pos i, hLt⟩

theorem line_of_mem_rules {r : SuppressRule}
    (h : r ∈ (classifyFrom s (ofTexts true raws)).rules) :
    0 < r.line ∧ r.line ≤ raws.length + 1 := by
  obtain ⟨l, hMem, hRule⟩ := List.mem_filterMap.mp h
  obtain ⟨i, hLt, rfl⟩ := List.mem_mapIdx.mp hMem
  obtain ⟨names, _, rfl⟩ := Option.map_eq_some_iff.mp hRule
  simp only [SuppressRule.ofComment, ofText]
  omega

end Numbers

theorem classifyFrom_moved_lowered (s : State) (raws : List Text) (n : Nat) :
    ((classifyFrom s (ofTexts true raws)).moved n).lines.map (.lowered n) =
        ((classifyFrom s (ofTexts true raws)).moved (n + 1)).lines ∧
      ((classifyFrom s (ofTexts true raws)).moved n).rules.map (.lowered n) =
        ((classifyFrom s (ofTexts true raws)).moved (n + 1)).rules := by
  simp only [Classified.moved, List.map_map]
  constructor
  · apply List.map_congr_left
    intro l hMem
    exact lowered_moved (number_of_mem hMem).1
  · apply List.map_congr_left
    intro r hMem
    exact SuppressRule.lowered_moved (line_of_mem_rules hMem).1

theorem classifyFrom_lowered (s : State) (raws : List Text) :
    (classifyFrom s (ofTexts true raws)).lines.map (.lowered (raws.length + 1)) =
        (classifyFrom s (ofTexts true raws)).lines ∧
      (classifyFrom s (ofTexts true raws)).rules.map (.lowered (raws.length + 1)) =
        (classifyFrom s (ofTexts true raws)).rules := by
  constructor
  · refine (List.map_congr_left fun l hMem => ?_).trans (List.map_id _)
    exact lowered_eq_self (Nat.le_succ_of_le (number_of_mem hMem).2)
  · refine (List.map_congr_left fun r hMem => ?_).trans (List.map_id _)
    exact SuppressRule.lowered_eq_self (line_of_mem_rules hMem).2

/-! ## One blank line and two -/

theorem isEmpty_of_blank (n : Nat) {raw : Text}
    (hBlank : isBlankLine (some (Line.ofText 1 true raw)) = true) :
    (Line.ofText n true raw).isEmpty = true := by
  have hAll : (Line.ofText n true raw).text.isAllBlank = true := hBlank
  simp only [Text.isAllBlank, Line.text, List.all_map, List.all_eq_true] at hAll
  simp only [Line.isEmpty, List.all_eq_true, Bool.or_eq_true]
  exact fun c hMem => Or.inr (hAll c hMem)

section Blank

variable {first second : Text}
variable (hFirst : isBlankLine (some (Line.ofText 1 true first)) = true)

include hFirst

/-- A blank line closes what is open unless an indented line stands below. -/
theorem classify_blank_once {above below : List Text}
    (hClosed : (∀ raw ∈ below.head?, isIndented (some (Line.ofText 1 true raw)) = false) ∨
      openBehind .initial above = .initial) :
    let a := classify (ofTexts true above)
    let b := (classify (ofTexts true below)).moved (above.length + 1)
    classify (ofTexts true (above ++ first :: below)) =
      ⟨a.lines ++ Line.ofText (above.length + 1) true first :: b.lines, a.rules ++ b.rules,
        a.warnings ++ b.warnings⟩ := by
  have hPieces := classifyFrom_append hFirst .initial above below
  have hNone : (if isIndented (titledLines below).head? then openBehind .initial above
      else .initial) = .initial := by
    rcases hClosed with hPlain | hNothing
    · rw [isIndented_titledLines hPlain]
      rfl
    · rw [hNothing, ite_self]
  simp only [hNone] at hPieces
  exact hPieces

variable (hSecond : isBlankLine (some (Line.ofText 1 true second)) = true)

include hSecond

/-- Two blank lines close whatever is open. The lines below are classified as they are alone,
also when they are indented. -/
theorem classify_blank_twice (above below : List Text) :
    let a := classify (ofTexts true above)
    let b := (classify (ofTexts true below)).moved (above.length + 2)
    classify (ofTexts true (above ++ first :: second :: below)) =
      ⟨a.lines ++ Line.ofText (above.length + 1) true first ::
          Line.ofText (above.length + 2) true second :: b.lines,
        a.rules ++ b.rules, a.warnings ++ b.warnings⟩ := by
  intro a b
  have hPlain : isIndented (titledLines (second :: below)).head? = false :=
    isIndented_titledLines fun raw hHead => by
      cases hHead
      simp [isIndented, hSecond]
  have hUpper := classifyFrom_append hFirst .initial above (second :: below)
  rw [hPlain] at hUpper
  -- Nothing is open behind no lines, so the second line has nothing to keep open.
  have hNothing : openBehind .initial [] = .initial := rfl
  have hLower : classifyFrom .initial (ofTexts true (second :: below)) =
      let lower := (classify (ofTexts true below)).moved 1
      ⟨Line.ofText 1 true second :: lower.lines, lower.rules, lower.warnings⟩ := by
    have hAlone := classifyFrom_append hSecond .initial [] below
    simp only [hNothing, ite_self] at hAlone
    exact hAlone
  have hLine : Line.ofText (above.length + 2) true second =
      (Line.ofText 1 true second).moved (above.length + 1) := by
    rw [ofText_moved, Nat.add_comm 1]
  have hBelow : b = ((classify (ofTexts true below)).moved 1).moved (above.length + 1) := by
    rw [Classified.moved_moved, Nat.add_comm 1]
  rw [hLine, hBelow]
  simp only [Bool.false_eq_true, if_false, hLower] at hUpper
  exact hUpper

/-- A second blank line does not count where the first one closes what is open, or where nothing
is. Nothing but the line numbers below it changes in the document. -/
theorem read_blank_twice {t u : Text} {above below : List Text}
    (hOnce : t.lines = above ++ first :: below)
    (hTwice : u.lines = above ++ first :: second :: below)
    (hClosed : (∀ raw ∈ below.head?, isIndented (some (Line.ofText 1 true raw)) = false) ∨
      openBehind .initial above = .initial) (o : ReadOptions) :
    (Format.rest.read o u).document =
      (Format.rest.read o t).document.lowered (above.length + 1) := by
  let n := above.length + 1
  let a := classify (ofTexts true above)
  let b := classify (ofTexts true below)
  let middle := Line.ofText n true first
  have hUpper : Format.rest.classify t = ⟨a.lines ++ middle :: (b.moved n).lines,
      a.rules ++ (b.moved n).rules, a.warnings ++ (b.moved n).warnings⟩ := by
    have hAlone := classify_blank_once hFirst hClosed
    rw [← hOnce] at hAlone
    exact hAlone
  have hLower : Format.rest.classify u =
      ⟨a.lines ++ middle :: Line.ofText (n + 1) true second :: (b.moved (n + 1)).lines,
        a.rules ++ (b.moved (n + 1)).rules, a.warnings ++ (b.moved (n + 1)).warnings⟩ := by
    have hAlone := classify_blank_twice hFirst hSecond above below
    rw [← hTwice] at hAlone
    exact hAlone
  obtain ⟨hLinesAbove, hRulesAbove⟩ := classifyFrom_lowered .initial above
  obtain ⟨hLinesBelow, hRulesBelow⟩ := classifyFrom_moved_lowered .initial below n
  have hLines : a.lines ++ middle :: (b.moved (n + 1)).lines =
      (a.lines ++ middle :: (b.moved n).lines).map (.lowered n) := by
    have hMiddle : middle.lowered n = middle := lowered_eq_self (Nat.le_refl n)
    rw [List.map_append, List.map_cons, hMiddle]
    exact congrArg₂ (· ++ middle :: ·) hLinesAbove.symm hLinesBelow.symm
  have hRules : a.rules ++ (b.moved (n + 1)).rules =
      (a.rules ++ (b.moved n).rules).map (.lowered n) := by
    rw [List.map_append]
    exact congrArg₂ (· ++ ·) hRulesAbove.symm hRulesBelow.symm
  rw [Format.read, Format.read, hUpper, hLower]
  simp only [Classified.read]
  rw [Layout.build_insert_empty (isEmpty_of_blank n hFirst) (isEmpty_of_blank (n + 1) hSecond),
    hLines, hRules, Layout.build_lowered, Builder.build_lowered]

end Blank

/-- A paragraph leaves nothing open, so a second blank line behind it does not count even above an
indented line. -/
theorem read_blank_twice_indented :
    let t : Text := "One.\n\n  Two.".toList
    let u : Text := "One.\n\n\n  Two.".toList
    let d (t : Text) := (Format.rest.read ⟨.standard, none, none⟩ t).document
    t.lines = ["One.".toList] ++ [] :: ["  Two.".toList] ∧
      u.lines = ["One.".toList] ++ [] :: [] :: ["  Two.".toList] ∧
      isBlankLine (some (Line.ofText 1 true [])) = true ∧
      isIndented (some (Line.ofText 1 true "  Two.".toList)) = true ∧
      openBehind .initial ["One.".toList] = .initial ∧ d u = (d t).lowered 2 := by
  intro t u d
  have hBlank : isBlankLine (some (Line.ofText 1 true [])) = true := rfl
  have hNothing : openBehind .initial ["One.".toList] = .initial := rfl
  exact ⟨rfl, rfl, hBlank, rfl, hNothing,
    read_blank_twice hBlank hBlank rfl rfl (Or.inr hNothing) _⟩

/-- The body of a directive becomes prose when two blank lines stand above it. -/
theorem exists_blank_line_counted :
    let t : Text := ".. note::\n\n   Body.".toList
    let u : Text := ".. note::\n\n\n   Body.".toList
    let d (t : Text) := (Format.rest.read ⟨.standard, none, none⟩ t).document
    t.lines = [".. note::".toList] ++ [] :: ["   Body.".toList] ∧
      u.lines = [".. note::".toList] ++ [] :: [] :: ["   Body.".toList] ∧
      (d t).sentences = [] ∧
      (∃ s ∈ (d u).sentences, ('B', ⟨4, 3⟩) ∈ s.visible) ∧ ∀ n, d u ≠ (d t).lowered n := by
  intro t u d
  have hMake : Extractor.make Extractor.standardSymbols Extractor.standardQuotations
      Extractor.standardWords = .ok Extractor.standard := rfl
  have hVisible : ((d u).sentences.flatMap Sentence.visible).Perm
      ((Format.rest.classify u).lines.flatMap Line.visible) :=
    build_visible_perm (Extractor.make_separator hMake) _ _ _ _
  have hBody : ('B', ⟨4, 3⟩) ∈ (Format.rest.classify u).lines.flatMap Line.visible := by
    have hLines : (Format.rest.classify u).lines.flatMap Line.visible =
        [('B', ⟨4, 3⟩), ('o', ⟨4, 4⟩), ('d', ⟨4, 5⟩), ('y', ⟨4, 6⟩), ('.', ⟨4, 7⟩)] := by
      with_unfolding_all rfl
    rw [hLines]
    exact List.mem_cons_self
  have hNone : (d t).sentences = [] := by with_unfolding_all rfl
  obtain ⟨s, hMem, hSeen⟩ := List.mem_flatMap.mp (hVisible.mem_iff.mpr hBody)
  refine ⟨rfl, rfl, hNone, ⟨s, hMem, hSeen⟩, fun n hSame => ?_⟩
  rw [hSame, Document.lowered_sentences, hNone] at hMem
  cases hMem

end ProseLint.Rest
