import ProseLint.Markup.Rest.Body
import ProseLint.Proofs.Markup.Origin
import ProseLint.Proofs.Source.Moving

/-! Structured text is classified piece by piece. A blank line with an unindented line below it
closes whatever is open: the lines above it are classified as if nothing stood below, and the
lines below it as if nothing stood above. -/

namespace ProseLint.Rest

open Line

/-! ## Lines further down -/

section Moving

variable (k : Nat)

@[simp] theorem isBlankLine_moved (l : Option Line) :
    isBlankLine (l.map (moved k)) = isBlankLine l := by
  cases l <;> rfl

@[simp] theorem isIndented_moved (l : Option Line) :
    isIndented (l.map (moved k)) = isIndented l := by
  cases l <;> rfl

@[simp] theorem adornment?_moved (l : Option Line) :
    adornment? (l.map (moved k)) = adornment? l := by
  cases l <;> rfl

theorem erasePhraseLink_moved (l : Line) (link : PhraseLink) :
    erasePhraseLink (l.moved k) link = (erasePhraseLink l link).moved k := by
  unfold erasePhraseLink
  rw [glyphAt_moved, glyphAt_moved]
  split
  · rfl
  · cases link.url <;> rfl

theorem eraseReference_moved (l : Line) (r : Nat × Nat) :
    eraseReference (l.moved k) r = (eraseReference l r).moved k := by
  unfold eraseReference
  rw [isKept_moved, isEscaped_moved]
  split <;> rfl

@[simp] theorem eraseInline_moved (l : Line) :
    eraseInline (l.moved k) = (eraseInline l).moved k := by
  have hLinks : erasePhraseLinks (l.moved k) = (erasePhraseLinks l).moved k :=
    foldl_moved k l (erasePhraseLink_moved k) _
  unfold eraseInline
  simp only [hLinks]
  rw [foldl_moved k _ fun l e => eraseEnclosure_moved k l e, text_moved,
    foldl_moved k _ (eraseReference_moved k)]

theorem classifyList_moved (s : State) (previous following : Option Line) (l : Line) :
    classifyList s previous following (l.moved k) =
      (classifyList s previous following l).map id (moved k) := by
  unfold classifyList
  simp only [text_moved, indentation_moved]
  split
  · rfl
  · split
    · rfl
    · split
      · rfl
      · split
        · split <;> rfl
        · rfl

theorem eraseColons_moved (l : Line) : eraseColons (l.moved k) = (eraseColons l).moved k := by
  unfold eraseColons
  simp only [length_moved, glyphAt_moved]
  split
  · split <;> rfl
  · rfl

theorem classifyProse_moved (s : State) (previous following : Option Line) (l : Line) :
    classifyProse s previous following (l.moved k) =
      (classifyProse s previous following l).map id (moved k) := by
  have hOpens : opensLiteral (l.moved k) = opensLiteral l := rfl
  unfold classifyProse
  rw [hOpens]
  cases opensLiteral l <;>
    simp [eraseColons_moved, classifyList_moved, Prod.map]

theorem classifyOpen_moved (s : State) (previous following : Option Line) (l : Line) :
    classifyOpen s previous following (l.moved k) =
      (classifyOpen s previous following l).map id (moved k) := by
  unfold classifyOpen
  simp only [text_moved]
  split
  · rfl
  · split
    · rfl
    · split
      · rfl
      · split
        · rfl
        · split
          · rfl
          · exact classifyProse_moved k s previous following l

theorem classifyLine_moved (s : State) (previous following : Option Line) (l : Line) :
    classifyLine s previous following (l.moved k) =
      (classifyLine s previous following l).map id (moved k) := by
  have hBlank : isBlankLine (some (l.moved k)) = isBlankLine (some l) := rfl
  unfold classifyLine
  rw [hBlank, sectionLevel_moved, indentation_moved]
  split
  · simp [Prod.map]
  · split
    · split <;> rfl
    · split
      · exact classifyOpen_moved k s previous following l
      · split
        · rfl
        · exact classifyOpen_moved k _ previous following l

end Moving

/-! ## What a line needs to know about its neighbours -/

section Neighbours

variable {p q f g : Option Line}

theorem classifyList_congr (hAbove : isBlankLine p = isBlankLine q)
    (hBelow : isIndented f = isIndented g) (s : State) (l : Line) :
    classifyList s p f l = classifyList s q g l := by
  unfold classifyList
  rw [hAbove, hBelow]

/-- Of the line above it matters only whether it is blank, and of the line below whether it is
indented. -/
theorem classifyLine_congr (hAbove : isBlankLine p = isBlankLine q)
    (hBelow : isIndented f = isIndented g) (s : State) (l : Line) :
    classifyLine s p f l = classifyLine s q g l := by
  have hOpen : ∀ s, classifyOpen s p f l = classifyOpen s q g l := by
    intro s
    unfold classifyOpen classifyProse
    simp only [classifyList_congr hAbove hBelow]
  unfold classifyLine
  simp only [hOpen, hBelow]

end Neighbours

/-! ## Lines -/

theorem classifyLines_moved (k : Nat) (s : State) (previous : Option Line) (lines : List Line) :
    classifyLines s (previous.map (moved k)) (lines.map (moved k)) =
      (classifyLines s previous lines).map (moved k) := by
  induction lines generalizing s previous with
  | nil => rfl
  | cons l rest ih =>
      have hLine : classifyLine s (previous.map (moved k)) (rest.map (moved k)).head? (l.moved k) =
          (classifyLine s previous rest.head? l).map id (moved k) := by
        rw [classifyLine_moved, List.head?_map, classifyLine_congr (isBlankLine_moved k previous)
          (isIndented_moved k rest.head?)]
      rw [List.map_cons, classifyLines, classifyLines, hLine, erased_moved]
      cases l.erased with
      | true => exact congrArg (_ :: ·) (ih s (some l))
      | false => exact congrArg (_ :: ·) (ih _ (some _))

/-- With nothing open it does not matter whether a blank line stands above or none. -/
theorem classifyLines_below_blank {above : Line} (hBlank : isBlankLine (some above) = true)
    (s : State) (lines : List Line) :
    classifyLines s (some above) lines = classifyLines s none lines := by
  cases lines with
  | nil => rfl
  | cons l rest =>
      have hLine : classifyLine s (some above) rest.head? l = classifyLine s none rest.head? l :=
        classifyLine_congr hBlank rfl s l
      rw [classifyLines, classifyLines, hLine]

/-- What is left open behind lines, given what was open before them and the line above. -/
def openAfter (s : State) (previous : Option Line) : List Line → State
  | [] => s
  | l :: rest =>
      let (s, l) := if l.erased then (s, l) else classifyLine s previous rest.head? l
      openAfter s (some l) rest

/-- Whatever is open above, a blank line closes it unless an indented line stands below. The
last line above sees the blank line as if it saw nothing. -/
theorem classifyLines_append {blank : Line} (hBlank : isBlankLine (some blank) = true)
    (hFresh : blank.erased = false) (hLevel : blank.sectionLevel = 0) (s : State)
    (previous : Option Line) (above below : List Line) :
    classifyLines s previous (above ++ blank :: below) =
      classifyLines s previous above ++ blank ::
        classifyLines (if isIndented below.head? then openAfter s previous above else .initial)
          none below := by
  induction above generalizing s previous with
  | nil =>
      have hLine : classifyLine s previous below.head? blank =
          (if isIndented below.head? then s else .initial, blank) := by
        simp [classifyLine, hLevel, hBlank]
      show classifyLines s previous (blank :: below) = blank ::
        classifyLines (if isIndented below.head? then s else .initial) none below
      rw [classifyLines, hFresh, hLine]
      exact congrArg (blank :: ·) (classifyLines_below_blank hBlank _ below)
  | cons l rest ih =>
      have hLine : classifyLine s previous (rest ++ blank :: below).head? l =
          classifyLine s previous rest.head? l := by
        cases rest with
        | nil => exact classifyLine_congr rfl (by simp [isIndented, hBlank]) s l
        | cons => rfl
      rw [List.cons_append, classifyLines, classifyLines, hLine]
      exact congrArg (_ :: ·) (ih _ _)

/-! ## Titles -/

theorem levelBetween?_congr {p q f g : Option Line} (hAbove : adornment? p = adornment? q)
    (hBelow : adornment? f = adornment? g) : levelBetween? p f = levelBetween? q g := by
  unfold levelBetween?
  rw [hAbove, hBelow]

theorem adornment?_eq_none {l : Option Line} (h : isBlankLine l = true) : adornment? l = none := by
  cases l with
  | none => rfl
  | some l => simp [adornment?, h]

theorem head?_append_blank {done context : List Line}
    (h : done = [] → isBlankLine context.head? = true) :
    isBlankLine (done ++ context).head? = isBlankLine done.head? ∧
      adornment? (done ++ context).head? = adornment? done.head? := by
  cases done with
  | nil => exact ⟨h rfl, adornment?_eq_none (h rfl)⟩
  | cons l rest => exact ⟨rfl, rfl⟩

/-- Of the lines that were passed only the last one matters, and a blank one as much as none. -/
theorem markTitles_append_done {context : List Line} (done lines : List Line)
    (h : done = [] → isBlankLine context.head? = true) :
    markTitles (done ++ context) lines =
      (markTitles done lines).map (context.reverse ++ ·) id := by
  induction done, lines using markTitles.induct with
  | case1 done => simp [markTitles]
  | case2 done l =>
      rw [markTitles, markTitles, (head?_append_blank h).1]
      simp
  | case3 done l next rest previous following hSkip transition ih =>
      rw [markTitles, markTitles, if_pos hSkip, if_pos hSkip, (head?_append_blank h).1]
      exact ih (by simp)
  | case4 done l next rest previous following hSeen hNone ih =>
      rw [markTitles, markTitles, if_neg hSeen, if_neg hSeen,
        levelBetween?_congr (head?_append_blank h).2 rfl]
      simp only [previous, following] at hNone
      simp only [hNone]
      exact ih (by simp)
  | case5 done l next rest previous following hSeen level hLevel title above done' _ _ _ ih =>
      rw [markTitles, markTitles, if_neg hSeen, if_neg hSeen,
        levelBetween?_congr (head?_append_blank h).2 rfl]
      simp only [previous, following] at hLevel
      simp only [hLevel, (head?_append_blank h).2]
      have hDone : (if (adornment? done.head?).isSome then
            ((done ++ context).take 1).map Line.eraseAll ++ (done ++ context).drop 1
          else done ++ context) = done' ++ context := by
        simp only [done', above, previous]
        split
        · next hAbove =>
            cases done with
            | nil => cases hAbove
            | cons => rfl
        · rfl
      rw [hDone]
      have hRest := ih (by simp)
      rw [List.cons_append, List.cons_append] at hRest
      rw [hRest]
      rfl

/-- A blank line ends the search for titles above and starts a new one below. -/
theorem markTitles_blank {blank : Line} (hBlank : isBlankLine (some blank) = true)
    (done below : List Line) :
    markTitles done (blank :: below) =
      (titles below).map (done.reverse ++ blank :: ·) id := by
  have hNone := adornment?_eq_none hBlank
  cases below with
  | nil => simp [markTitles, titles, hNone]
  | cons next rest =>
      have hContext : isBlankLine (blank :: done).head? = true := hBlank
      have hBelow := markTitles_append_done [] (next :: rest) fun _ => hContext
      rw [markTitles, if_pos (by simp [hBlank])]
      simp only [hNone, Option.isSome_none, Bool.false_and, Bool.false_eq_true, if_false]
      rw [List.nil_append] at hBelow
      rw [hBelow, titles, List.reverse_cons]
      simp [Prod.map]

theorem markTitles_append {blank : Line} (hBlank : isBlankLine (some blank) = true)
    (done above below : List Line) :
    markTitles done (above ++ blank :: below) =
      ((markTitles done above).1 ++ blank :: (titles below).1,
        (markTitles done above).2 ++ (titles below).2) := by
  have hNone := adornment?_eq_none hBlank
  induction done, above using markTitles.induct with
  | case1 done =>
      rw [List.nil_append, markTitles_blank hBlank, markTitles]
      rfl
  | case2 done l =>
      -- The last line above is no title: a blank line adorns none.
      have hLevel : levelBetween? done.head? (some blank) = none := by
        simp [levelBetween?, hNone]
      rw [List.cons_append, List.nil_append, markTitles, markTitles]
      simp only [hLevel, hBlank, Bool.and_true, markTitles_blank hBlank]
      split
      · rfl
      · next hSeen =>
          have hPlain : (adornment? (some l)).isSome = false := by
            simp only [Bool.or_eq_true, not_or, Bool.not_eq_true] at hSeen
            exact hSeen.2
          simp [hPlain, Prod.map]
  | case3 done l next rest previous following hSkip transition ih =>
      rw [List.cons_append, List.cons_append, markTitles, markTitles, if_pos hSkip, if_pos hSkip]
      exact ih
  | case4 done l next rest previous following hSeen hNone ih =>
      rw [List.cons_append, List.cons_append, markTitles, markTitles, if_neg hSeen, if_neg hSeen]
      simp only [previous, following] at hNone
      simp only [hNone]
      exact ih
  | case5 done l next rest previous following hSeen level hLevel title above done' _ _ _ ih =>
      rw [List.cons_append, List.cons_append, markTitles, markTitles, if_neg hSeen, if_neg hSeen]
      simp only [previous, following] at hLevel
      simp only [hLevel]
      rw [ih]
      simp only [List.append_assoc]
      rfl

theorem titles_append {blank : Line} (hBlank : isBlankLine (some blank) = true)
    (above below : List Line) :
    titles (above ++ blank :: below) =
      ((titles above).1 ++ blank :: (titles below).1, (titles above).2 ++ (titles below).2) :=
  markTitles_append hBlank [] above below

theorem overlineWarnings_moved (k : Nat) (l : Line) (above below : Option Char) :
    overlineWarnings (l.moved k) above below =
      (overlineWarnings l above below).map (.moved k) := by
  unfold overlineWarnings
  cases above with
  | none => rfl
  | some c =>
      simp only
      split <;> rfl

theorem markTitles_moved (k : Nat) (done lines : List Line) :
    markTitles (done.map (moved k)) (lines.map (moved k)) =
      (markTitles done lines).map (List.map (moved k)) (List.map (.moved k)) := by
  have hAlone : ∀ l : Line, adornment? (some (l.moved k)) = adornment? (some l) ∧
      isBlankLine (some (l.moved k)) = isBlankLine (some l) := fun l => ⟨rfl, rfl⟩
  induction done, lines using markTitles.induct with
  | case1 done => simp [markTitles]
  | case2 done l =>
      simp only [List.map_cons, List.map_nil, markTitles, List.head?_map, isBlankLine_moved,
        (hAlone l).1]
      split <;> simp
  | case3 done l next rest previous following hSkip transition ih =>
      rw [List.map_cons, List.map_cons, markTitles, markTitles]
      simp only [List.head?_map, isBlankLine_moved, hAlone, if_pos hSkip]
      refine Eq.trans ?_ ih
      simp only [List.map_cons, transition, previous, following]
      split <;> rfl
  | case4 done l next rest previous following hSeen hNone ih =>
      rw [List.map_cons, List.map_cons, markTitles, markTitles]
      simp only [List.head?_map, hAlone, if_neg hSeen,
        levelBetween?_congr (adornment?_moved k done.head?) (hAlone next).1]
      simp only [previous, following] at hNone
      simp only [hNone]
      exact ih
  | case5 done l next rest previous following hSeen level hLevel title above done' _ _ _ ih =>
      rw [List.map_cons, List.map_cons, markTitles, markTitles]
      simp only [List.head?_map, hAlone, if_neg hSeen,
        levelBetween?_congr (adornment?_moved k done.head?) (hAlone next).1, adornment?_moved]
      simp only [previous, following] at hLevel
      simp only [hLevel]
      have hTitle : (if 0 < level then { l.moved k with sectionLevel := level } else l.moved k) =
          title.moved k := by
        simp only [title]
        split <;> rfl
      have hDone : (if (adornment? done.head?).isSome then
            ((done.map (moved k)).take 1).map Line.eraseAll ++ (done.map (moved k)).drop 1
          else done.map (moved k)) = done'.map (moved k) := by
        simp only [done', above, previous]
        split
        · cases done <;> rfl
        · rfl
      simp only [List.map_cons] at ih
      rw [hTitle, hDone, eraseAll_moved, ih, overlineWarnings_moved]
      simp only [Prod.map, List.map_append]
      rfl

theorem titles_moved (k : Nat) (lines : List Line) :
    titles (lines.map (moved k)) =
      (titles lines).map (List.map (moved k)) (List.map (.moved k)) :=
  markTitles_moved k [] lines

/-! ## Texts one below the other -/

/-- What is done to a line does not indent it. -/
theorem isIndented_of_origin {l m : Line} (h : l.origin = m.origin) (hFresh : m.erased = false)
    (hPlain : isIndented (some m) = false) : isIndented (some l) = false := by
  have hText := text_eq_of_origin h
  have hIndent : l.indentation = m.indentation := by
    have hLength : ∀ l : Line, l.indentation = (l.text.takeWhile isIndent).length := by
      intro l
      rw [Line.text, List.takeWhile_map, List.length_map]
      rfl
    rw [hLength, hLength, hText]
  simp only [isIndented, isBlankLine, hFresh, Bool.false_or] at hPlain
  simp only [isIndented, isBlankLine, hText, hIndent]
  cases l.erased with
  | true => rfl
  | false => exact hPlain

/-- A blank line is no suppress comment, since one starts with something visible. -/
theorem rule?_of_blank {n : Nat} {raw : Text}
    (hBlank : isBlankLine (some (Line.ofText n true raw)) = true) :
    Suppress.rule? (Line.ofText n true raw) = none := by
  cases raw with
  | nil => rfl
  | cons c t =>
      by_cases hSlash : '/' = c
      · subst hSlash
        have hFirst : Cell.ofChar '/' 0 false ∈ cellsFrom true 0 ('/' :: t) := by
          cases t <;> simp [cellsFrom]
        have hText : '/' ∈ (Line.ofText n true ('/' :: t)).text :=
          List.mem_map_of_mem (f := (·.char)) (mem_trim hFirst (by decide))
        have hAll : (Line.ofText n true ('/' :: t)).text.isAllBlank = true := hBlank
        exact absurd (List.all_eq_true.mp hAll _ hText) (by decide)
      · obtain ⟨rest, hMarker⟩ : ∃ rest, Suppress.marker = '/' :: rest := ⟨_, rfl⟩
        have hNone : Suppress.marker.isPrefixOf? (c :: t) = none := by
          rw [hMarker]
          exact if_neg (by simpa using hSlash)
        exact Option.map_eq_none_iff.mpr hNone

/-- The classification of lines below others that have left something open. -/
def classifyFrom (s : State) (lines : List Line) : Classified :=
  let (titled, warnings) := titles (Suppress.eraseComments lines)
  ⟨classifyLines s none titled, Suppress.rules lines, warnings⟩

theorem classifyFrom_moved (k : Nat) (s : State) (lines : List Line) :
    classifyFrom s (lines.map (moved k)) = (classifyFrom s lines).moved k := by
  have hNone := classifyLines_moved k s none (titles (Suppress.eraseComments lines)).1
  unfold classifyFrom
  simp only [Suppress.eraseComments_moved, titles_moved, Suppress.rules_moved]
  exact congrArg (fun ls => Classified.mk ls _ _) hNone

/-- The lines of a text when the titles among them have been found. -/
def titledLines (raws : List Text) : List Line :=
  (titles (Suppress.eraseComments (Line.ofTexts true raws))).1

/-- What texts leave open when nothing indented stands below them. -/
def openBehind (s : State) (raws : List Text) : State := openAfter s none (titledLines raws)

theorem isIndented_titledLines {raws : List Text}
    (h : ∀ raw ∈ raws.head?, isIndented (some (Line.ofText 1 true raw)) = false) :
    isIndented (titledLines raws).head? = false := by
  have hOrigin := congrArg List.head?
    ((titles_origin _).trans (Suppress.eraseComments_origin (Line.ofTexts true raws)))
  rw [List.head?_map, List.head?_map, Line.head?_ofTexts, Option.map_map] at hOrigin
  rw [titledLines]
  cases hHead : (titles (Suppress.eraseComments (Line.ofTexts true raws))).1.head? with
  | none => rfl
  | some l =>
      rw [hHead] at hOrigin
      obtain ⟨raw, hRaw, hSame⟩ := Option.map_eq_some_iff.mp hOrigin.symm
      exact isIndented_of_origin hSame.symm rfl (h raw hRaw)

/-- Structured text is classified piece by piece at every blank line. Titles, rules and warnings
are those of the pieces alone. What the upper piece leaves open counts in the lower one only if
that starts with an indented line. -/
theorem classifyFrom_append {blank : Text}
    (hBlank : isBlankLine (some (Line.ofText 1 true blank)) = true) (s : State)
    (above below : List Text) :
    let opened := openBehind s above
    let a := classifyFrom s (Line.ofTexts true above)
    let b := (classifyFrom (if isIndented (titledLines below).head? then opened else .initial)
      (Line.ofTexts true below)).moved (above.length + 1)
    classifyFrom s (Line.ofTexts true (above ++ blank :: below)) =
      ⟨a.lines ++ Line.ofText (above.length + 1) true blank :: b.lines, a.rules ++ b.rules,
        a.warnings ++ b.warnings⟩ := by
  intro opened a b
  let upper := Line.ofTexts true above
  let middle := Line.ofText (above.length + 1) true blank
  let lower := (Line.ofTexts true below).map (moved (above.length + 1))
  have hLines : Line.ofTexts true (above ++ blank :: below) = upper ++ middle :: lower := by
    have hSplit := Line.ofTexts_append true (above ++ [blank]) below
    rw [Line.ofTexts_append true above [blank], List.length_append] at hSplit
    rw [List.append_cons, hSplit, List.append_assoc]
    simp [upper, middle, lower, Line.ofTexts, ofText_moved, Nat.add_comm]
  have hMiddle : isBlankLine (some middle) = true := hBlank
  have hRule : Suppress.rule? middle = none := rule?_of_blank hMiddle
  have hErased : Suppress.eraseComments (upper ++ middle :: lower) =
      Suppress.eraseComments upper ++ middle :: Suppress.eraseComments lower := by
    simp [Suppress.eraseComments, hRule]
  have hRules : Suppress.rules (upper ++ middle :: lower) =
      Suppress.rules upper ++ Suppress.rules lower := by
    simp [Suppress.rules, hRule]
  have hIndented : isIndented (titles (Suppress.eraseComments lower)).1.head? =
      isIndented (titledLines below).head? := by
    simp only [lower, Suppress.eraseComments_moved, titles_moved, Prod.map_fst, List.head?_map,
      isIndented_moved]
    rfl
  have hLower : classifyFrom (if isIndented (titledLines below).head? then opened else .initial)
      lower = b := classifyFrom_moved _ _ _
  rw [hLines, ← hLower]
  unfold classifyFrom
  simp only [hErased, hRules, titles_append hMiddle]
  rw [classifyLines_append hMiddle rfl rfl, hIndented]
  rfl

/-- Structured text is classified piece by piece. When a blank line stands between two pieces
and the lower one does not start with an indented line, the lines of both are classified as in
each piece alone: what the upper piece leaves open is closed, and its last line is no title of
the lower one. Only the numbers of the lower lines differ. -/
theorem classify_separate {above below : List Text} {blank : Text}
    (hBlank : isBlankLine (some (Line.ofText 1 true blank)) = true)
    (hBelow : ∀ raw ∈ below.head?, isIndented (some (Line.ofText 1 true raw)) = false) :
    let a := classify (Line.ofTexts true above)
    let b := (classify (Line.ofTexts true below)).moved (above.length + 1)
    classify (Line.ofTexts true (above ++ blank :: below)) =
      ⟨a.lines ++ Line.ofText (above.length + 1) true blank :: b.lines, a.rules ++ b.rules,
        a.warnings ++ b.warnings⟩ := by
  have hPieces := classifyFrom_append hBlank .initial above below
  rw [isIndented_titledLines hBelow] at hPieces
  exact hPieces

/-- A table in a list is open where the upper piece ends. Below it a title is found, and a row that
would have been erased is a paragraph. -/
theorem classify_separate_table :
    let above := ["- item".toList, "=== ===".toList, "row".toList]
    let below := ["Title".toList, "-----".toList, "row".toList]
    let c := classify (Line.ofTexts true (above ++ [' '] :: below))
    c.lines.map (fun l => (l.sectionLevel, l.listStart, l.keptText)) =
        [(0, true, "item".toList), (0, false, []), (0, false, []), (0, false, []),
          (5, false, "Title".toList), (0, false, []), (0, false, "row".toList)] ∧
      c.lines = (classify (Line.ofTexts true above)).lines ++ Line.ofText 4 true [' '] ::
        ((classify (Line.ofTexts true below)).moved 4).lines := by
  refine ⟨by with_unfolding_all rfl, congrArg Classified.lines (classify_separate rfl ?_)⟩
  -- no line but the title starts the piece below
  rintro _ ⟨⟩
  rfl

end ProseLint.Rest
