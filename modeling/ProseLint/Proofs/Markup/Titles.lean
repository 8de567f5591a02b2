import ProseLint.Proofs.Markup.Separation

/-! Section titles of structured text. Which lines are titles, and which lines adorn them, can be
told from their neighbours alone, except that an underline is used up by the title above it. The
pass over the lines finds just these titles, and erases what adorns them and nothing else. -/

namespace ProseLint.Rest

/-! ## Titles by their neighbours -/

/-- Whether a line shows text that could be a title. Adornments are no text. -/
def isText (l : Option Line) : Bool := !isBlankLine l && (adornment? l).isNone

/-- The level of a title on a line between two others, if it is one. -/
def levelOn? (above line below : Option Line) : Option Nat :=
  if isText line then levelBetween? above below else none

/-- The level of the title at an index, if there is one. Of the line above it the title sees
nothing when that is the underline of another title. -/
def titleLevel? (lines : List Line) : Nat → Option Nat
  | 0 => levelOn? none lines[0]? lines[1]?
  | 1 => levelOn? lines[0]? lines[1]? lines[2]?
  | i + 2 => levelOn? (if (titleLevel? lines i).isSome then none else lines[i + 1]?)
      lines[i + 2]? lines[i + 3]?

/-- Whether the line at an index is the underline of a title. -/
def isUnderline (lines : List Line) : Nat → Bool
  | 0 => false
  | i + 1 => (titleLevel? lines i).isSome

/-- The line above an index, unless it is the underline of a title. -/
def above? (lines : List Line) : Nat → Option Line
  | 0 => none
  | i + 1 => if isUnderline lines i then none else lines[i]?

/-- Whether the line at an index is the overline of a title. It need not be equal to the
underline. -/
def isOverline (lines : List Line) (i : Nat) : Bool :=
  (titleLevel? lines (i + 1)).isSome && (adornment? (above? lines (i + 1))).isSome

/-- Whether the line at an index is a transition: an adornment between lines that are blank or
erased, or used up by a title, or not there. -/
def isTransition (lines : List Line) (i : Nat) : Bool :=
  (adornment? lines[i]?).isSome && isBlankLine (above? lines i) && isBlankLine lines[i + 1]?

/-- A line that is a title when its level is not 0. -/
def withLevel (level : Option Nat) (l : Line) : Line :=
  match level with
  | none => l
  | some level => if 0 < level then { l with sectionLevel := level } else l

/-- What becomes of the line at an index. -/
def titled (lines : List Line) (i : Nat) (l : Line) : Line :=
  if isUnderline lines i || isOverline lines i || isTransition lines i then l.eraseAll
  else withLevel (titleLevel? lines i) l

section

variable {lines : List Line} {i : Nat}

theorem titleLevel?_eq (lines : List Line) (i : Nat) :
    titleLevel? lines i = levelOn? (above? lines i) lines[i]? lines[i + 1]? := by
  match i with
  | 0 => rfl
  | 1 => rfl
  | i + 2 => rfl

theorem isBlankLine_of_isText {l : Option Line} (h : isText l = true) : isBlankLine l = false := by
  simp only [isText, Bool.and_eq_true, Bool.not_eq_true'] at h
  exact h.1

theorem isText_of_not {l : Option Line}
    (h : ¬(isBlankLine l || (adornment? l).isSome) = true) : isText l = true := by
  rw [Bool.not_eq_true, Bool.or_eq_false_iff] at h
  have hNone : adornment? l = none := Option.not_isSome_iff_eq_none.mp (by simp [h.2])
  rw [isText, h.1, hNone]
  rfl

theorem adornment?_of_isText {l : Option Line} (h : isText l = true) : adornment? l = none := by
  simp only [isText, Bool.and_eq_true, Option.isNone_iff_eq_none] at h
  exact h.2

theorem isBlankLine_of_adornment? {l : Option Line} {c : Char} (h : adornment? l = some c) :
    isBlankLine l = false := by
  cases hBlank : isBlankLine l with
  | false => rfl
  | true => rw [adornment?_eq_none hBlank] at h; cases h

/-- A title is text above an adornment, and its level is in the table. -/
theorem of_titleLevel? {level : Nat} (h : titleLevel? lines i = some level) :
    isText lines[i]? = true ∧ ∃ under, adornment? lines[i + 1]? = some under ∧
      (under, adornment? (above? lines i) == some under, level) ∈ levels := by
  rw [titleLevel?_eq, levelOn?] at h
  split at h
  · next hText =>
      refine ⟨hText, ?_⟩
      unfold levelBetween? at h
      split at h
      · cases h
      · next under hUnder =>
          obtain ⟨e, hFind, rfl⟩ := Option.map_eq_some_iff.mp h
          have hFits := List.find?_some hFind
          rw [Bool.and_eq_true, beq_iff_eq, beq_iff_eq] at hFits
          have hEntry : (under, adornment? (above? lines i) == some under, e.2.2) = e :=
            Prod.ext hFits.1.symm (Prod.ext hFits.2.symm rfl)
          refine ⟨under, hUnder, ?_⟩
          rw [hEntry]
          exact List.mem_of_find?_eq_some hFind
  · cases h

/-! ## Adornments -/

theorem adornment?_of_isUnderline (h : isUnderline lines i = true) :
    ∃ c, adornment? lines[i]? = some c := by
  cases i with
  | zero => cases h
  | succ i =>
      obtain ⟨level, hLevel⟩ := Option.isSome_iff_exists.mp h
      obtain ⟨_, under, hUnder, _⟩ := of_titleLevel? hLevel
      exact ⟨under, hUnder⟩

/-- An overline is no underline: of an underline the title below it would see nothing. -/
theorem of_isOverline (h : isOverline lines i = true) :
    isUnderline lines i = false ∧ ∃ c, adornment? lines[i]? = some c := by
  rw [isOverline, Bool.and_eq_true, above?] at h
  cases hUnder : isUnderline lines i with
  | true => rw [hUnder] at h; cases h.2
  | false =>
      rw [hUnder] at h
      exact ⟨rfl, Option.isSome_iff_exists.mp h.2⟩

theorem isUnderline_of_isText (h : isText lines[i]? = true) : isUnderline lines i = false := by
  cases hUnder : isUnderline lines i with
  | false => rfl
  | true =>
      obtain ⟨c, hAdorns⟩ := adornment?_of_isUnderline hUnder
      rw [adornment?_of_isText h] at hAdorns
      cases hAdorns

/-- A transition is no underline: the title above it would not be blank. It is no overline: the
title below it would not be blank. -/
theorem of_isTransition (h : isTransition lines i = true) :
    isUnderline lines i = false ∧ isOverline lines i = false ∧
      ∃ c, adornment? lines[i]? = some c := by
  rw [isTransition, Bool.and_eq_true, Bool.and_eq_true] at h
  obtain ⟨⟨hAdorns, hAbove⟩, hBelow⟩ := h
  refine ⟨?_, ?_, Option.isSome_iff_exists.mp hAdorns⟩
  · cases i with
    | zero => rfl
    | succ i =>
        cases hUnder : isUnderline lines (i + 1) with
        | false => rfl
        | true =>
            obtain ⟨level, hLevel⟩ := Option.isSome_iff_exists.mp hUnder
            have hText := (of_titleLevel? hLevel).1
            rw [above?, isUnderline_of_isText hText] at hAbove
            exact absurd hAbove (by simp [isBlankLine_of_isText hText])
  · cases hOver : isOverline lines i with
    | false => rfl
    | true =>
        rw [isOverline, Bool.and_eq_true] at hOver
        obtain ⟨level, hLevel⟩ := Option.isSome_iff_exists.mp hOver.1
        have hText := isBlankLine_of_isText (of_titleLevel? hLevel).1
        rw [hBelow] at hText
        cases hText

theorem not_adorned_of_isText (h : isText lines[i]? = true) :
    isUnderline lines i = false ∧ isOverline lines i = false ∧ isTransition lines i = false := by
  have hNone := adornment?_of_isText h
  refine ⟨isUnderline_of_isText h, ?_, by simp [isTransition, hNone]⟩
  cases hOver : isOverline lines i with
  | false => rfl
  | true =>
      obtain ⟨c, hAdorns⟩ := (of_isOverline hOver).2
      rw [hNone] at hAdorns
      cases hAdorns

/-! ## The pass

When the pass has come to some line, the lines before it are what they become in the end, except
that the last of them may still turn out to be the overline of a title. -/

/-- What has become of the line at an index once the pass is over the first `n` lines. -/
def titledUpTo (lines : List Line) (n i : Nat) (l : Line) : Line :=
  if isUnderline lines i || (isOverline lines i && decide (i + 1 < n)) || isTransition lines i then
    l.eraseAll
  else withLevel (titleLevel? lines i) l

/-- Where the pass is: over some lines, the last of which is no title. -/
structure Passed (lines before done : List Line) : Prop where
  done_eq : done = (before.mapIdx (titledUpTo lines before.length)).reverse
  free : isUnderline lines before.length = false

theorem titledUpTo_succ {n : Nat} (l : Line) (h : i + 1 = n → isOverline lines i = false) :
    titledUpTo lines (n + 1) i l = titledUpTo lines n i l := by
  by_cases hLast : i + 1 = n
  · simp only [titledUpTo, h hLast, Bool.false_and]
  · have hBound : decide (i + 1 < n + 1) = decide (i + 1 < n) := by
      rw [decide_eq_decide]
      omega
    rw [titledUpTo, titledUpTo, hBound]

theorem titledUpTo_length (l : Line) (h : i < lines.length) :
    titledUpTo lines lines.length i l = titled lines i l := by
  by_cases hLast : i + 1 < lines.length
  · simp only [titledUpTo, titled, hLast, decide_true, Bool.and_true]
  · have hNone : lines[i + 1]? = none := List.getElem?_eq_none (by omega)
    have hOver : isOverline lines i = false := by
      rw [isOverline, titleLevel?_eq, hNone]
      rfl
    simp only [titledUpTo, titled, hOver, Bool.false_and]

/-- The line that the pass has just left, when the next one is not blank. -/
theorem titledUpTo_last (l : Line) (hFree : titleLevel? lines i = none)
    (hSeen : isBlankLine lines[i + 1]? = false) :
    titledUpTo lines (i + 1) i l = if isUnderline lines i then l.eraseAll else l := by
  have hTransition : isTransition lines i = false := by
    rw [isTransition, hSeen, Bool.and_false]
  have hLast : decide (i + 1 < i + 1) = false := decide_eq_false (Nat.lt_irrefl _)
  rw [titledUpTo, hTransition, hLast, hFree, Bool.and_false, Bool.or_false, Bool.or_false]
  rfl

end

namespace Passed

variable {lines before done : List Line}

theorem getElem?_here {l : Line} {rest : List Line} (hLines : lines = before ++ l :: rest) :
    lines[before.length]? = some l := by
  rw [hLines, List.getElem?_append_right (Nat.le_refl _), Nat.sub_self, List.getElem?_cons_zero]

theorem getElem?_below {l : Line} {rest : List Line} (hLines : lines = before ++ l :: rest) :
    lines[before.length + 1]? = rest.head? := by
  rw [hLines, List.getElem?_append_right (Nat.le_add_right _ _), Nat.add_sub_cancel_left,
    List.getElem?_cons_succ, List.head?_eq_getElem?]

theorem free_concat {x : Line} (h : Passed lines (before ++ [x]) done) :
    titleLevel? lines before.length = none := by
  have hFree := h.free
  rw [List.length_append] at hFree
  exact Option.not_isSome_iff_eq_none.mp (by simpa [isUnderline] using hFree)

/-- The last line passed, when the next one is not blank. -/
theorem done_concat {x : Line} (h : Passed lines (before ++ [x]) done)
    (hSeen : isBlankLine lines[before.length + 1]? = false) :
    done = (if isUnderline lines before.length then x.eraseAll else x) ::
      (before.mapIdx (titledUpTo lines (before.length + 1))).reverse := by
  rw [h.done_eq, List.length_append, List.length_singleton, List.mapIdx_concat,
    List.reverse_append, List.reverse_singleton, List.singleton_append,
    titledUpTo_last x h.free_concat hSeen]

/-- A line that is not blank sees of the line above what a title sees of it. -/
theorem head?_seen {l : Line} {rest : List Line} (h : Passed lines before done)
    (hLines : lines = before ++ l :: rest) (hSeen : isBlankLine (some l) = false) :
    isBlankLine done.head? = isBlankLine (above? lines before.length) ∧
      adornment? done.head? = adornment? (above? lines before.length) := by
  rcases List.eq_nil_or_concat before with rfl | ⟨front, x, rfl⟩
  · rw [h.done_eq]
    exact ⟨rfl, rfl⟩
  · rw [List.concat_eq_append] at *
    have hNext : lines[front.length + 1]? = some l := by
      rw [hLines]
      simp
    have hLast : lines[front.length]? = some x := by
      rw [hLines]
      simp
    rw [h.done_concat (hNext ▸ hSeen), List.head?_cons, List.length_append, List.length_singleton,
      above?, hLast]
    cases hUnder : isUnderline lines front.length with
    | false => exact ⟨rfl, rfl⟩
    | true =>
        have hBlank : isBlankLine (some x.eraseAll) = true := rfl
        exact ⟨hBlank, adornment?_eq_none hBlank⟩

/-- The pass goes on by a line that is no title. -/
theorem keep {l : Line} (h : Passed lines before done)
    (hNone : titleLevel? lines before.length = none) :
    Passed lines (before ++ [l])
      ((if isTransition lines before.length then l.eraseAll else l) :: done) where
  done_eq := by
    have hBefore : before.mapIdx (titledUpTo lines (before.length + 1)) =
        before.mapIdx (titledUpTo lines before.length) := by
      refine List.mapIdx_eq_mapIdx_iff.mpr fun i hi => titledUpTo_succ _ fun hLast => ?_
      rw [isOverline, hLast, hNone]
      rfl
    have hLast : titledUpTo lines (before.length + 1) before.length l =
        if isTransition lines before.length then l.eraseAll else l := by
      have hEnd : decide (before.length + 1 < before.length + 1) = false :=
        decide_eq_false (Nat.lt_irrefl _)
      rw [titledUpTo, h.free, hEnd, hNone, Bool.and_false]
      rfl
    rw [List.length_append, List.length_singleton, List.mapIdx_concat, List.reverse_append,
      List.reverse_singleton, List.singleton_append, hBefore, hLast, h.done_eq]
  free := by
    rw [List.length_append, List.length_singleton, isUnderline, hNone]
    rfl

/-- The lines passed once a title has erased the adornment above it. -/
theorem erase_above {l : Line} {rest : List Line} (h : Passed lines before done)
    (hLines : lines = before ++ l :: rest) (hTitle : (titleLevel? lines before.length).isSome) :
    (if (adornment? done.head?).isSome then (done.take 1).map Line.eraseAll ++ done.drop 1
      else done) = (before.mapIdx (titledUpTo lines (before.length + 1))).reverse := by
  obtain ⟨level, hLevel⟩ := Option.isSome_iff_exists.mp hTitle
  have hText := (of_titleLevel? hLevel).1
  have hHere := getElem?_here hLines
  have hSeen := isBlankLine_of_isText hText
  rw [(h.head?_seen hLines (hHere ▸ hSeen)).2]
  rcases List.eq_nil_or_concat before with rfl | ⟨front, x, rfl⟩
  · rw [h.done_eq]
    rfl
  · rw [List.concat_eq_append] at *
    rw [List.length_append, List.length_singleton] at *
    have hOver : isOverline lines front.length =
        (adornment? (above? lines (front.length + 1))).isSome := by
      rw [isOverline, hTitle, Bool.true_and]
    have hFront : front.mapIdx (titledUpTo lines (front.length + 1 + 1)) =
        front.mapIdx (titledUpTo lines (front.length + 1)) :=
      List.mapIdx_eq_mapIdx_iff.mpr fun i hi => titledUpTo_succ _ fun hLast => by omega
    have hDone := h.done_concat hSeen
    rw [List.mapIdx_concat, List.reverse_append, List.reverse_singleton, List.singleton_append,
      hFront, ← hOver]
    cases hCase : isOverline lines front.length with
    | false =>
        rw [titledUpTo_succ x fun _ => hCase, titledUpTo_last x h.free_concat hSeen, hDone]
        rfl
    | true =>
        have hErased : titledUpTo lines (front.length + 1 + 1) front.length x = x.eraseAll := by
          have hBound : decide (front.length + 1 < front.length + 1 + 1) = true :=
            decide_eq_true (Nat.lt_succ_self _)
          rw [titledUpTo, hCase, hBound, Bool.and_true, Bool.or_true, Bool.true_or]
          rfl
        rw [hErased, hDone, (of_isOverline hCase).1]
        rfl

/-- The pass goes on by a title and its underline. -/
theorem title {l next : Line} {rest : List Line} {level : Nat} (h : Passed lines before done)
    (hLines : lines = before ++ l :: next :: rest)
    (hLevel : titleLevel? lines before.length = some level) :
    Passed lines (before ++ [l, next]) (next.eraseAll :: withLevel (some level) l ::
      if (adornment? done.head?).isSome then (done.take 1).map Line.eraseAll ++ done.drop 1
      else done) where
  done_eq := by
    have hBefore : before.mapIdx (titledUpTo lines (before.length + 2)) =
        before.mapIdx (titledUpTo lines (before.length + 1)) :=
      List.mapIdx_eq_mapIdx_iff.mpr fun i hi => titledUpTo_succ _ fun hLast => by omega
    have hNext : titledUpTo lines (before.length + 2) (before.length + 1) next =
        next.eraseAll := by
      rw [titledUpTo, isUnderline, hLevel]
      rfl
    have hTitle : titledUpTo lines (before.length + 2) before.length l =
        withLevel (some level) l := by
      obtain ⟨hUnder, hOver, hTransition⟩ := not_adorned_of_isText (of_titleLevel? hLevel).1
      rw [titledUpTo, hUnder, hOver, hTransition, hLevel]
      rfl
    have hEnd : before ++ [l, next] = before ++ [l] ++ [next] := by simp
    rw [h.erase_above hLines (by rw [hLevel]; rfl), hEnd, List.mapIdx_concat, List.mapIdx_concat,
      List.length_append, List.length_append, List.length_singleton, List.reverse_append,
      List.reverse_append]
    exact congrArg₂ List.cons hNext.symm
      (congrArg₂ List.cons hTitle.symm (congrArg List.reverse hBefore.symm))
  free := by
    rw [List.length_append]
    have hUnderline : isUnderline lines (before.length + 1) = true := by
      rw [isUnderline, hLevel]
      rfl
    cases hNext : isUnderline lines (before.length + 2) with
    | false => rfl
    | true =>
        obtain ⟨c, hAdorns⟩ := adornment?_of_isUnderline hUnderline
        obtain ⟨below, hBelow⟩ := Option.isSome_iff_exists.mp hNext
        rw [adornment?_of_isText (of_titleLevel? hBelow).1] at hAdorns
        cases hAdorns

/-- What the pass takes for a transition is one. -/
theorem transition_eq {l : Line} {rest : List Line} (h : Passed lines before done)
    (hLines : lines = before ++ l :: rest) :
    ((adornment? (some l)).isSome && isBlankLine done.head? && isBlankLine rest.head?) =
      isTransition lines before.length := by
  have hHere := getElem?_here hLines
  have hBelow := getElem?_below hLines
  rw [isTransition, hHere, hBelow]
  cases hAdorns : adornment? (some l) with
  | none => rfl
  | some c => rw [(h.head?_seen hLines (isBlankLine_of_adornment? hAdorns)).1]

/-- The level that the pass finds is the level of the title. -/
theorem levelBetween?_eq {l : Line} {rest : List Line} (h : Passed lines before done)
    (hLines : lines = before ++ l :: rest) (hText : isText (some l) = true) :
    levelBetween? done.head? rest.head? = titleLevel? lines before.length := by
  have hHere := getElem?_here hLines
  have hBelow := getElem?_below hLines
  rw [titleLevel?_eq, levelOn?, hHere, hBelow, if_pos hText]
  exact levelBetween?_congr (h.head?_seen hLines (isBlankLine_of_isText hText)).2 rfl

/-- The pass goes on by a line that is no text. -/
theorem pass {l : Line} {rest : List Line} (h : Passed lines before done)
    (hLines : lines = before ++ l :: rest)
    (hNone : isText (some l) = true → levelBetween? done.head? rest.head? = none) :
    Passed lines (before ++ [l])
      ((if (adornment? (some l)).isSome && isBlankLine done.head? && isBlankLine rest.head? then
        l.eraseAll else l) :: done) := by
  rw [h.transition_eq hLines]
  refine h.keep ?_
  cases hText : isText (some l) with
  | true => rw [← h.levelBetween?_eq hLines hText, hNone hText]
  | false =>
      have hHere := getElem?_here hLines
      rw [titleLevel?_eq, levelOn?, hHere, hText]
      rfl

/-- The pass is over. -/
theorem reverse_eq (h : Passed lines lines done) :
    done.reverse = lines.mapIdx (titled lines) := by
  rw [h.done_eq, List.reverse_reverse]
  exact List.mapIdx_eq_mapIdx_iff.mpr fun i hi => titledUpTo_length _ hi

end Passed

/-- The pass makes of each line what its neighbours make of it. -/
theorem markTitles_eq (lines done rest : List Line) :
    ∀ before, Passed lines before done → lines = before ++ rest →
      (markTitles done rest).1 = lines.mapIdx (titled lines) := by
  induction done, rest using markTitles.induct with
  | case1 done =>
      intro before h hLines
      rw [List.append_nil] at hLines
      subst hLines
      exact h.reverse_eq
  | case2 done l =>
      intro before h hLines
      have hLast := h.pass hLines fun _ => rfl
      have hEnd : isBlankLine ([] : List Line).head? = true := rfl
      rw [← hLines, hEnd, Bool.and_true] at hLast
      exact hLast.reverse_eq
  | case3 done l next rest previous following hSkip transition ih =>
      intro before h hLines
      rw [markTitles, if_pos hSkip]
      refine ih _ (h.pass hLines fun hText => ?_) (hLines.trans (List.append_cons ..))
      rw [isBlankLine_of_isText hText, adornment?_of_isText hText] at hSkip
      cases hSkip
  | case4 done l next rest previous following hSeen hNone ih =>
      intro before h hLines
      have hText := isText_of_not hSeen
      have hKept := h.pass hLines fun _ => hNone
      rw [adornment?_of_isText hText] at hKept
      rw [markTitles, if_neg hSeen]
      simp only [previous, following] at hNone
      simp only [hNone]
      exact ih _ hKept (hLines.trans (List.append_cons ..))
  | case5 done l next rest previous following hSeen level hLevel title above done' _ _ _ ih =>
      intro before h hLines
      have hText := isText_of_not hSeen
      have hTitle := (h.levelBetween?_eq hLines hText).symm.trans hLevel
      rw [markTitles, if_neg hSeen]
      simp only [previous, following] at hLevel
      simp only [hLevel]
      have hRest : lines = before ++ [l, next] ++ rest :=
        hLines.trans (List.append_assoc before [l, next] rest).symm
      exact ih _ (h.title hLines hTitle) hRest

/-- The titles and what adorns them can be told from their neighbours. -/
theorem titles_eq (lines : List Line) : (titles lines).1 = lines.mapIdx (titled lines) :=
  markTitles_eq lines [] lines [] ⟨rfl, rfl⟩ rfl

/-! ## What the pass erases and what it finds -/

/-- Two or more copies of an adornment mark, not indented. -/
structure IsAdornment (l : Line) : Prop where
  copies : ∃ c ∈ adornmentMarks, ∃ n, 2 ≤ n ∧ l.text = List.replicate n c
  unindented : l.indentation = 0

/-- Whether the line at index `i` is the underline or the overline of the title at index `k`. -/
def Adorns (lines : List Line) (i k : Nat) : Prop :=
  (titleLevel? lines k).isSome ∧
    (i = k + 1 ∨ k = i + 1 ∧ (adornment? (above? lines k)).isSome)

theorem isAdornment_of_repeated? {t : Text} {c : Char} (h : repeated? t = some c) :
    c ∈ adornmentMarks ∧ ∃ n, 2 ≤ n ∧ t = List.replicate n c := by
  unfold repeated? at h
  split at h
  · next first second rest =>
      split at h
      · next hAll =>
          cases h
          rw [Bool.and_eq_true, List.all_eq_true] at hAll
          refine ⟨List.contains_iff_mem.mp hAll.1, (second :: rest).length + 1, by simp, ?_⟩
          rw [List.replicate_succ]
          congr 1
          exact List.eq_replicate_of_mem fun d hMem => eq_of_beq (hAll.2 d hMem)
      · cases h
  · cases h

theorem isAdornment_of_adornment? {l : Line} {c : Char} (h : adornment? (some l) = some c) :
    IsAdornment l := by
  unfold adornment? at h
  split at h
  · cases h
  · next line hLine =>
      cases hLine
      split at h
      · cases h
      · next hSeen =>
          obtain ⟨hMem, hCopies⟩ := isAdornment_of_repeated? h
          refine ⟨⟨c, hMem, hCopies⟩, ?_⟩
          simp only [Bool.or_eq_true, decide_eq_true_eq, not_or] at hSeen
          omega

section

variable {lines : List Line} {i k : Nat}

theorem adorns_iff : Adorns lines i k ↔
    i = k + 1 ∧ isUnderline lines i = true ∨ k = i + 1 ∧ isOverline lines i = true := by
  constructor
  · rintro ⟨hTitle, rfl | ⟨rfl, hAbove⟩⟩
    · exact .inl ⟨rfl, hTitle⟩
    · exact .inr ⟨rfl, by rw [isOverline, hTitle, hAbove]; rfl⟩
  · rintro (⟨rfl, hUnder⟩ | ⟨rfl, hOver⟩)
    · exact ⟨hUnder, .inl rfl⟩
    · rw [isOverline, Bool.and_eq_true] at hOver
      exact ⟨hOver.1, .inr ⟨rfl, hOver.2⟩⟩

/-- A line that adorns a title adorns no other. -/
theorem existsUnique_adorns (h : isUnderline lines i = true ∨ isOverline lines i = true) :
    ∃! k, Adorns lines i k := by
  by_cases hUnder : isUnderline lines i = true
  · cases i with
    | zero => cases hUnder
    | succ i =>
        refine ⟨i, adorns_iff.mpr (.inl ⟨rfl, hUnder⟩), fun k hAdorns => ?_⟩
        rcases adorns_iff.mp hAdorns with ⟨hBelow, -⟩ | ⟨-, hOver⟩
        · omega
        · rw [(of_isOverline hOver).1] at hUnder
          cases hUnder
  · have hOver := h.resolve_left hUnder
    refine ⟨i + 1, adorns_iff.mpr (.inr ⟨rfl, hOver⟩), fun k hAdorns => ?_⟩
    rcases adorns_iff.mp hAdorns with ⟨-, hUnderline⟩ | ⟨hBelow, -⟩
    · exact absurd hUnderline hUnder
    · exact hBelow

theorem withLevel_erased (level : Option Nat) (l : Line) :
    (withLevel level l).erased = l.erased := by
  unfold withLevel
  split
  · rfl
  · split <;> rfl

end

/-- A line `l` at index `i` that the pass has made a title `m`: text above an erased adornment.
Its level is that of the underline with or without an equal line above, which does not count
when it is the underline of another title. -/
structure IsTitle (lines : List Line) (i : Nat) (l m : Line) : Prop where
  text : isText (some l) = true
  kept : m.erased = false
  same : m = { l with sectionLevel := m.sectionLevel }
  underlined : ∃ below under, lines[i + 1]? = some below ∧ adornment? (some below) = some under ∧
    (titles lines).1[i + 1]? = some below.eraseAll ∧
    (under, adornment? (above? lines i) == some under, m.sectionLevel) ∈ levels

section

variable {lines : List Line} {i : Nat} {l m : Line}

theorem titled_of_titles (hLine : lines[i]? = some l) (hOut : (titles lines).1[i]? = some m) :
    m = titled lines i l := by
  rw [titles_eq, List.getElem?_mapIdx, hLine] at hOut
  exact (Option.some.inj hOut).symm

/-- The pass erases adornments only. -/
theorem adorns_of_erased (hSeen : l.erased = false) (h : (titled lines i l).erased = true) :
    isUnderline lines i = true ∨ isOverline lines i = true ∨ isTransition lines i = true := by
  rw [titled] at h
  split at h
  · next hAdorns => simpa [or_assoc] using hAdorns
  · rw [withLevel_erased, hSeen] at h
    cases h

/-- The underline of a title is erased. -/
theorem titles_underline {below : Line} (hTitle : (titleLevel? lines i).isSome)
    (hBelow : lines[i + 1]? = some below) :
    (titles lines).1[i + 1]? = some below.eraseAll := by
  have hUnder : isUnderline lines (i + 1) = true := hTitle
  rw [titles_eq, List.getElem?_mapIdx, hBelow, Option.map_some, titled, hUnder]
  rfl

/-- Only titles get a level. -/
theorem titled_of_level (hPlain : l.sectionLevel = 0)
    (h : 0 < (titled lines i l).sectionLevel) :
    ∃ level, titleLevel? lines i = some level ∧
      titled lines i l = { l with sectionLevel := level } := by
  unfold titled at h ⊢
  split at h
  · have hSame : l.eraseAll.sectionLevel = l.sectionLevel := rfl
    omega
  · next hSurvives =>
      rw [if_neg hSurvives]
      cases hLevel : titleLevel? lines i with
      | none =>
          rw [hLevel, withLevel] at h
          omega
      | some level =>
          rw [hLevel, withLevel] at h
          split at h
          · next hPos => exact ⟨level, rfl, if_pos hPos⟩
          · omega

theorem isTitle_of_level (hLine : lines[i]? = some l) (hPlain : l.sectionLevel = 0)
    (h : 0 < (titled lines i l).sectionLevel) : IsTitle lines i l (titled lines i l) := by
  obtain ⟨level, hLevel, hTitled⟩ := titled_of_level hPlain h
  obtain ⟨hText, under, hUnder, hMem⟩ := of_titleLevel? hLevel
  rw [hLine] at hText
  rw [hTitled]
  cases hBelow : lines[i + 1]? with
  | none =>
      rw [hBelow] at hUnder
      cases hUnder
  | some below =>
      rw [hBelow] at hUnder
      have hKept := isBlankLine_of_isText hText
      rw [isBlankLine, Bool.or_eq_false_iff] at hKept
      exact ⟨hText, hKept.1, rfl, below, under, hBelow, hUnder,
        titles_underline (by rw [hLevel]; rfl) hBelow, hMem⟩

/-- The pass over the titles erases adornments and no text. Each line that it erases is a
transition and adorns no title, or it adorns exactly one title: no underline is the overline of
the title below. Each line that it gives a level is a title, and has the level of its
adornment. -/
theorem titles_adorned (hLine : lines[i]? = some l) (hOut : (titles lines).1[i]? = some m) :
    (l.erased = false → m.erased = true → IsAdornment l ∧ isText (some l) = false ∧
      ((isTransition lines i = true ∧ ∀ k, ¬Adorns lines i k) ∨
        (isTransition lines i = false ∧ ∃! k, Adorns lines i k))) ∧
    (l.sectionLevel = 0 → 0 < m.sectionLevel → IsTitle lines i l m) := by
  rw [titled_of_titles hLine hOut]
  refine ⟨fun hSeen hErased => ?_, isTitle_of_level hLine⟩
  have hCases := adorns_of_erased hSeen hErased
  have hAdorned : ∃ c, adornment? (some l) = some c := by
    rw [← hLine]
    rcases hCases with hUnder | hOver | hTransition
    · exact adornment?_of_isUnderline hUnder
    · exact (of_isOverline hOver).2
    · exact (of_isTransition hTransition).2.2
  obtain ⟨c, hAdornment⟩ := hAdorned
  have hNoText : isText (some l) = false := by
    rw [isText, hAdornment]
    exact Bool.and_false _
  refine ⟨isAdornment_of_adornment? hAdornment, hNoText, ?_⟩
  cases hTransition : isTransition lines i with
  | false =>
      refine .inr ⟨rfl, existsUnique_adorns ?_⟩
      rcases hCases with hUnder | hOver | hTrue
      · exact .inl hUnder
      · exact .inr hOver
      · rw [hTransition] at hTrue
        cases hTrue
  | true =>
      obtain ⟨hUnder, hOver, -⟩ := of_isTransition hTransition
      refine .inl ⟨rfl, fun k hAdorns => ?_⟩
      rcases adorns_iff.mp hAdorns with ⟨-, h⟩ | ⟨-, h⟩
      · rw [hUnder] at h
        cases h
      · rw [hOver] at h
        cases h

end

/-- Two titles in a row. The underline of the first is no overline of the second, which has the
level of its underline alone. -/
def stacked : List Line :=
  Line.ofTexts true ["A".toList, "===".toList, "B".toList, "===".toList]

theorem titles_adorned_stacked :
    (∃! k, Adorns stacked 1 k) ∧
      IsTitle stacked 2 (.ofText 3 true "B".toList)
        { Line.ofText 3 true "B".toList with sectionLevel := 4 } := by
  have hLine : stacked[1]? = some (.ofText 2 true "===".toList) := by decide
  have hOut : (titles stacked).1[1]? = some (Line.ofText 2 true "===".toList).eraseAll := by decide
  have hFirst := (titles_adorned hLine hOut).1 rfl rfl
  have hLine : stacked[2]? = some (.ofText 3 true "B".toList) := by decide
  have hOut : (titles stacked).1[2]? =
      some { Line.ofText 3 true "B".toList with sectionLevel := 4 } := by decide
  have hSecond := (titles_adorned hLine hOut).2 rfl (by decide)
  refine ⟨?_, hSecond⟩
  rcases hFirst.2.2 with ⟨hTransition, -⟩ | ⟨-, hUnique⟩
  · exact absurd hTransition (by decide)
  · exact hUnique

end ProseLint.Rest
