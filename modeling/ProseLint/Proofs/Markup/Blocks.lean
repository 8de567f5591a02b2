import ProseLint.Proofs.Markup.Documents
import Mathlib.Data.List.Pairwise

/-! Sentences and the blocks of Markdown. Blocks leave marks on single lines, and the lines are
joined by these marks alone. A quote leaves no mark, so a paragraph and a quote below it can come
into one sentence when they touch; everything else that stands between two blocks keeps them
apart. -/

namespace ProseLint

namespace CommonMark.Block

/-- The block stands on a line, counted from 0. -/
def StandsOn (b : Block) (k : Nat) : Prop :=
  ∃ first stop, b.lines = some (first, stop) ∧ first ≤ k ∧ k < stop

/-- The line, counted from 0, is the first one of the block. -/
def StartsOn (b : Block) (k : Nat) : Prop := ∃ stop, b.lines = some (k, stop) ∧ k < stop

end CommonMark.Block

/-! ## Groups of lines -/

namespace Layout.Group

variable {lines : List Line} (hRead : Line.AreRead lines)
variable (hNumbered : ∀ (n : Nat) (l : Line), lines[n]? = some l → l.number = n + 1)
variable {g : Group} (hGroup : g ∈ groups false lines)
variable {upper lower : Line} (hUpper : upper ∈ g.lines) (hLower : lower ∈ g.lines)

include hRead hGroup hUpper hLower in
theorem takes_of_lt (hLt : upper.number < lower.number) : g.role.takes lower = true := by
  obtain ⟨_, first, rest, _, hLines, hTakes⟩ := groups_takes hGroup
  have hNumbers := hRead.numbers.sublist (mem_groups hGroup).1.sublist
  rw [hLines] at hNumbers hUpper hLower
  rcases List.mem_cons.mp hLower with rfl | hLater
  · -- nothing of the group stands above its first line
    rcases List.mem_cons.mp hUpper with rfl | hBelow
    · omega
    · have hAfter := (List.pairwise_cons.mp hNumbers).1 upper hBelow
      omega
  · exact hTakes lower hLater

include hRead hGroup hUpper hLower in
theorem sectionLevel_eq_zero (hLt : upper.number < lower.number) : upper.sectionLevel = 0 := by
  obtain ⟨_, first, rest, hRole, hLines, hTakes⟩ := groups_takes hGroup
  have hLast := takes_of_lt hRead hGroup hUpper hLower hLt
  rw [hLines] at hUpper
  rcases List.mem_cons.mp hUpper with rfl | hLater
  · exact Role.of_takes (hRole ▸ hLast)
  · exact Role.takes_sectionLevel (hTakes upper hLater)

include hRead hNumbered hGroup hUpper hLower in
/-- From one line of a group to another one, all lines are in the group. -/
theorem exists_line_at {k : Nat} (hFrom : upper.number ≤ k + 1) (hTo : k + 1 ≤ lower.number) :
    ∃ l ∈ g.lines, lines[k]? = some l := by
  have hAt : ∀ l ∈ g.lines, l.number = k + 1 → lines[k]? = some l := fun l hLine hNumber => by
    obtain ⟨n, hIs⟩ := List.getElem?_of_mem ((mem_groups hGroup).1.subset hLine)
    obtain rfl : n = k := by
      have hSame := hNumbered n l hIs
      omega
    exact hIs
  obtain ⟨l, hLine, hNumber⟩ : ∃ l ∈ g.lines, l.number = k + 1 := by
    rcases Nat.eq_or_lt_of_le hFrom with hSame | hBelow
    · exact ⟨upper, hUpper, hSame⟩
    rcases Nat.eq_or_lt_of_le hTo with hSame | hAbove
    · exact ⟨lower, hLower, hSame.symm⟩
    exact exists_line_between hRead hNumbered hGroup hUpper hLower hBelow hAbove
  exact ⟨l, hLine, hAt l hLine hNumber⟩

end Layout.Group

namespace Markdown

open CommonMark (Block)

/-! ## What a block leaves on its lines -/

theorem isEmpty_of_firstVisible? {l : Line} (h : firstVisible? l = none) : l.isEmpty = true := by
  rw [firstVisible?, List.findIdx?_eq_none_iff] at h
  refine List.all_eq_true.mpr fun c hCell => ?_
  have hHidden := h c hCell
  cases hKept : c.kept with
  | false => rfl
  | true =>
      cases hEscaped : c.escaped with
      | false => simpa [Cell.glyph, hKept, hEscaped] using hHidden
      | true =>
          -- an escaped character is never white space to markup
          have hShown : isBlank Cell.escapedGlyph = false := rfl
          simp [Cell.glyph, hKept, hEscaped, hShown] at hHidden

theorem changeSpan_at {ε : Type} {first stop : Nat} {f : List Line → Except ε (List Line)}
    {lines changed : List Line}
    (hLength : ∀ part done, f part = .ok done → part.length = done.length)
    (h : changeSpan (some (first, stop)) f lines = .ok changed) {k : Nat} (hFrom : first ≤ k)
    (hTo : k < stop) {m : Line} (hLine : changed[k]? = some m) :
    ∃ part, f ((lines.take stop).drop first) = .ok part ∧ part[k - first]? = some m := by
  obtain ⟨part, hPart, rfl⟩ := changeSpan_eq h
  have hSame := hLength _ _ hPart
  rw [List.length_drop, List.length_take] at hSame
  have hLt : k < lines.length := by
    have hInside := (List.getElem?_eq_some_iff.mp hLine).1
    simp only [List.length_append, List.length_take, List.length_drop] at hInside
    omega
  have hBefore : (lines.take first).length = first := by
    rw [List.length_take]
    omega
  refine ⟨part, hPart, ?_⟩
  rwa [List.append_assoc, List.getElem?_append_right (by omega), hBefore,
    List.getElem?_append_left (by omega)] at hLine

/-- A line that a block stands on, after what the block does to its lines. -/
theorem change_at {s t : State} {b : Block} {f : List Line → Except BlockFault (List Line)}
    (hLength : ∀ part done, f part = .ok done → part.length = done.length)
    (h : s.change b f = .ok t) {first stop k : Nat} (hSpan : b.lines = some (first, stop))
    (hFrom : first ≤ k) (hTo : k < stop) {m : Line} (hLine : t.lines[k]? = some m) :
    ∃ part done, f part = .ok done ∧ done[k - first]? = some m := by
  unfold State.change at h
  rw [hSpan] at h
  cases hChanged : changeSpan (some (first, stop)) f s.lines with
  | error fault => simp [hChanged, Except.map] at h
  | ok lines =>
      simp only [hChanged, Except.map, Except.ok.injEq] at h
      subst h
      obtain ⟨done, hDone, hAt⟩ := changeSpan_at hLength hChanged hFrom hTo hLine
      exact ⟨_, done, hDone, hAt⟩

section Passing

variable {s t : State} {b : Block} (hPass : s.pass b = .ok t)
variable {k : Nat} {m : Line} (hLine : t.lines[k]? = some m)

include hPass hLine

/-- The first line of an item starts a list item, unless nothing is left of it. -/
theorem pass_item {mark : Text} (hKind : b.kind = .item mark) (hStart : b.StartsOn k) :
    m.listStart = true ∨ m.isEmpty = true := by
  obtain ⟨stop, hSpan, hLt⟩ := hStart
  simp only [State.pass, hKind] at hPass
  have hLength : ∀ part, part.length = (markItem s.depth mark part).length := fun part =>
    (markItem_changes trivial s.depth mark part : AllChange (fun _ => True) True _ _).length_eq
  obtain ⟨part, done, hDone, hAt⟩ := change_at (fun part done hDone => by
    cases hDone
    exact hLength part) hPass hSpan (Nat.le_refl k) hLt hLine
  cases hDone
  rw [Nat.sub_self] at hAt
  cases part with
  | nil => simp [markItem] at hAt
  | cons first rest =>
      cases hVisible : firstVisible? first with
      | none =>
          simp only [markItem, hVisible, List.getElem?_cons_zero, Option.some_inj] at hAt
          exact Or.inr (hAt ▸ isEmpty_of_firstVisible? hVisible)
      | some start =>
          simp only [markItem, hVisible, List.getElem?_cons_zero, Option.some_inj] at hAt
          exact Or.inl (hAt ▸ rfl)

/-- Nothing is left of the lines of a block without prose. -/
theorem pass_noProse (hKind : b.kind = .noProse) (hOn : b.StandsOn k) : m.isEmpty = true := by
  obtain ⟨first, stop, hSpan, hFrom, hTo⟩ := hOn
  simp only [State.pass, hKind] at hPass
  obtain ⟨part, done, hDone, hAt⟩ := change_at (fun part done hDone => by
    cases hDone
    rw [List.length_map]) hPass hSpan hFrom hTo hLine
  cases hDone
  rw [List.getElem?_map] at hAt
  obtain ⟨l, _, rfl⟩ := Option.map_eq_some_iff.mp hAt
  exact Line.isEmpty_eraseAll l

/-- The first line of a heading has its level. -/
theorem pass_heading {tag mark : Text} (hKind : b.kind = .heading tag mark)
    (hStart : b.StartsOn k) : levelOf tag = .ok m.sectionLevel := by
  obtain ⟨stop, hSpan, hLt⟩ := hStart
  simp only [State.pass, hKind] at hPass
  have hLength : ∀ part done, markHeading tag mark part = .ok done →
      part.length = done.length := fun part done hDone =>
    (markHeading_changes (fun _ _ => trivial) hDone : AllChange (fun _ => True) True _ _).length_eq
  obtain ⟨part, done, hDone, hAt⟩ := change_at hLength hPass hSpan (Nat.le_refl k) hLt hLine
  rw [Nat.sub_self] at hAt
  cases part with
  | nil =>
      cases hDone
      cases hAt
  | cons title rest =>
      cases hTag : levelOf tag with
      | error fault => simp [markHeading, hTag, bind, Except.bind] at hDone
      | ok level =>
          simp only [markHeading, hTag, bind, Except.bind, pure, Except.pure] at hDone
          split at hDone
          · cases hDone
            cases hAt
            rfl
          · split at hDone
            · cases hDone
              cases hAt
              rfl
            · cases hDone
              cases hAt
              rfl

end Passing

/-! ## What is there in the end -/

theorem AllChange.at {levels : Nat → Prop} {items : Prop} {lines done : List Line}
    (h : AllChange levels items lines done) {k : Nat} {m : Line} (hLine : done[k]? = some m) :
    ∃ l, lines[k]? = some l ∧ Changes levels items l m := by
  obtain ⟨hLt, rfl⟩ := List.getElem?_eq_some_iff.mp hLine
  have hLine' : k < lines.length := h.length_eq ▸ hLt
  exact ⟨lines[k], List.getElem?_eq_getElem hLine', h.get hLine' hLt⟩

/-- Every block has had its turn, and only small changes have come after it. -/
theorem foldlM_pass_after {s t : State} {blocks passed : List Block}
    (hPassed : ∀ b ∈ passed, b ∈ blocks) (h : passed.foldlM State.pass s = .ok t) {b : Block}
    (hBlock : b ∈ passed) :
    ∃ before after : State, before.pass b = .ok after ∧
      AllChange (HeadingLevel blocks) True after.lines t.lines := by
  induction passed generalizing s with
  | nil => cases hBlock
  | cons a rest ih =>
      obtain ⟨_, hRest⟩ := List.forall_mem_cons.mp hPassed
      obtain ⟨next, hPass, hOthers⟩ := foldlM_cons_eq_ok.mp h
      rcases List.mem_cons.mp hBlock with rfl | hLater
      · exact ⟨s, next, hPass, foldlM_pass_changes hRest hOthers⟩
      · exact ih hRest hOthers hLater

section Classified

variable {blocks : List Block} {lines : List Line} {c : Classified}
variable (hClassify : classify blocks lines = .ok c)

include hClassify

theorem classify_after {b : Block} (hBlock : b ∈ blocks) :
    ∃ before after : State, before.pass b = .ok after ∧
      AllChange (HeadingLevel blocks) True after.lines c.lines := by
  obtain ⟨s, hFold, hLines⟩ := exists_of_classify hClassify
  obtain ⟨before, after, hPass, hAfter⟩ := foldlM_pass_after (fun _ hMem => hMem) hFold hBlock
  exact ⟨before, after, hPass, hLines ▸ hAfter.trans (eraseUncovered_changes blocks s.lines)⟩

/-- A property that a block gives to a line and that no small change takes away is there in the
end. -/
theorem classify_keeps {P : Line → Prop}
    (hStep : ∀ {l m}, Change (HeadingLevel blocks) True l m → P l → P m) {b : Block}
    (hBlock : b ∈ blocks) {k : Nat}
    (hGiven : ∀ {s t : State}, s.pass b = .ok t → ∀ {m}, t.lines[k]? = some m → P m)
    {m : Line} (hLine : c.lines[k]? = some m) : P m := by
  obtain ⟨before, after, hPass, hAfter⟩ := classify_after hClassify hBlock
  obtain ⟨l, hThen, hChanges⟩ := hAfter.at hLine
  exact hChanges.induction hStep (hGiven hPass hThen)

variable {k : Nat} {m : Line} (hLine : c.lines[k]? = some m)

include hLine

theorem listStart_of_item {b : Block} (hBlock : b ∈ blocks) {mark : Text}
    (hKind : b.kind = .item mark) (hStart : b.StartsOn k) :
    m.listStart = true ∨ m.isEmpty = true :=
  classify_keeps hClassify (P := fun m => m.listStart = true ∨ m.isEmpty = true)
    (fun hStep h => h.imp hStep.listStart hStep.isEmpty) hBlock
    (fun hPass _ hThen => pass_item hPass hThen hKind hStart) hLine

theorem isEmpty_of_noProse {b : Block} (hBlock : b ∈ blocks) (hKind : b.kind = .noProse)
    (hOn : b.StandsOn k) : m.isEmpty = true :=
  classify_keeps hClassify (P := fun m => m.isEmpty = true) (fun hStep h => hStep.isEmpty h) hBlock
    (fun hPass _ hThen => pass_noProse hPass hThen hKind hOn) hLine

theorem sectionLevel_pos_of_heading (hLevels : ∀ n, HeadingLevel blocks n → 0 < n) {b : Block}
    (hBlock : b ∈ blocks) {tag mark : Text} (hKind : b.kind = .heading tag mark)
    (hStart : b.StartsOn k) : 0 < m.sectionLevel :=
  classify_keeps hClassify (P := fun m => 0 < m.sectionLevel)
    (fun hStep h => hStep.sectionLevel_pos hLevels h) hBlock
    (fun hPass _ hThen =>
      hLevels _ ⟨b, hBlock, tag, mark, hKind, pass_heading hPass hThen hKind hStart⟩)
    hLine

theorem isEmpty_of_blank {l : Line} (hSource : lines[k]? = some l) (hBlank : l.isEmpty = true) :
    m.isEmpty = true := by
  obtain ⟨l', hStart, hChanges⟩ := (classify_changes hClassify).at hLine
  obtain rfl : l = l' := Option.some_inj.mp (hSource.symm.trans hStart)
  exact hChanges.induction (fun hStep h => hStep.isEmpty h) hBlank

theorem exists_block_or_isEmpty : (∃ b ∈ blocks, b.StandsOn k) ∨ m.isEmpty = true := by
  obtain ⟨s, -, hErased⟩ := exists_of_classify hClassify
  rw [hErased, eraseUncovered, List.getElem?_mapIdx] at hLine
  obtain ⟨l, _, rfl⟩ := Option.map_eq_some_iff.mp hLine
  split
  · next hCovered =>
      refine Or.inl ?_
      obtain ⟨b, hBlock, hStands⟩ := List.any_eq_true.mp hCovered
      cases hSpan : b.lines with
      | none => simp [hSpan] at hStands
      | some span =>
          obtain ⟨first, stop⟩ := span
          simp only [hSpan, Bool.and_eq_true, decide_eq_true_eq] at hStands
          exact ⟨b, hBlock, first, stop, hSpan, hStands.1, hStands.2⟩
  · exact Or.inr (Line.isEmpty_eraseAll l)

end Classified

/-! ## Sentences -/

/-- The lines of the blocks that hold inline text. -/
def inlineSpans (blocks : List Block) : List (Nat × Nat) :=
  blocks.filterMap fun b => match b.kind with
    | .inlines _ => b.lines
    | _ => none

/-- No line is in both spans. -/
def Apart (u v : Nat × Nat) : Prop := ∀ k, ¬ ((u.1 ≤ k ∧ k < u.2) ∧ (v.1 ≤ k ∧ k < v.2))

instance : Std.Symm Apart := ⟨fun _ _ h k hBoth => h k ⟨hBoth.2, hBoth.1⟩⟩

/-- Some character of the sentence stands on a line of the span. Places count lines from 1. -/
def MeetsSpan (s : Sentence) (span : Nat × Nat) : Prop :=
  ∃ p ∈ s.positions, (span.1 : Int) < p.line ∧ p.line ≤ span.2

instance (s : Sentence) (span : Nat × Nat) : Decidable (MeetsSpan s span) :=
  inferInstanceAs (Decidable (∃ p ∈ s.positions, (span.1 : Int) < p.line ∧ p.line ≤ span.2))

/-- A line of a text goes on with prose: something is written there, some block stands on it, no
block without prose does, and no heading starts there. Headings of level 0 are no headings. -/
structure IsProse (blocks : List Block) (t : Text) (k : Nat) : Prop where
  isWritten : ∃ l, (Line.readAll true t)[k]? = some l ∧ l.isEmpty = false
  isCovered : ∃ b ∈ blocks, b.StandsOn k
  isKept : ∀ b ∈ blocks, b.kind = .noProse → ¬ b.StandsOn k
  noHeading : (∀ n, HeadingLevel blocks n → 0 < n) →
    ∀ b ∈ blocks, ∀ tag mark, b.kind = .heading tag mark → ¬ b.StartsOn k

/-- Two spans touch: from the last line of the upper one to the first line of the lower one all
is prose, no list item starts below the upper one, and all these lines are in one group, so that
in a list element those below the first one have its level. -/
structure Touch (blocks : List Block) (t : Text) (c : Classified) (upper lower : Nat × Nat) :
    Prop where
  isAbove : upper.2 ≤ lower.1
  isProse : ∀ k, upper.2 ≤ k + 1 → k ≤ lower.1 → IsProse blocks t k
  noItem : ∀ k, upper.2 ≤ k → k ≤ lower.1 →
    ∀ b ∈ blocks, ∀ mark, b.kind = .item mark → ¬ b.StartsOn k
  grouped : ∃ g ∈ Layout.groups false c.lines, ∀ k, upper.2 ≤ k + 1 → k ≤ lower.1 →
    ∃ l ∈ g.lines, c.lines[k]? = some l ∧ (upper.2 ≤ k → g.role.takes l = true)

section Sentences

variable {blocks : List Block} {t : Text} {c : Classified}
variable (hClassify : classify blocks (Line.readAll true t) = .ok c)

include hClassify

theorem isProse_of_line {k : Nat} {m : Line} (hLine : c.lines[k]? = some m)
    (hText : m.isEmpty = false) (hNoHeader : m.sectionLevel = 0) : IsProse blocks t k where
  isWritten := by
    obtain ⟨l, hSource, _⟩ := (classify_changes hClassify).at hLine
    refine ⟨l, hSource, ?_⟩
    by_contra hBlank
    have hEmpty := isEmpty_of_blank hClassify hLine hSource (by simpa using hBlank)
    rw [hText] at hEmpty
    cases hEmpty
  isCovered := by
    refine (exists_block_or_isEmpty hClassify hLine).resolve_right fun hEmpty => ?_
    rw [hText] at hEmpty
    cases hEmpty
  isKept := by
    intro b hBlock hKind hOn
    have hEmpty := isEmpty_of_noProse hClassify hLine hBlock hKind hOn
    rw [hText] at hEmpty
    cases hEmpty
  noHeading := by
    intro hLevels b hBlock tag mark hKind hStart
    have hHeader := sectionLevel_pos_of_heading hClassify hLine hLevels hBlock hKind hStart
    omega

/-- Lines of one group keep the spans that they are in together. -/
theorem touch_of_group {g : Layout.Group} (hGroup : g ∈ Layout.groups false c.lines)
    {u v : Nat × Nat} (hAbove : u.2 ≤ v.1) {upper lower : Line} (hInUpper : upper ∈ g.lines)
    (hInLower : lower ∈ g.lines) (hUpper : upper.number ≤ u.2) (hLower : v.1 < lower.number) :
    Touch blocks t c u v := by
  have hOrigin := classify_origin hClassify
  have hRead := Line.areRead_of_origin hOrigin
  have hNumbered : ∀ (n : Nat) (l : Line), c.lines[n]? = some l → l.number = n + 1 :=
    fun _ _ hLine => Line.number_of_origin hOrigin hLine
  have hText := (Layout.mem_groups hGroup).2.2
  have hLine : ∀ k, u.2 ≤ k + 1 → k ≤ v.1 → ∃ l ∈ g.lines, c.lines[k]? = some l :=
    fun k hFrom hTo => Layout.Group.exists_line_at hRead hNumbered hGroup hInUpper hInLower
      (by omega) (by omega)
  have hTakes : ∀ k l, u.2 ≤ k → l ∈ g.lines → c.lines[k]? = some l → g.role.takes l = true :=
    fun k l hFrom hIn hAt => by
      refine Layout.Group.takes_of_lt hRead hGroup hInUpper hIn ?_
      rw [hNumbered k l hAt]
      omega
  refine ⟨hAbove, fun k hFrom hTo => ?_, fun k hFrom hTo b hBlock mark hKind hStart => ?_,
    g, hGroup, fun k hFrom hTo => ?_⟩
  · obtain ⟨l, hIn, hAt⟩ := hLine k hFrom hTo
    refine isProse_of_line hClassify hAt (hText l hIn) ?_
    rcases Nat.lt_or_ge k u.2 with hLast | hBelow
    · refine Layout.Group.sectionLevel_eq_zero hRead hGroup hIn hInLower ?_
      rw [hNumbered k l hAt]
      omega
    · exact Layout.Role.takes_sectionLevel (hTakes k l hBelow hIn hAt)
  · obtain ⟨l, hIn, hAt⟩ := hLine k (by omega) hTo
    have hNoStart := Layout.Role.takes_listStart (hTakes k l hFrom hIn hAt)
    rcases listStart_of_item hClassify hAt hBlock hKind hStart with hStarts | hEmpty
    · rw [hNoStart] at hStarts
      cases hStarts
    · rw [hText l hIn] at hEmpty
      cases hEmpty
  · obtain ⟨l, hIn, hAt⟩ := hLine k hFrom hTo
    exact ⟨l, hIn, hAt, fun hBelow => hTakes k l hBelow hIn hAt⟩

/-- For every text and all blocks whose inline texts stand on lines of their own, a sentence
stays within one inline text, unless the sentence is on two that touch. A blank line, a line
without a block, a block without prose, a heading, a list item and the end of a list element all
keep inline texts apart. -/
theorem sentence_in_one_block (hDisjoint : (inlineSpans blocks).Pairwise Apart)
    {o : ReadOptions} {s : Sentence} (hMem : s ∈ (c.read o).document.sentences) {u v : Nat × Nat}
    (hu : u ∈ inlineSpans blocks) (hv : v ∈ inlineSpans blocks) (hOther : u ≠ v)
    (hMeetsU : MeetsSpan s u) (hMeetsV : MeetsSpan s v) :
    Touch blocks t c u v ∨ Touch blocks t c v u := by
  have hApart : Apart u v := hDisjoint.forall hu hv hOther
  obtain ⟨p, hp, hFirstU, hStopU⟩ := hMeetsU
  obtain ⟨q, hq, hFirstV, hStopV⟩ := hMeetsV
  obtain ⟨g, hGroup, cut, hFrom, rfl⟩ := Layout.mem_build_sentences hMem
  rw [Sentence.finish_positions] at hp hq
  obtain ⟨l, hInL, hL⟩ := Layout.Group.exists_line_of_mem hGroup hFrom hp
  obtain ⟨m, hInM, hM⟩ := Layout.Group.exists_line_of_mem hGroup hFrom hq
  rcases Nat.lt_or_ge v.1 u.2 with hOverlap | hAbove
  · refine Or.inr (touch_of_group hClassify hGroup ?_ hInM hInL (by omega) (by omega))
    by_contra hBoth
    exact hApart (max u.1 v.1) ⟨⟨by omega, by omega⟩, by omega, by omega⟩
  · exact Or.inl (touch_of_group hClassify hGroup hAbove hInL hInM (by omega) (by omega))

end Sentences

/-- A paragraph and a quote below it that touch come into one sentence. -/
theorem sentence_in_one_block_quote :
    let text := "One\n> two.".toList
    let blocks : List Block := [⟨.inlines [.text "One".toList], some (0, 1)⟩,
      ⟨.quote, some (1, 2)⟩, ⟨.inlines [.text "two.".toList], some (1, 2)⟩]
    ∃ c, classify blocks (Line.readAll true text) = .ok c ∧
      ∃ s ∈ (c.read ⟨.standard, none, none⟩).document.sentences, s.content = "One two.".toList ∧
        (Touch blocks text c (0, 1) (1, 2) ∨ Touch blocks text c (1, 2) (0, 1)) := by
  intro text blocks
  obtain ⟨c, hClassify, s, hMem, hContent, hUpper, hLower⟩ :
      ∃ c, classify blocks (Line.readAll true text) = .ok c ∧
        ∃ s ∈ (c.read ⟨.standard, none, none⟩).document.sentences, s.content = "One two.".toList ∧
          MeetsSpan s (0, 1) ∧ MeetsSpan s (1, 2) := ⟨_, rfl, by with_unfolding_all decide⟩
  have hApart : (inlineSpans blocks).Pairwise Apart := by
    refine List.pairwise_pair.mpr fun k => ?_
    omega
  exact ⟨c, hClassify, s, hMem, hContent,
    sentence_in_one_block hClassify hApart hMem (by decide) (by decide) (by decide) hUpper hLower⟩

/-- Not every sentence stays within one inline text. -/
theorem exists_sentence_in_two_blocks :
    let text := "One\n> two.".toList
    let blocks : List Block := [⟨.inlines [.text "One".toList], some (0, 1)⟩,
      ⟨.quote, some (1, 2)⟩, ⟨.inlines [.text "two.".toList], some (1, 2)⟩]
    inlineSpans blocks = [(0, 1), (1, 2)] ∧
      ∃ c, classify blocks (Line.readAll true text) = .ok c ∧
        ∃ s ∈ (c.read ⟨.standard, none, none⟩).document.sentences,
          MeetsSpan s (0, 1) ∧ MeetsSpan s (1, 2) :=
  ⟨rfl, _, rfl, by with_unfolding_all decide⟩

end Markdown

end ProseLint
