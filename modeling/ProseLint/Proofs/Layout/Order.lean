import ProseLint.Proofs.Layout.Conservation
import ProseLint.Proofs.Layout.Sections

/-! The order of places. In a sentence every character stands behind the one before it in the
source, also where lines are joined, since a separator has the place just past its line. A
section stands on lines that are all above those of the next one. -/

namespace ProseLint

namespace Position

theorem lt_of_line_lt {p q : Position} (h : p.line < q.line) : p.lt q = true := by
  simp [lt, h]

theorem le_of_lt {p q : Position} (h : p.lt q = true) : p.le q = true := by
  simp only [lt, le, Bool.or_eq_true, Bool.and_eq_true, decide_eq_true_eq, beq_iff_eq] at h ⊢
  omega

theorem le_refl (p : Position) : p.le p = true := by
  simp [le]

theorem line_le_of_lt {p q : Position} (h : p.lt q = true) : p.line ≤ q.line := by
  simp only [lt, Bool.or_eq_true, Bool.and_eq_true, decide_eq_true_eq, beq_iff_eq] at h
  omega

theorem lt_asymm {p q : Position} (h : p.lt q = true) : ¬ q.lt p = true := by
  simp only [lt, Bool.or_eq_true, Bool.and_eq_true, decide_eq_true_eq, beq_iff_eq] at h ⊢
  omega

end Position

/-- Every place stands before all those behind it. -/
def Rising (places : List Position) : Prop := places.Pairwise fun p q => p.lt q = true

/-- A place is not after another one that comes later. -/
theorem Rising.le {places : List Position} (h : Rising places) {i j : Nat} (hLe : i ≤ j)
    {p q : Position} (hp : places[i]? = some p) (hq : places[j]? = some q) : p.le q = true := by
  obtain ⟨hi, rfl⟩ := List.getElem?_eq_some_iff.mp hp
  obtain ⟨hj, rfl⟩ := List.getElem?_eq_some_iff.mp hq
  rcases Nat.eq_or_lt_of_le hLe with rfl | hLt
  · exact Position.le_refl _
  · exact Position.le_of_lt (List.pairwise_iff_getElem.mp h i j hi hj hLt)

/-- In a list in order, what stands between two items of a stretch is on the stretch. -/
theorem mem_of_isInfix_of_between {α : Type} {R : α → α → Prop} (hAsymm : ∀ a b, R a b → ¬ R b a)
    {part items : List α} (hPart : part <:+: items) (hOrder : items.Pairwise R) {a b c : α}
    (ha : a ∈ part) (hb : b ∈ items) (hc : c ∈ part) (hab : R a b) (hbc : R b c) : b ∈ part := by
  obtain ⟨before, behind, rfl⟩ := hPart
  obtain ⟨hFront, _, hBehind⟩ := List.pairwise_append.mp hOrder
  obtain ⟨_, _, hBefore⟩ := List.pairwise_append.mp hFront
  rcases List.mem_append.mp hb with hUpTo | hAfter
  · rcases List.mem_append.mp hUpTo with hFirst | hIn
    · exact (hAsymm a b hab (hBefore b hFirst a ha)).elim
    · exact hIn
  · exact (hAsymm b c hbc (hBehind c (List.mem_append_right before hc) b hAfter)).elim

namespace Line

theorem IsRead.offset_lt_endOffset {l : Line} (h : l.IsRead) {c : Cell} (hCell : c ∈ l.cells) :
    c.offset < l.endOffset := by
  obtain hNone | ⟨before, last, hCells⟩ := List.eq_nil_or_concat l.cells
  · rw [hNone] at hCell
    cases hCell
  · rw [List.concat_eq_append] at hCells
    have hRise := h.offsets_pairwise
    rw [hCells] at hRise hCell
    have hEnd : l.endOffset = last.offset + 1 := by simp [endOffset, hCells]
    rcases List.mem_append.mp hCell with hBefore | hLast
    · have hLt := (List.pairwise_append.mp hRise).2.2 c hBefore last (List.mem_singleton_self last)
      omega
    · rw [List.mem_singleton.mp hLast]
      omega

end Line

namespace Passage

/-- What is left on a line and the separator behind it, as they stand in a passage. -/
def ended (separator : Option Char) (l : Line) : List Glyph :=
  glyphsOf l ++ separatorAfter separator l

theorem line_of_mem_ended {separator : Option Char} {l : Line} {g : Glyph}
    (h : g ∈ ended separator l) : g.position.line = l.number := by
  rcases List.mem_append.mp h with hLeft | hGlue
  · obtain ⟨c, _, rfl⟩ := List.mem_map.mp hLeft
    rfl
  · cases separator with
    | none => cases hGlue
    | some c => rw [List.mem_singleton.mp hGlue]

theorem line_of_mem_joined {separator : Option Char} {lines : List Line} {g : Glyph}
    (h : g ∈ joined separator lines) : ∃ l ∈ lines, g.position.line = l.number := by
  rcases mem_joined h with ⟨l, hLine, hLeft⟩ | ⟨before, after, hInfix, hGlue⟩
  · have hEnded : g ∈ ended separator l := List.mem_append_left _ hLeft
    exact ⟨l, hLine, line_of_mem_ended hEnded⟩
  · exact ⟨before, hInfix.subset (by simp), line_of_mem_ended (List.mem_append_right _ hGlue)⟩

/-- The separator stands past everything on its line, erased characters included. -/
theorem ended_rising (separator : Option Char) {l : Line} (h : l.IsRead) :
    Rising ((ended separator l).map (·.position)) := by
  have hOffsets : (glyphsOf l).Pairwise fun g k => g.position.lt k.position = true := by
    rw [glyphsOf, List.pairwise_map]
    refine (h.offsets_pairwise.filter _).imp fun {c d} hLt => ?_
    simp [Position.lt, hLt]
  refine List.pairwise_map.mpr (List.pairwise_append.mpr ⟨hOffsets, ?_, fun g hLeft k hGlue => ?_⟩)
  · cases separator with
    | none => exact List.Pairwise.nil
    | some c => exact List.pairwise_singleton _ _
  · obtain ⟨c, hCell, rfl⟩ := List.mem_map.mp hLeft
    have hLt := h.offset_lt_endOffset (List.mem_filter.mp hCell).1
    cases separator with
    | none => cases hGlue
    | some mark =>
        rw [List.mem_singleton.mp hGlue]
        simp [Position.lt, hLt]

/-- The places of joined lines rise when the numbers of the lines do. -/
theorem joined_rising {separator : Option Char} {lines : List Line}
    (hRead : ∀ l ∈ lines, l.IsRead) (hNumbers : lines.Pairwise (·.number < ·.number)) :
    Rising ((joined separator lines).map (·.position)) := by
  induction lines using joined.induct with
  | case1 => exact List.Pairwise.nil
  | case2 l =>
      have hEnded := ended_rising none (hRead l List.mem_cons_self)
      rwa [ended, separatorAfter, List.append_nil] at hEnded
  | case3 l next rest ih =>
      obtain ⟨hFirst, hRest⟩ := List.pairwise_cons.mp hNumbers
      have hLater := ih (fun m hMem => hRead m (List.mem_cons_of_mem l hMem)) hRest
      have hEnded := ended_rising separator (hRead l List.mem_cons_self)
      rw [Rising, List.pairwise_map] at hLater hEnded ⊢
      rw [joined, ← List.append_assoc]
      -- Only the lines count here: the separator stands on the upper one, wherever that ends.
      refine List.pairwise_append.mpr ⟨hEnded, hLater, fun g hUpper k hLower => ?_⟩
      obtain ⟨m, hMem, hNumber⟩ := line_of_mem_joined hLower
      refine Position.lt_of_line_lt ?_
      rw [line_of_mem_ended hUpper, hNumber]
      exact Int.ofNat_lt.mpr (hFirst m hMem)

/-- The places of a sentence are consecutive ones of its passage. -/
theorem positions_isInfix {e : Extractor} {p : Passage} {s : Sentence} (h : s ∈ p.sentences e) :
    s.positions <:+: p.glyphs.map (·.position) := by
  obtain ⟨span, links, isFirst, _, rfl⟩ := mem_sentences h
  have hPositions := sentenceOf_positions p links span
  exact hPositions ▸ (within_isInfix p span).map _

end Passage

/-- Every character of the one sentence stands on a line above every character of the other. -/
def Sentence.Above (x y : Sentence) : Prop :=
  ∀ p ∈ x.positions, ∀ q ∈ y.positions, p.line < q.line

/-- The lines were read from a text, each from further down than those before it. -/
structure Line.AreRead (lines : List Line) : Prop where
  isRead : ∀ l ∈ lines, l.IsRead
  numbers : lines.Pairwise (·.number < ·.number)

namespace Layout

variable {e : Extractor}

theorem Group.positions_isInfix {inList : Bool} {lines : List Line} {g : Group}
    (hGroup : g ∈ groups inList lines) {s : Sentence} (h : s ∈ Line.sentences e g.lines) :
    s.positions <:+: (Passage.joined e.separator g.lines).map (·.position) := by
  rw [← Group.glyphs_eq_joined hGroup]
  exact Passage.positions_isInfix h

theorem Group.exists_line_of_mem {inList : Bool} {lines : List Line} {g : Group}
    (hGroup : g ∈ groups inList lines) {s : Sentence} (h : s ∈ Line.sentences e g.lines)
    {p : Position} (hPlace : p ∈ s.positions) : ∃ l ∈ g.lines, p.line = l.number := by
  obtain ⟨glyph, hGlyph, rfl⟩ := List.mem_map.mp ((positions_isInfix hGroup h).subset hPlace)
  exact Passage.line_of_mem_joined hGlyph

theorem Group.positions_rising {inList : Bool} {lines : List Line} (hRead : Line.AreRead lines)
    {g : Group} (hGroup : g ∈ groups inList lines) {s : Sentence}
    (h : s ∈ Line.sentences e g.lines) : Rising s.positions := by
  have hSub : g.lines <:+: lines := (mem_groups hGroup).1
  have hJoined : Rising ((Passage.joined e.separator g.lines).map (·.position)) :=
    Passage.joined_rising (fun l hMem => hRead.isRead l (hSub.subset hMem))
      (hRead.numbers.sublist hSub.sublist)
  exact List.Pairwise.sublist (positions_isInfix hGroup h).sublist hJoined

/-- No line is left out between two lines of a group. -/
theorem Group.exists_line_between {inList : Bool} {lines : List Line} (hRead : Line.AreRead lines)
    (hNumbered : ∀ (n : Nat) (l : Line), lines[n]? = some l → l.number = n + 1) {g : Group}
    (hGroup : g ∈ groups inList lines) {upper lower : Line} (hUpper : upper ∈ g.lines)
    (hLower : lower ∈ g.lines) {n : Nat} (hBelow : upper.number < n) (hAbove : n < lower.number) :
    ∃ l ∈ g.lines, l.number = n := by
  have hSub : g.lines <:+: lines := (mem_groups hGroup).1
  obtain ⟨i, hAt⟩ := List.getElem?_of_mem (hSub.subset hLower)
  have hLt : n - 1 < lines.length := by
    have hLength := (List.getElem?_eq_some_iff.mp hAt).1
    have hNumber := hNumbered i lower hAt
    omega
  have hNumber : lines[n - 1].number = n := by
    rw [hNumbered (n - 1) _ (List.getElem?_eq_getElem hLt)]
    omega
  refine ⟨lines[n - 1], ?_, hNumber⟩
  exact mem_of_isInfix_of_between (R := (·.number < ·.number)) (fun _ _ => Nat.lt_asymm) hSub
    hRead.numbers hUpper (List.getElem_mem hLt) hLower (by omega) (by omega)

/-- No line is in two groups, so the lines of a group are all above those of the next one. -/
theorem groups_pairwise_above {inList : Bool} {lines : List Line} (hRead : Line.AreRead lines) :
    (groups inList lines).Pairwise fun g h =>
      Across Sentence.Above (Line.sentences e g.lines) (Line.sentences e h.lines) := by
  have hAll : ((groups inList lines).flatMap (·.lines)).Pairwise (·.number < ·.number) := by
    rw [groups_lines]
    exact hRead.numbers.filter _
  refine (List.pairwise_flatMap.mp hAll).2.imp_of_mem fun {g h} hg hh hLines => ?_
  intro x hx y hy p hp q hq
  obtain ⟨l, hUpper, hLeft⟩ := Group.exists_line_of_mem hg hx hp
  obtain ⟨m, hLower, hRight⟩ := Group.exists_line_of_mem hh hy hq
  rw [hLeft, hRight]
  exact Int.ofNat_lt.mpr (hLines l hUpper m hLower)

/-- Every section stands above all those behind it. -/
theorem build_sections_above {lines : List Line} (hRead : Line.AreRead lines)
    (rules : List SuppressRule) (fileName : Option Text) (tokenizer : Option Tokenizer) :
    InOrder Sentence.Above ((build e lines rules fileName).build tokenizer).sections := by
  have hBuilt : InOrder Sentence.Above (build e lines rules fileName).sections :=
    build_inOrder (groups_pairwise_above hRead) rules fileName
  rw [Builder.build_sections]
  refine List.pairwise_map.mpr (hBuilt.imp fun {a b} hAcross x hx y hy => ?_)
  rw [Section.map_sentences] at hx hy
  obtain ⟨before, hBefore, rfl⟩ := List.mem_map.mp hx
  obtain ⟨after, hAfter, rfl⟩ := List.mem_map.mp hy
  simpa [Sentence.Above] using hAcross before hBefore after hAfter

theorem build_positions_rising {lines : List Line} (hRead : Line.AreRead lines)
    {rules : List SuppressRule} {fileName : Option Text} {tokenizer : Option Tokenizer}
    {s : Sentence} (h : s ∈ ((build e lines rules fileName).build tokenizer).sentences) :
    Rising s.positions := by
  obtain ⟨g, hGroup, cut, hFrom, rfl⟩ := mem_build_sentences h
  rw [Sentence.finish_positions]
  exact Group.positions_rising hRead hGroup hFrom

end Layout

end ProseLint
