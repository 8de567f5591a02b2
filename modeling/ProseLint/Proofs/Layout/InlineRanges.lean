import ProseLint.Proofs.Layout.Order

/-! Which characters of a sentence came from inline markup. The ranges that are made of flags are
the runs of those that are set, so a character lies in one of the ranges of its sentence just when
it was marked on its line. A separator between joined lines never does. -/

namespace ProseLint

namespace Passage

/-! ## Ranges of flags -/

/-- The flag with index `k`, among flags that start at index `i`. -/
def flagAt? (i : Nat) (flags : List Bool) (k : Nat) : Option Bool :=
  if i ≤ k then flags[k - i]? else none

theorem flagAt?_zero (flags : List Bool) (k : Nat) : flagAt? 0 flags k = flags[k]? :=
  if_pos (Nat.zero_le k)

theorem flagAt?_nil (i k : Nat) : flagAt? i [] k = none := by
  simp [flagAt?]

theorem flagAt?_of_lt {i k : Nat} (flags : List Bool) (h : k < i) : flagAt? i flags k = none :=
  if_neg (Nat.not_le_of_lt h)

theorem flagAt?_cons (i : Nat) (flag : Bool) (flags : List Bool) (k : Nat) :
    flagAt? i (flag :: flags) k = if k = i then some flag else flagAt? (i + 1) flags k := by
  unfold flagAt?
  rcases Nat.lt_trichotomy k i with hLt | rfl | hGt
  · rw [if_neg (by omega), if_neg (by omega), if_neg (by omega)]
  · simp
  · obtain ⟨n, rfl⟩ := Nat.exists_eq_add_of_lt hGt
    rw [if_pos (by omega), if_neg (by omega), if_pos (by omega), Nat.add_assoc,
      Nat.add_sub_cancel_left, List.getElem?_cons_succ]
    congr 1
    omega

theorem flagAt?_cons_of_later {i k : Nat} {flags : List Bool} {b : Bool} (flag : Bool)
    (h : flagAt? (i + 1) flags k = some b) : flagAt? i (flag :: flags) k = some b := by
  have hLater : i + 1 ≤ k := by
    by_contra hBefore
    rw [flagAt?_of_lt flags (Nat.lt_of_not_le hBefore)] at h
    cases h
  rw [flagAt?_cons, if_neg (by omega), h]

/-- The runs of the flags that are set, among flags that start at index `i`, in order. The first
run goes on with what has been open from index `start` on, if anything. -/
structure AreRuns (start : Option Nat) (i : Nat) (flags : List Bool)
    (ranges : List (Nat × Nat)) : Prop where
  bounds : ∀ r ∈ ranges, start.getD i ≤ r.1 ∧ r.1 < r.2 ∧ r.2 ≤ i + flags.length
  apart : ranges.Pairwise fun p q => ∃ k, p.2 ≤ k ∧ k < q.1 ∧ flagAt? i flags k = some false
  covers : ∀ k, (∃ r ∈ ranges, r.1 ≤ k ∧ k < r.2) ↔
    (∃ s ∈ start, s ≤ k ∧ k < i) ∨ flagAt? i flags k = some true

namespace AreRuns

variable {start : Option Nat} {s i : Nat} {flags : List Bool} {ranges : List (Nat × Nat)}

theorem apart_cons (h : AreRuns start (i + 1) flags ranges) (flag : Bool) :
    ranges.Pairwise fun p q => ∃ k, p.2 ≤ k ∧ k < q.1 ∧ flagAt? i (flag :: flags) k = some false :=
  h.apart.imp fun ⟨k, hLeft, hRight, hUnset⟩ =>
    ⟨k, hLeft, hRight, flagAt?_cons_of_later flag hUnset⟩

theorem nil (i : Nat) : AreRuns none i [] [] where
  bounds := nofun
  apart := .nil
  covers := by simp [flagAt?_nil]

theorem last (h : s < i) : AreRuns (some s) i [] [(s, i)] where
  bounds := by
    intro r hMem
    obtain rfl := List.mem_singleton.mp hMem
    exact ⟨Nat.le_refl s, h, Nat.le_refl i⟩
  apart := List.pairwise_singleton _ _
  covers := by simp [flagAt?_nil]

/-- A run starts with the first flag that is set. -/
theorem opened (h : AreRuns (some i) (i + 1) flags ranges) :
    AreRuns none i (true :: flags) ranges where
  bounds := by
    intro r hMem
    obtain ⟨hFirst, hLt, hLast⟩ := h.bounds r hMem
    exact ⟨hFirst, hLt, by rw [List.length_cons]; omega⟩
  apart := h.apart_cons true
  covers := by
    intro k
    have hOpen : (∃ s ∈ some i, s ≤ k ∧ k < i + 1) ↔ k = i := by
      constructor
      · rintro ⟨s, hSame, hFirst, hLast⟩
        obtain rfl := Option.mem_some_iff.mp hSame
        omega
      · rintro rfl
        exact ⟨k, rfl, Nat.le_refl k, Nat.lt_succ_self k⟩
    rw [h.covers, flagAt?_cons, hOpen]
    by_cases hHere : k = i
    · simp [hHere]
    · simp [hHere]

/-- A run ends before the next flag that is not set. -/
theorem closed (h : AreRuns none (i + 1) flags ranges) (hStart : s < i) :
    AreRuns (some s) i (false :: flags) ((s, i) :: ranges) where
  bounds := by
    intro r hMem
    rw [List.length_cons]
    rcases List.mem_cons.mp hMem with rfl | hLater
    · exact ⟨Nat.le_refl s, hStart, Nat.le_add_right i _⟩
    · obtain ⟨hFirst, hLt, hLast⟩ := h.bounds r hLater
      simp only [Option.getD_none, Option.getD_some] at hFirst ⊢
      omega
  apart := by
    refine List.pairwise_cons.mpr ⟨fun q hMem => ?_, h.apart_cons false⟩
    refine ⟨i, Nat.le_refl i, (h.bounds q hMem).1, ?_⟩
    rw [flagAt?_cons, if_pos rfl]
  covers := by
    intro k
    have hLater := h.covers k
    simp only [Option.mem_def, reduceCtorEq, false_and, exists_false, false_or] at hLater
    rw [List.exists_mem_cons_iff, hLater, flagAt?_cons]
    by_cases hHere : k = i
    · simp [hHere, flagAt?_of_lt]
    · simp [hHere]

/-- A flag like the one before it changes nothing. -/
theorem kept (h : AreRuns start (i + 1) flags ranges) (hStart : ∀ s ∈ start, s < i) :
    AreRuns start i (start.isSome :: flags) ranges where
  bounds := by
    intro r hMem
    obtain ⟨hFirst, hLt, hLast⟩ := h.bounds r hMem
    rw [List.length_cons]
    cases start with
    | none =>
        simp only [Option.getD_none] at hFirst ⊢
        omega
    | some s => exact ⟨hFirst, hLt, by omega⟩
  apart := h.apart_cons _
  covers := by
    intro k
    rw [h.covers, flagAt?_cons]
    by_cases hHere : k = i
    · cases start with
      | none => simp [hHere, flagAt?_of_lt]
      | some s => simp [hHere, Nat.le_of_lt (hStart s rfl)]
    · have hSame : k < i + 1 ↔ k < i := by omega
      simp [hHere, hSame]

end AreRuns

theorem markupFrom_areRuns {start : Option Nat} {i : Nat} (hStart : ∀ s ∈ start, s < i)
    (flags : List Bool) : AreRuns start i flags (markupFrom start i flags) := by
  induction flags generalizing start i with
  | nil =>
      cases start with
      | none => exact .nil i
      | some s => exact .last (hStart s rfl)
  | cons flag flags ih =>
      have hNone : ∀ s ∈ (none : Option Nat), s < i + 1 := nofun
      have hNext : ∀ s ∈ start, s < i + 1 := fun s hMem => Nat.lt_succ_of_lt (hStart s hMem)
      cases start with
      | none =>
          cases flag with
          | false => exact (ih hNext).kept hStart
          | true => exact (ih (by simp)).opened
      | some s =>
          cases flag with
          | false => exact (ih hNone).closed (hStart s rfl)
          | true => exact (ih hNext).kept hStart

/-- The ranges are the runs of all flags that are set. -/
theorem markupRanges_areRuns (flags : List Bool) : AreRuns none 0 flags (markupRanges flags) :=
  markupFrom_areRuns (by simp) flags

theorem mem_markupRanges_iff (flags : List Bool) (k : Nat) :
    (∃ r ∈ markupRanges flags, r.1 ≤ k ∧ k < r.2) ↔ flags[k]? = some true := by
  have hCovers := (markupRanges_areRuns flags).covers k
  rw [flagAt?_zero] at hCovers
  simpa using hCovers

/-! ## Characters of sentences -/

theorem sentenceOf_isInlineMarkup (p : Passage) (links : List Text) (span : Nat × Nat) (i : Int) :
    (p.sentenceOf links span).isInlineMarkup i = true ↔
      ∃ k : Nat, i = k ∧ ∃ g, (p.within span)[k]? = some g ∧ g.inline = true := by
  have hFlags (k : Nat) : (∃ g, (p.within span)[k]? = some g ∧ g.inline = true) ↔
      ∃ r ∈ markupRanges ((p.within span).map (·.inline)), r.1 ≤ k ∧ k < r.2 := by
    rw [mem_markupRanges_iff, List.getElem?_map, Option.map_eq_some_iff]
  have hMarkup : (p.sentenceOf links span).markup =
      (markupRanges ((p.within span).map (·.inline))).map fun r => ((r.1 : Int), (r.2 : Int)) := rfl
  simp only [hFlags, Sentence.isInlineMarkup, hMarkup, List.any_map, List.any_eq_true,
    Function.comp_apply, Bool.and_eq_true, decide_eq_true_eq]
  constructor
  · rintro ⟨r, hMem, hFirst, hLast⟩
    obtain ⟨k, rfl⟩ := Int.eq_ofNat_of_zero_le (Int.le_trans (Int.natCast_nonneg r.1) hFirst)
    exact ⟨k, rfl, r, hMem, Int.ofNat_le.mp hFirst, Int.ofNat_lt.mp hLast⟩
  · rintro ⟨k, rfl, r, hMem, hFirst, hLast⟩
    exact ⟨r, hMem, Int.ofNat_le.mpr hFirst, Int.ofNat_lt.mpr hLast⟩

/-- A sentence is a stretch of its passage, with the marks of that stretch. -/
theorem exists_stretch {e : Extractor} {p : Passage} {s : Sentence} (h : s ∈ p.sentences e) :
    ∃ stretch, stretch <:+: p.glyphs ∧ s.placed = stretch.map Glyph.placed ∧
      ∀ i : Int, s.isInlineMarkup i = true ↔
        ∃ k : Nat, i = k ∧ ∃ g, stretch[k]? = some g ∧ g.inline = true := by
  obtain ⟨span, links, isFirst, -, rfl⟩ := mem_sentences h
  exact ⟨p.within span, within_isInfix p span, sentenceOf_placed p links span,
    sentenceOf_isInlineMarkup p links span⟩

end Passage

namespace Sentence

theorem finish_isInlineMarkup (tokenizer : Option Tokenizer) (s : Sentence) (i : Int) :
    (s.finish tokenizer).isInlineMarkup i = s.isInlineMarkup i := by
  cases tokenizer <;> rfl

end Sentence

/-! ## Characters of lines -/

/-- The character is left at its place on the line, and inline markup surrounded it there. -/
def Line.MarksInline (l : Line) (p : Char × Position) : Prop :=
  ∃ c ∈ l.cells, c.kept = true ∧ c.inline = true ∧ p = (c.char, ⟨l.number, c.offset⟩)

/-- Items that are told apart by a number that rises. -/
theorem eq_of_pairwise_lt {α : Type} {f : α → Nat} {items : List α}
    (h : items.Pairwise fun a b => f a < f b) {a b : α} (ha : a ∈ items) (hb : b ∈ items)
    (hSame : f a = f b) : a = b :=
  List.inj_on_of_nodup_map (List.pairwise_map.mpr (h.imp Nat.ne_of_lt)) ha hb hSame

namespace Passage

variable {separator : Option Char} {lines part : List Line} {g : Glyph}

/-- Only one character of a text has its place, so what is marked there is the character. -/
theorem inline_of_mem_glyphsOf (hRead : Line.AreRead lines) {l m : Line} (hLine : l ∈ lines)
    (hLeft : g ∈ glyphsOf l) (hOther : m ∈ lines) (hMarked : m.MarksInline g.placed) :
    g.inline = true := by
  obtain ⟨c, hCell, rfl⟩ := List.mem_map.mp hLeft
  obtain ⟨d, hMarkedCell, -, hInline, hSame⟩ := hMarked
  simp only [Glyph.placed, Prod.mk.injEq, Position.mk.injEq] at hSame
  obtain rfl := eq_of_pairwise_lt hRead.numbers hLine hOther (by omega)
  obtain rfl := eq_of_pairwise_lt (hRead.isRead l hLine).offsets_pairwise
    (List.mem_filter.mp hCell).1 hMarkedCell (by omega)
  exact hInline

/-- Nothing on a line stands where its separator does. -/
theorem not_marksInline_of_mem_separatorAfter (hRead : Line.AreRead lines) {l m : Line}
    (hLine : l ∈ lines) (hGlue : g ∈ separatorAfter separator l) (hOther : m ∈ lines) :
    ¬ m.MarksInline g.placed := by
  rintro ⟨d, hCell, -, -, hSame⟩
  cases separator with
  | none => cases hGlue
  | some c =>
      obtain rfl := List.mem_singleton.mp hGlue
      simp only [Glyph.placed, Prod.mk.injEq, Position.mk.injEq] at hSame
      obtain rfl := eq_of_pairwise_lt hRead.numbers hLine hOther (by omega)
      have hLt := (hRead.isRead l hLine).offset_lt_endOffset hCell
      omega

/-- A character of joined lines is marked as inline markup just when it is on its line. -/
theorem inline_iff_of_mem_joined (hRead : Line.AreRead lines) (hSub : part ⊆ lines)
    (h : g ∈ joined separator part) :
    g.inline = true ↔ ∃ l ∈ lines, l.MarksInline g.placed := by
  rcases mem_joined h with ⟨l, hLine, hLeft⟩ | ⟨upper, lower, hInfix, hGlue⟩
  · constructor
    · intro hInline
      obtain ⟨c, hCell, rfl⟩ := List.mem_map.mp hLeft
      obtain ⟨hMem, hKept⟩ := List.mem_filter.mp hCell
      exact ⟨l, hSub hLine, c, hMem, hKept, hInline, rfl⟩
    · rintro ⟨m, hOther, hMarked⟩
      exact inline_of_mem_glyphsOf hRead (hSub hLine) hLeft hOther hMarked
  · have hUpper : upper ∈ lines := hSub (hInfix.subset List.mem_cons_self)
    constructor
    · intro hInline
      cases separator with
      | none => cases hGlue
      | some c =>
          rw [List.mem_singleton.mp hGlue] at hInline
          cases hInline
    · rintro ⟨m, hOther, hMarked⟩
      exact absurd hMarked (not_marksInline_of_mem_separatorAfter hRead hUpper hGlue hOther)

end Passage

namespace Layout

variable {e : Extractor} {lines : List Line} {rules : List SuppressRule} {fileName : Option Text}
variable {tokenizer : Option Tokenizer} {s : Sentence}

/-- A character of a sentence came from inline markup just when it is marked on its line. -/
theorem build_isInlineMarkup (hRead : Line.AreRead lines)
    (h : s ∈ ((build e lines rules fileName).build tokenizer).sentences) (i : Int) :
    s.isInlineMarkup i = true ↔
      ∃ k : Nat, i = k ∧ ∃ p, s.placed[k]? = some p ∧ ∃ l ∈ lines, l.MarksInline p := by
  obtain ⟨g, hGroup, cut, hFrom, rfl⟩ := mem_build_sentences h
  obtain ⟨stretch, hInfix, hPlaced, hInline⟩ := Passage.exists_stretch hFrom
  have hMarked {glyph : Glyph} (hMem : glyph ∈ stretch) :
      glyph.inline = true ↔ ∃ l ∈ lines, l.MarksInline glyph.placed := by
    have hJoined := hInfix.subset hMem
    rw [Group.glyphs_eq_joined hGroup] at hJoined
    exact Passage.inline_iff_of_mem_joined hRead (mem_groups hGroup).1.subset hJoined
  rw [Sentence.finish_isInlineMarkup, Sentence.finish_placed, hInline, hPlaced]
  refine exists_congr fun k => and_congr_right fun _ => ?_
  rw [List.getElem?_map]
  constructor
  · rintro ⟨glyph, hAt, hGlyph⟩
    exact ⟨glyph.placed, by rw [hAt]; rfl, (hMarked (List.mem_of_getElem? hAt)).mp hGlyph⟩
  · rintro ⟨p, hAt, hLine⟩
    obtain ⟨glyph, hGlyph, rfl⟩ := Option.map_eq_some_iff.mp hAt
    exact ⟨glyph, hGlyph, (hMarked (List.mem_of_getElem? hGlyph)).mpr hLine⟩

end Layout

end ProseLint
