import ProseLint.Proofs.Layout.Headers
import ProseLint.Proofs.Markup.Blocks

/-! Headings of Markdown. A heading marks its first line only. So it becomes one header if nothing
is left of its other lines, which is true of headings on one line and of those with one underline
below it, and otherwise the other lines become prose. -/

namespace ProseLint

namespace Markdown

open CommonMark (Block)

/-! ## Levels of lines -/

/-- The levels of lines, in order. -/
def levels (lines : List Line) : List Nat := lines.map (·.sectionLevel)

theorem getElem?_levels {lines : List Line} {k : Nat} {l : Line} (h : lines[k]? = some l) :
    (levels lines)[k]? = some l.sectionLevel := by
  rw [levels, List.getElem?_map, h]
  rfl

theorem Changes.sectionLevel_eq {allowed : Nat → Prop} {items : Prop} (hNone : ∀ n, ¬ allowed n)
    {l m : Line} (h : Changes allowed items l m) : m.sectionLevel = l.sectionLevel := by
  induction h with
  | refl => rfl
  | tail _ hLast ih =>
      refine Eq.trans ?_ ih
      cases hLast with
      | level hLevel => exact (hNone _ hLevel).elim
      | _ => rfl

/-- Small changes other than those of a level. -/
theorem AllChange.levels_eq {allowed : Nat → Prop} {items : Prop} (hNone : ∀ n, ¬ allowed n)
    {lines done : List Line} (h : AllChange allowed items lines done) :
    levels done = levels lines := by
  induction h with
  | nil => rfl
  | cons hFirst _ ih => exact congrArg₂ List.cons (hFirst.sectionLevel_eq hNone) ih

/-- A heading gives a level to the first of its lines. -/
theorem markHeading_levels {tag mark : Text} {lines done : List Line}
    (h : markHeading tag mark lines = .ok done) :
    ∃ level, levels done = (levels lines).set 0 level := by
  cases lines with
  | nil =>
      cases h
      exact ⟨0, rfl⟩
  | cons title rest =>
      cases hTag : levelOf tag with
      | error fault => simp [markHeading, hTag, bind, Except.bind] at h
      | ok level =>
          refine ⟨level, ?_⟩
          simp only [markHeading, hTag, bind, Except.bind, pure, Except.pure] at h
          split at h
          · cases h
            rfl
          · split at h
            · next hLast =>
                cases h
                rw [List.getLast?_eq_none_iff.mp hLast]
                rfl
            · next underline hLast =>
                cases h
                obtain ⟨before, rfl⟩ := List.getLast?_eq_some_iff.mp hLast
                simp [levels, Line.eraseAll]

theorem getElem?_append_set {α : Type} (before items behind : List α) (a : α) {k : Nat}
    (hOther : items = [] ∨ k ≠ before.length) :
    (before ++ items.set 0 a ++ behind)[k]? = (before ++ items ++ behind)[k]? := by
  cases items with
  | nil => rfl
  | cons b rest =>
      have hNe := hOther.resolve_left (List.cons_ne_nil b rest)
      have hSet : before ++ (b :: rest).set 0 a ++ behind =
          (before ++ b :: rest ++ behind).set before.length a := by simp
      rw [hSet, List.getElem?_set_ne (Ne.symm hNe)]

/-- Only a heading that starts on a line changes its level. -/
theorem pass_level {s t : State} {b : Block} (hPass : s.pass b = .ok t) {k : Nat}
    (hNot : ∀ tag mark, b.kind = .heading tag mark → ¬ b.StartsOn k) :
    (levels t.lines)[k]? = (levels s.lines)[k]? := by
  by_cases hHeading : ∃ tag mark, b.kind = .heading tag mark
  · obtain ⟨tag, mark, hKind⟩ := hHeading
    simp only [State.pass, hKind, State.change] at hPass
    cases hSpan : b.lines with
    | none =>
        rw [hSpan] at hPass
        cases hPass
        rfl
    | some span =>
        obtain ⟨first, stop⟩ := span
        rw [hSpan] at hPass
        cases hChanged : changeSpan (some (first, stop)) (markHeading tag mark) s.lines with
        | error fault => simp [hChanged, Except.map] at hPass
        | ok lines =>
            simp only [hChanged, Except.map, Except.ok.injEq] at hPass
            subst hPass
            obtain ⟨part, hPart, rfl⟩ := changeSpan_eq hChanged
            obtain ⟨level, hLevels⟩ := markHeading_levels hPart
            have hWhole := congrArg levels (append_span_append s.lines first stop)
            simp only [levels, List.map_append] at hLevels hWhole ⊢
            rw [hLevels, ← hWhole]
            apply getElem?_append_set
            by_cases hEmpty : (s.lines.take stop).drop first = []
            · left
              rw [hEmpty, List.map_nil]
            · right
              rw [List.drop_eq_nil_iff, List.length_take, Nat.not_le] at hEmpty
              rw [List.length_map, List.length_take]
              rintro rfl
              refine hNot tag mark hKind ⟨stop, ?_, by omega⟩
              rw [hSpan]
              congr 2
              omega
  · have hNone : ∀ n, ¬ HeadingLevel [b] n := by
      rintro n ⟨c, hMem, tag, mark, hKind, -⟩
      rw [List.mem_singleton.mp hMem] at hKind
      exact hHeading ⟨tag, mark, hKind⟩
    rw [(pass_changes (List.mem_singleton_self b) (fun _ _ => trivial) hPass).levels_eq hNone]

/-- No heading among some blocks starts on a line. -/
def NoneStarts (blocks : List Block) (k : Nat) : Prop :=
  ∀ b ∈ blocks, ∀ tag mark, b.kind = .heading tag mark → ¬ b.StartsOn k

theorem foldlM_pass_level {blocks : List Block} {k : Nat} (hNone : NoneStarts blocks k)
    {s t : State} (h : blocks.foldlM State.pass s = .ok t) :
    (levels t.lines)[k]? = (levels s.lines)[k]? := by
  induction blocks generalizing s with
  | nil =>
      cases h
      rfl
  | cons b rest ih =>
      obtain ⟨hFirst, hRest⟩ := List.forall_mem_cons.mp hNone
      obtain ⟨next, hPass, hLater⟩ := foldlM_cons_eq_ok.mp h
      rw [ih hRest hLater, pass_level hPass hFirst]

theorem classify_levels {blocks : List Block} {lines : List Line} {c : Classified}
    (h : classify blocks lines = .ok c) :
    ∃ s, blocks.foldlM State.pass ⟨lines, 0⟩ = .ok s ∧ levels c.lines = levels s.lines := by
  obtain ⟨s, hFold, hLines⟩ := exists_of_classify h
  have hErased : AllChange (fun _ => False) False s.lines (eraseUncovered blocks s.lines) :=
    eraseUncovered_changes blocks s.lines
  exact ⟨s, hFold, by rw [hLines, hErased.levels_eq fun _ => id]⟩

section Classified

variable {before after : List Block} {heading : Block} {t : Text} {c : Classified}
variable (hClassify : classify (before ++ heading :: after) (Line.readAll true t) = .ok c)
variable {k : Nat} {m : Line} (hLine : c.lines[k]? = some m)

include hClassify hLine

theorem sectionLevel_eq_zero (hNone : NoneStarts (before ++ heading :: after) k) :
    m.sectionLevel = 0 := by
  obtain ⟨s, hFold, hLevels⟩ := classify_levels hClassify
  obtain ⟨_, _, hSame⟩ := exists_read_line (classify_origin hClassify) hLine
  have hStart : (levels (Line.readAll true t))[k]? = some m.sectionLevel := by
    rw [← foldlM_pass_level hNone hFold, ← hLevels, getElem?_levels hLine]
  obtain ⟨l, hRead, hLevel⟩ := Option.map_eq_some_iff.mp (by
    rwa [levels, List.getElem?_map] at hStart)
  rw [Line.getElem?_readAll] at hRead
  obtain ⟨raw, -, rfl⟩ := Option.map_eq_some_iff.mp hRead
  exact hLevel.symm

/-- The first line of a heading has its level in the end if no heading after it starts there. -/
theorem sectionLevel_of_heading {tag mark : Text} (hKind : heading.kind = .heading tag mark)
    (hStart : heading.StartsOn k) (hNone : NoneStarts after k) :
    levelOf tag = .ok m.sectionLevel := by
  obtain ⟨s, hFold, hLevels⟩ := classify_levels hClassify
  obtain ⟨_, -, hBehind⟩ := foldlM_append_eq_ok.mp hFold
  obtain ⟨next, hPass, hAfter⟩ := foldlM_cons_eq_ok.mp hBehind
  have hThen : (levels next.lines)[k]? = some m.sectionLevel := by
    rw [← foldlM_pass_level hNone hAfter, ← hLevels, getElem?_levels hLine]
  rw [levels, List.getElem?_map] at hThen
  obtain ⟨l, hAt, hLevel⟩ := Option.map_eq_some_iff.mp hThen
  rw [← hLevel]
  exact pass_heading hPass hAt hKind hStart

end Classified

/-! ## Headers -/

/-- What is seen of the lines of a span. -/
def seenOn (lines : List Line) (span : Nat × Nat) : List (Char × Position) :=
  ((lines.take span.2).drop span.1).flatMap Line.visible

theorem mem_seenOn {lines : List Line} {first stop : Nat} {p : Char × Position} :
    p ∈ seenOn lines (first, stop) ↔
      ∃ k l, first ≤ k ∧ k < stop ∧ lines[k]? = some l ∧ p ∈ l.visible := by
  rw [seenOn, List.mem_flatMap]
  constructor
  · rintro ⟨l, hMem, hSeen⟩
    obtain ⟨i, hAt⟩ := List.getElem?_of_mem hMem
    rw [List.getElem?_drop, List.getElem?_take] at hAt
    split at hAt
    · next hLt => exact ⟨first + i, l, Nat.le_add_right _ _, hLt, hAt, hSeen⟩
    · cases hAt
  · rintro ⟨k, l, hFrom, hTo, hAt, hSeen⟩
    refine ⟨l, List.mem_of_getElem? (i := k - first) ?_, hSeen⟩
    rw [List.getElem?_drop, Nat.add_sub_cancel' hFrom, List.getElem?_take_of_lt hTo, hAt]

/-- Of the lines of a text one shows what is at a place. -/
theorem eq_of_mem_visible {t : Text} {lines : List Line}
    (hOrigin : lines.map Line.origin = (Line.readAll true t).map Line.origin) {l m : Line}
    (hLeft : l ∈ lines) (hRight : m ∈ lines) {p : Char × Position} (hShown : p ∈ l.visible)
    (hSame : p ∈ m.visible) : l = m := by
  obtain ⟨i, hl⟩ := List.getElem?_of_mem hLeft
  obtain ⟨j, hm⟩ := List.getElem?_of_mem hRight
  have hNumber : l.number = m.number := by
    obtain ⟨c, -, -, -, hFirst⟩ := Line.mem_visible.mp hShown
    obtain ⟨d, -, -, -, hOther⟩ := Line.mem_visible.mp hSame
    have hPlaces := congrArg (·.2.line) (hFirst.symm.trans hOther)
    exact Int.ofNat.inj hPlaces
  rw [Line.number_of_origin hOrigin hl, Line.number_of_origin hOrigin hm] at hNumber
  obtain rfl : i = j := by omega
  exact Option.some_inj.mp (hl.symm.trans hm)

section Heading

variable {before after : List Block} {heading : Block} {tag mark : Text} {first stop level : Nat}
  {t : Text} {c : Classified}

variable (hSpan : heading.lines = some (first, stop))
variable (hAlone : ∀ other ∈ before ++ after, ∀ tag mark, other.kind = .heading tag mark →
  ∀ k, first ≤ k → k < stop → ¬ other.StandsOn k)

include hAlone in
theorem noneStarts_of_alone {others : List Block} (hSub : others ⊆ before ++ after) {k : Nat}
    (hFrom : first ≤ k) (hTo : k < stop) : NoneStarts others k := by
  rintro b hBlock tag mark hKind ⟨last, hLines, hLt⟩
  exact hAlone b (hSub hBlock) tag mark hKind k hFrom hTo ⟨k, last, hLines, Nat.le_refl k, hLt⟩

include hSpan hAlone in
/-- Below its first line a heading leaves no mark. -/
theorem noneStarts_below {k : Nat} (hBelow : first < k) (hTo : k < stop) :
    NoneStarts (before ++ heading :: after) k := by
  intro b hBlock tag mark hKind hStart
  have hOthers := noneStarts_of_alone hAlone (List.Subset.refl _) (Nat.le_of_lt hBelow) hTo
  rcases List.mem_append.mp hBlock with hBefore | hBehind
  · exact hOthers b (List.mem_append_left _ hBefore) tag mark hKind hStart
  · rcases List.mem_cons.mp hBehind with rfl | hAfter
    · obtain ⟨last, hLines, -⟩ := hStart
      rw [hSpan, Option.some_inj, Prod.mk.injEq] at hLines
      omega
    · exact hOthers b (List.mem_append_right _ hAfter) tag mark hKind hStart

include hSpan hAlone in
/-- A heading comes whole into one header just when nothing is left of its lines behind the first
one. Those lines bear no mark of the heading, so what is left of them is laid out as if it stood
below the heading. -/
theorem heading_in_one_header_iff (hKind : heading.kind = .heading tag mark)
    (hLevel : levelOf tag = .ok level) (hPos : 0 < level)
    (hClassify : classify (before ++ heading :: after) (Line.readAll true t) = .ok c)
    {symbols quotations words : List Text} {o : ReadOptions}
    (hMake : Extractor.make symbols quotations words = .ok o.extractor) :
    let seen := seenOn c.lines (first, stop)
    (seen ≠ [] → (c.read o).document.IsHeader level seen) ↔
      ∀ k l, first < k → k < stop → c.lines[k]? = some l → l.isEmpty = true := by
  intro seen
  have hBlank := Extractor.make_separator hMake
  have hOrigin := classify_origin hClassify
  constructor
  · intro hHeader k l hBelow hTo hLine
    by_contra hText
    obtain ⟨p, hVisible⟩ := List.exists_mem_of_ne_nil _
      (Line.visible_ne_nil (by simpa using hText))
    have hSeen : p ∈ seen := mem_seenOn.mpr ⟨k, l, Nat.le_of_lt hBelow, hTo, hLine, hVisible⟩
    obtain ⟨s, hSection, -, hAll⟩ := (hHeader (List.ne_nil_of_mem hSeen)).1
    obtain ⟨title, hMem, hTitle, -, hShown⟩ :=
      Layout.exists_line_of_header hBlank hSection (hAll p hSeen)
    have hSame := eq_of_mem_visible hOrigin hMem (List.mem_of_getElem? hLine) hShown hVisible
    have hZero := sectionLevel_eq_zero hClassify hLine (noneStarts_below hSpan hAlone hBelow hTo)
    simp [Line.isTitle, hSame, hZero] at hTitle
  · intro hEmpty hSome
    -- All that is seen is on the first line.
    have hFirst : ∀ p ∈ seen, ∃ l, first < stop ∧ c.lines[first]? = some l ∧ p ∈ l.visible := by
      intro p hSeen
      obtain ⟨k, l, hFrom, hTo, hLine, hVisible⟩ := mem_seenOn.mp hSeen
      rcases Nat.eq_or_lt_of_le hFrom with rfl | hBelow
      · exact ⟨l, hTo, hLine, hVisible⟩
      · rw [Line.visible_eq_nil_iff.mpr (hEmpty k l hBelow hTo hLine)] at hVisible
        cases hVisible
    obtain ⟨p, hSeen⟩ := List.exists_mem_of_ne_nil _ hSome
    obtain ⟨l, hLt, hLine, hVisible⟩ := hFirst p hSeen
    have hText : l.isEmpty = false := by
      by_contra hEmptyLine
      rw [Line.visible_eq_nil_iff.mpr (by simpa using hEmptyLine)] at hVisible
      cases hVisible
    have hAfter := noneStarts_of_alone hAlone (List.subset_append_right before after)
      (Nat.le_refl first) hLt
    have hSame := sectionLevel_of_heading hClassify hLine hKind ⟨stop, hSpan, hLt⟩ hAfter
    obtain rfl : level = l.sectionLevel := Except.ok.inj (hLevel.symm.trans hSame)
    obtain ⟨s, hSection, hIs, hHeader⟩ := Layout.exists_section_of_isTitle hBlank
      (List.mem_of_getElem? hLine) (by simp [Line.isTitle, hText, hPos]) c.rules o.fileName
      o.tokenizer
    have hAll : ∀ p ∈ seen, p ∈ s.header.flatMap Sentence.visible := by
      intro q hMem
      obtain ⟨m, -, hAt, hShown⟩ := hFirst q hMem
      obtain rfl : l = m := Option.some_inj.mp (hLine.symm.trans hAt)
      rwa [hHeader]
    have hRead := Line.areRead_of_origin hOrigin
    have hNodup : ((c.read o).document.sentences.flatMap Sentence.visible).Nodup := by
      have hPerm := build_visible_perm hBlank c.lines c.rules o.fileName o.tokenizer
      refine hPerm.nodup_iff.mpr (Line.flatMap_visible_nodup hRead.isRead ?_)
      exact List.pairwise_map.mpr (hRead.numbers.imp Nat.ne_of_lt)
    exact ⟨⟨s, hSection, hIs, hAll⟩, fun r hOther q hMem =>
      Document.not_mem_body hNodup hSection hOther (hAll q hMem)⟩

/-- A heading with an underline, and the text behind it. -/
def underlinedText : Text := "Top *level*\n---\nText.".toList

/-- The heading of `underlinedText`. -/
def underlined : Block := ⟨.heading "h2".toList ['-'], some (0, 2)⟩

/-- The runs of inline items of `underlinedText`. -/
def besideUnderlined : List Block :=
  [⟨.inlines [.text "Top ".toList, .delimiter ['*'], .text "level".toList, .delimiter ['*']],
    some (0, 2)⟩, ⟨.inlines [.text "Text.".toList], some (2, 3)⟩]

theorem heading_in_one_header_iff_underlined :
    let options : ReadOptions := ⟨.standard, none, none⟩
    ∃ c, classify ([] ++ underlined :: besideUnderlined) (Line.readAll true underlinedText) =
        .ok c ∧
      levelOf "h2".toList = .ok 2 ∧
      (∀ other ∈ [] ++ besideUnderlined, ∀ tag mark, other.kind = .heading tag mark →
        ∀ k, 0 ≤ k → k < 2 → ¬ other.StandsOn k) ∧
      Extractor.make Extractor.standardSymbols Extractor.standardQuotations
        Extractor.standardWords = .ok options.extractor ∧
      (c.read options).document.IsHeader 2 (seenOn c.lines (0, 2)) := by
  intro options
  have hSpan : underlined.lines = some (0, 2) := rfl
  have hKind : underlined.kind = .heading "h2".toList ['-'] := rfl
  have hAlone : ∀ other ∈ [] ++ besideUnderlined, ∀ tag mark, other.kind = .heading tag mark →
      ∀ k, 0 ≤ k → k < 2 → ¬ other.StandsOn k := by
    intro other hMem tag mark hOther
    simp only [besideUnderlined, List.nil_append, List.mem_cons, List.not_mem_nil,
      or_false] at hMem
    rcases hMem with rfl | rfl <;> cases hOther
  have hMake : Extractor.make Extractor.standardSymbols Extractor.standardQuotations
      Extractor.standardWords = .ok options.extractor := rfl
  have hEvaluated : (classify ([] ++ underlined :: besideUnderlined)
      (Line.readAll true underlinedText)).toOption.map (fun c =>
        (c.lines[1]?.map Line.isEmpty, (seenOn c.lines (0, 2)).isEmpty)) =
      some (some true, false) := rfl
  obtain ⟨c, hClassify⟩ : ∃ c, classify ([] ++ underlined :: besideUnderlined)
      (Line.readAll true underlinedText) = .ok c := ⟨_, rfl⟩
  obtain ⟨hBelow, hSome⟩ : c.lines[1]?.map Line.isEmpty = some true ∧
      (seenOn c.lines (0, 2)).isEmpty = false := by
    rw [hClassify] at hEvaluated
    exact Prod.mk.inj (Option.some.inj hEvaluated)
  have hEmpty : ∀ k l, 0 < k → k < 2 → c.lines[k]? = some l → l.isEmpty = true := by
    intro k l hFrom hTo hLine
    obtain rfl : k = 1 := by omega
    simpa [hLine] using hBelow
  exact ⟨c, hClassify, rfl, hAlone, hMake, (heading_in_one_header_iff hSpan hAlone hKind rfl
    (by decide) hClassify hMake).mpr hEmpty (List.isEmpty_eq_false_iff.mp hSome)⟩

/-- A heading over two lines, before its underline. -/
def wrappedText : Text := "Foo\nbar\n===".toList

/-- The blocks of `wrappedText`. -/
def wrappedBlocks : List Block :=
  [⟨.heading "h1".toList ['='], some (0, 3)⟩,
    ⟨.inlines [.text "Foo".toList, .lineBreak false, .text "bar".toList], some (0, 3)⟩]

/-- The second line of a heading over two lines becomes a paragraph. -/
theorem exists_heading_not_in_header :
    ∃ c, classify wrappedBlocks (Line.readAll true wrappedText) = .ok c ∧
      ¬ (c.read ⟨.standard, none, none⟩).document.IsHeader 1 (seenOn c.lines (0, 3)) ∧
      (c.read ⟨.standard, none, none⟩).document.sections.map
          (fun s => (s.header.map (·.content), s.paragraphs.map (·.map (·.content)))) =
        [(["Foo".toList], [["bar".toList]])] :=
  ⟨_, rfl, by with_unfolding_all decide, by with_unfolding_all rfl⟩

end Heading

end Markdown

end ProseLint
