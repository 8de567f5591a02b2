import ProseLint.Markup.Rest.Body
import ProseLint.Markup.Wiki
import ProseLint.Proofs.Markup.Origin

/-! What decides the block structure of wiki and structured text. The classifiers look at the
texts of lines through a few patterns, and at nothing else: lines on which the patterns find the
same become headers, list elements and erased blocks alike, whatever else is written there. -/

namespace ProseLint

/-- What markup makes of a line as a whole. -/
structure Line.Marks where
  sectionLevel : Nat
  listLevel : Int
  listStart : Bool
  erased : Bool
  deriving DecidableEq, Repr

namespace Line

def marks (l : Line) : Marks := ⟨l.sectionLevel, l.listLevel, l.listStart, l.erased⟩

@[simp] theorem erase_marks (l : Line) (start count : Int) :
    (l.erase start count).marks = l.marks := rfl

@[simp] theorem eraseAll_marks (l : Line) :
    l.eraseAll.marks = { l.marks with erased := true } := rfl

@[simp] theorem markInline_marks (l : Line) (start stop : Int) :
    (l.markInline start stop).marks = l.marks := rfl

@[simp] theorem addLink_marks (l : Line) (position : Int) (url : Text) :
    (l.addLink position url).marks = l.marks := rfl

theorem foldl_marks {α : Type} {f : Line → α → Line} (hf : ∀ l a, (f l a).marks = l.marks)
    (steps : List α) (l : Line) : (steps.foldl f l).marks = l.marks := by
  induction steps generalizing l with
  | nil => rfl
  | cons a rest ih => rw [List.foldl_cons, ih, hf]

@[simp] theorem eraseEnclosure_marks (l : Line) (e : Enclosure) :
    (l.eraseEnclosure e).1.marks = l.marks := by
  refine foldl_marks (fun l pair => ?_) _ l
  unfold eraseAround
  cases e.style <;> rfl

end Line

/-- Two options that agree on whether there is something. -/
theorem isSome_cases {α β : Type} {a : Option α} {b : Option β} (h : a.isSome = b.isSome) :
    (a = none ∧ b = none) ∨ ∃ x y, a = some x ∧ b = some y := by
  cases a <;> cases b <;> simp_all

/-! ## Wiki -/

namespace Wiki

open Line

/-- What the patterns find on a line: whether a comment that opens at its start ends there,
whether it ends a comment, and the levels of a header and of a list element. -/
structure Look where
  comment : Option Bool
  closes : Bool
  header : Option Nat
  item : Option Nat
  deriving DecidableEq, Repr

def look (l : Line) : Look :=
  ⟨(commentBody? l.text).map closesComment, closesComment l.text, (header? l.text).map (·.1),
    if l.isEscaped 0 then none else (listItem? l.text).map (·.1)⟩

/-- What becomes of the marks of a line, given what is found there and whether a comment is
open before it. -/
def Look.pass (k : Look) (inComment : Bool) (m : Marks) : Bool × Marks :=
  if inComment then (!k.closes, { m with erased := true })
  else match k.comment with
    | some closed => (!closed, { m with erased := true })
    | none => (false, match k.header, k.item with
        | some level, _ => { m with sectionLevel := level }
        | none, some level => { m with listLevel := level, listStart := true }
        | none, none => m)

theorem eraseLinks_marks (l : Line) : (eraseLinks l).marks = l.marks := by
  refine foldl_marks (fun l link => ?_) _ l
  unfold eraseLink
  cases link.bar <;> rfl

theorem markStart_marks (l : Line) (t : Text) :
    (markStart l t).marks = match (header? t).map (·.1),
        if l.isEscaped 0 then none else (listItem? t).map (·.1) with
      | some level, _ => { l.marks with sectionLevel := level }
      | none, some level => { l.marks with listLevel := level, listStart := true }
      | none, none => l.marks := by
  unfold markStart
  cases header? t with
  | some found => rfl
  | none =>
      cases listItem? t with
      | none => cases l.isEscaped 0 <;> rfl
      | some found => cases l.isEscaped 0 <;> rfl

theorem classifyProse_marks (l : Line) :
    (classifyProse l).marks = match (look l).header, (look l).item with
      | some level, _ => { l.marks with sectionLevel := level }
      | none, some level => { l.marks with listLevel := level, listStart := true }
      | none, none => l.marks := by
  have hEscaped : (l.eraseEnclosure comment).1.isEscaped 0 = l.isEscaped 0 :=
    isEscaped_eq_of_origin (eraseEnclosure_origin l comment) 0
  unfold classifyProse
  rw [foldl_marks fun l e => eraseEnclosure_marks l e, eraseLinks_marks, markStart_marks,
    eraseEnclosure_marks, hEscaped]
  rfl

/-- A line is classified by what the patterns find on it. -/
theorem classifyLine_marks (inComment : Bool) (l : Line) :
    (classifyLine inComment l).map id marks = (look l).pass inComment l.marks := by
  unfold classifyLine Look.pass
  cases inComment with
  | true => rfl
  | false =>
      have hComment : (look l).comment = (commentBody? l.text).map closesComment := rfl
      cases hBody : commentBody? l.text with
      | some body => simp [hComment, hBody]
      | none =>
          simp only [hComment, hBody, Option.map_none, Bool.false_eq_true, if_false, Prod.map_apply,
            classifyProse_marks, id]

/-- Lines on which the patterns find the same get the same marks. -/
theorem classifyLines_marks {lines others : List Line}
    (hLooks : lines.map look = others.map look) (hMarks : lines.map marks = others.map marks)
    (inComment : Bool) :
    (classifyLines inComment lines).2.map marks = (classifyLines inComment others).2.map marks := by
  induction lines generalizing others inComment with
  | nil =>
      rw [List.map_nil, eq_comm, List.map_eq_nil_iff] at hLooks
      rw [hLooks]
  | cons l rest ih =>
      cases others with
      | nil => cases hLooks
      | cons m more =>
          obtain ⟨hLook, hRestLooks⟩ := List.cons.inj hLooks
          obtain ⟨hMark, hRestMarks⟩ := List.cons.inj hMarks
          have hLine : (classifyLine inComment l).map id marks =
              (classifyLine inComment m).map id marks := by
            rw [classifyLine_marks, classifyLine_marks, hLook, hMark]
          have hOpen : (classifyLine inComment l).1 = (classifyLine inComment m).1 :=
            (Prod.ext_iff.mp hLine).1
          have hFirst : (classifyLine inComment l).2.marks = (classifyLine inComment m).2.marks :=
            (Prod.ext_iff.mp hLine).2
          simp only [classifyLines, List.map_cons]
          rw [hFirst, hOpen, ih hRestLooks hRestMarks]

/-- The block structure of a wiki text is decided by what the patterns find on its lines. -/
theorem classify_marks {lines others : List Line} (hLooks : lines.map look = others.map look)
    (hMarks : lines.map marks = others.map marks) :
    (classify lines).lines.map marks = (classify others).lines.map marks :=
  classifyLines_marks hLooks hMarks false

end Wiki

/-! ## Structured text -/

namespace Rest

open Line

/-- What the patterns find on a line. The kinds of blocks without prose are told apart only as
far as indentation does not end them. -/
structure Look where
  suppress : Bool
  blank : Bool
  indentation : Nat
  repeated : Option Char
  tableEdge : Bool
  block : Option Bool
  lineBlock : Bool
  onlyColons : Bool
  literal : Bool
  colon : Bool
  bullet : Bool
  enumerator : Bool
  field : Bool
  deriving DecidableEq, Repr

def look (l : Line) : Look where
  suppress := (Suppress.rule? l).isSome
  blank := l.text.isAllBlank
  indentation := l.indentation
  repeated := repeated? l.text
  tableEdge := isGridEdge l.text || isColumnEdge l.text
  block := (blockKind? l.text).map (· == .doctest)
  lineBlock := isLineBlock l.text
  onlyColons := l.text.strip == [':', ':']
  literal := opensLiteral l
  colon := l.text.endsWith [':']
  bullet := (marked? bullet? l.text).isSome
  enumerator := (marked? enumerator? l.text).isSome
  field := (field? l.text).isSome

/-- Lines on which the patterns find the same, with the same marks. -/
structure Alike (l m : Line) : Prop where
  look_eq : look l = look m
  marks_eq : l.marks = m.marks

theorem indentation_eq (l : Line) : l.indentation = (l.text.takeWhile isIndent).length := by
  rw [indentation, text, List.takeWhile_map, List.length_map]
  rfl

/-- Nothing that is done to a line changes what the patterns find on it. -/
theorem look_eq_of_origin {l m : Line} (h : l.origin = m.origin) : look l = look m := by
  have hText : l.text = m.text := text_eq_of_origin h
  have hRaw : l.raw = m.raw := congrArg (·.2.1) h
  have hLiteral : opensLiteral l = opensLiteral m := by
    have hLength : l.length = m.length := length_eq_of_origin h
    rw [opensLiteral, opensLiteral, hText, hLength, isEscaped_eq_of_origin h]
  have hSuppress : (Suppress.rule? l).isSome = (Suppress.rule? m).isSome := by
    rw [Suppress.rule?, Suppress.rule?, hRaw, Option.isSome_map, Option.isSome_map]
  simp only [look, hSuppress, indentation_eq, hText, hLiteral]

theorem Alike.change {l m l' m' : Line} (h : Alike l m) (hLeft : l'.origin = l.origin)
    (hRight : m'.origin = m.origin) (hMarks : l'.marks = m'.marks) : Alike l' m' where
  look_eq := by rw [look_eq_of_origin hLeft, look_eq_of_origin hRight, h.look_eq]
  marks_eq := hMarks

/-! ### Marks -/

theorem eraseInline_marks (l : Line) : (eraseInline l).marks = l.marks := by
  have hLinks : (erasePhraseLinks l).marks = l.marks := foldl_marks (fun l link => by
    unfold erasePhraseLink
    split
    · rfl
    · cases link.url <;> rfl) _ l
  have hReference : ∀ (l : Line) r, (eraseReference l r).marks = l.marks := fun l r => by
    unfold eraseReference
    split <;> rfl
  unfold eraseInline
  simp only
  rw [foldl_marks hReference, foldl_marks fun l e => eraseEnclosure_marks l e, hLinks]

theorem eraseColons_marks (l : Line) : (eraseColons l).marks = l.marks := by
  unfold eraseColons
  simp only
  split
  · split <;> rfl
  · rfl

theorem Alike.eraseAll {l m : Line} (h : Alike l m) : Alike l.eraseAll m.eraseAll :=
  h.change (eraseAll_origin l) (eraseAll_origin m) (by simp [h.marks_eq])

theorem Alike.withSectionLevel {l m : Line} (h : Alike l m) (level : Nat) :
    Alike { l with sectionLevel := level } { m with sectionLevel := level } :=
  h.change rfl rfl (congrArg (fun k : Marks => { k with sectionLevel := level }) h.marks_eq)

theorem Alike.eraseInline {l m : Line} (h : Alike l m) : Alike (eraseInline l) (eraseInline m) :=
  h.change (eraseInline_origin l) (eraseInline_origin m)
    (by rw [eraseInline_marks, eraseInline_marks, h.marks_eq])

/-! ### Titles -/

theorem Alike.isBlankLine {l m : Line} (h : Alike l m) :
    isBlankLine (some l) = isBlankLine (some m) := by
  have hErased : l.erased = m.erased := congrArg Marks.erased h.marks_eq
  have hBlank : l.text.isAllBlank = m.text.isAllBlank := congrArg Look.blank h.look_eq
  rw [Rest.isBlankLine, Rest.isBlankLine, hErased, hBlank]

theorem Alike.indentation_eq {l m : Line} (h : Alike l m) : l.indentation = m.indentation :=
  congrArg Look.indentation h.look_eq

theorem Alike.adornment? {l m : Line} (h : Alike l m) :
    adornment? (some l) = adornment? (some m) := by
  have hRepeated : repeated? l.text = repeated? m.text := congrArg Look.repeated h.look_eq
  simp only [Rest.adornment?, h.isBlankLine, h.indentation_eq, hRepeated]

/-- A neighbour of a line, if there is one, is like another. -/
inductive AlikeNext : Option Line → Option Line → Prop where
  | none : AlikeNext none none
  | some {l m : Line} (h : Alike l m) : AlikeNext (some l) (some m)

namespace AlikeNext

variable {p q : Option Line}

theorem isBlankLine (h : AlikeNext p q) : isBlankLine p = isBlankLine q := by
  cases h with
  | none => rfl
  | some h => exact h.isBlankLine

theorem isIndented (h : AlikeNext p q) : isIndented p = isIndented q := by
  cases h with
  | none => rfl
  | some h => rw [Rest.isIndented, Rest.isIndented, h.isBlankLine, h.indentation_eq]

theorem adornment? (h : AlikeNext p q) : adornment? p = adornment? q := by
  cases h with
  | none => rfl
  | some h => exact h.adornment?

theorem head? {lines others : List Line} (h : List.Forall₂ Alike lines others) :
    AlikeNext lines.head? others.head? := by
  cases h with
  | nil => exact .none
  | cons hFirst _ => exact .some hFirst

end AlikeNext

theorem levelBetween?_alike {p q f g : Option Line} (hAbove : AlikeNext p q)
    (hBelow : AlikeNext f g) : levelBetween? p f = levelBetween? q g := by
  unfold levelBetween?
  rw [hAbove.adornment?, hBelow.adornment?]

theorem markTitles_alike (done lines : List Line) :
    ∀ passed others, List.Forall₂ Alike done passed → List.Forall₂ Alike lines others →
      List.Forall₂ Alike (markTitles done lines).1 (markTitles passed others).1 := by
  induction done, lines using markTitles.induct with
  | case1 done =>
      intro passed others hDone hLines
      cases hLines
      exact List.rel_reverse hDone
  | case2 done l =>
      intro passed others hDone hLines
      obtain _ | ⟨hLine, hNil⟩ := hLines
      cases hNil
      rw [markTitles, markTitles, hLine.adornment?, (AlikeNext.head? hDone).isBlankLine]
      refine List.rel_reverse (.cons ?_ hDone)
      split
      · exact hLine.eraseAll
      · exact hLine
  | case3 done l next rest previous following hSkip transition ih =>
      intro passed others hDone hLines
      obtain _ | ⟨hLine, hRest⟩ := hLines
      obtain _ | ⟨hNext, hMore⟩ := hRest
      rw [markTitles, if_pos hSkip]
      rw [hLine.isBlankLine, hLine.adornment?] at hSkip
      rw [markTitles, if_pos hSkip]
      refine ih _ _ (.cons ?_ hDone) (.cons hNext hMore)
      simp only [transition, previous, following, hLine.adornment?, hNext.isBlankLine,
        (AlikeNext.head? hDone).isBlankLine]
      split
      · exact hLine.eraseAll
      · exact hLine
  | case4 done l next rest previous following hSeen hNone ih =>
      intro passed others hDone hLines
      obtain _ | ⟨hLine, hRest⟩ := hLines
      obtain _ | ⟨hNext, hMore⟩ := hRest
      simp only [previous, following] at hNone
      rw [markTitles, if_neg hSeen]
      simp only [hNone]
      rw [levelBetween?_alike (AlikeNext.head? hDone) (.some hNext)] at hNone
      rw [hLine.isBlankLine, hLine.adornment?] at hSeen
      rw [markTitles, if_neg hSeen]
      simp only [hNone]
      exact ih _ _ (.cons hLine hDone) (.cons hNext hMore)
  | case5 done l next rest previous following hSeen level hLevel title above done' _ _ _ ih =>
      intro passed others hDone hLines
      obtain _ | ⟨hLine, hRest⟩ := hLines
      obtain _ | ⟨hNext, hMore⟩ := hRest
      simp only [previous, following] at hLevel
      rw [markTitles, if_neg hSeen]
      simp only [hLevel]
      rw [levelBetween?_alike (AlikeNext.head? hDone) (.some hNext)] at hLevel
      rw [hLine.isBlankLine, hLine.adornment?] at hSeen
      rw [markTitles, if_neg hSeen]
      simp only [hLevel]
      refine ih _ _ (.cons hNext.eraseAll (.cons ?_ ?_)) hMore
      · simp only [title]
        split
        · exact hLine.withSectionLevel level
        · exact hLine
      · simp only [done', above, previous, (AlikeNext.head? hDone).adornment?]
        split
        · cases hDone with
          | nil => exact .nil
          | cons hFirst hOthers => exact .cons hFirst.eraseAll hOthers
        · exact hDone

/-! ### Blocks and lists -/

/-- The same is open, as far as it matters which block is. -/
structure State.Alike (s t : State) : Prop where
  block_eq : s.block.map (· == .doctest) = t.block.map (· == .doctest)
  inList_eq : s.inList = t.inList
  inTable_eq : s.inTable = t.inTable
  indents_eq : s.indents = t.indents

theorem State.Alike.refl (s : State) : s.Alike s := ⟨rfl, rfl, rfl, rfl⟩

/-- What is open and the line, after a line. -/
def AlikeResult (a b : State × Line) : Prop := a.1.Alike b.1 ∧ Alike a.2 b.2

theorem Alike.markItem {l m : Line} (h : Alike l m) (level : Int) (length width : Nat) :
    Alike (markItem l level length) (markItem m level width) :=
  h.change (markItem_origin l level length) (markItem_origin m level width)
    (congrArg (fun k : Marks => { k with listStart := true, listLevel := level }) h.marks_eq)

/-- The length of the mark of a list item, given whether one with a number may stand there. -/
def markerOf (free : Bool) (text : Text) : Option Nat :=
  match marked? bullet? text with
  | some n => some n
  | none => if free then marked? enumerator? text else none

/-- What becomes of a line that has no mark of a list item. -/
def classifyUnmarked (s : State) (free afterBlank belowIndented : Bool) (l : Line) : State × Line :=
  match if l.indentation = 0 then field? l.text else none with
  | some length => ({ s with indents := [0], inList := true }, markItem l 1 length)
  | none =>
      if l.indentation == 0 && belowIndented && !l.text.endsWith [':'] && free then
        ({ s with indents := [0], inList := true }, l.eraseAll)
      else if 0 < l.indentation then
        let bare := l.erase 0 l.indentation
        if s.inList then
          (s, { bare with listLevel := max s.indents.length 1, listStart := afterBlank })
        else (s, bare)
      else ({ s with inList := false, indents := [] }, l)

theorem classifyList_eq (s : State) (previous following : Option Line) (l : Line) :
    classifyList s previous following l =
      match markerOf (isBlankLine previous || s.inList) l.text with
      | some length =>
          let indents := openLevel l.indentation s.indents
          ({ s with indents := indents, inList := true }, markItem l indents.length length)
      | none => classifyUnmarked s (isBlankLine previous || s.inList) (isBlankLine previous)
          (isIndented following) l := rfl

section Classifying

variable {s t : State} (hState : s.Alike t)
variable {p q : Option Line} (hAbove : isBlankLine p = isBlankLine q)
variable {f g : Option Line} (hBelow : isIndented f = isIndented g)
variable {l m : Line} (hLine : Alike l m)

include hLine in
theorem markerOf_isSome (free : Bool) :
    (markerOf free l.text).isSome = (markerOf free m.text).isSome := by
  have hBullet : (marked? bullet? l.text).isSome = (marked? bullet? m.text).isSome :=
    congrArg Look.bullet hLine.look_eq
  have hEnumerator : (marked? enumerator? l.text).isSome = (marked? enumerator? m.text).isSome :=
    congrArg Look.enumerator hLine.look_eq
  unfold markerOf
  rcases isSome_cases hBullet with ⟨hl, hm⟩ | ⟨x, y, hl, hm⟩
  · rw [hl, hm]
    cases free with
    | true => exact hEnumerator
    | false => rfl
  · rw [hl, hm]
    rfl

include hState hLine in
theorem classifyUnmarked_alike (free afterBlank belowIndented : Bool) :
    AlikeResult (classifyUnmarked s free afterBlank belowIndented l)
      (classifyUnmarked t free afterBlank belowIndented m) := by
  have hField : (if l.indentation = 0 then field? l.text else none).isSome =
      (if m.indentation = 0 then field? m.text else none).isSome := by
    rw [hLine.indentation_eq]
    split
    · exact congrArg Look.field hLine.look_eq
    · rfl
  have hColon : l.text.endsWith [':'] = m.text.endsWith [':'] :=
    congrArg Look.colon hLine.look_eq
  unfold classifyUnmarked
  rcases isSome_cases hField with ⟨hl, hm⟩ | ⟨length, width, hl, hm⟩
  · rw [hl, hm]
    simp only [hLine.indentation_eq, hColon, hState.inList_eq, hState.indents_eq]
    split
    · exact ⟨⟨hState.block_eq, rfl, hState.inTable_eq, rfl⟩, hLine.eraseAll⟩
    · split
      · split
        · exact ⟨hState, hLine.change (erase_origin l _ _) (erase_origin m _ _)
            (congrArg (fun k : Marks => { k with
              listLevel := max (t.indents.length : Int) 1, listStart := afterBlank })
              hLine.marks_eq)⟩
        · exact ⟨hState, hLine.change (erase_origin l _ _) (erase_origin m _ _) hLine.marks_eq⟩
      · exact ⟨⟨hState.block_eq, rfl, hState.inTable_eq, rfl⟩, hLine⟩
  · rw [hl, hm]
    exact ⟨⟨hState.block_eq, rfl, hState.inTable_eq, rfl⟩, hLine.markItem 1 length width⟩

include hState hAbove hBelow hLine in
theorem classifyList_alike : AlikeResult (classifyList s p f l) (classifyList t q g m) := by
  have hMarker := markerOf_isSome hLine (isBlankLine q || t.inList)
  rw [classifyList_eq, classifyList_eq, hAbove, hBelow, hState.inList_eq]
  rcases isSome_cases hMarker with ⟨hl, hm⟩ | ⟨length, width, hl, hm⟩
  · rw [hl, hm]
    exact classifyUnmarked_alike hState hLine _ _ _
  · rw [hl, hm, hLine.indentation_eq, hState.indents_eq]
    exact ⟨⟨hState.block_eq, rfl, hState.inTable_eq, rfl⟩, hLine.markItem _ length width⟩

include hState hAbove hBelow hLine in
theorem classifyProse_alike : AlikeResult (classifyProse s p f l) (classifyProse t q g m) := by
  have hLiteral : opensLiteral l = opensLiteral m := congrArg Look.literal hLine.look_eq
  unfold classifyProse
  rw [hLiteral]
  cases opensLiteral m with
  | true =>
      have hOpened : State.Alike { s with block := some .literal }
          { t with block := some .literal } :=
        ⟨rfl, hState.inList_eq, hState.inTable_eq, hState.indents_eq⟩
      have hColons : Alike (eraseColons l) (eraseColons m) :=
        hLine.change (eraseColons_origin l) (eraseColons_origin m)
          (by rw [eraseColons_marks, eraseColons_marks, hLine.marks_eq])
      have hList := classifyList_alike hOpened hAbove hBelow hColons
      exact ⟨hList.1, hList.2.eraseInline⟩
  | false =>
      have hList := classifyList_alike hState hAbove hBelow hLine
      exact ⟨hList.1, hList.2.eraseInline⟩

include hState hAbove hBelow hLine in
theorem classifyOpen_alike : AlikeResult (classifyOpen s p f l) (classifyOpen t q g m) := by
  have hEdge : (isGridEdge l.text || isColumnEdge l.text) =
      (isGridEdge m.text || isColumnEdge m.text) := congrArg Look.tableEdge hLine.look_eq
  have hBlock : (blockKind? l.text).map (· == .doctest) = (blockKind? m.text).map (· == .doctest) :=
    congrArg Look.block hLine.look_eq
  have hLineBlock : isLineBlock l.text = isLineBlock m.text :=
    congrArg Look.lineBlock hLine.look_eq
  have hColons : (l.text.strip == [':', ':']) = (m.text.strip == [':', ':']) :=
    congrArg Look.onlyColons hLine.look_eq
  have hIsColons : l.text.strip = [':', ':'] ↔ m.text.strip = [':', ':'] := by
    rw [← beq_iff_eq, hColons, beq_iff_eq]
  unfold classifyOpen
  simp only [hState.inTable_eq, hEdge, hLineBlock, hIsColons]
  split
  · exact ⟨hState, hLine.eraseAll⟩
  split
  · exact ⟨⟨hState.block_eq, hState.inList_eq, rfl, hState.indents_eq⟩, hLine.eraseAll⟩
  cases hl : blockKind? l.text with
  | some kind =>
      cases hm : blockKind? m.text with
      | none => simp [hl, hm] at hBlock
      | some other =>
          rw [hl, hm] at hBlock
          exact ⟨⟨hBlock, hState.inList_eq, rfl, hState.indents_eq⟩, hLine.eraseAll⟩
  | none =>
      cases hm : blockKind? m.text with
      | some other => simp [hl, hm] at hBlock
      | none =>
          simp only
          split
          · exact ⟨hState, hLine.eraseAll⟩
          split
          · exact ⟨⟨rfl, hState.inList_eq, rfl, hState.indents_eq⟩, hLine.eraseAll⟩
          · exact classifyProse_alike hState hAbove hBelow hLine

include hState hAbove hBelow hLine in
/-- One line. -/
theorem classifyLine_alike : AlikeResult (classifyLine s p f l) (classifyLine t q g m) := by
  have hLevel : l.sectionLevel = m.sectionLevel := congrArg Marks.sectionLevel hLine.marks_eq
  have hBlock := hState.block_eq
  unfold classifyLine
  rw [hLevel, hLine.isBlankLine, hBelow, hLine.indentation_eq]
  split
  · exact ⟨.refl _, hLine.eraseInline⟩
  split
  · split
    · exact ⟨hState, hLine⟩
    · exact ⟨.refl _, hLine⟩
  cases hs : s.block with
  | none =>
      cases ht : t.block with
      | some other => simp [hs, ht] at hBlock
      | none => exact classifyOpen_alike hState hAbove hBelow hLine
  | some kind =>
      cases ht : t.block with
      | none => simp [hs, ht] at hBlock
      | some other =>
          have hDoctest : kind = .doctest ↔ other = .doctest := by
            rw [hs, ht] at hBlock
            simpa only [beq_iff_eq] using Bool.eq_iff_iff.mp (Option.some_inj.mp hBlock)
          have hClosed : State.Alike { s with block := none } { t with block := none } :=
            ⟨rfl, hState.inList_eq, hState.inTable_eq, hState.indents_eq⟩
          simp only [hDoctest]
          split
          · exact ⟨hState, hLine.eraseAll⟩
          · exact classifyOpen_alike hClosed hAbove hBelow hLine

end Classifying

/-- Lines one after the other. -/
theorem classifyLines_alike {s t : State} (hState : s.Alike t) {p q : Option Line}
    (hAbove : AlikeNext p q) {lines others : List Line} (h : List.Forall₂ Alike lines others) :
    List.Forall₂ Alike (classifyLines s p lines) (classifyLines t q others) := by
  induction h generalizing s t p q with
  | nil => exact .nil
  | @cons l m rest more hLine hRest ih =>
      have hErased : l.erased = m.erased := congrArg Marks.erased hLine.marks_eq
      have hResult : AlikeResult (if l.erased then (s, l) else classifyLine s p rest.head? l)
          (if m.erased then (t, m) else classifyLine t q more.head? m) := by
        rw [hErased]
        split
        · exact ⟨hState, hLine⟩
        · exact classifyLine_alike hState hAbove.isBlankLine (AlikeNext.head? hRest).isIndented
            hLine
      exact .cons hResult.2 (ih hResult.1 (.some hResult.2))

theorem eraseComments_alike {lines others : List Line} (h : List.Forall₂ Alike lines others) :
    List.Forall₂ Alike (Suppress.eraseComments lines) (Suppress.eraseComments others) := by
  refine List.forall₂_map_left_iff.mpr (List.forall₂_map_right_iff.mpr (h.imp fun l m hLine => ?_))
  rw [show (Suppress.rule? l).isSome = (Suppress.rule? m).isSome from
    congrArg Look.suppress hLine.look_eq]
  split
  · exact hLine.eraseAll
  · exact hLine

theorem alike_of_map_eq {lines others : List Line} (hLooks : lines.map look = others.map look)
    (hMarks : lines.map marks = others.map marks) : List.Forall₂ Alike lines others := by
  induction lines generalizing others with
  | nil =>
      rw [List.map_nil, eq_comm, List.map_eq_nil_iff] at hLooks
      rw [hLooks]
      exact .nil
  | cons l rest ih =>
      cases others with
      | nil => cases hLooks
      | cons m more =>
          obtain ⟨hLook, hRestLooks⟩ := List.cons.inj hLooks
          obtain ⟨hMark, hRestMarks⟩ := List.cons.inj hMarks
          exact .cons ⟨hLook, hMark⟩ (ih hRestLooks hRestMarks)

/-- The block structure of a structured text is decided by what the patterns find on its
lines. -/
theorem classify_marks {lines others : List Line} (hLooks : lines.map look = others.map look)
    (hMarks : lines.map marks = others.map marks) :
    (classify lines).lines.map marks = (classify others).lines.map marks := by
  have hTitles := markTitles_alike [] _ [] _ .nil
    (eraseComments_alike (alike_of_map_eq hLooks hMarks))
  have hAll := classifyLines_alike (.refl .initial) .none hTitles
  rw [← List.forall₂_eq_eq_eq, List.forall₂_map_left_iff, List.forall₂_map_right_iff]
  exact hAll.imp fun l m hLine => hLine.marks_eq

end Rest

end ProseLint
