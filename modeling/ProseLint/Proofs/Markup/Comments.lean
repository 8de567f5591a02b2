import ProseLint.Proofs.Markup.Documents
import ProseLint.Proofs.Markup.Kinds
import ProseLint.Proofs.Source.Enclosures
import ProseLint.Proofs.Source.Escapes
import ProseLint.Proofs.Source.Moving
import Mathlib.Data.Nat.Find

/-! Comments in wiki texts. A comment behind the start of a line hides just itself: the rest of the
line is read as if letters stood in its place. A line that starts with a comment is hidden as a
whole, and what is below it as well unless the line ends with a closing mark. -/

namespace ProseLint.Wiki

/-! ## Text outside of comments -/

/-- A letter, which no markup of a line looks for. -/
def letter : Char := 'x'

/-- Whether a position is inside of a comment or on one of its marks. -/
def isCommented (l : Line) (i : Nat) : Bool :=
  (comment.pairs none 0 l.cells).any (comment.erases i)

/-- The line with letters in place of its comments. -/
def lettered (l : Line) : Line :=
  { l with cells := l.cells.mapIdx fun i c =>
      if isCommented l i then { c with char := letter, escaped := false } else c }

/-- The line without its markup, if it has no comments. -/
def eraseMarkup (l : Line) : Line :=
  inlineMarkup.foldl (fun l e => (l.eraseEnclosure e).1) (eraseLinks (markStart l l.text))

/-- A character that is seen on a line and belongs neither to a comment nor to other markup. What is
other markup is told with letters in place of the comments. A closing mark right behind an opening
one makes no comment, but it is no text either. -/
structure IsText (l : Line) (i : Nat) (c : Cell) : Prop where
  cell : l.cells[i]? = some c
  seen : isBlank c.char = false
  outside : isCommented l i = false
  apart : ∀ k : Nat, k ≤ i → i < k + (commentOpening ++ commentClosing).length →
    l.startsWith (commentOpening ++ commentClosing) k = false
  kept : ∃ d, (eraseMarkup (lettered l)).cells[i]? = some d ∧ d.kept = true

/-! ## What the search for marks sees -/

/-- What a character shows to a search for marks. Letters show as little as what is erased. -/
def veiled (c : Cell) : Option Char := c.glyph.filter (· != letter)

/-- Two characters beside a mark between which the search makes no difference. -/
def AlikeBeside (p q : Option Char) : Prop := p.filter (· != letter) = q.filter (· != letter)

theorem beq_filter {p : Option Char} {c : Char} (hLetter : c ≠ letter) :
    (p == some c) = (p.filter (· != letter) == some c) := by
  cases p with
  | none => rfl
  | some d =>
      by_cases hSame : d = letter
      · subst hSame
        simp [Ne.symm hLetter]
      · rw [Option.filter_some, if_pos (bne_iff_ne.mpr hSame)]

theorem AlikeBeside.beq {p q : Option Char} (h : AlikeBeside p q) {c : Char}
    (hLetter : c ≠ letter) : (p == some c) = (q == some c) := by
  rw [beq_filter hLetter, h, ← beq_filter hLetter]

theorem isPartOfRun_alike {delimiter : Text} (hLetter : letter ∉ delimiter) {p q a b : Option Char}
    (hBefore : AlikeBeside p q) (hAfter : AlikeBeside a b) :
    Enclosure.isPartOfRun delimiter p a = Enclosure.isPartOfRun delimiter q b := by
  cases delimiter with
  | nil => rfl
  | cons d rest =>
      have hNe : d ≠ letter := fun hSame => hLetter (hSame ▸ List.mem_cons_self)
      rw [Enclosure.isPartOfRun, Enclosure.isPartOfRun, hBefore.beq hNe, hAfter.beq hNe]

/-- Cells of which a search for marks sees the same. -/
def AlikeCells (cells others : List Cell) : Prop := cells.map veiled = others.map veiled

namespace AlikeCells

variable {cells others : List Cell}

theorem drop (h : AlikeCells cells others) (n : Nat) :
    AlikeCells (cells.drop n) (others.drop n) := by
  rw [AlikeCells, List.map_drop, List.map_drop, h]

theorem exists_cons {c : Cell} (h : AlikeCells (c :: cells) others) :
    ∃ d rest, others = d :: rest ∧ AlikeBeside c.glyph d.glyph ∧ AlikeCells cells rest := by
  obtain ⟨d, rest, rfl, hHead, hRest⟩ := List.map_eq_cons_iff.mp h.symm
  exact ⟨d, rest, rfl, hHead.symm, hRest.symm⟩

theorem eq_nil (h : AlikeCells [] others) : others = [] := List.map_eq_nil_iff.mp h.symm

theorem headGlyph (h : AlikeCells cells others) :
    AlikeBeside (Enclosure.headGlyph cells) (Enclosure.headGlyph others) := by
  cases cells with
  | nil =>
      rw [h.eq_nil]
      rfl
  | cons c cells =>
      obtain ⟨d, rest, rfl, hHead, -⟩ := h.exists_cons
      exact hHead

theorem spells (h : AlikeCells cells others) {needle : Text} (hLetter : letter ∉ needle) :
    Cell.spells needle cells = Cell.spells needle others := by
  induction needle generalizing cells others with
  | nil => rw [Cell.spells, Cell.spells]
  | cons ch needle ih =>
      rw [List.mem_cons, not_or] at hLetter
      cases cells with
      | nil => rw [h.eq_nil]
      | cons c cells =>
          obtain ⟨d, rest, rfl, hHead, hRest⟩ := h.exists_cons
          rw [Cell.spells, Cell.spells, hHead.beq (Ne.symm hLetter.1), ih hRest hLetter.2]

theorem find? (h : AlikeCells cells others) {needle : Text} (hLetter : letter ∉ needle) :
    Cell.find? needle cells = Cell.find? needle others := by
  induction cells generalizing others with
  | nil => rw [h.eq_nil]
  | cons c cells ih =>
      have hSpells := h.spells hLetter
      obtain ⟨d, rest, rfl, -, hRest⟩ := h.exists_cons
      rw [Cell.find?, Cell.find?, hSpells, ih hRest]

theorem seek (h : AlikeCells cells others) {delimiter : Text} (hLetter : letter ∉ delimiter)
    {accepts : Option Char → Option Char → Bool}
    (hAccepts : ∀ p q a b, AlikeBeside p q → AlikeBeside a b → accepts p a = accepts q b)
    {before after : Option Char} (hBefore : AlikeBeside before after) :
    Enclosure.seek accepts delimiter before cells =
      Enclosure.seek accepts delimiter after others := by
  induction cells generalizing others before after with
  | nil => rw [h.eq_nil, Enclosure.seek, Enclosure.seek]
  | cons c cells ih =>
      have hSpells := h.spells hLetter
      have hBehind := (h.drop delimiter.length).headGlyph
      obtain ⟨d, rest, rfl, hHead, hRest⟩ := h.exists_cons
      rw [Enclosure.seek, Enclosure.seek, hSpells, hAccepts _ _ _ _ hBefore hBehind,
        ih hRest hHead]

/-- The same enclosures are found. -/
theorem pairs {e : Enclosure} (hBoundary : e.boundary = false) (hOpening : letter ∉ e.opening)
    (hClosing : letter ∉ e.closing) (before : Option Char) (i : Nat) (cells : List Cell) :
    ∀ after others, AlikeBeside before after → AlikeCells cells others →
      e.pairs before i cells = e.pairs after i others := by
  have hOpens : ∀ p q a b, AlikeBeside p q → AlikeBeside a b →
      Enclosure.acceptsOpening e.boundary e.opening p a =
        Enclosure.acceptsOpening e.boundary e.opening q b := by
    intro p q a b hLeft hRight
    rw [hBoundary, Enclosure.acceptsOpening, Enclosure.acceptsOpening,
      isPartOfRun_alike hOpening hLeft hRight]
    rfl
  have hCloses : ∀ p q a b, AlikeBeside p q → AlikeBeside a b →
      Enclosure.acceptsClosing e.boundary e.closing p a =
        Enclosure.acceptsClosing e.boundary e.closing q b := by
    intro p q a b hLeft hRight
    rw [hBoundary, Enclosure.acceptsClosing, Enclosure.acceptsClosing,
      isPartOfRun_alike hClosing hLeft hRight]
    rfl
  induction before, i, cells using Enclosure.pairs.induct e with
  | case1 before i =>
      intro after others _ h
      rw [h.eq_nil, Enclosure.pairs, Enclosure.pairs]
  | case2 before i c rest hNone =>
      intro after others hBefore h
      have hSame := h.seek hOpening hOpens hBefore
      obtain ⟨d, others, rfl, -, -⟩ := h.exists_cons
      rw [Enclosure.pairs, Enclosure.pairs, ← hSame, hNone]
  | case3 before i c rest b hSome content hNone =>
      intro after others hBefore h
      have hSame := h.seek hOpening hOpens hBefore
      have hContent := h.drop (b + e.opening.length)
      have hInner := (hContent.drop 1).seek hClosing hCloses hContent.headGlyph
      obtain ⟨d, others, rfl, -, -⟩ := h.exists_cons
      rw [Enclosure.pairs, Enclosure.pairs, ← hSame, hSome]
      simp only [content] at hNone
      simp only [← hInner, hNone]
  | case4 before i c rest b hSome content k hClosed used ih =>
      intro after others hBefore h
      have hSame := h.seek hOpening hOpens hBefore
      have hContent := h.drop (b + e.opening.length)
      have hInner := (hContent.drop 1).seek hClosing hCloses hContent.headGlyph
      have hRest := h.drop used
      obtain ⟨d, others, rfl, -, -⟩ := h.exists_cons
      rw [Enclosure.pairs, Enclosure.pairs, ← hSame, hSome]
      simp only [content] at hClosed
      simp only [← hInner, hClosed]
      exact congrArg (_ :: ·) (ih _ _ rfl hRest)

/-- The same links are found. -/
theorem linksFrom (i : Nat) (cells : List Cell) :
    ∀ others, AlikeCells cells others → Wiki.linksFrom i cells = Wiki.linksFrom i others := by
  have hOpening : letter ∉ ['[', '['] := by decide
  have hClosing : letter ∉ [']', ']'] := by decide
  have hBar : letter ∉ ['|'] := by decide
  induction i, cells using Wiki.linksFrom.induct with
  | case1 i =>
      intro others h
      rw [h.eq_nil]
  | case2 i c rest hNone =>
      intro others h
      have hSame := h.find? hOpening
      obtain ⟨d, others, rfl, -, -⟩ := h.exists_cons
      rw [Wiki.linksFrom, Wiki.linksFrom, ← hSame, hNone]
  | case3 i c rest b hSome content hNone =>
      intro others h
      have hSame := h.find? hOpening
      have hInner := (h.drop (b + 2)).find? hClosing
      obtain ⟨d, others, rfl, -, -⟩ := h.exists_cons
      rw [Wiki.linksFrom, Wiki.linksFrom, ← hSame, hSome]
      simp only [content] at hNone
      simp only [← hInner, hNone]
  | case4 i c rest b hSome content k hClosed ih =>
      intro others h
      have hSame := h.find? hOpening
      have hContent := h.drop (b + 2)
      have hInner := hContent.find? hClosing
      have hLabel := hContent.find? hBar
      have hRest := h.drop (b + 4 + k)
      obtain ⟨d, others, rfl, -, -⟩ := h.exists_cons
      rw [Wiki.linksFrom, Wiki.linksFrom, ← hSame, hSome]
      simp only [content] at hClosed
      simp only [← hInner, hClosed, ← hLabel]
      exact congrArg (_ :: ·) (ih _ hRest)

end AlikeCells

/-! ## Marks at the start of a line -/

/-- A character at which the search for the mark of a header or a list element ends. -/
structure EndsStart (c : Char) : Prop where
  seen : isBlank c = false
  noMark : isListMark c = false
  noHeader : c ≠ 'h' ∧ c ≠ '.' ∧ ¬(49 ≤ c.toNat ∧ c.toNat ≤ 54)

section

variable {c : Char} (h : EndsStart c)
include h

theorem header?_before (front rest : Text) : header? (front ++ c :: rest) = header? front := by
  obtain ⟨hFirst, hDot, hLevel⟩ := h.noHeader
  match front with
  | [] =>
      rw [List.nil_append]
      unfold header?
      split
      · next hMark => exact absurd (List.cons.inj hMark).1 hFirst
      · rfl
  | [a] =>
      cases rest with
      | nil => simp [header?]
      | cons b rest =>
          rw [List.singleton_append, header?_cons, if_neg fun hMark =>
            hLevel ⟨hMark.2.2.1, hMark.2.2.2.1⟩]
          simp [header?]
  | [a, b] =>
      have hCons : [a, b] ++ c :: rest = a :: b :: c :: rest := rfl
      rw [hCons, header?_cons, if_neg fun hMark => hDot hMark.2.1]
      simp [header?]
  | a :: b :: d :: front =>
      rw [List.cons_append, List.cons_append, List.cons_append, header?_cons, header?_cons,
        takeWhile_append_cons h.seen]

theorem listItem?_before (front rest : Text) :
    listItem? (front ++ c :: rest) = listItem? front := by
  have hLevel : (front.takeWhile isListMark).length ≤ front.length :=
    (List.takeWhile_prefix isListMark).length_le
  rw [listItem?, listItem?, takeWhile_append_cons h.noMark, List.drop_append_of_le_length hLevel,
    takeWhile_append_cons h.seen]

end

theorem letter_endsStart : EndsStart letter := ⟨by decide, by decide, by decide⟩

theorem opening_endsStart : EndsStart '[' := ⟨by decide, by decide, by decide⟩

/-! ## Letters in place of comments -/

/-- Cells that are the same but where some are gone, of which a search for marks sees the same. -/
structure SameBut (gone : Nat → Bool) (cells others : List Cell) : Prop where
  same : ∀ i, gone i = false → cells[i]? = others[i]?
  alike : AlikeCells cells others

namespace SameBut

variable {gone : Nat → Bool}

/-- Erasing the same characters on both sides. -/
theorem mapIdx {cells others : List Cell} (h : SameBut gone cells others) {f : Nat → Cell → Cell}
    (erased : Nat → Bool) (hf : ∀ i c, (f i c).glyph = if erased i then none else c.glyph) :
    SameBut gone (cells.mapIdx f) (others.mapIdx f) where
  same i hKept := by
    rw [List.getElem?_mapIdx, List.getElem?_mapIdx, h.same i hKept]
  alike := by
    apply List.ext_getElem?
    intro i
    have hHere : cells[i]?.map veiled = others[i]?.map veiled := by
      rw [← List.getElem?_map, ← List.getElem?_map, h.alike]
    have hVeiled : ∀ c, veiled (f i c) = if erased i then none else veiled c := by
      intro c
      rw [veiled, hf]
      cases erased i <;> rfl
    have hStep : ∀ o : Option Cell, (o.map (f i)).map veiled =
        (o.map veiled).map fun p => if erased i then none else p := by
      intro o
      cases o with
      | none => rfl
      | some c => exact congrArg some (hVeiled c)
    rw [List.getElem?_map, List.getElem?_map, List.getElem?_mapIdx, List.getElem?_mapIdx, hStep,
      hStep, hHere]

theorem erase {l m : Line} (h : SameBut gone l.cells m.cells) (start count : Int) :
    SameBut gone (l.erase start count).cells (m.erase start count).cells := by
  refine h.mapIdx (fun i => decide (start ≤ i ∧ (i : Int) < start + count)) fun i c => ?_
  by_cases hIn : start ≤ i ∧ (i : Int) < start + count
  · rw [if_pos hIn, if_pos (decide_eq_true hIn)]
    rfl
  · rw [if_neg hIn, if_neg (by rwa [decide_eq_true_eq])]

theorem eraseEnclosure {l m : Line} (h : SameBut gone l.cells m.cells) {e : Enclosure}
    (hBoundary : e.boundary = false) (hOpening : letter ∉ e.opening)
    (hClosing : letter ∉ e.closing) :
    SameBut gone (l.eraseEnclosure e).1.cells (m.eraseEnclosure e).1.cells := by
  rw [Line.eraseEnclosure_eq, Line.eraseEnclosure_eq,
    ← AlikeCells.pairs hBoundary hOpening hClosing none 0 l.cells none m.cells rfl h.alike]
  refine h.mapIdx (fun i => (e.pairs none 0 l.cells).any (e.erases i)) fun i c => ?_
  rw [Enclosure.changed, Cell.glyph, Cell.glyph]
  cases (e.pairs none 0 l.cells).any (e.erases i) <;> simp

theorem eraseMarks {l m : Line} (h : SameBut gone l.cells m.cells) :
    SameBut gone (inlineMarkup.foldl (fun l e => (l.eraseEnclosure e).1) l).cells
      (inlineMarkup.foldl (fun l e => (l.eraseEnclosure e).1) m).cells := by
  have hPlain : ∀ e ∈ inlineMarkup,
      e.boundary = false ∧ letter ∉ e.opening ∧ letter ∉ e.closing := by decide
  generalize inlineMarkup = marks at hPlain
  induction marks generalizing l m with
  | nil => exact h
  | cons e marks ih =>
      rw [List.forall_mem_cons] at hPlain
      exact ih (h.eraseEnclosure hPlain.1.1 hPlain.1.2.1 hPlain.1.2.2) hPlain.2

theorem eraseLinks {l m : Line} (h : SameBut gone l.cells m.cells) :
    SameBut gone (eraseLinks l).cells (eraseLinks m).cells := by
  rw [Wiki.eraseLinks, Wiki.eraseLinks, ← AlikeCells.linksFrom 0 l.cells m.cells h.alike]
  generalize linksFrom 0 l.cells = links
  induction links generalizing l m with
  | nil => exact h
  | cons link links ih =>
      refine ih ?_
      rw [eraseLink, eraseLink]
      cases link.bar with
      | none => exact (h.erase _ _).erase _ _
      | some bar => exact (h.erase _ _).erase _ _

theorem markStart {l m : Line} (h : SameBut gone l.cells m.cells) {t u : Text}
    (hHeader : header? t = header? u) (hItem : listItem? t = listItem? u)
    (hFirst : listItem? t ≠ none → gone 0 = false) :
    SameBut gone (markStart l t).cells (markStart m u).cells := by
  rw [Wiki.markStart, Wiki.markStart, ← hHeader, ← hItem]
  cases header? t with
  | some found => exact h.erase _ _
  | none =>
      cases hFound : listItem? t with
      | none => exact h
      | some found =>
          have hSame : l.isEscaped 0 = m.isEscaped 0 := by
            have hCell := h.same 0 (hFirst (by rw [hFound]; exact Option.some_ne_none _))
            simp [Line.isEscaped, Line.cell?, hCell]
          simp only [← hSame]
          cases l.isEscaped 0 with
          | true => exact h
          | false => exact h.erase _ _

end SameBut

section

variable (l : Line)

theorem getElem?_lettered (i : Nat) : (lettered l).cells[i]? = l.cells[i]?.map fun c =>
    if isCommented l i then { c with char := letter, escaped := false } else c := by
  rw [lettered, List.getElem?_mapIdx]

theorem lettered_text (i : Nat) : (lettered l).text[i]? =
    l.text[i]?.map fun c => if isCommented l i then letter else c := by
  rw [Line.text, Line.text, List.getElem?_map, List.getElem?_map, getElem?_lettered]
  cases l.cells[i]? with
  | none => rfl
  | some c => cases isCommented l i <;> rfl

/-- Letters stand where comments have been erased. -/
theorem sameBut_lettered :
    SameBut (isCommented l) (l.eraseEnclosure comment).1.cells (lettered l).cells where
  same i hOutside := by
    have hUnmarked : (comment.pairs none 0 l.cells).any (comment.marks i) = false :=
      List.any_eq_false.mpr fun _ _ => Bool.false_ne_true
    have hSame : ∀ c, comment.changed (comment.pairs none 0 l.cells) i c = c := by
      intro c
      rw [isCommented] at hOutside
      simp [Enclosure.changed, hOutside, hUnmarked]
    rw [Line.eraseEnclosure_eq, Enclosure.change, List.getElem?_mapIdx, getElem?_lettered, hOutside]
    cases l.cells[i]? with
    | none => rfl
    | some c => exact congrArg some (hSame c)
  alike := by
    apply List.ext_getElem?
    intro i
    rw [Line.eraseEnclosure_eq, Enclosure.change, List.getElem?_map, List.getElem?_map,
      List.getElem?_mapIdx, getElem?_lettered]
    cases l.cells[i]? with
    | none => rfl
    | some c =>
        have hErased : (comment.changed (comment.pairs none 0 l.cells) i c).glyph =
            if isCommented l i then none else c.glyph := by
          rw [Enclosure.changed, Cell.glyph, Cell.glyph, isCommented]
          cases (comment.pairs none 0 l.cells).any (comment.erases i) <;> simp
        refine congrArg some ?_
        rw [veiled, hErased]
        cases isCommented l i with
        | false => rfl
        | true =>
            have hLetter : Cell.glyph { c with char := letter, escaped := false } =
                if c.kept then some letter else none := rfl
            simp only [if_true]
            rw [veiled, hLetter]
            cases c.kept <;> rfl

/-- A comment starts with a bracket. -/
theorem exists_first_comment (h : ∃ i, isCommented l i = true) :
    ∃ p, isCommented l p = true ∧ (∀ k < p, isCommented l k = false) ∧ l.text[p]? = some '[' := by
  have hMin : ∀ k < Nat.find h, isCommented l k = false := fun k hLt =>
    Bool.eq_false_iff.mpr (Nat.find_min h hLt)
  obtain ⟨pair, hMem, hErases⟩ := List.any_eq_true.mp (Nat.find_spec h)
  obtain ⟨-, hBehind, hSpells⟩ := Enclosure.mem_pairs pair hMem
  have hLength : comment.opening.length = 4 := rfl
  have hStart : isCommented l pair.1 = true := by
    refine List.any_eq_true.mpr ⟨pair, hMem, ?_⟩
    rw [Enclosure.erases, decide_eq_true ⟨Nat.le_refl _, by omega⟩]
    rfl
  have hFirst : Nat.find h = pair.1 := by
    have hLe := Nat.find_min' h hStart
    simp only [Enclosure.erases, Bool.or_eq_true, decide_eq_true_eq] at hErases
    omega
  rw [Nat.sub_zero] at hSpells
  obtain ⟨c, hCell, hChar, -⟩ :=
    Line.carries_of_spells (by decide) hSpells 0 (by decide)
  refine ⟨Nat.find h, Nat.find_spec h, hMin, ?_⟩
  rw [hFirst, Line.text, List.getElem?_map]
  exact congrArg (Option.map Cell.char) hCell |>.trans (congrArg some hChar)

theorem eq_take_append_drop {t : Text} {i : Nat} {c : Char} (h : t[i]? = some c) :
    t = t.take i ++ c :: t.drop (i + 1) := by
  obtain ⟨hLt, rfl⟩ := List.getElem?_eq_some_iff.mp h
  rw [← List.drop_eq_getElem_cons hLt, List.take_append_drop]

/-- Comments do not change what introduces a line, and they are not part of it. -/
theorem start_lettered :
    header? l.text = header? (lettered l).text ∧ listItem? l.text = listItem? (lettered l).text ∧
      (listItem? l.text ≠ none → isCommented l 0 = false) := by
  by_cases h : ∃ i, isCommented l i = true
  · obtain ⟨p, hHere, hBefore, hBracket⟩ := exists_first_comment l h
    have hLetter : (lettered l).text[p]? = some letter := by
      rw [lettered_text, hBracket, hHere]
      rfl
    have hFront : (lettered l).text.take p = l.text.take p := by
      apply List.ext_getElem?
      intro i
      rw [List.getElem?_take, List.getElem?_take]
      by_cases hLt : i < p
      · rw [if_pos hLt, if_pos hLt, lettered_text, hBefore i hLt]
        cases l.text[i]? <;> rfl
      · rw [if_neg hLt, if_neg hLt]
    have hSplit := eq_take_append_drop hBracket
    have hLettered := eq_take_append_drop hLetter
    rw [hFront] at hLettered
    have hItem : listItem? l.text = listItem? (l.text.take p) := by
      conv_lhs => rw [hSplit]
      exact listItem?_before opening_endsStart _ _
    refine ⟨?_, ?_, fun hSome => ?_⟩
    · conv_lhs => rw [hSplit, header?_before opening_endsStart]
      conv_rhs => rw [hLettered, header?_before letter_endsStart]
    · conv_rhs => rw [hLettered, listItem?_before letter_endsStart]
      exact hItem
    · refine hBefore 0 (Nat.pos_of_ne_zero ?_)
      rintro rfl
      rw [hItem] at hSome
      exact hSome rfl
  · have hNone : ∀ i, isCommented l i = false := fun i =>
      Bool.eq_false_iff.mpr fun hCommented => h ⟨i, hCommented⟩
    have hText : (lettered l).text = l.text := by
      apply List.ext_getElem?
      intro i
      rw [lettered_text, hNone i]
      cases l.text[i]? <;> rfl
    rw [hText]
    exact ⟨rfl, rfl, fun _ => hNone 0⟩

/-- Outside of its comments a line of prose is read as if letters stood in their place. -/
theorem classifyProse_lettered {i : Nat} (hOutside : isCommented l i = false) :
    (classifyProse l).cells[i]? = (eraseMarkup (lettered l)).cells[i]? := by
  obtain ⟨hHeader, hItem, hFirst⟩ := start_lettered l
  have hStart := (sameBut_lettered l).markStart hHeader hItem hFirst
  exact hStart.eraseLinks.eraseMarks.same i hOutside

end

/-! ## A line among others -/

theorem classifyLines_cons (inComment : Bool) (l : Line) (rest : List Line) :
    classifyLines inComment (l :: rest) =
      (classifyLines (classifyLine inComment l).1 rest).map id
        ((classifyLine inComment l).2 :: ·) := rfl

theorem classifyLines_append (inComment : Bool) (above below : List Line) :
    classifyLines inComment (above ++ below) =
      (classifyLines (classifyLines inComment above).1 below).map id
        ((classifyLines inComment above).2 ++ ·) := by
  induction above generalizing inComment with
  | nil => rfl
  | cons l above ih =>
      rw [List.cons_append, classifyLines_cons, classifyLines_cons, ih]
      rfl

theorem length_classifyLines (inComment : Bool) (lines : List Line) :
    (classifyLines inComment lines).2.length = lines.length := by
  induction lines generalizing inComment with
  | nil => rfl
  | cons l lines ih => exact congrArg (· + 1) (ih _)

section

variable (above : List Text) (raw : Text) (below : List Text)

/-- What is made of a line below others, and whether a comment is open behind it. -/
def classifyBelow : Bool × Line :=
  classifyLine (classifyLines false (Line.ofTexts true above)).1
    (.ofText (above.length + 1) true raw)

theorem ofTexts_middle :
    Line.ofTexts true (above ++ raw :: below) = Line.ofTexts true above ++
      .ofText (above.length + 1) true raw ::
        (Line.ofTexts true below).map (Line.moved (above.length + 1)) := by
  have hMoved : ∀ l, Line.moved above.length (Line.moved 1 l) = Line.moved (above.length + 1) l :=
    fun l => by rw [Line.moved_moved, Nat.add_comm]
  have hHere : Line.moved above.length (Line.ofText 1 true raw) =
      .ofText (above.length + 1) true raw := by
    rw [Line.ofText_moved, Nat.add_comm]
  have hBelow : Line.ofTexts true (raw :: below) =
      .ofText 1 true raw :: (Line.ofTexts true below).map (Line.moved 1) :=
    Line.ofTexts_append true [raw] below
  rw [Line.ofTexts_append, hBelow, List.map_cons, List.map_map, hHere]
  exact congrArg (Line.ofTexts true above ++ _ :: ·) (List.map_congr_left fun l _ => hMoved l)

/-- The lines of a text around one of them. -/
theorem classify_middle :
    (classify (Line.ofTexts true (above ++ raw :: below))).lines =
      (classifyLines false (Line.ofTexts true above)).2 ++ (classifyBelow above raw).2 ::
        (classifyLines (classifyBelow above raw).1
          ((Line.ofTexts true below).map (Line.moved (above.length + 1)))).2 := by
  rw [classify, ofTexts_middle, classifyLines_append]
  rfl

/-- The other lines depend on a line only through the comment that is open behind it. -/
theorem eraseIdx_classify_middle :
    (classify (Line.ofTexts true (above ++ raw :: below))).lines.eraseIdx above.length =
      (classifyLines false (Line.ofTexts true above)).2 ++
        (classifyLines (classifyBelow above raw).1
          ((Line.ofTexts true below).map (Line.moved (above.length + 1)))).2 := by
  have hLength : (classifyLines false (Line.ofTexts true above)).2.length = above.length := by
    rw [length_classifyLines, Line.ofTexts, List.length_mapIdx]
  rw [classify_middle, List.eraseIdx_append_of_length_le (Nat.le_of_eq hLength), hLength,
    Nat.sub_self]
  rfl

end

/-- Whether a comment is open behind some lines. -/
def isOpenBehind (raws : List Text) : Bool := (classifyLines false (Line.ofTexts true raws)).1

/-- A line between others that hides nothing but its comments. The other lines of the text are
classified as with a blank line in its place, its own text stands in the document, and no comment is
open behind it. -/
structure HidesItself (o : ReadOptions) (t : Text) (above : List Text) (raw : Text)
    (below : List Text) : Prop where
  others : ∀ u blank : Text, blank.isAllBlank = true → u.lines = above ++ blank :: below →
    (Format.wiki.classify t).lines.eraseIdx above.length =
      (Format.wiki.classify u).lines.eraseIdx above.length
  text : ∀ i c, IsText (.ofText (above.length + 1) true raw) i c →
    (c.char, ⟨(above.length + 1 : Nat), c.offset⟩) ∈
      (Format.wiki.read o t).document.sentences.flatMap Sentence.visible
  once : isOpenBehind (above ++ [raw]) = false

section

variable {above : List Text} {raw : Text}

theorem isOpenBehind_concat : isOpenBehind (above ++ [raw]) = (classifyBelow above raw).1 := by
  rw [isOpenBehind, ofTexts_middle, classifyLines_append]
  rfl

/-- A line with a comment that is not at its start. -/
theorem classifyBelow_prose (hOpen : isOpenBehind above = false)
    (hNone : commentBody? (Line.ofText (above.length + 1) true raw).text = none) :
    classifyBelow above raw =
      (false, classifyProse (.ofText (above.length + 1) true raw)) := by
  rw [classifyBelow, ← isOpenBehind, hOpen, classifyLine, hNone]
  rfl

/-- A line that starts with a comment. -/
theorem classifyBelow_comment {body : Text} (hOpen : isOpenBehind above = false)
    (hSome : commentBody? (Line.ofText (above.length + 1) true raw).text = some body) :
    classifyBelow above raw =
      (!closesComment body, (Line.ofText (above.length + 1) true raw).eraseAll) := by
  rw [classifyBelow, ← isOpenBehind, hOpen, classifyLine, hSome]
  rfl

theorem commentBody?_blank {t : Text} (h : t.isAllBlank = true) : commentBody? t = none := by
  have hStrip : t.stripLeft = [] := List.dropWhile_eq_nil_iff.mpr (List.all_eq_true.mp h)
  rw [commentBody?, hStrip]
  rfl

theorem isAllBlank_ofText {blank : Text} (h : blank.isAllBlank = true) (n : Nat) :
    (Line.ofText n true blank).text.isAllBlank = true := by
  refine List.all_eq_true.mpr fun c hMem => List.all_eq_true.mp h c ?_
  have hRead : c ∈ (Line.cellsFrom true 0 blank).map (·.char) :=
    ((Line.trim_isPrefix _).map _).subset hMem
  exact (Line.cellsFrom_char_sublist true 0 blank).subset hRead

/-- The other lines are classified as with a blank line when no comment is open behind the line. -/
theorem others_of_closed {below : List Text} {blank : Text} (hOpen : isOpenBehind above = false)
    (hClosed : isOpenBehind (above ++ [raw]) = false) (hBlank : blank.isAllBlank = true) :
    (classify (Line.ofTexts true (above ++ raw :: below))).lines.eraseIdx above.length =
      (classify (Line.ofTexts true (above ++ blank :: below))).lines.eraseIdx above.length := by
  have hOther : (classifyBelow above blank).1 = false := by
    rw [classifyBelow_prose hOpen (commentBody?_blank (isAllBlank_ofText hBlank _))]
  rw [eraseIdx_classify_middle, eraseIdx_classify_middle, ← isOpenBehind_concat, hClosed, hOther]

section

variable {symbols quotations words : List Text} {o : ReadOptions}
  (hMake : Extractor.make symbols quotations words = .ok o.extractor) {t : Text} {below : List Text}
  (hLines : t.lines = above ++ raw :: below)

include hLines in
theorem lines_classify : (Format.wiki.classify t).lines =
    (classify (Line.ofTexts true (above ++ raw :: below))).lines := by
  rw [← hLines]
  rfl

include hMake in
/-- What the document shows is what is left of the lines. -/
theorem mem_sentences_iff {p : Char × Position} :
    p ∈ (Format.wiki.read o t).document.sentences.flatMap Sentence.visible ↔
      ∃ l ∈ (Format.wiki.classify t).lines, p ∈ l.visible := by
  have hPerm : ((Format.wiki.read o t).document.sentences.flatMap Sentence.visible).Perm
      ((Format.wiki.classify t).lines.flatMap Line.visible) :=
    build_visible_perm (Extractor.make_separator hMake) _ _ _ _
  rw [hPerm.mem_iff, List.mem_flatMap]

include hLines in
theorem getElem?_classify :
    (Format.wiki.classify t).lines[above.length]? = some (classifyBelow above raw).2 := by
  have hLength : (classifyLines false (Line.ofTexts true above)).2.length = above.length := by
    rw [length_classifyLines, Line.ofTexts, List.length_mapIdx]
  rw [lines_classify hLines, classify_middle,
    List.getElem?_append_right (Nat.le_of_eq hLength), hLength, Nat.sub_self]
  rfl

include hMake hLines in
/-- Text is kept when the line is read as prose. -/
theorem mem_sentences_of_isText {i : Nat} {c : Cell} (hOpen : isOpenBehind above = false)
    (hNone : commentBody? (Line.ofText (above.length + 1) true raw).text = none)
    (h : IsText (.ofText (above.length + 1) true raw) i c) :
    (c.char, ⟨(above.length + 1 : Nat), c.offset⟩) ∈
      (Format.wiki.read o t).document.sentences.flatMap Sentence.visible := by
  let l := Line.ofText (above.length + 1) true raw
  obtain ⟨d, hCell, hKept⟩ := h.kept
  rw [← classifyProse_lettered l h.outside] at hCell
  have hOrigin := classifyProse_origin l
  have hSame : d.origin = c.origin := by
    have hCells := congrArg (·[i]?) (Line.cells_origin_eq hOrigin)
    simp only [List.getElem?_map] at hCells
    rw [hCell, h.cell] at hCells
    exact Option.some.inj hCells
  have hChar : d.char = c.char := congrArg (·.1) hSame
  have hOffset : d.offset = c.offset := congrArg (·.2.1) hSame
  have hHere := getElem?_classify hLines
  rw [classifyBelow_prose hOpen hNone] at hHere
  refine (mem_sentences_iff hMake).mpr ⟨classifyProse l, List.mem_of_getElem? hHere, ?_⟩
  refine Line.mem_visible.mpr ⟨d, List.mem_of_getElem? hCell, hKept, ?_, ?_⟩
  · rw [hChar, h.seen]
  · rw [hChar, hOffset, Line.number_eq_of_origin hOrigin]
    rfl

include hMake hLines in
/-- Nothing of a line is shown that is erased. -/
theorem not_mem_sentences {p : Char × Position} (hPlace : p.2.line = (above.length + 1 : Nat))
    (hErased : (classifyBelow above raw).2 = (Line.ofText (above.length + 1) true raw).eraseAll) :
    p ∉ (Format.wiki.read o t).document.sentences.flatMap Sentence.visible := by
  intro hMem
  obtain ⟨l, hLine, hVisible⟩ := (mem_sentences_iff hMake).mp hMem
  obtain ⟨c, hCell, hKept, -, rfl⟩ := Line.mem_visible.mp hVisible
  obtain ⟨n, hAt⟩ := List.getElem?_of_mem hLine
  have hNumber := Line.number_of_origin (Format.classify_origin .wiki t) hAt
  have hIndex : n = above.length := by
    simp only at hPlace
    omega
  rw [hIndex, getElem?_classify hLines, hErased] at hAt
  cases hAt
  obtain ⟨d, -, rfl⟩ := List.mem_map.mp hCell
  cases hKept

include hMake hLines in
/-- A comment that is not at the start of its line hides nothing else. One at the start hides the
whole line, and what is below it unless the line ends with a closing mark. -/
theorem hidesItself_iff (hOpen : isOpenBehind above = false) :
    HidesItself o t above raw below ↔
      ∀ body, commentBody? (Line.ofText (above.length + 1) true raw).text = some body →
        closesComment body = true ∧
          ∀ i c, ¬ IsText (.ofText (above.length + 1) true raw) i c := by
  cases hBody : commentBody? (Line.ofText (above.length + 1) true raw).text with
  | none =>
      have hClosed : isOpenBehind (above ++ [raw]) = false := by
        rw [isOpenBehind_concat, classifyBelow_prose hOpen hBody]
      refine iff_of_true ⟨fun u blank hBlank hOther => ?_, fun i c h => ?_, hClosed⟩ nofun
      · rw [lines_classify hLines, lines_classify hOther]
        exact others_of_closed hOpen hClosed hBlank
      · exact mem_sentences_of_isText hMake hLines hOpen hBody h
  | some body =>
      have hHere := classifyBelow_comment hOpen hBody
      have hErased := congrArg Prod.snd hHere
      have hBehind : isOpenBehind (above ++ [raw]) = !closesComment body := by
        rw [isOpenBehind_concat, hHere]
      constructor
      · rintro hHides body' ⟨⟩
        refine ⟨by simpa [hBehind] using hHides.once, fun i c h => ?_⟩
        exact not_mem_sentences hMake hLines rfl hErased (hHides.text i c h)
      · intro hAll
        obtain ⟨hCloses, hNoText⟩ := hAll body rfl
        have hClosed : isOpenBehind (above ++ [raw]) = false := by
          rw [hBehind, hCloses]
          rfl
        refine ⟨fun u blank hBlank hOther => ?_, fun i c h => absurd h (hNoText i c), hClosed⟩
        rw [lines_classify hLines, lines_classify hOther]
        exact others_of_closed hOpen hClosed hBlank

end

end

/-- A comment between words, below a line that is a comment and above a list element. -/
theorem hidesItself_iff_between :
    let t : Text := "[!-- a --]\nSee [!-- b --] it.\n- c".toList
    let raw : Text := "See [!-- b --] it.".toList
    let o : ReadOptions := ⟨.standard, none, none⟩
    t.lines = ["[!-- a --]".toList] ++ raw :: ["- c".toList] ∧
      isOpenBehind ["[!-- a --]".toList] = false ∧
      HidesItself o t ["[!-- a --]".toList] raw ["- c".toList] ∧
      ('i', ⟨2, 15⟩) ∈ (Format.wiki.read o t).document.sentences.flatMap Sentence.visible := by
  intro t raw o
  have hMake : Extractor.make Extractor.standardSymbols Extractor.standardQuotations
      Extractor.standardWords = .ok o.extractor := rfl
  have hLines : t.lines = ["[!-- a --]".toList] ++ raw :: ["- c".toList] := rfl
  have hOpen : isOpenBehind ["[!-- a --]".toList] = false := by decide
  have hNone : commentBody? (Line.ofText 2 true raw).text = none := by decide
  have hHides := (hidesItself_iff hMake hLines hOpen).mpr fun body hBody => by
    rw [List.length_singleton, hNone] at hBody
    cases hBody
  have hApart : ∀ k < 16, k ≤ 15 → 15 < k + (commentOpening ++ commentClosing).length →
      (Line.ofText 2 true raw).startsWith (commentOpening ++ commentClosing) k = false := by decide
  have hOutside : isCommented (.ofText 2 true raw) 15 = false := by with_unfolding_all decide
  have hKept : (eraseMarkup (lettered (.ofText 2 true raw))).cells[15]? =
      some ⟨'i', 15, false, true, false⟩ := by with_unfolding_all decide
  have hText : IsText (.ofText 2 true raw) 15 ⟨'i', 15, false, true, false⟩ :=
    ⟨by decide, by decide, hOutside, fun k hLe => hApart k (Nat.lt_succ_of_le hLe) hLe,
      _, hKept, rfl⟩
  exact ⟨hLines, hOpen, hHides, hHides.text 15 _ hText⟩

/-- Text behind a comment at the start of a line is lost, and the next line as well. -/
theorem exists_comment_hides_more :
    let t : Text := "[!-- c --] text\nmore".toList
    let raw : Text := "[!-- c --] text".toList
    let l := Line.ofText 1 true raw
    let o : ReadOptions := ⟨.standard, none, none⟩
    t.lines = [] ++ raw :: ["more".toList] ∧ isOpenBehind [] = false ∧
      l.startsWith commentOpening 0 = true ∧ l.startsWith commentClosing 7 = true ∧
      IsText l 11 ⟨'t', 11, false, true, false⟩ ∧
      ¬ HidesItself o t [] raw ["more".toList] ∧
      (Format.wiki.read o t).document.sentences = [] := by
  intro t raw l o
  have hApart : ∀ k < 12, k ≤ 11 → 11 < k + (commentOpening ++ commentClosing).length →
      l.startsWith (commentOpening ++ commentClosing) k = false := by decide
  have hOutside : isCommented l 11 = false := by with_unfolding_all decide
  have hKept : (eraseMarkup (lettered l)).cells[11]? = some ⟨'t', 11, false, true, false⟩ := by
    with_unfolding_all decide
  have hText : IsText l 11 ⟨'t', 11, false, true, false⟩ :=
    ⟨by decide, by decide, hOutside, fun k hLe => hApart k (Nat.lt_succ_of_le hLe) hLe,
      _, hKept, rfl⟩
  have hOpenBehind : isOpenBehind ([] ++ [raw]) = true := by decide
  refine ⟨rfl, rfl, by decide, by decide, hText, fun hHides => ?_, by with_unfolding_all rfl⟩
  rw [hHides.once] at hOpenBehind
  cases hOpenBehind

end ProseLint.Wiki
