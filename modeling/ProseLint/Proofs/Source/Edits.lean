import ProseLint.Proofs.Source.Origin
import Mathlib.Data.List.TakeWhile

/-! Edits of a line. Whatever is erased, marked and linked, and in whatever order, the characters of
a line stay those that were read, with their places and escapes, and what has been erased stays
erased. Written out again, with a backslash before each that is escaped, the characters make up the
source text without the white space at its end. -/

namespace ProseLint

namespace Cell

/-- The character as it is written. An escaped one has a backslash before it. -/
def written (c : Cell) : Text := if c.escaped then ['\\', c.char] else [c.char]

theorem flatMap_written_of_plain {cells : List Cell} (h : ∀ c ∈ cells, c.escaped = false) :
    cells.flatMap written = cells.map (·.char) := by
  induction cells with
  | nil => rfl
  | cons c rest ih =>
      rw [List.forall_mem_cons] at h
      rw [List.flatMap_cons, ih h.2, written, h.1]
      rfl

end Cell

namespace Line

/-! ## What erasing leaves -/

theorem isKept_erase (l : Line) (start count position : Int) :
    (l.erase start count).isKept position =
      (l.isKept position && !decide (start ≤ position ∧ position < start + count)) := by
  unfold isKept cell? erase change
  split
  · next hFrom =>
      rw [List.getElem?_mapIdx, Int.toNat_of_nonneg hFrom]
      cases l.cells[position.toNat]? with
      | none => rfl
      | some c => by_cases hIn : start ≤ position ∧ position < start + count <;> simp [hIn]
  · rfl

@[simp] theorem isKept_markInline (l : Line) (start stop position : Int) :
    (l.markInline start stop).isKept position = l.isKept position := by
  unfold isKept cell? markInline change
  split
  · rw [List.getElem?_mapIdx]
    cases l.cells[position.toNat]? with
    | none => rfl
    | some c =>
        dsimp only [Option.map_some]
        split <;> rfl
  · rfl

@[simp] theorem isKept_addLink (l : Line) (position : Int) (url : Text) (place : Int) :
    (l.addLink position url).isKept place = l.isKept place := rfl

/-- A line that differs from another by what is erased, marked and linked, with nothing that was
erased brought back. -/
structure Sheds (l m : Line) : Prop where
  origin_eq : m.origin = l.origin
  kept : ∀ position, m.isKept position = true → l.isKept position = true

namespace Sheds

variable {l m k : Line}

theorem refl (l : Line) : Sheds l l := ⟨rfl, fun _ h => h⟩

theorem trans (h : Sheds l m) (hNext : Sheds m k) : Sheds l k :=
  ⟨hNext.origin_eq.trans h.origin_eq, fun p hKept => h.kept p (hNext.kept p hKept)⟩

theorem gone (h : Sheds l m) {position : Int} (hGone : l.isKept position = false) :
    m.isKept position = false :=
  Bool.eq_false_iff.mpr fun hKept => by simp [h.kept position hKept] at hGone

theorem isEscaped_eq (h : Sheds l m) (position : Int) :
    m.isEscaped position = l.isEscaped position :=
  isEscaped_eq_of_origin h.origin_eq position

theorem erase (l : Line) (start count : Int) : Sheds l (l.erase start count) := by
  refine ⟨erase_origin l start count, fun p hKept => ?_⟩
  rw [isKept_erase, Bool.and_eq_true] at hKept
  exact hKept.1

theorem markInline (l : Line) (start stop : Int) : Sheds l (l.markInline start stop) :=
  ⟨markInline_origin l start stop, fun p hKept => by rwa [isKept_markInline] at hKept⟩

theorem foldl {α : Type} {f : Line → α → Line} (hf : ∀ l a, Sheds l (f l a)) (steps : List α)
    (l : Line) : Sheds l (steps.foldl f l) :=
  rel_foldl refl trans hf steps l

theorem eraseEnclosure (l : Line) (e : Enclosure) : Sheds l (l.eraseEnclosure e).1 := by
  refine foldl (fun l pair => ?_) _ l
  have hBare := (erase l pair.1 e.opening.length).trans (erase _ pair.2 e.closing.length)
  unfold eraseAround
  cases e.style with
  | markers => exact hBare
  | all => exact hBare.trans (erase _ _ _)
  | inlineMarkup => exact hBare.trans (markInline _ _ _)

end Sheds

/-! ## One edit after the other -/

/-- A change of a line. Positions and counts need not lie on the line, and texts may be empty. -/
inductive Edit where
  | erase (start count : Int)
  | eraseAll
  | eraseSegment (segment : Text)
  | eraseEnclosure (e : Enclosure)
  | markInline (start stop : Int)
  | addLink (position : Int) (url : Text)

def Edit.apply (l : Line) : Edit → Line
  | .erase start count => l.erase start count
  | .eraseAll => l.eraseAll
  | .eraseSegment segment => (l.eraseSegment segment).1
  | .eraseEnclosure e => (l.eraseEnclosure e).1
  | .markInline start stop => l.markInline start stop
  | .addLink position url => l.addLink position url

def edited (l : Line) (edits : List Edit) : Line := edits.foldl Edit.apply l

theorem edited_append (l : Line) (edits more : List Edit) :
    l.edited (edits ++ more) = (l.edited edits).edited more :=
  List.foldl_append

theorem isKept_eraseAll (l : Line) (position : Int) : l.eraseAll.isKept position = false := by
  unfold isKept cell? eraseAll
  split
  · rw [List.getElem?_map]
    cases l.cells[position.toNat]? <;> rfl
  · rfl

theorem Sheds.apply (l : Line) (e : Edit) : Sheds l (e.apply l) := by
  cases e with
  | erase start count => exact erase l start count
  | eraseAll =>
      refine ⟨eraseAll_origin l, fun position hKept => ?_⟩
      rw [Edit.apply, isKept_eraseAll] at hKept
      cases hKept
  | eraseSegment segment => exact foldl (fun l (i : Nat) => erase l i segment.length) _ l
  | eraseEnclosure e => exact eraseEnclosure l e
  | markInline start stop => exact markInline l start stop
  | addLink position url => exact ⟨addLink_origin l position url, fun _ hKept => hKept⟩

theorem edited_sheds (l : Line) (edits : List Edit) : Sheds l (l.edited edits) :=
  .foldl Sheds.apply edits l

/-! ## Writing a line out -/

/-- Every character that is read is written where it was, and so is every backslash. -/
theorem cellsFrom_written (escapes : Bool) (i : Nat) (t : Text) :
    (cellsFrom escapes i t).flatMap Cell.written = t := by
  induction i, t using cellsFrom.induct escapes with
  | case1 i => rfl
  | case2 i c => rfl
  | case3 i c d rest hEscape ih =>
      obtain ⟨-, rfl⟩ : escapes = true ∧ c = '\\' := by simpa using hEscape
      rw [cellsFrom, if_pos hEscape, List.flatMap_cons, ih]
      rfl
  | case4 i c d rest hPlain ih =>
      rw [cellsFrom, if_neg hPlain, List.flatMap_cons, ih]
      rfl

/-- What is trimmed is white space that is not escaped. -/
theorem exists_trim_append (cells : List Cell) :
    ∃ blanks, cells = trim cells ++ blanks ∧
      ∀ c ∈ blanks, isBlank c.char = true ∧ c.escaped = false := by
  refine ⟨(cells.reverse.takeWhile fun c => isBlank c.char && !c.escaped).reverse, ?_, ?_⟩
  · rw [trim, ← List.reverse_append, List.takeWhile_append_dropWhile, List.reverse_reverse]
  · intro c hMem
    have hTaken := List.mem_takeWhile_imp (List.mem_reverse.mp hMem)
    simpa using hTaken

theorem getLast?_trim {cells : List Cell} {c : Cell} (h : (trim cells).getLast? = some c) :
    c.escaped = true ∨ isBlank c.char = false := by
  rw [trim, List.getLast?_reverse] at h
  have hStays := List.head?_dropWhile_not (fun c : Cell => isBlank c.char && !c.escaped)
    cells.reverse
  rw [h] at hStays
  rcases Bool.and_eq_false_iff.mp hStays with hSeen | hEscaped
  · exact Or.inr hSeen
  · exact Or.inl (by simpa using hEscaped)

/-- The characters of a line stand for a text. They are found in it at their places, which rise.
Written out they are the text up to the white space at its end, and they do not end in white space
themselves unless it is escaped. -/
structure StandsFor (l : Line) (raw : Text) : Prop where
  rising : l.cells.Pairwise (·.offset < ·.offset)
  placed : ∀ c ∈ l.cells, ∃ hLt : c.offset < raw.length, raw[c.offset] = c.char
  written : ∃ blanks, raw = l.cells.flatMap Cell.written ++ blanks ∧ blanks.isAllBlank = true
  ends : ∀ c, l.cells.getLast? = some c → c.escaped = true ∨ isBlank c.char = false

theorem ofText_standsFor (number : Nat) (escapes : Bool) (raw : Text) :
    (ofText number escapes raw).StandsFor raw where
  rising := ofText_pairwise number escapes raw
  placed _ hMem := List.getElem?_eq_some_iff.mp (mem_ofText hMem)
  written := by
    obtain ⟨blanks, hCells, hBlank⟩ := exists_trim_append (cellsFrom escapes 0 raw)
    refine ⟨blanks.map (·.char), ?_, ?_⟩
    · rw [← Cell.flatMap_written_of_plain fun c hMem => (hBlank c hMem).2, ← List.flatMap_append]
      exact (cellsFrom_written escapes 0 raw).symm.trans (congrArg _ hCells)
    · rw [Text.isAllBlank, List.all_map, List.all_eq_true]
      exact fun c hMem => (hBlank c hMem).1
  ends _ hLast := getLast?_trim hLast

section Origin

variable {l m : Line} (h : m.origin = l.origin)

include h

theorem written_eq_of_origin : m.cells.flatMap Cell.written = l.cells.flatMap Cell.written := by
  let write (o : Char × Nat × Bool) : Text := if o.2.2 then ['\\', o.1] else [o.1]
  calc
    m.cells.flatMap Cell.written = (m.cells.map Cell.origin).flatMap write := by
      rw [List.flatMap_map]
      rfl
    _ = (l.cells.map Cell.origin).flatMap write := by rw [cells_origin_eq h]
    _ = l.cells.flatMap Cell.written := by
      rw [List.flatMap_map]
      rfl

/-- Lines of one origin stand for the same text. -/
theorem StandsFor.of_origin {raw : Text} (hStands : l.StandsFor raw) : m.StandsFor raw where
  rising := offsets_pairwise_of_origin h hStands.rising
  placed c hMem := by
    obtain ⟨d, hSource, hChar, hOffset⟩ := exists_mem_of_origin h hMem
    have hPlaced := hStands.placed d hSource
    rwa [hChar, hOffset] at hPlaced
  written := by
    rw [written_eq_of_origin h]
    exact hStands.written
  ends c hLast := by
    have hSame : l.cells.getLast?.map Cell.origin = some c.origin := by
      rw [← List.getLast?_map, ← cells_origin_eq h, List.getLast?_map, hLast, Option.map_some]
    obtain ⟨d, hSource, hOrigin⟩ := Option.map_eq_some_iff.mp hSame
    have hChar : d.char = c.char := congrArg (·.1) hOrigin
    have hEscaped : d.escaped = c.escaped := congrArg (·.2.2) hOrigin
    rw [← hChar, ← hEscaped]
    exact hStands.ends d hSource

end Origin

/-- Whatever is done to a line that was read, with any arguments: each aspect of its characters is
listed in a list of the same length, the characters, their places and their escapes are those that
were read and stand for the text, and what has been erased at some time stays erased. -/
theorem edited_standsFor (number : Nat) (escapes : Bool) (raw : Text) (edits more : List Edit) :
    let read := ofText number escapes raw
    let l := read.edited edits
    (∀ n ∈ [l.text.length, (l.cells.map (·.offset)).length, (l.cells.map (·.kept)).length,
      (l.cells.map (·.escaped)).length, (l.cells.map (·.inline)).length], n = read.length) ∧
    l.StandsFor raw ∧
    l.cells.map (fun c => (c.char, c.offset, c.escaped)) =
      read.cells.map (fun c => (c.char, c.offset, c.escaped)) ∧
    ∀ position, l.isKept position = false →
      (read.edited (edits ++ more)).isKept position = false := by
  intro read l
  have hSheds : Sheds read l := edited_sheds read edits
  have hLength : l.cells.length = read.length := length_eq_of_origin hSheds.origin_eq
  refine ⟨by simp [text, hLength], (ofText_standsFor number escapes raw).of_origin hSheds.origin_eq,
    cells_origin_eq hSheds.origin_eq, fun position hGone => ?_⟩
  rw [edited_append]
  exact (edited_sheds l more).gone hGone

/-- A line with an escaped backslash and escaped white space at its end, which is edited beyond both
of its ends. -/
theorem edited_standsFor_blanks :
    let read := ofText 1 true "\\\\*a* b\\   ".toList
    let edits : List Edit := [.erase (-2) 3, .eraseEnclosure ⟨['*'], ['*'], .inlineMarkup, false⟩,
      .eraseSegment [], .markInline 5 90, .addLink (-7) ['u']]
    (read.edited edits).text = "\\*a* b ".toList ∧
      (read.edited edits).keptText = "a b ".toList ∧
      (read.edited edits).isKept 0 = false ∧
      (read.edited (edits ++ [.erase 3 (-1), .markInline 0 1])).isKept 0 = false := by
  intro read edits
  have hGone : (read.edited edits).isKept 0 = false := by decide +kernel
  exact ⟨by decide +kernel, by decide +kernel, hGone,
    (edited_standsFor 1 true "\\\\*a* b\\   ".toList edits [.erase 3 (-1), .markInline 0 1]).2.2.2 0
      hGone⟩

end Line

end ProseLint
