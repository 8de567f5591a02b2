import ProseLint.Proofs.List.Map
import ProseLint.Source.Enclosure
import ProseLint.Source.Reading

/-! What a line keeps for ever: its number, its source text, and for each character the
place that it was read from. Erasing, marking and linking change none of it, so whatever is
left of a line still points to the source. -/

namespace ProseLint

namespace Cell

/-- What is never changed about a character. -/
def origin (c : Cell) : Char × Nat × Bool := (c.char, c.offset, c.escaped)

end Cell

namespace Line

/-- What is never changed about a line. The level and the list marks are not part of it, and
neither are the links. -/
def origin (l : Line) : Nat × Text × List (Char × Nat × Bool) :=
  (l.number, l.raw, l.cells.map Cell.origin)

theorem number_eq_of_origin {l m : Line} (h : l.origin = m.origin) : l.number = m.number :=
  congrArg (·.1) h

theorem cells_origin_eq {l m : Line} (h : l.origin = m.origin) :
    l.cells.map Cell.origin = m.cells.map Cell.origin :=
  congrArg (·.2.2) h

theorem length_eq_of_origin {l m : Line} (h : l.origin = m.origin) :
    l.cells.length = m.cells.length := by
  simpa using congrArg List.length (cells_origin_eq h)

theorem text_eq_of_origin {l m : Line} (h : l.origin = m.origin) : l.text = m.text := by
  have hChars := congrArg (List.map (·.1)) (cells_origin_eq h)
  rwa [List.map_map, List.map_map] at hChars

theorem offsets_eq_of_origin {l m : Line} (h : l.origin = m.origin) :
    l.cells.map (·.offset) = m.cells.map (·.offset) := by
  have hOffsets := congrArg (List.map (·.2.1)) (cells_origin_eq h)
  rwa [List.map_map, List.map_map] at hOffsets

/-- Characters that stand in order on a line do so on every line of its origin. -/
theorem offsets_pairwise_of_origin {l m : Line} (h : l.origin = m.origin)
    (hRise : m.cells.Pairwise (·.offset < ·.offset)) : l.cells.Pairwise (·.offset < ·.offset) := by
  have hPlaces := List.pairwise_map.mpr hRise
  rw [← offsets_eq_of_origin h] at hPlaces
  exact List.pairwise_map.mp hPlaces

/-- A character has its counterpart on every line of one origin. -/
theorem exists_mem_of_origin {l m : Line} (h : l.origin = m.origin) {c : Cell}
    (hMem : c ∈ l.cells) : ∃ d ∈ m.cells, d.char = c.char ∧ d.offset = c.offset := by
  have hOrigin : c.origin ∈ m.cells.map Cell.origin := by
    rw [← cells_origin_eq h]
    exact List.mem_map_of_mem hMem
  obtain ⟨d, hSource, hSame⟩ := List.mem_map.mp hOrigin
  exact ⟨d, hSource, congrArg (·.1) hSame, congrArg (·.2.1) hSame⟩

/-- Lines of one origin have the same place behind their last character, whatever has been
erased on either. -/
theorem endOffset_eq_of_origin {l m : Line} (h : l.origin = m.origin) :
    l.endOffset = m.endOffset := by
  have hLast : l.cells.getLast?.map Cell.origin = m.cells.getLast?.map Cell.origin := by
    rw [← List.getLast?_map, ← List.getLast?_map, cells_origin_eq h]
  unfold endOffset
  cases hl : l.cells.getLast? with
  | none =>
      rw [hl] at hLast
      rw [Option.map_eq_none_iff.mp hLast.symm]
  | some c =>
      rw [hl] at hLast
      obtain ⟨d, hd, hc⟩ := Option.map_eq_some_iff.mp hLast.symm
      rw [hd]
      have hOffset : d.offset = c.offset := congrArg (·.2.1) hc
      simp [hOffset]

theorem isEscaped_congr {l m : Line} (h : l.cells.map (·.escaped) = m.cells.map (·.escaped))
    (position : Int) : l.isEscaped position = m.isEscaped position := by
  unfold isEscaped cell?
  split
  · have hAt := congrArg (·[position.toNat]?) h
    simp only [List.getElem?_map] at hAt
    rw [hAt]
  · rfl

theorem isEscaped_eq_of_origin {l m : Line} (h : l.origin = m.origin) (position : Int) :
    l.isEscaped position = m.isEscaped position := by
  have hAll := congrArg (List.map (·.2.2)) (cells_origin_eq h)
  rw [List.map_map, List.map_map] at hAll
  exact isEscaped_congr hAll position

/-! ## Erasing and marking -/

theorem change_origin (start stop : Int) (f : Cell → Cell) (cells : List Cell)
    (hf : ∀ c, (f c).origin = c.origin) :
    (change start stop f cells).map Cell.origin = cells.map Cell.origin := by
  apply List.ext_getElem (by simp [change])
  intro i hLeft hRight
  simp only [change, List.getElem_mapIdx, List.getElem_map]
  split
  · exact hf _
  · rfl

/-- The line without some of its characters. -/
def without (gone : Nat → Bool) (l : Line) : Line :=
  { l with cells := l.cells.mapIdx fun i c => { c with kept := c.kept && !gone i } }

theorem text_without (gone : Nat → Bool) (l : Line) : (l.without gone).text = l.text := by
  rw [text, without, map_mapIdx]
  exact mapIdx_const Cell.char l.cells

theorem without_none (l : Line) : l.without (fun _ => false) = l := by
  have hSame : (l.cells.mapIdx fun _ c => ({ c with kept := c.kept && !false } : Cell)) = l.cells :=
    List.ext_getElem (by simp) fun i hLeft hRight => by simp
  rw [without, hSame]

theorem without_without (gone more : Nat → Bool) (l : Line) :
    (l.without gone).without more = l.without fun i => gone i || more i := by
  simp [without, List.mapIdx_mapIdx, Function.comp_def, Bool.and_assoc]

theorem erase_eq (l : Line) (start count : Nat) :
    l.erase start count = l.without fun i => decide (start ≤ i ∧ i < start + count) := by
  unfold erase change without
  congr 2
  funext i c
  by_cases hIn : start ≤ i ∧ i < start + count
  · rw [if_pos (by omega)]
    simp [hIn]
  · rw [if_neg (by omega)]
    simp [decide_eq_false hIn]

@[simp] theorem erase_origin (l : Line) (start count : Int) :
    (l.erase start count).origin = l.origin := by
  have h := change_origin start (start + count) (fun c => { c with kept := false }) l.cells
    (fun _ => rfl)
  simp only [origin, erase, h]

@[simp] theorem eraseAll_origin (l : Line) : l.eraseAll.origin = l.origin := by
  simp only [origin, eraseAll, List.map_map]
  rfl

@[simp] theorem markInline_origin (l : Line) (start stop : Int) :
    (l.markInline start stop).origin = l.origin := by
  have h := change_origin start stop (fun c => { c with inline := true }) l.cells (fun _ => rfl)
  simp only [origin, markInline, h]

@[simp] theorem addLink_origin (l : Line) (position : Int) (url : Text) :
    (l.addLink position url).origin = l.origin := rfl

@[simp] theorem mark_origin (l : Line) (level : Nat) (depth : Int) (opens : Bool) :
    ({ l with sectionLevel := level, listLevel := depth, listStart := opens } : Line).origin =
      l.origin := rfl

/-- Steps that keep the origin of a line keep it when they are taken one after the other. -/
theorem foldl_origin {α : Type} (f : Line → α → Line) (hf : ∀ l a, (f l a).origin = l.origin)
    (steps : List α) (l : Line) : (steps.foldl f l).origin = l.origin := by
  induction steps generalizing l with
  | nil => rfl
  | cons a steps ih => rw [List.foldl_cons, ih, hf]

@[simp] theorem eraseAround_origin (e : Enclosure) (l : Line) (pair : Nat × Nat) :
    (eraseAround e l pair).origin = l.origin := by
  unfold eraseAround
  cases e.style with
  | markers => simp
  | all => simp
  | inlineMarkup => simp

@[simp] theorem eraseEnclosure_origin (l : Line) (e : Enclosure) :
    (l.eraseEnclosure e).1.origin = l.origin :=
  foldl_origin (eraseAround e) (eraseAround_origin e) _ l

/-! ## Reading -/

/-- Every character that is read stands in the text at its offset. A backslash that escapes
the character behind it is no character of the line. -/
theorem mem_cellsFrom {escapes : Bool} {i : Nat} {t : Text} {c : Cell}
    (h : c ∈ cellsFrom escapes i t) : i ≤ c.offset ∧ t[c.offset - i]? = some c.char := by
  induction i, t using cellsFrom.induct escapes with
  | case1 i => simp [cellsFrom] at h
  | case2 i d =>
      have hc : c = .ofChar d i false := by simpa [cellsFrom] using h
      subst hc
      simp [Cell.ofChar]
  | case3 i d e rest hEscape ih =>
      rw [cellsFrom, if_pos hEscape] at h
      rcases List.mem_cons.mp h with rfl | hMem
      · simp [Cell.ofChar]
      · obtain ⟨hLe, hAt⟩ := ih hMem
        refine ⟨by omega, ?_⟩
        rw [show c.offset - i = c.offset - (i + 2) + 1 + 1 by omega]
        simpa using hAt
  | case4 i d e rest hPlain ih =>
      rw [cellsFrom, if_neg hPlain] at h
      rcases List.mem_cons.mp h with rfl | hMem
      · simp [Cell.ofChar]
      · obtain ⟨hLe, hAt⟩ := ih hMem
        refine ⟨by omega, ?_⟩
        rw [show c.offset - i = c.offset - (i + 1) + 1 by omega]
        simpa using hAt

/-- The places of the characters that are read rise. -/
theorem cellsFrom_pairwise (escapes : Bool) (i : Nat) (t : Text) :
    (cellsFrom escapes i t).Pairwise (·.offset < ·.offset) := by
  induction i, t using cellsFrom.induct escapes with
  | case1 i => simp [cellsFrom]
  | case2 i d => simp [cellsFrom]
  | case3 i d e rest hEscape ih =>
      rw [cellsFrom, if_pos hEscape]
      refine List.pairwise_cons.mpr ⟨fun c hc => ?_, ih⟩
      have hLe := (mem_cellsFrom hc).1
      simp only [Cell.ofChar]
      omega
  | case4 i d e rest hPlain ih =>
      rw [cellsFrom, if_neg hPlain]
      refine List.pairwise_cons.mpr ⟨fun c hc => ?_, ih⟩
      have hLe := (mem_cellsFrom hc).1
      simp only [Cell.ofChar]
      omega

theorem trim_isPrefix (cells : List Cell) : trim cells <+: cells := by
  have h := List.reverse_prefix.mpr
    (List.dropWhile_suffix (l := cells.reverse) fun c => isBlank c.char && !c.escaped)
  simpa [trim] using h

/-- Nothing visible is trimmed. -/
theorem mem_trim {c : Cell} {cells : List Cell} (h : c ∈ cells) (hSeen : isBlank c.char = false) :
    c ∈ trim cells := by
  rw [trim, List.mem_reverse]
  rw [← List.mem_reverse, ← List.takeWhile_append_dropWhile (l := cells.reverse)
    (p := fun c => isBlank c.char && !c.escaped), List.mem_append] at h
  rcases h with hTaken | hLeft
  · have hBlank := List.all_eq_true.mp List.all_takeWhile c hTaken
    simp [hSeen] at hBlank
  · exact hLeft

/-- Every character of a line that was read stands in the source at its offset. -/
theorem mem_ofText {escapes : Bool} {n : Nat} {raw : Text} {c : Cell}
    (h : c ∈ (ofText n escapes raw).cells) : raw[c.offset]? = some c.char := by
  have hMem : c ∈ cellsFrom escapes 0 raw := (trim_isPrefix _).subset h
  simpa using (mem_cellsFrom hMem).2

theorem ofText_pairwise (n : Nat) (escapes : Bool) (raw : Text) :
    (ofText n escapes raw).cells.Pairwise (·.offset < ·.offset) :=
  (cellsFrom_pairwise escapes 0 raw).sublist (trim_isPrefix _).sublist

/-- The line at an index is the part of the text at that index, with the number after it. -/
theorem getElem?_readAll (escapes : Bool) (t : Text) (i : Nat) :
    (readAll escapes t)[i]? = (t.lines[i]?).map (ofText (i + 1) escapes) := by
  rw [readAll, List.getElem?_mapIdx]

end Line

/-- The lines of a text are its parts between line endings. Only an empty part at the very
end is no line. -/
theorem Text.lines_isPrefix (t : Text) : t.lines <+: t.splitLines := by
  unfold Text.lines
  simp only
  split
  · exact List.dropLast_prefix _
  · exact List.prefix_rfl

end ProseLint
