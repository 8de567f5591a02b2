import ProseLint.Proofs.List.Map
import ProseLint.Proofs.Source.Origin

/-! Blocks of a line. Markup is erased in blocks: the cells around each block stay as they are. In a
block as it was read a search finds what it would find in the text of the block. -/

namespace ProseLint

/-- Cells as they were read of a text. -/
structure Reads (cells : List Cell) (t : Text) : Prop where
  char : cells.map (·.char) = t
  fresh : ∀ c ∈ cells, c.kept = true ∧ c.escaped = false

/-- What is left of some cells. -/
def keptOf (cells : List Cell) : Text := (cells.filter (·.kept)).map (·.char)

/-- The cells, all erased. -/
def hide (cells : List Cell) : List Cell := cells.map fun c => { c with kept := false }

theorem keptOf_append (cells more : List Cell) :
    keptOf (cells ++ more) = keptOf cells ++ keptOf more := by
  rw [keptOf, List.filter_append, List.map_append]
  rfl

theorem keptOf_hide (cells : List Cell) : keptOf (hide cells) = [] := by
  simp [keptOf, hide, List.filter_eq_nil_iff]

theorem length_hide (cells : List Cell) : (hide cells).length = cells.length := List.length_map _

theorem map_glyph_hide (cells : List Cell) :
    (hide cells).map Cell.glyph = List.replicate cells.length none := by
  simp [hide, Cell.glyph, Function.comp_def]

namespace Reads

variable {cells : List Cell} {t u : Text}

theorem length_eq (h : Reads cells t) : cells.length = t.length := by
  rw [← h.char, List.length_map]

theorem keptOf_eq (h : Reads cells t) : keptOf cells = t := by
  rw [keptOf, List.filter_eq_self.mpr fun c hMem => (h.fresh c hMem).1, h.char]

theorem exists_append (h : Reads cells (t ++ u)) :
    ∃ first second, cells = first ++ second ∧ Reads first t ∧ Reads second u := by
  obtain ⟨first, second, rfl, hFirst, hSecond⟩ := List.map_eq_append_iff.mp h.char
  exact ⟨first, second, rfl, ⟨hFirst, fun c hMem => h.fresh c (List.mem_append_left _ hMem)⟩,
    ⟨hSecond, fun c hMem => h.fresh c (List.mem_append_right _ hMem)⟩⟩

theorem exists_cons {c : Char} (h : Reads cells (c :: t)) :
    ∃ cell rest, cells = cell :: rest ∧ cell.glyph = some c ∧ Reads rest t := by
  obtain ⟨cell, rest, rfl, rfl, hRest⟩ := List.map_eq_cons_iff.mp h.char
  obtain ⟨hKept, hEscaped⟩ := h.fresh cell List.mem_cons_self
  exact ⟨cell, rest, rfl, by rw [Cell.glyph, hKept, hEscaped]; rfl, hRest,
    fun c hMem => h.fresh c (List.mem_cons_of_mem cell hMem)⟩

theorem findIdx?_eq (h : Reads cells t) (c : Char) :
    cells.findIdx? (·.glyph == some c) = t.findIdx? (· == c) := by
  induction t generalizing cells with
  | nil =>
      rw [List.map_eq_nil_iff.mp h.char]
      rfl
  | cons d t ih =>
      obtain ⟨cell, rest, rfl, hGlyph, hRest⟩ := h.exists_cons
      rw [List.findIdx?_cons, List.findIdx?_cons, hGlyph, ih hRest]
      rfl

theorem drop (h : Reads cells t) (n : Nat) : Reads (cells.drop n) (t.drop n) :=
  ⟨by rw [List.map_drop, h.char], fun c hMem => h.fresh c ((List.drop_sublist n cells).subset hMem)⟩

theorem spells_iff (h : Reads cells t) {needle : Text} :
    Cell.spells needle cells = true ↔ needle <+: t := by
  induction needle generalizing cells t with
  | nil => simp [Cell.spells]
  | cons c needle ih =>
      cases t with
      | nil =>
          rw [List.map_eq_nil_iff.mp h.char]
          simp [Cell.spells]
      | cons d t =>
          obtain ⟨cell, rest, rfl, hGlyph, hRest⟩ := h.exists_cons
          rw [Cell.spells, hGlyph, Bool.and_eq_true, ih hRest, List.cons_prefix_cons, beq_iff_eq,
            Option.some_inj, eq_comm]

theorem map_glyph (h : Reads cells t) : cells.map Cell.glyph = t.map some := by
  rw [← h.char, List.map_map]
  refine List.map_congr_left fun c hMem => ?_
  obtain ⟨hKept, hEscaped⟩ := h.fresh c hMem
  simp [Cell.glyph, hKept, hEscaped]

end Reads

theorem find?_eq_some_of_spells {needle : Text} {cells : List Cell} {k : Nat}
    (hLt : k < cells.length) (hHere : Cell.spells needle (cells.drop k) = true)
    (hBefore : ∀ i < k, Cell.spells needle (cells.drop i) = false) :
    Cell.find? needle cells = some k := by
  induction cells generalizing k with
  | nil => cases hLt
  | cons c cells ih =>
      rw [Cell.find?]
      cases k with
      | zero => rw [if_pos (by simpa using hHere)]
      | succ k =>
          have hFirst : Cell.spells needle (c :: cells) = false := hBefore 0 (Nat.succ_pos k)
          rw [if_neg (by simp [hFirst]), ih (Nat.lt_of_succ_lt_succ hLt) hHere fun i hi =>
            hBefore (i + 1) (Nat.succ_lt_succ hi), Option.map_some]

theorem find?_eq_none_of_spells {needle : Text} {cells : List Cell}
    (h : ∀ i, Cell.spells needle (cells.drop i) = false) : Cell.find? needle cells = none := by
  induction cells with
  | nil => rfl
  | cons c cells ih =>
      have hFirst : Cell.spells needle (c :: cells) = false := h 0
      rw [Cell.find?, if_neg (by simp [hFirst]), ih fun i => h (i + 1), Option.map_none]

namespace Reads

variable {cells : List Cell} {t needle : Text}

theorem spells_drop_eq_false (h : Reads cells t) {i : Nat} (hNot : ¬ needle <+: t.drop i) :
    Cell.spells needle (cells.drop i) = false :=
  Bool.eq_false_iff.mpr fun hSpells => hNot ((h.drop i).spells_iff.mp hSpells)

/-- The first place at which a needle stands. -/
theorem find?_eq_some (h : Reads cells t) {k : Nat} (hLt : k < t.length)
    (hHere : needle <+: t.drop k) (hBefore : ∀ i < k, ¬ needle <+: t.drop i) :
    Cell.find? needle cells = some k :=
  find?_eq_some_of_spells (by rwa [h.length_eq]) ((h.drop k).spells_iff.mpr hHere)
    fun i hi => h.spells_drop_eq_false (hBefore i hi)

theorem find?_eq_none (h : Reads cells t) (hNot : ∀ i, ¬ needle <+: t.drop i) :
    Cell.find? needle cells = none :=
  find?_eq_none_of_spells fun i => h.spells_drop_eq_false (hNot i)

end Reads

theorem find?_singleton (c : Char) (cells : List Cell) :
    Cell.find? [c] cells = cells.findIdx? (·.glyph == some c) := by
  induction cells with
  | nil => rfl
  | cons cell cells ih =>
      rw [Cell.find?, List.findIdx?_cons, ih, Cell.spells, Cell.spells, Bool.and_true]

section

variable {l : Line} {front block behind : List Cell}

theorem erase_block (hCells : l.cells = front ++ (block ++ behind)) {start count : Int}
    (hStart : start = front.length) (hCount : count = block.length) :
    l.erase start count = { l with cells := front ++ (hide block ++ behind) } := by
  have hChange : Line.change start (start + count) (fun c => { c with kept := false }) l.cells =
      front ++ (hide block ++ behind) := by
    rw [hCells, hide, ← mapIdx_middle, Line.change, hStart, hCount]
    congr 1
    funext i c
    exact if_congr (by omega) rfl rfl
  rw [Line.erase, hChange]

/-- Two blocks are erased, and what is between them is not. -/
theorem erase_around {opening inner closing : List Cell}
    (hCells : l.cells = front ++ (opening ++ (inner ++ (closing ++ behind))))
    {start count second last : Int} (hStart : start = front.length)
    (hCount : count = opening.length)
    (hSecond : second = front.length + opening.length + inner.length)
    (hLast : last = closing.length) :
    (l.erase start count).erase second last =
      { l with cells := front ++ (hide opening ++ (inner ++ (hide closing ++ behind))) } := by
  have hSplit : front ++ (hide opening ++ (inner ++ (closing ++ behind))) =
      (front ++ hide opening ++ inner) ++ (closing ++ behind) := by
    simp only [List.append_assoc]
  rw [erase_block hCells hStart hCount, erase_block hSplit]
  · simp only [List.append_assoc]
  · simp only [List.length_append, length_hide, hSecond, Int.natCast_add]
  · exact hLast

/-- A search for a character comes to the first one in a block, or to one behind it. -/
theorem find?_block (hCells : l.cells = front ++ (block ++ behind)) {t : Text}
    (hBlock : Reads block t) {start : Nat} (hStart : start = front.length) (c : Char) :
    l.find? [c] start = ((t.findIdx? (· == c)).or
      ((behind.findIdx? (·.glyph == some c)).map (· + t.length))).map (· + start) := by
  rw [Line.find?, if_neg (by simp), Int.toNat_natCast, hCells, hStart, List.drop_left,
    find?_singleton, List.findIdx?_append, hBlock.findIdx?_eq, hBlock.length_eq]

end

/-! ## The first of some characters -/

section

variable {c : Char} {t first : Text}

theorem findIdx?_of_not_mem (h : c ∉ t) : t.findIdx? (· == c) = none :=
  List.findIdx?_eq_none_iff.mpr fun _ hMem => beq_false_of_ne fun hSame => h (hSame ▸ hMem)

theorem findIdx?_first (h : c ∉ first) (rest : Text) :
    (first ++ c :: rest).findIdx? (· == c) = some first.length := by
  rw [List.findIdx?_append, findIdx?_of_not_mem h, List.findIdx?_cons, beq_self_eq_true]
  simp

end

end ProseLint
