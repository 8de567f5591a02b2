import ProseLint.Proofs.Markup.Changes
import ProseLint.Proofs.Markup.Spelling

/-! The inline markup of a single line. The walk is over the cells of the line in order, and what
it leaves of them is told by its entries in the end, wherever it stands. -/

namespace ProseLint

theorem Line.charAt_natCast (l : Line) (i : Nat) : l.charAt i = l.text[i]? := by
  simp [charAt, cell?, text]

/-- Without backslashes it does not matter whether they would escape anything. -/
theorem Line.ofText_of_not_mem {raw : Text} (h : '\\' ∉ raw) (number : Nat) (escapes : Bool) :
    ofText number escapes raw = ofText number false raw := by
  rw [ofText, ofText, cellsFrom_of_not_mem h]

namespace Markdown

open CommonMark (Inline)

variable {l : Line}

theorem ofLines_singleton (hKept : ∀ c ∈ l.cells, c.kept = true) :
    Entry.ofLines [l] = l.cells.mapIdx fun i c => ⟨.at 0 i, c.char, c.glyph⟩ := by
  simp [Entry.ofLines, Entry.ofLinesFrom, Entry.ofLine_eq hKept]

theorem ofLines_singleton_place {e : Entry} (h : e ∈ Entry.ofLines [l]) : e.place ≠ .lineBreak := by
  have hLine : Entry.ofLines [l] = Entry.ofLine 0 l := by simp [Entry.ofLines, Entry.ofLinesFrom]
  rw [hLine] at h
  obtain ⟨i, c, hCell, rfl, hShows⟩ := Entry.mem_ofLine h
  intro hBreak
  cases hBreak

theorem foldlM_pass_cons {piece : Inline} {v w : Walk} (h : v.pass piece = .ok w)
    (pieces : List Inline) :
    (piece :: pieces).foldlM Walk.pass v = pieces.foldlM Walk.pass w := by
  rw [List.foldlM_cons, h]
  rfl

theorem eraseInline_singleton {pieces : List Inline} {w : Walk}
    (h : pieces.foldlM Walk.pass ⟨.ofLines [l], []⟩ = .ok w) :
    eraseInline pieces [l] = .ok [applyWalk w.cursor 0 l] := by
  rw [eraseInline, h]
  rfl

/-! ## What is left of the line -/

/-- The entries are those of the line, erased or not. -/
structure Cursor.Covers (c : Cursor) (l : Line) : Prop where
  origin : c.entries.map Entry.origin = (Entry.ofLines [l]).map Entry.origin
  sound : ∀ e ∈ c.entries, e.IsSound

theorem foldl_recordLink_keptText (c : Cursor) (number : Nat) (l : Line)
    (links : List (Nat × Text)) : (links.foldl (recordLink c number) l).keptText = l.keptText := by
  induction links generalizing l with
  | nil => rfl
  | cons link rest ih =>
      rw [List.foldl_cons, ih, recordLink]
      split
      · split <;> rfl
      · rfl

/-- What is left of the line are the characters whose entries have not been erased. -/
theorem Cursor.Covers.keptText_eq {c : Cursor} (h : c.Covers l)
    (hKept : ∀ cell ∈ l.cells, cell.kept = true) :
    (applyWalk c 0 l).keptText = kept (c.entries.map Entry.mark) := by
  have hOne : ∀ m ∈ [l], ∀ cell ∈ m.cells, cell.kept = true := by simpa using hKept
  have hAll := spelled_without hOne h.origin h.sound
  simp only [List.mapIdx_cons, List.mapIdx_nil, List.map_cons, List.map_nil,
    List.intercalate_singleton] at hAll
  rw [applyWalk, foldl_recordLink_keptText, foldl_eraseEntry, ← kept_line, hAll]

/-- A link is recorded behind the character of its entry. -/
theorem Cursor.Covers.links_eq {c : Cursor} (h : c.Covers l)
    (hKept : ∀ cell ∈ l.cells, cell.kept = true) {i : Nat} (hLt : i < l.cells.length) {url : Text}
    (hLinks : c.links = [(i, url)]) :
    (applyWalk c 0 l).links = l.links ++ [((i : Int) + 1, url)] := by
  have hOrigin := congrArg (·[i]?) h.origin
  simp only [ofLines_singleton hKept, List.getElem?_map, List.getElem?_mapIdx,
    List.getElem?_eq_getElem hLt, Option.map_some] at hOrigin
  obtain ⟨e, hAt, hSame⟩ := Option.map_eq_some_iff.mp hOrigin
  have hPlace : e.place = .at 0 i := congrArg Prod.fst hSame
  obtain ⟨place, char, glyph⟩ := e
  simp only at hPlace
  subst hPlace
  rw [applyWalk, hLinks, foldl_eraseEntry]
  simp [recordLink, hAt, Line.addLink, Line.without]

/-! ## Lines without backslashes -/

section Plain

variable {raw : Text} (hPlain : '\\' ∉ raw) (number : Nat)

include hPlain

theorem ofText_isFresh {c : Cell} (h : c ∈ (Line.ofText number true raw).cells) :
    c.kept = true ∧ c.escaped = false := by
  rw [Line.ofText_of_not_mem hPlain] at h
  exact Line.mem_cellsFrom_fresh ((Line.trim_isPrefix _).subset h)

theorem ofLines_ofText_isFresh {e : Entry}
    (h : e ∈ Entry.ofLines [Line.ofText number true raw]) : e.IsFresh := by
  rw [ofLines_singleton fun c hMem => (ofText_isFresh hPlain number hMem).1] at h
  obtain ⟨i, hLt, rfl⟩ := List.mem_mapIdx.mp h
  obtain ⟨hKept, hEscaped⟩ := ofText_isFresh hPlain number (List.getElem_mem hLt)
  exact ⟨by simp [Cell.glyph, hKept, hEscaped], nofun⟩

/-- All characters of the source are on the line, but for the white space at the end. -/
theorem text_ofText : (Line.ofText number true raw).text = raw.stripRight := by
  have hKept : ∀ c ∈ (Line.ofText number true raw).cells, c.kept = true :=
    fun c hMem => (ofText_isFresh hPlain number hMem).1
  rw [← Line.keptText_ofText number raw, ← Line.ofText_of_not_mem hPlain number true,
    Line.keptText, List.filter_eq_self.mpr hKept]
  rfl

theorem ofLines_ofText_char :
    (Entry.ofLines [Line.ofText number true raw]).map (·.char) = raw.stripRight := by
  rw [ofLines_singleton fun c hMem => (ofText_isFresh hPlain number hMem).1, map_mapIdx,
    ← text_ofText hPlain number]
  exact mapIdx_const Cell.char _

end Plain

end Markdown

end ProseLint
