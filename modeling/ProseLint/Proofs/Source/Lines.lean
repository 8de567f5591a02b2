import ProseLint.Proofs.Source.Origin
import ProseLint.Proofs.Text.Pieces
import ProseLint.Proofs.Text.Visible
import ProseLint.Source.Reading
import Mathlib.Data.List.Induction

/-! Lines of a text, back and forth. Texts of one line each, joined with blank lines between
them, are read as the same lines again. -/

namespace ProseLint

namespace Text

/-- The text is a part of one line. -/
def IsUnbroken (t : Text) : Prop := ∀ c ∈ t, c ≠ '\r' ∧ c ≠ '\n'

/-! ## Splitting -/

theorem splitLines_returnFeed (rest : Text) :
    splitLines ('\r' :: '\n' :: rest) = [] :: splitLines rest := rfl

/-- A line break of one character ends a line. -/
theorem splitLines_break {c : Char} {rest : Text} (hEnd : c = '\r' ∨ c = '\n')
    (hSingle : ∀ more, c = '\r' → rest = '\n' :: more → False) :
    splitLines (c :: rest) = [] :: splitLines rest := by
  rw [splitLines, if_pos hEnd]
  exact hSingle

/-- A character that ends no line goes to the first one. -/
theorem splitLines_cons {c : Char} (h : c ≠ '\r' ∧ c ≠ '\n') {rest line : Text}
    {lines : List Text} (hRest : splitLines rest = line :: lines) :
    splitLines (c :: rest) = (c :: line) :: lines := by
  rw [splitLines, if_neg (by simp [h]), hRest]
  exact fun _ hReturn => (h.1 hReturn).elim

theorem splitLines_ne_nil (t : Text) : t.splitLines ≠ [] := by
  induction t using splitLines.induct with
  | case1 | case2 => exact List.cons_ne_nil _ _
  | case3 c rest hSingle hEnd ih =>
      rw [splitLines_break hEnd hSingle]
      exact List.cons_ne_nil _ _
  | case4 c rest hSingle hEnd hRest ih => exact (ih hRest).elim
  | case5 c rest hSingle hEnd line lines hRest ih =>
      rw [splitLines_cons (not_or.mp hEnd) hRest]
      exact List.cons_ne_nil _ _

theorem splitLines_append {t : Text} (h : t.IsUnbroken) {rest line : Text} {lines : List Text}
    (hRest : splitLines rest = line :: lines) :
    splitLines (t ++ rest) = (t ++ line) :: lines := by
  induction t with
  | nil => exact hRest
  | cons c t ih =>
      obtain ⟨hFirst, hLater⟩ := List.forall_mem_cons.mp h
      exact splitLines_cons hFirst (ih hLater)

theorem isUnbroken_of_mem_splitLines {t part : Text} (h : part ∈ t.splitLines) :
    part.IsUnbroken := by
  have hNone : IsUnbroken [] := fun _ hMem => absurd hMem List.not_mem_nil
  induction t using splitLines.induct generalizing part with
  | case1 =>
      rw [List.mem_singleton.mp h]
      exact hNone
  | case2 rest ih =>
      rw [splitLines_returnFeed, List.mem_cons] at h
      rcases h with rfl | hLater
      · exact hNone
      · exact ih hLater
  | case3 c rest hSingle hEnd ih =>
      rw [splitLines_break hEnd hSingle, List.mem_cons] at h
      rcases h with rfl | hLater
      · exact hNone
      · exact ih hLater
  | case4 c rest hSingle hEnd hRest ih => exact (splitLines_ne_nil rest hRest).elim
  | case5 c rest hSingle hEnd line lines hRest ih =>
      rw [not_or] at hEnd
      rw [splitLines_cons hEnd hRest, List.mem_cons] at h
      rw [hRest] at ih
      rcases h with rfl | hLater
      · exact List.forall_mem_cons.mpr ⟨hEnd, ih List.mem_cons_self⟩
      · exact ih (List.mem_cons_of_mem line hLater)

/-! ## Joining -/

theorem mem_join {separator : Text} {parts : List Text} {c : Char}
    (h : c ∈ join separator parts) : c ∈ separator ∨ ∃ part ∈ parts, c ∈ part := by
  induction parts with
  | nil => cases h
  | cons part rest ih =>
      cases rest with
      | nil => exact Or.inr ⟨part, List.mem_cons_self, h⟩
      | cons next rest =>
          rw [join_cons_cons, List.mem_append, List.mem_append] at h
          rcases h with hFirst | hSeparator | hLater
          · exact Or.inr ⟨part, List.mem_cons_self, hFirst⟩
          · exact Or.inl hSeparator
          · rcases ih hLater with hSeparator | ⟨p, hMem, hIn⟩
            · exact Or.inl hSeparator
            · exact Or.inr ⟨p, List.mem_cons_of_mem part hMem, hIn⟩

theorem join_endsVisibly {separator : Text} {parts : List Text} (hSome : parts ≠ [])
    (h : ∀ part ∈ parts, part.EndsVisibly) : (join separator parts).EndsVisibly := by
  induction parts with
  | nil => exact (hSome rfl).elim
  | cons part rest ih =>
      cases rest with
      | nil => exact h part List.mem_cons_self
      | cons next rest =>
          rw [join_cons_cons, ← List.append_assoc]
          exact (ih (List.cons_ne_nil next rest) (List.forall_mem_cons.mp h).2).append_left _

/-- What separates paragraphs: the end of a line and a line with nothing on it. -/
def blankLine : Text := ['\n', '\n']

theorem splitLines_join_blankLine {part : Text} {rest : List Text}
    (hUnbroken : ∀ p ∈ part :: rest, p.IsUnbroken) :
    splitLines (join blankLine (part :: rest)) = (part :: rest).intersperse [] := by
  induction rest generalizing part with
  | nil =>
      have hNone : splitLines [] = [[]] := rfl
      have hSplit := splitLines_append (hUnbroken part List.mem_cons_self) hNone
      rwa [List.append_nil] at hSplit
  | cons next rest ih =>
      obtain ⟨hPart, hRest⟩ := List.forall_mem_cons.mp hUnbroken
      have hGap : splitLines (blankLine ++ join blankLine (next :: rest)) =
          [] :: [] :: (next :: rest).intersperse [] := by
        rw [← ih hRest]
        simp [blankLine, splitLines]
      rw [join_cons_cons, List.intersperse_cons_cons, splitLines_append hPart hGap,
        List.append_nil]

theorem getLast?_intersperse {α : Type} (separator : α) (items : List α) :
    (items.intersperse separator).getLast? = items.getLast? := by
  induction items with
  | nil => rfl
  | cons a rest ih =>
      cases rest with
      | nil => rfl
      | cons b rest =>
          have hSome : (b :: rest).intersperse separator ≠ [] := by cases rest <;> simp
          obtain ⟨c, more, hMore⟩ := List.exists_cons_of_ne_nil hSome
          rw [List.intersperse_cons_cons, hMore, List.getLast?_cons_cons, List.getLast?_cons_cons,
            ← hMore, ih, List.getLast?_cons_cons]

/-- Joined lines are read back, with an empty line between any two of them. -/
theorem lines_join_blankLine {parts : List Text} (hUnbroken : ∀ part ∈ parts, part.IsUnbroken)
    (hSome : ∀ part ∈ parts, part ≠ []) :
    (join blankLine parts).lines = parts.intersperse [] := by
  cases parts with
  | nil => rfl
  | cons part rest =>
      have hLast : ((part :: rest).intersperse []).getLast? ≠ some [] := by
        rw [getLast?_intersperse]
        exact fun hEmpty => hSome [] (List.mem_of_getLast? hEmpty) rfl
      rw [lines, splitLines_join_blankLine hUnbroken]
      exact if_neg hLast

end Text

namespace Line

/-! ## Lines without escapes -/

/-- Nothing is seen of a line when what is left of it is white space. -/
theorem isEmpty_eq (l : Line) : l.isEmpty = l.keptText.isAllBlank := by
  simp [isEmpty, keptText, Text.isAllBlank, List.all_map, List.all_filter, Function.comp_def]

theorem cellsFrom_char (i : Nat) (t : Text) : (cellsFrom false i t).map (·.char) = t := by
  induction t generalizing i with
  | nil => rfl
  | cons c rest ih =>
      cases rest with
      | nil => rfl
      | cons d rest => simpa [cellsFrom, Cell.ofChar] using ih (i + 1)

theorem mem_cellsFrom_fresh {i : Nat} {t : Text} {c : Cell} (h : c ∈ cellsFrom false i t) :
    c.kept = true ∧ c.escaped = false := by
  induction t generalizing i with
  | nil => cases h
  | cons d rest ih =>
      cases rest with
      | nil =>
          rw [List.mem_singleton.mp h]
          exact ⟨rfl, rfl⟩
      | cons e rest =>
          simp only [cellsFrom, Bool.false_and, Bool.false_eq_true, if_false, List.mem_cons] at h
          rcases h with rfl | hLater
          · exact ⟨rfl, rfl⟩
          · exact ih (i := i + 1) (by simpa using hLater)

/-- Without backslashes nothing is escaped. -/
theorem cellsFrom_of_not_mem {t : Text} (h : '\\' ∉ t) (escapes : Bool) (i : Nat) :
    cellsFrom escapes i t = cellsFrom false i t := by
  induction t generalizing i with
  | nil => rfl
  | cons c rest ih =>
      rw [List.mem_cons, not_or] at h
      cases rest with
      | nil => rfl
      | cons d rest => simp [cellsFrom, Ne.symm h.1, ih h.2]

/-- Nothing is trimmed where a text ends visibly. -/
theorem trim_eq_self {cells : List Cell} (h : ∀ c ∈ cells.getLast?, isBlank c.char = false) :
    trim cells = cells := by
  cases cells using List.reverseRecOn with
  | nil => rfl
  | append_singleton before c =>
      have hSeen := h c (by simp)
      simp [trim, hSeen]

theorem ofText_cells {raw : Text} (hPlain : '\\' ∉ raw)
    (hEnds : ∀ c ∈ raw.getLast?, isBlank c = false) (number : Nat) (escapes : Bool) :
    (ofText number escapes raw).cells = cellsFrom false 0 raw := by
  rw [ofText, cellsFrom_of_not_mem hPlain]
  apply trim_eq_self
  intro c hLast
  apply hEnds
  rw [← cellsFrom_char 0 raw, List.getLast?_map, hLast]
  rfl

theorem dropWhile_congr {α : Type} {p q : α → Bool} {items : List α}
    (h : ∀ a ∈ items, p a = q a) : items.dropWhile p = items.dropWhile q := by
  induction items with
  | nil => rfl
  | cons a rest ih =>
      rw [List.dropWhile_cons, List.dropWhile_cons, h a List.mem_cons_self,
        ih fun b hMem => h b (List.mem_cons_of_mem a hMem)]

/-- A line without escapes has the characters of its source, but for the white space at the
end. -/
theorem keptText_ofText (n : Nat) (raw : Text) :
    (ofText n false raw).keptText = raw.stripRight := by
  let cells := cellsFrom false 0 raw
  have hTrim : trim cells = (cells.reverse.dropWhile (isBlank ∘ Cell.char)).reverse := by
    refine congrArg List.reverse (dropWhile_congr fun c hMem => ?_)
    simp [(mem_cellsFrom_fresh (List.mem_reverse.mp hMem)).2]
  have hKept : (trim cells).filter (·.kept) = trim cells :=
    List.filter_eq_self.mpr fun c hMem =>
      (mem_cellsFrom_fresh ((trim_isPrefix cells).subset hMem)).1
  calc
    (ofText n false raw).keptText = (trim cells).map (·.char) := congrArg (List.map _) hKept
    _ = ((cells.map (·.char)).reverse.dropWhile isBlank).reverse := by
      rw [hTrim, List.map_reverse, ← List.dropWhile_map, List.map_reverse]
    _ = raw.stripRight := by rw [cellsFrom_char]; rfl

end Line

end ProseLint
