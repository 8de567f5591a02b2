import ProseLint.Proofs.Source.Lines
import ProseLint.Proofs.Source.Origin
import Mathlib.Data.List.Basic

/-! Escaped characters in a text. A backslash escapes the character behind it when an even number
of backslashes stands before it, since each pair of these is an escaped backslash. Whichever
character is escaped, the text falls into the same lines and the same other characters. -/

namespace ProseLint

namespace Text

/-- The number of backslashes at the end of a text. -/
def backslashes (t : Text) : Nat := (t.reverse.takeWhile (· == '\\')).length

theorem backslashes_le_length (t : Text) : t.backslashes ≤ t.length := by
  have hLe := (List.takeWhile_sublist (l := t.reverse) (· == '\\')).length_le
  rwa [List.length_reverse] at hLe

/-- A backslash at the start counts if nothing but backslashes stands behind it. -/
theorem backslashes_cons (c : Char) (t : Text) :
    backslashes (c :: t) =
      if c = '\\' ∧ t.backslashes = t.length then t.backslashes + 1 else t.backslashes := by
  have hReverse : t.reverse.length = t.length := List.length_reverse
  unfold backslashes
  rw [List.reverse_cons, List.takeWhile_append, hReverse]
  by_cases hAll : (t.reverse.takeWhile (· == '\\')).length = t.length
  · by_cases hSlash : c = '\\'
    · simp [hAll, hSlash]
    · simp [hAll, hSlash]
  · simp [hAll]

theorem backslashes_cons_of_ne {c : Char} (h : c ≠ '\\') (t : Text) :
    backslashes (c :: t) = t.backslashes := by
  rw [backslashes_cons, if_neg fun hSlash => h hSlash.1]

/-- An escaped character does not count, nor does the backslash before it. -/
theorem backslashes_escape (c : Char) (t : Text) :
    backslashes ('\\' :: c :: t) % 2 = t.backslashes % 2 := by
  have hLe := backslashes_le_length t
  rw [backslashes_cons, backslashes_cons, List.length_cons]
  by_cases hAll : c = '\\' ∧ t.backslashes = t.length
  · rw [if_pos hAll, if_pos ⟨rfl, by rw [hAll.2]⟩]
    omega
  · rw [if_neg hAll, if_neg fun hMore => by omega]

/-- Only the backslashes behind the last other character count. -/
theorem backslashes_append_cons {c : Char} (h : c ≠ '\\') (front back : Text) :
    backslashes (front ++ c :: back) = back.backslashes := by
  induction front with
  | nil => exact backslashes_cons_of_ne h back
  | cons d front ih =>
      have hLe := backslashes_le_length back
      rw [List.cons_append, backslashes_cons, ih, if_neg]
      rintro ⟨-, hAll⟩
      rw [List.length_append, List.length_cons] at hAll
      omega

/-! ## Lines around an escaped character -/

/-- A text of which `above` are whole lines. What is added to it belongs to its last line, which
is `head` so far, unless it completes a line ending. -/
structure EndsIn (before : Text) (above : List Text) (head : Text) : Prop where
  eq_or_ending : above = [] ∧ before = head ∨
    above ≠ [] ∧ ∃ front c, c ≠ '\\' ∧ before = front ++ c :: head
  split_eq {after line : Text} {below : List Text} (hHead : after.head? ≠ some '\n')
    (hAfter : splitLines after = line :: below) :
    splitLines (before ++ after) = above ++ (head ++ line) :: below

namespace EndsIn

variable {before head : Text} {above : List Text}

theorem backslashes_eq (h : EndsIn before above head) : head.backslashes = before.backslashes := by
  rcases h.eq_or_ending with ⟨-, rfl⟩ | ⟨-, front, c, hOther, rfl⟩
  · rfl
  · exact (backslashes_append_cons hOther front head).symm

/-- A line ending starts a line. -/
theorem ending (h : EndsIn before above head) (front : Text) {c : Char} (hOther : c ≠ '\\')
    (hSplit : ∀ after : Text, after.head? ≠ some '\n' →
      splitLines (front ++ c :: (before ++ after)) = [] :: splitLines (before ++ after)) :
    EndsIn (front ++ c :: before) ([] :: above) head where
  eq_or_ending := by
    refine .inr ⟨List.cons_ne_nil [] above, ?_⟩
    rcases h.eq_or_ending with ⟨-, rfl⟩ | ⟨-, more, d, hLast, rfl⟩
    · exact ⟨front, c, hOther, rfl⟩
    · exact ⟨front ++ c :: more, d, hLast, by simp⟩
  split_eq {after _ _} hHead hAfter := by
    rw [List.append_assoc, List.cons_append, hSplit after hHead, h.split_eq hHead hAfter,
      List.cons_append]

/-- Any other character goes to the first line. -/
theorem cons (h : EndsIn before above head) {c : Char} (hPlain : c ≠ '\r' ∧ c ≠ '\n') :
    ∃ above head, EndsIn (c :: before) above head := by
  rcases above with _ | ⟨first, above⟩
  · rcases h.eq_or_ending with ⟨-, rfl⟩ | ⟨hSome, -⟩
    · exact ⟨[], c :: before, .inl ⟨rfl, rfl⟩, fun hHead hAfter =>
        splitLines_cons hPlain (h.split_eq hHead hAfter)⟩
    · exact absurd rfl hSome
  · rcases h.eq_or_ending with ⟨hNone, -⟩ | ⟨-, front, d, hOther, rfl⟩
    · cases hNone
    · exact ⟨(c :: first) :: above, head,
        .inr ⟨List.cons_ne_nil _ _, c :: front, d, hOther, rfl⟩,
        fun hHead hAfter => splitLines_cons hPlain (h.split_eq hHead hAfter)⟩

end EndsIn

theorem exists_endsIn (before : Text) : ∃ above head, EndsIn before above head := by
  induction before using splitLines.induct with
  | case1 => exact ⟨[], [], .inl ⟨rfl, rfl⟩, fun _ hAfter => hAfter⟩
  | case2 rest ih =>
      obtain ⟨above, head, h⟩ := ih
      exact ⟨[] :: above, head, h.ending ['\r'] (by decide) fun after _ => rfl⟩
  | case3 c rest hSingle hEnd ih =>
      obtain ⟨above, head, h⟩ := ih
      have hOther : c ≠ '\\' := by rcases hEnd with rfl | rfl <;> decide
      refine ⟨[] :: above, head, h.ending [] hOther fun after hHead => ?_⟩
      refine splitLines_break hEnd fun more hReturn hMore => ?_
      cases rest with
      | nil =>
          rw [List.nil_append] at hMore
          exact hHead (by rw [hMore]; rfl)
      | cons d rest =>
          obtain ⟨rfl, -⟩ := List.cons.inj hMore
          exact hSingle rest hReturn rfl
  | case4 c rest hSingle hEnd hRest ih => exact (splitLines_ne_nil rest hRest).elim
  | case5 c rest hSingle hEnd line lines hRest ih =>
      obtain ⟨above, head, h⟩ := ih
      exact h.cons (not_or.mp hEnd)

/-- The empty line that a line ending at the end of a text leaves is not counted, and it is below
every line with something on it. -/
theorem lines_eq_of_splitLines {t line : Text} {above below : List Text}
    (h : splitLines t = above ++ line :: below) (hLine : line ≠ []) :
    lines t = above ++ line :: (if below.getLast? = some [] then below.dropLast else below) := by
  unfold lines
  rw [h]
  cases below with
  | nil => simp [hLine]
  | cons next below =>
      have hLast : (above ++ line :: next :: below).getLast? = (next :: below).getLast? := by
        rw [List.getLast?_append_cons, List.getLast?_cons_cons]
      simp only [hLast]
      split
      · rw [List.dropLast_append_cons, List.dropLast_cons_cons]
      · rfl

/-- Characters that stand in a text and end no line are on one line. What is around them on it
and on the other lines does not depend on them. -/
theorem lines_around (before after : Text) :
    ∃ (above below : List Text) (head tail : Text), head.backslashes = before.backslashes ∧
      ∀ t : Text, t ≠ [] → t.IsUnbroken →
        lines (before ++ (t ++ after)) = above ++ (head ++ (t ++ tail)) :: below := by
  obtain ⟨above, head, h⟩ := exists_endsIn before
  obtain ⟨tail, below, hAfter⟩ := List.exists_cons_of_ne_nil (splitLines_ne_nil after)
  refine ⟨above, if below.getLast? = some [] then below.dropLast else below, head, tail,
    h.backslashes_eq, fun t hSome hUnbroken => ?_⟩
  have hHead : (t ++ after).head? ≠ some '\n' := by
    obtain ⟨c, t, rfl⟩ := List.exists_cons_of_ne_nil hSome
    rw [List.cons_append, List.head?_cons, Ne, Option.some_inj]
    exact (hUnbroken c List.mem_cons_self).2
  refine lines_eq_of_splitLines (h.split_eq hHead (splitLines_append hUnbroken hAfter)) ?_
  simp [hSome]

end Text

namespace Line

theorem cellsFrom_cons_of_ne {c : Char} (h : c ≠ '\\') (escapes : Bool) (i : Nat) (t : Text) :
    cellsFrom escapes i (c :: t) = .ofChar c i false :: cellsFrom escapes (i + 1) t := by
  cases t with
  | nil => rfl
  | cons d rest => simp [cellsFrom, h]

/-- Nothing is read but what stands in the text, in its order. -/
theorem cellsFrom_char_sublist (escapes : Bool) (i : Nat) (t : Text) :
    ((cellsFrom escapes i t).map (·.char)).Sublist t := by
  induction i, t using cellsFrom.induct escapes with
  | case1 i => exact .slnil
  | case2 i d => exact .refl [d]
  | case3 i d e rest hEscape ih =>
      rw [cellsFrom, if_pos hEscape]
      exact (ih.cons_cons e).cons d
  | case4 i d e rest hPlain ih =>
      rw [cellsFrom, if_neg hPlain]
      exact ih.cons_cons d

/-- The first backslash of a text that goes on behind it is not read. -/
theorem cellsFrom_char_sublist_of_escape {head : Text} (hFirst : '\\' ∉ head) (i : Nat) (d : Char)
    (rest : Text) :
    ((cellsFrom true i (head ++ '\\' :: d :: rest)).map (·.char)).Sublist (head ++ d :: rest) := by
  induction head generalizing i with
  | nil => exact (cellsFrom_char_sublist true (i + 2) rest).cons_cons d
  | cons c head ih =>
      rw [List.mem_cons, not_or] at hFirst
      rw [List.cons_append, cellsFrom_cons_of_ne (Ne.symm hFirst.1)]
      exact (ih hFirst.2 (i + 1)).cons_cons c

/-- What is read before an escaped character and behind it does not depend on the character. -/
theorem cellsFrom_escaped {head : Text} (hEven : head.backslashes % 2 = 0) (i : Nat) :
    ∃ left : List Cell, ∀ (c : Char) (tail : Text),
      cellsFrom true i (head ++ '\\' :: c :: tail) =
        left ++ .ofChar c (i + head.length + 1) true ::
          cellsFrom true (i + head.length + 2) tail := by
  induction i, head using cellsFrom.induct true with
  | case1 i => exact ⟨[], fun c tail => rfl⟩
  | case2 i d =>
      have hPlain : d ≠ '\\' := by
        rintro rfl
        cases hEven
      refine ⟨[.ofChar d i false], fun c tail => ?_⟩
      simp [cellsFrom, hPlain]
  | case3 i d e rest hEscape ih =>
      obtain rfl : d = '\\' := by simpa using hEscape
      rw [Text.backslashes_escape] at hEven
      obtain ⟨left, hLeft⟩ := ih hEven
      refine ⟨.ofChar e (i + 1) true :: left, fun c tail => ?_⟩
      have hShift : i + 2 + rest.length = i + ('\\' :: e :: rest).length := by
        simp only [List.length_cons]
        omega
      rw [List.cons_append, List.cons_append, cellsFrom, if_pos hEscape, hLeft, hShift,
        List.cons_append]
  | case4 i d e rest hPlain ih =>
      have hNot : d ≠ '\\' := by simpa using hPlain
      rw [Text.backslashes_cons_of_ne hNot] at hEven
      obtain ⟨left, hLeft⟩ := ih hEven
      refine ⟨.ofChar d i false :: left, fun c tail => ?_⟩
      have hShift : i + 1 + (e :: rest).length = i + (d :: e :: rest).length := by
        simp only [List.length_cons]
        omega
      rw [List.cons_append, List.cons_append, cellsFrom, if_neg hPlain, ← List.cons_append, hLeft,
        hShift, List.cons_append]

/-- What is read of a text that starts without a backslash. -/
theorem cellsFrom_append {head : Text} (h : '\\' ∉ head) (escapes : Bool) (i : Nat) (tail : Text) :
    cellsFrom escapes i (head ++ tail) =
      cellsFrom false i head ++ cellsFrom escapes (i + head.length) tail := by
  induction head generalizing i with
  | nil => rfl
  | cons c head ih =>
      rw [List.mem_cons, not_or] at h
      have hPlain : c ≠ '\\' := Ne.symm h.1
      rw [List.cons_append, cellsFrom_cons_of_ne hPlain, cellsFrom_cons_of_ne hPlain, ih h.2,
        List.cons_append, List.length_cons, show i + 1 + head.length = i + (head.length + 1) by omega]

/-- White space at the end of a line is behind every character that is escaped or seen. -/
theorem trim_append_cons {c : Cell} (hKept : (isBlank c.char && !c.escaped) = false)
    (left right : List Cell) : trim (left ++ c :: right) = left ++ c :: trim right := by
  unfold trim
  rw [List.reverse_append, List.reverse_cons, List.append_assoc, List.dropWhile_append]
  split
  · next hNone =>
      rw [List.isEmpty_iff.mp hNone]
      simp [hKept]
  · simp

/-- The cells of a line around an escaped character. -/
theorem ofText_cells_escaped {head : Text} (hEven : head.backslashes % 2 = 0) (n : Nat)
    (tail : Text) :
    ∃ (left right : List Cell) (k : Nat), ∀ c,
      (ofText n true (head ++ '\\' :: c :: tail)).cells = left ++ .ofChar c k true :: right := by
  obtain ⟨left, hLeft⟩ := cellsFrom_escaped hEven 0
  exact ⟨left, trim (cellsFrom true (0 + head.length + 2) tail), 0 + head.length + 1, fun c => by
    rw [ofText, hLeft, trim_append_cons (by simp [Cell.ofChar])]⟩

/-- Where a text starts without a backslash and with something seen at the end, so does the line
that is read from it. -/
theorem isPrefix_text_ofText {head : Text} (hPlain : '\\' ∉ head) (hEnds : head.EndsVisibly)
    (n : Nat) (tail : Text) : head <+: (ofText n true (head ++ tail)).text := by
  obtain ⟨before, c, rfl, hSeen⟩ := hEnds
  have hLine : ∃ right, (ofText n true (before ++ [c] ++ tail)).cells =
      cellsFrom false 0 (before ++ [c]) ++ right := by
    have hBefore : '\\' ∉ before := fun hMem => hPlain (List.mem_append_left _ hMem)
    have hLast : c ≠ '\\' := fun hSlash => hPlain (by simp [hSlash])
    have hRead : cellsFrom true 0 (before ++ c :: tail) = cellsFrom false 0 before ++
        .ofChar c (0 + before.length) false :: cellsFrom true (0 + before.length + 1) tail := by
      rw [cellsFrom_append hBefore, cellsFrom_cons_of_ne hLast]
    have hSelf : cellsFrom false 0 (before ++ [c]) =
        cellsFrom false 0 before ++ [.ofChar c (0 + before.length) false] :=
      cellsFrom_append hBefore false 0 [c]
    refine ⟨trim (cellsFrom true (0 + before.length + 1) tail), ?_⟩
    rw [List.append_assoc, List.singleton_append, ofText, hRead,
      trim_append_cons (by simp [Cell.ofChar, hSeen]), hSelf, List.append_assoc,
      List.singleton_append]
  obtain ⟨right, hCells⟩ := hLine
  rw [text, hCells, List.map_append, cellsFrom_char]
  exact List.prefix_append _ _

/-- The lines of a text around an escaped character. Nothing but its own line depends on which
character it is. -/
theorem readAll_escaped (before after : Text) :
    ∃ (above below : List Line) (n : Nat) (head tail : Text),
      head.backslashes = before.backslashes ∧ ∀ c, isBlank c = false →
        readAll true (before ++ '\\' :: c :: after) =
          above ++ ofText n true (head ++ '\\' :: c :: tail) :: below := by
  obtain ⟨above, below, head, tail, hSame, hLines⟩ := Text.lines_around before after
  refine ⟨above.mapIdx fun i raw => ofText (i + 1) true raw,
    below.mapIdx fun i raw => ofText (i + 1 + above.length + 1) true raw, above.length + 1,
    head, tail, hSame, fun c hVisible => ?_⟩
  have hUnbroken : Text.IsUnbroken ['\\', c] := by
    have hChar : c ≠ '\r' ∧ c ≠ '\n' := by
      constructor <;> rintro rfl <;> exact absurd hVisible (by decide)
    exact List.forall_mem_cons.mpr ⟨by decide, List.forall_mem_singleton.mpr hChar⟩
  have hAll := hLines ['\\', c] (List.cons_ne_nil _ _) hUnbroken
  simp only [List.cons_append, List.nil_append] at hAll
  rw [readAll, hAll, List.mapIdx_append, List.mapIdx_cons, Nat.zero_add]

end Line

end ProseLint
