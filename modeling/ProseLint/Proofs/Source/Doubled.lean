import ProseLint.Proofs.Source.Enclosures

/-! Delimiters of one character written twice. Such a delimiter is a stretch of just two of the
character, so an enclosure is found as soon as there are two such stretches, whatever stands between
them. Erasing enclosures leaves the text of a line as it is only when none is found. -/

namespace ProseLint

/-! ## Stretches of two -/

/-- Whether a character stands just twice at the start of some glyphs. `before` is the glyph in
front of them. -/
def standsTwice (d : Char) (before : Option Char) (glyphs : List (Option Char)) : Bool :=
  glyphs.take 2 == [some d, some d] && (before != some d && glyphs[2]?.join != some d)

/-- How often a character stands just twice in a row among some glyphs. -/
def doubledFrom (d : Char) (before : Option Char) : List (Option Char) → Nat
  | [] => 0
  | g :: rest => (if standsTwice d before (g :: rest) then 1 else 0) + doubledFrom d g rest

/-- How often a character stands just twice in a row in a text. Three in a row do not count. -/
def Text.doubled (d : Char) (t : Text) : Nat := doubledFrom d none (t.map some)

section

variable {d : Char}

/-- What is erased separates. -/
theorem doubledFrom_append_none (before : Option Char) (glyphs more : List (Option Char)) :
    doubledFrom d before (glyphs ++ none :: more) =
      doubledFrom d before glyphs + doubledFrom d none more := by
  induction glyphs generalizing before with
  | nil => simp [doubledFrom, standsTwice]
  | cons g rest ih =>
      have hSame : standsTwice d before (g :: rest ++ none :: more) =
          standsTwice d before (g :: rest) := by
        unfold standsTwice
        match rest with
        | [] => simp
        | [_] => simp
        | _ :: _ :: _ => simp
      rw [List.cons_append, doubledFrom, doubledFrom, ih, ← List.cons_append, hSame, Nat.add_assoc]

theorem doubledFrom_none_cons (before : Option Char) (glyphs : List (Option Char)) :
    doubledFrom d before (none :: glyphs) = doubledFrom d none glyphs := by
  simpa [doubledFrom] using doubledFrom_append_none before [] glyphs

theorem doubledFrom_append_erased (before : Option Char) (glyphs : List (Option Char)) (n : Nat)
    (more : List (Option Char)) :
    doubledFrom d before (glyphs ++ (List.replicate (n + 1) none ++ more)) =
      doubledFrom d before glyphs + doubledFrom d none more := by
  induction n with
  | zero => exact doubledFrom_append_none before glyphs more
  | succ n ih =>
      rw [← ih, List.replicate_succ, List.cons_append, doubledFrom_append_none,
        List.replicate_succ, List.cons_append, doubledFrom_none_cons, doubledFrom_append_none]

/-- A text in which the character does not stand twice in a row. -/
theorem doubledFrom_eq_zero {t : Text} (h : ¬ [d, d] <:+: t) (before : Option Char) :
    doubledFrom d before (t.map some) = 0 := by
  induction t generalizing before with
  | nil => rfl
  | cons c rest ih =>
      have hRest : ¬ [d, d] <:+: rest := fun hIn => h (hIn.trans (List.suffix_cons c rest).isInfix)
      have hHere : standsTwice d before ((c :: rest).map some) = false := by
        cases rest with
        | nil => simp [standsTwice]
        | cons e more =>
            refine Bool.eq_false_iff.mpr fun hTwice => h ?_
            have hChars : c = d ∧ e = d := by
              simp only [standsTwice, Bool.and_eq_true, beq_iff_eq] at hTwice
              simpa using hTwice.1
            rw [hChars.1, hChars.2]
            exact List.prefix_append [d, d] more |>.isInfix
      rw [List.map_cons, doubledFrom, ← List.map_cons, hHere, ih hRest]
      rfl

end

/-! ## Enclosures between stretches of two -/

namespace Enclosure

/-- The enclosures between two stretches of two characters. -/
def twice (d : Char) : Enclosure := ⟨[d, d], [d, d], .markers, false⟩

/-- Such a delimiter is accepted where it is no part of a longer stretch. -/
def apart (d : Char) (before after : Option Char) : Bool :=
  !isPartOfRun [d, d] before after

variable {d : Char}

theorem acceptsOpening_eq (d : Char) : acceptsOpening false [d, d] = apart d := by
  funext before after
  simp [acceptsOpening, apart]

theorem acceptsClosing_eq (d : Char) : acceptsClosing false [d, d] = apart d := by
  funext before after
  simp [acceptsClosing, apart]

theorem apart_eq (d : Char) (before after : Option Char) :
    apart d before after = (before != some d && after != some d) := by
  simp [apart, isPartOfRun, bne]

theorem offered_eq_standsTwice (before : Option Char) (cells : List Cell) :
    (!List.isEmpty [d, d] && Cell.spells [d, d] cells &&
      apart d before (headGlyph (cells.drop [d, d].length))) =
        standsTwice d before (cells.map Cell.glyph) := by
  have hAfter : headGlyph (cells.drop 2) = (cells.map Cell.glyph)[2]?.join := by
    rw [headGlyph, List.head?_drop, List.getElem?_map]
    cases cells[2]? <;> rfl
  rw [show [d, d].length = 2 from rfl, hAfter, apart_eq, standsTwice]
  cases cells with
  | nil => rfl
  | cons c cells =>
      cases cells with
      | nil => simp [Cell.spells]
      | cons e rest => simp [Cell.spells]

/-- Right behind a stretch of two no other one starts. -/
theorem doubledFrom_behind {before : Option Char} {c : Cell} {cells : List Cell}
    (hTwice : standsTwice d before ((c :: cells).map Cell.glyph) = true) :
    doubledFrom d c.glyph (cells.map Cell.glyph) =
      doubledFrom d (headGlyph ((c :: cells).drop 2))
        ((((c :: cells).drop 2).drop 1).map Cell.glyph) := by
  match cells with
  | [] => simp [standsTwice] at hTwice
  | e :: rest =>
      obtain ⟨⟨hHere, hNext⟩, -, hAfter⟩ : (c.glyph = some d ∧ e.glyph = some d) ∧
          before ≠ some d ∧ (rest.map Cell.glyph)[0]?.join ≠ some d := by
        simpa [standsTwice] using hTwice
      have hFirst : standsTwice d c.glyph ((e :: rest).map Cell.glyph) = false := by
        simp [standsTwice, hHere]
      rw [List.map_cons, doubledFrom, ← List.map_cons, hFirst, hNext]
      match rest with
      | [] => rfl
      | f :: rest =>
          have hOther : f.glyph ≠ some d := by simpa using hAfter
          have hSecond : standsTwice d (some d) ((f :: rest).map Cell.glyph) = false := by
            simp [standsTwice]
          rw [List.map_cons, doubledFrom, ← List.map_cons, hSecond]
          simp [headGlyph]

theorem doubledFrom_of_seek_none {before : Option Char} {cells : List Cell}
    (h : seek (apart d) [d, d] before cells = none) :
    doubledFrom d before (cells.map Cell.glyph) = 0 := by
  induction cells generalizing before with
  | nil => rfl
  | cons c cells ih =>
      rw [seek, offered_eq_standsTwice] at h
      rw [List.map_cons, doubledFrom, ← List.map_cons]
      split at h
      · cases h
      · next hNot => rw [if_neg hNot, ih (Option.map_eq_none_iff.mp h)]

theorem doubledFrom_of_seek_some {before : Option Char} {cells : List Cell} {k : Nat}
    (h : seek (apart d) [d, d] before cells = some k) :
    doubledFrom d before (cells.map Cell.glyph) =
      1 + doubledFrom d (headGlyph (cells.drop (k + 2)))
        (((cells.drop (k + 2)).drop 1).map Cell.glyph) := by
  induction cells generalizing before k with
  | nil => cases h
  | cons c cells ih =>
      rw [seek, offered_eq_standsTwice] at h
      rw [List.map_cons, doubledFrom, ← List.map_cons]
      split at h
      · next hTwice =>
          cases h
          rw [if_pos hTwice, doubledFrom_behind hTwice]
      · next hNot =>
          obtain ⟨j, hFound, rfl⟩ := Option.map_eq_some_iff.mp h
          rw [if_neg hNot, ih hFound, Nat.zero_add]
          rfl

/-- An enclosure is found as soon as the character stands twice in a row at two places. -/
theorem pairs_twice_eq_nil_iff (before : Option Char) (i : Nat) (cells : List Cell) :
    (twice d).pairs before i cells = [] ↔ doubledFrom d before (cells.map Cell.glyph) ≤ 1 := by
  cases cells with
  | nil => simp [pairs, doubledFrom]
  | cons c rest =>
      rw [pairs]
      simp only [twice, acceptsOpening_eq, acceptsClosing_eq]
      cases hOpening : seek (apart d) [d, d] before (c :: rest) with
      | none =>
          rw [doubledFrom_of_seek_none hOpening]
          exact iff_of_true rfl (Nat.zero_le 1)
      | some b =>
          rw [doubledFrom_of_seek_some hOpening]
          simp only [List.length_cons, List.length_nil, Nat.zero_add, Nat.reduceAdd]
          cases hClosing : seek (apart d) [d, d] (headGlyph ((c :: rest).drop (b + 2)))
            (((c :: rest).drop (b + 2)).drop 1) with
          | none =>
              rw [doubledFrom_of_seek_none hClosing]
              exact iff_of_true rfl (Nat.le_refl 1)
          | some k =>
              rw [doubledFrom_of_seek_some hClosing]
              exact iff_of_false (List.cons_ne_nil _ _) (by omega)

end Enclosure

/-! ## The text that is left -/

theorem Enclosure.kept_of_changed {e : Enclosure} {pairs : List (Nat × Nat)} {i : Nat} {c : Cell}
    (h : (e.changed pairs i c).kept = true) : c.kept = true := by
  simp only [changed, Bool.and_eq_true] at h
  exact h.1

namespace Line

theorem length_keptText (l : Line) : l.keptText.length = l.cells.countP (·.kept) := by
  rw [keptText, List.length_map, List.countP_eq_length_filter]

theorem length_keptText_eraseEnclosure_le (l : Line) (e : Enclosure) :
    (l.eraseEnclosure e).1.keptText.length ≤ l.keptText.length := by
  rw [eraseEnclosure_eq, length_keptText, length_keptText]
  exact countP_mapIdx_le (f := e.changed _) (fun _ _ => Enclosure.kept_of_changed) l.cells

/-- An enclosure that is found takes at least its opening delimiter away. -/
theorem length_keptText_eraseEnclosure_lt {l : Line} {e : Enclosure} (hOpening : e.opening ≠ [])
    (hFound : e.pairs none 0 l.cells ≠ []) :
    (l.eraseEnclosure e).1.keptText.length < l.keptText.length := by
  obtain ⟨pair, hPair⟩ := List.exists_mem_of_ne_nil _ hFound
  obtain ⟨-, -, hSpells⟩ := Enclosure.mem_pairs pair hPair
  obtain ⟨d, rest, hDelimiter⟩ := List.exists_cons_of_ne_nil hOpening
  rw [hDelimiter] at hSpells
  obtain ⟨c, hAt, hKept⟩ : ∃ c, l.cells[pair.1]? = some c ∧ c.kept = true := by
    cases hCells : l.cells.drop pair.1 with
    | nil =>
        rw [Nat.sub_zero, hCells] at hSpells
        cases hSpells
    | cons c cells =>
        rw [Nat.sub_zero, hCells, Cell.spells, Bool.and_eq_true, beq_iff_eq] at hSpells
        refine ⟨c, by rw [← List.head?_drop, hCells, List.head?_cons], ?_⟩
        by_contra hErased
        simp [Cell.glyph, hErased] at hSpells
  rw [eraseEnclosure_eq, length_keptText, length_keptText]
  refine countP_mapIdx_lt (f := e.changed _) (fun _ _ => Enclosure.kept_of_changed) hAt hKept ?_
  have hErased : (e.pairs none 0 l.cells).any (e.erases pair.1) = true :=
    List.any_eq_true.mpr ⟨pair, hPair, by simp [Enclosure.erases, hDelimiter]⟩
  simp [Enclosure.changed, hErased]

theorem eraseEnclosure_of_none {l : Line} {e : Enclosure} (hNone : e.pairs none 0 l.cells = []) :
    (l.eraseEnclosure e).1 = l := by
  rw [eraseEnclosure, hNone]
  rfl

theorem length_keptText_foldl_le (es : List Enclosure) (l : Line) :
    (es.foldl (fun l e => (l.eraseEnclosure e).1) l).keptText.length ≤ l.keptText.length := by
  induction es generalizing l with
  | nil => exact Nat.le_refl _
  | cons e es ih => exact Nat.le_trans (ih _) (length_keptText_eraseEnclosure_le l e)

/-- Erasing enclosures of some kinds leaves the text as it is just when none is found. -/
theorem foldl_eraseEnclosure_keptText_iff {es : List Enclosure}
    (hOpening : ∀ e ∈ es, e.opening ≠ []) (l : Line) :
    (es.foldl (fun l e => (l.eraseEnclosure e).1) l).keptText = l.keptText ↔
      ∀ e ∈ es, e.pairs none 0 l.cells = [] := by
  induction es with
  | nil => simp
  | cons e es ih =>
      obtain ⟨hFirst, hRest⟩ := List.forall_mem_cons.mp hOpening
      rw [List.foldl_cons, List.forall_mem_cons]
      by_cases hNone : e.pairs none 0 l.cells = []
      · rw [eraseEnclosure_of_none hNone]
        exact (ih hRest).trans ⟨fun h => ⟨hNone, h⟩, fun h => h.2⟩
      · refine iff_of_false (fun hSame => ?_) fun h => hNone h.1
        have hLess := length_keptText_eraseEnclosure_lt hFirst hNone
        have hLe := length_keptText_foldl_le es (l.eraseEnclosure e).1
        rw [hSame] at hLe
        exact absurd hLess (Nat.not_lt.mpr hLe)

end Line

end ProseLint
