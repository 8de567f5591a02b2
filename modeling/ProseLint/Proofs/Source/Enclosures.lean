import ProseLint.Proofs.Source.Origin

/-! Enclosures, one after the other. Each pair of delimiters is looked for on the line as the pairs
before it have left it, and erased before the next one is looked for. Looking for all pairs on the
line as it was first finds the same ones, since nothing changes behind the place where the search
goes on. Every character that is erased or marked on the way belongs to one of the pairs. -/

namespace ProseLint

namespace Line

/-! ## Looking for a delimiter -/

/-- Whether a delimiter stands at a position and is accepted between the glyphs around it. -/
def offers (l : Line) (accepts : Option Char → Option Char → Bool) (delimiter : Text)
    (i : Nat) : Bool :=
  !delimiter.isEmpty && Cell.spells delimiter (l.cells.drop i) &&
    accepts (l.glyphAt ((i : Int) - 1)) (l.glyphAt ((i : Int) + delimiter.length))

/-- The first position from `start` on at which a delimiter is accepted. -/
structure FirstOffer (l : Line) (accepts : Option Char → Option Char → Bool) (delimiter : Text)
    (start i : Nat) : Prop where
  start_le : start ≤ i
  offers : l.offers accepts delimiter i = true
  before : ∀ k, start ≤ k → k < i → l.offers accepts delimiter k = false

section

variable {l : Line} {accepts : Option Char → Option Char → Bool} {delimiter : Text} {i : Nat}

theorem FirstOffer.spells {start : Nat} (h : l.FirstOffer accepts delimiter start i) :
    Cell.spells delimiter (l.cells.drop i) = true := by
  have hOffers := h.offers
  simp only [Line.offers, Bool.and_eq_true] at hOffers
  exact hOffers.1.2

theorem FirstOffer.length_pos {start : Nat} (h : l.FirstOffer accepts delimiter start i) :
    0 < delimiter.length := by
  have hOffers := h.offers
  simp only [Line.offers, Bool.and_eq_true] at hOffers
  exact List.length_pos_iff.mpr (by simpa using hOffers.1.1)

theorem glyphAt_natCast (l : Line) (i : Nat) :
    l.glyphAt (i : Int) = Enclosure.headGlyph (l.cells.drop i) := by
  simp [glyphAt, cell?, Enclosure.headGlyph]

theorem offers_of_drop_eq_nil (hNil : l.cells.drop i = []) :
    l.offers accepts delimiter i = false := by
  cases delimiter with
  | nil => rfl
  | cons d rest => simp [offers, hNil, Cell.spells]

/-- Seeking in what is left of a line looks at one position of the line after the other. -/
theorem seek_drop {c : Cell} {rest : List Cell} (hCells : l.cells.drop i = c :: rest) :
    Enclosure.seek accepts delimiter (l.glyphAt ((i : Int) - 1)) (l.cells.drop i) =
      if l.offers accepts delimiter i then some 0
      else (Enclosure.seek accepts delimiter (l.glyphAt (((i + 1 : Nat) : Int) - 1))
        (l.cells.drop (i + 1))).map (· + 1) := by
  have hBehind : l.glyphAt ((i : Int) + delimiter.length) =
      Enclosure.headGlyph ((c :: rest).drop delimiter.length) := by
    rw [← hCells, List.drop_drop, ← glyphAt_natCast, Int.natCast_add]
  have hHere : l.glyphAt (((i + 1 : Nat) : Int) - 1) = c.glyph := by
    rw [show ((i + 1 : Nat) : Int) - 1 = i by omega, glyphAt_natCast, hCells]
    rfl
  have hRest : l.cells.drop (i + 1) = rest := by
    rw [← List.drop_drop, hCells, List.drop_one, List.tail_cons]
  rw [offers, hBehind, hHere, hRest, hCells]
  rfl

theorem firstOffer_of_seek {k : Nat}
    (h : Enclosure.seek accepts delimiter (l.glyphAt ((i : Int) - 1)) (l.cells.drop i) = some k) :
    l.FirstOffer accepts delimiter i (i + k) := by
  induction k generalizing i with
  | zero =>
      cases hCells : l.cells.drop i with
      | nil =>
          rw [hCells] at h
          cases h
      | cons c rest =>
          rw [seek_drop hCells] at h
          split at h
          · next hOffers => exact ⟨Nat.le_refl i, hOffers, fun k hFrom hTo => by omega⟩
          · simp at h
  | succ k ih =>
      cases hCells : l.cells.drop i with
      | nil =>
          rw [hCells] at h
          cases h
      | cons c rest =>
          rw [seek_drop hCells] at h
          split at h
          · cases h
          · next hOffers =>
              have hFirst := ih (i := i + 1) (by simpa using h)
              rw [show i + 1 + k = i + (k + 1) by omega] at hFirst
              refine ⟨by omega, hFirst.offers, fun n hFrom hTo => ?_⟩
              rcases Nat.eq_or_lt_of_le hFrom with rfl | hLater
              · simpa using hOffers
              · exact hFirst.before n hLater hTo

theorem offers_eq_false_of_seek
    (h : Enclosure.seek accepts delimiter (l.glyphAt ((i : Int) - 1)) (l.cells.drop i) = none)
    (k : Nat) : l.offers accepts delimiter (i + k) = false := by
  induction k generalizing i with
  | zero =>
      cases hCells : l.cells.drop i with
      | nil => exact offers_of_drop_eq_nil hCells
      | cons c rest =>
          rw [seek_drop hCells] at h
          split at h
          · cases h
          · next hOffers => simpa using hOffers
  | succ k ih =>
      rw [show i + (k + 1) = i + 1 + k by omega]
      cases hCells : l.cells.drop i with
      | nil =>
          apply offers_of_drop_eq_nil
          rw [Nat.add_assoc, ← List.drop_drop, hCells, List.drop_nil]
      | cons c rest =>
          rw [seek_drop hCells] at h
          split at h
          · cases h
          · exact ih (by simpa using h)

end

/-! ## One enclosure after the other -/

/-- Enclosures are erased from a position on until none is left, each on the line that the one
before it has left. An opening delimiter without a closing one ends it too. -/
inductive Encloses (e : Enclosure) : Nat → Line → Line → Nat → Prop where
  | absent {start : Nat} {l : Line}
      (hNone : ∀ i, start ≤ i →
        l.offers (Enclosure.acceptsOpening e.boundary e.opening) e.opening i = false) :
      Encloses e start l l 0
  | unterminated {start i : Nat} {l : Line}
      (hOpening : l.FirstOffer (Enclosure.acceptsOpening e.boundary e.opening) e.opening start i)
      (hNone : ∀ k, i + e.opening.length + 1 ≤ k →
        l.offers (Enclosure.acceptsClosing e.boundary e.closing) e.closing k = false) :
      Encloses e start l l 0
  | pair {start i k count : Nat} {l done : Line}
      (hOpening : l.FirstOffer (Enclosure.acceptsOpening e.boundary e.opening) e.opening start i)
      (hClosing : l.FirstOffer (Enclosure.acceptsClosing e.boundary e.closing) e.closing
        (i + e.opening.length + 1) k)
      (hRest : Encloses e (k + e.closing.length) (eraseAround e l (i, k)) done count) :
      Encloses e start l done (count + 1)

end Line

namespace Enclosure

/-! ## Which characters an enclosure changes -/

/-- Whether the enclosure with delimiters at two positions is erased at a position. -/
def erases (e : Enclosure) (i : Nat) (pair : Nat × Nat) : Bool :=
  decide (pair.1 ≤ i ∧ i < pair.1 + e.opening.length) ||
    decide (pair.2 ≤ i ∧ i < pair.2 + e.closing.length) ||
    decide (e.style = .all ∧ pair.1 + e.opening.length ≤ i ∧ i < pair.2)

/-- Whether the text of the enclosure with delimiters at two positions is marked at a position. -/
def marks (e : Enclosure) (i : Nat) (pair : Nat × Nat) : Bool :=
  decide (e.style = .inlineMarkup ∧ pair.1 + e.opening.length ≤ i ∧ i < pair.2)

/-- A character after some enclosures have been erased. -/
def changed (e : Enclosure) (pairs : List (Nat × Nat)) (i : Nat) (c : Cell) : Cell :=
  { c with kept := c.kept && !pairs.any (e.erases i), inline := c.inline || pairs.any (e.marks i) }

/-- A line after some enclosures have been erased. -/
def change (e : Enclosure) (pairs : List (Nat × Nat)) (l : Line) : Line :=
  { l with cells := l.cells.mapIdx (e.changed pairs) }

theorem changed_nil (e : Enclosure) (i : Nat) (c : Cell) : e.changed [] i c = c := by
  simp [changed]

theorem changed_changed (e : Enclosure) (pair : Nat × Nat) (pairs : List (Nat × Nat)) (i : Nat)
    (c : Cell) : e.changed pairs i (e.changed [pair] i c) = e.changed (pair :: pairs) i c := by
  simp [changed, Bool.and_assoc, Bool.or_assoc]

theorem change_nil (e : Enclosure) (l : Line) : e.change [] l = l := by
  have hSame : l.cells.mapIdx (e.changed []) = l.cells :=
    List.ext_getElem (by simp) fun i hLeft hRight => by simp [changed_nil]
  rw [change, hSame]

theorem change_change (e : Enclosure) (pair : Nat × Nat) (pairs : List (Nat × Nat)) (l : Line) :
    e.change pairs (e.change [pair] l) = e.change (pair :: pairs) l := by
  simp only [change, List.mapIdx_mapIdx]
  congr 2
  funext i c
  exact changed_changed e pair pairs i c

theorem markInline_eq (l : Line) (start stop : Nat) :
    l.markInline start stop = { l with cells := l.cells.mapIdx fun i c =>
      { c with inline := c.inline || decide (start ≤ i ∧ i < stop) } } := by
  unfold Line.markInline Line.change
  congr 2
  funext i c
  by_cases hIn : start ≤ i ∧ i < stop
  · rw [if_pos (by omega), decide_eq_true hIn]
    simp
  · rw [if_neg (by omega), decide_eq_false hIn]
    simp

theorem eraseAround_eq_change (e : Enclosure) (l : Line) (pair : Nat × Nat)
    (hLe : pair.1 + e.opening.length ≤ pair.2) :
    Line.eraseAround e l pair = e.change [pair] l := by
  have hInner : ((pair.2 : Int) - (pair.1 + e.opening.length : Nat)) =
      ((pair.2 - (pair.1 + e.opening.length) : Nat) : Int) := by omega
  unfold Line.eraseAround
  cases hStyle : e.style with
  | markers =>
      simp only [Line.erase_eq, Line.without, change, List.mapIdx_mapIdx]
      congr 2
      funext i c
      simp [changed, erases, marks, hStyle, Bool.and_assoc]
  | all =>
      simp only [hInner, Line.erase_eq, Line.without, change, List.mapIdx_mapIdx]
      congr 2
      funext i c
      rw [Nat.add_sub_cancel' hLe]
      simp [changed, erases, marks, hStyle, Bool.and_assoc]
  | inlineMarkup =>
      simp only [Line.erase_eq, Line.without, markInline_eq, change, List.mapIdx_mapIdx]
      congr 2
      funext i c
      simp [changed, erases, marks, hStyle, Bool.and_assoc]

/-- Behind its closing delimiter an enclosure changes nothing. -/
theorem change_drop (e : Enclosure) (l : Line) {pair : Nat × Nat} {i : Nat}
    (hLe : pair.1 + e.opening.length ≤ pair.2) (hBehind : pair.2 + e.closing.length ≤ i) :
    (e.change [pair] l).cells.drop i = l.cells.drop i := by
  apply List.ext_getElem?
  intro k
  rw [List.getElem?_drop, List.getElem?_drop, change, List.getElem?_mapIdx]
  have hErases : e.erases (i + k) pair = false := by
    simp only [erases, Bool.or_eq_false_iff, decide_eq_false_iff_not]
    omega
  have hMarks : e.marks (i + k) pair = false := by
    simp only [marks, decide_eq_false_iff_not]
    omega
  cases l.cells[i + k]? with
  | none => rfl
  | some c => simp [changed, hErases, hMarks]

/-- Nothing shows where the closing delimiter was. -/
theorem glyphAt_change (e : Enclosure) (l : Line) {pair : Nat × Nat} {i : Nat}
    (hFrom : pair.2 ≤ i) (hTo : i < pair.2 + e.closing.length) :
    (e.change [pair] l).glyphAt i = none := by
  have hErases : e.erases i pair = true := by
    simp [erases, hFrom, hTo]
  rw [Line.glyphAt_natCast, headGlyph, List.head?_drop, change, List.getElem?_mapIdx]
  cases l.cells[i]? with
  | none => rfl
  | some c =>
      have hErased : (e.changed [pair] i c).kept = false := by simp [changed, hErases]
      simp [Cell.glyph, hErased]

/-! ## What is found -/

theorem spells_of_seek {accepts : Option Char → Option Char → Bool} {delimiter : Text}
    {before : Option Char} {cells : List Cell} {k : Nat}
    (h : seek accepts delimiter before cells = some k) :
    Cell.spells delimiter (cells.drop k) = true := by
  induction cells generalizing before k with
  | nil => cases h
  | cons c cells ih =>
      rw [seek] at h
      split at h
      · next hHere =>
          cases h
          rw [Bool.and_eq_true, Bool.and_eq_true] at hHere
          exact hHere.1.2
      · obtain ⟨j, hLater, rfl⟩ := Option.map_eq_some_iff.mp h
        exact ih hLater

/-- An enclosure that is found has an opening mark, and its closing mark is behind it. -/
theorem mem_pairs {e : Enclosure} {before : Option Char} {i : Nat} {cells : List Cell} :
    ∀ pair ∈ e.pairs before i cells, i ≤ pair.1 ∧ pair.1 + e.opening.length < pair.2 ∧
      Cell.spells e.opening (cells.drop (pair.1 - i)) = true := by
  induction before, i, cells using pairs.induct e with
  | case1 before i =>
      rw [pairs]
      exact fun _ hMem => nomatch hMem
  | case2 before i c rest hNone =>
      rw [pairs, hNone]
      exact fun _ hMem => nomatch hMem
  | case3 before i c rest b hSome content hNone =>
      rw [pairs, hSome]
      simp only [content] at hNone
      simp only [hNone]
      exact fun _ hMem => nomatch hMem
  | case4 before i c rest b hSome content k hClosed used ih =>
      rw [pairs, hSome]
      simp only [content] at hClosed
      simp only [hClosed]
      rw [List.forall_mem_cons]
      refine ⟨⟨by omega, by omega, ?_⟩, fun pair hMem => ?_⟩
      · rw [Nat.add_sub_cancel_left]
        exact spells_of_seek hSome
      · obtain ⟨hFrom, hBehind, hSpells⟩ := ih pair hMem
        refine ⟨by omega, hBehind, ?_⟩
        rw [List.drop_drop] at hSpells
        have hPlace : used + (pair.1 - (i + used)) = pair.1 - i := by omega
        rwa [← hPlace]

end Enclosure

namespace Line

/-- Where a closing delimiter is looked for, behind at least one character. -/
theorem seek_content {accepts : Option Char → Option Char → Bool} {delimiter : Text} (l : Line)
    {cells : List Cell} {i n : Nat} (hCells : l.cells.drop i = cells) :
    Enclosure.seek accepts delimiter (Enclosure.headGlyph (cells.drop n)) ((cells.drop n).drop 1) =
      Enclosure.seek accepts delimiter (l.glyphAt (((i + n + 1 : Nat) : Int) - 1))
        (l.cells.drop (i + n + 1)) := by
  rw [← hCells, List.drop_drop, List.drop_drop, ← glyphAt_natCast]
  congr 2
  omega

/-- Finding all enclosures first and erasing them then is erasing one after the other. -/
theorem encloses_pairs (e : Enclosure) (start : Nat) (l : Line) :
    Encloses e start l
      ((e.pairs (l.glyphAt ((start : Int) - 1)) start (l.cells.drop start)).foldl (eraseAround e) l)
      (e.pairs (l.glyphAt ((start : Int) - 1)) start (l.cells.drop start)).length := by
  generalize hBefore : l.glyphAt ((start : Int) - 1) = before
  generalize hCells : l.cells.drop start = cells
  induction before, start, cells using Enclosure.pairs.induct e generalizing l with
  | case1 before i =>
      rw [Enclosure.pairs]
      refine .absent fun k hFrom => offers_of_drop_eq_nil ?_
      rw [show k = i + (k - i) by omega, ← List.drop_drop, hCells, List.drop_nil]
  | case2 before i c rest hNone =>
      rw [Enclosure.pairs, hNone]
      refine .absent fun k hFrom => ?_
      rw [← hCells, ← hBefore] at hNone
      have hOffers := offers_eq_false_of_seek hNone (k - i)
      rwa [Nat.add_sub_cancel' hFrom] at hOffers
  | case3 before i c rest b hOpening content hNone =>
      rw [Enclosure.pairs, hOpening]
      simp only [content] at hNone
      simp only [hNone]
      rw [← hCells, ← hBefore] at hOpening
      rw [seek_content l hCells] at hNone
      refine .unterminated (firstOffer_of_seek hOpening) fun k hFrom => ?_
      have hOffers := offers_eq_false_of_seek hNone (k - (i + (b + e.opening.length) + 1))
      rwa [Nat.add_sub_cancel' (by omega)] at hOffers
  | case4 before i c rest b hOpening content k hClosing used ih =>
      rw [Enclosure.pairs, hOpening]
      simp only [content] at hClosing
      simp only [hClosing]
      rw [← hCells, ← hBefore] at hOpening
      rw [seek_content l hCells] at hClosing
      have hFirst := firstOffer_of_seek hOpening
      have hSecond := firstOffer_of_seek hClosing
      rw [show i + (b + e.opening.length) + 1 = i + b + e.opening.length + 1 by omega] at hSecond
      have hSome : 0 < e.closing.length := hSecond.length_pos
      refine .pair hFirst hSecond ?_
      rw [show i + b + e.opening.length + 1 + k + e.closing.length = i + used by omega]
      have hChange := Enclosure.eraseAround_eq_change e l
        (i + b, i + b + e.opening.length + 1 + k) (by simp only; omega)
      apply ih
      · rw [hChange, show ((i + used : Nat) : Int) - 1 = (i + used - 1 : Nat) by omega]
        exact Enclosure.glyphAt_change e l (by simp only; omega) (by simp only; omega)
      · rw [hChange, Enclosure.change_drop e l (by simp only; omega) (by simp only; omega),
          ← hCells, List.drop_drop]

theorem eraseEnclosure_encloses (l : Line) (e : Enclosure) :
    Encloses e 0 l (l.eraseEnclosure e).1 (l.eraseEnclosure e).2 :=
  encloses_pairs e 0 l

theorem foldl_eraseAround (e : Enclosure) {pairs : List (Nat × Nat)} (l : Line)
    (hBehind : ∀ pair ∈ pairs, pair.1 + e.opening.length ≤ pair.2) :
    pairs.foldl (eraseAround e) l = e.change pairs l := by
  induction pairs generalizing l with
  | nil => exact (e.change_nil l).symm
  | cons pair pairs ih =>
      rw [List.forall_mem_cons] at hBehind
      rw [List.foldl_cons, Enclosure.eraseAround_eq_change e l pair hBehind.1, ih _ hBehind.2,
        Enclosure.change_change]

/-- What an enclosure changes on a line. -/
theorem eraseEnclosure_eq (l : Line) (e : Enclosure) :
    (l.eraseEnclosure e).1 = e.change (e.pairs none 0 l.cells) l :=
  foldl_eraseAround e l fun pair hMem => Nat.le_of_lt (Enclosure.mem_pairs pair hMem).2.1

/-! ## What becomes of the line -/

/-- A delimiter stands on the line from a position on, none of its characters erased or escaped. -/
def Carries (l : Line) (delimiter : Text) (i : Nat) : Prop :=
  ∀ k (h : k < delimiter.length), ∃ c, l.cells[i + k]? = some c ∧ c.char = delimiter[k] ∧
    c.kept = true ∧ c.escaped = false

/-- Nothing is spelled with the sign that escaped characters show. -/
theorem glyph_eq_some {c : Cell} {d : Char} (hSign : d ≠ Cell.escapedGlyph)
    (h : c.glyph = some d) : c.char = d ∧ c.kept = true ∧ c.escaped = false := by
  unfold Cell.glyph at h
  split at h
  · next hKept =>
      cases hEscaped : c.escaped with
      | true =>
          simp only [hEscaped, if_true, Option.some.injEq] at h
          exact absurd h.symm hSign
      | false =>
          simp only [hEscaped, Bool.false_eq_true, if_false, Option.some.injEq] at h
          exact ⟨h, hKept, rfl⟩
  · cases h

theorem carries_of_spells {l : Line} {delimiter : Text} {i : Nat}
    (hSign : Cell.escapedGlyph ∉ delimiter)
    (h : Cell.spells delimiter (l.cells.drop i) = true) : l.Carries delimiter i := by
  induction delimiter generalizing i with
  | nil => exact fun k hLt => absurd hLt (Nat.not_lt_zero k)
  | cons d rest ih =>
      cases hCells : l.cells.drop i with
      | nil =>
          rw [hCells] at h
          cases h
      | cons c cells =>
          have hHere : l.cells[i]? = some c := by
            rw [← List.head?_drop, hCells, List.head?_cons]
          have hLater : l.cells.drop (i + 1) = cells := by
            rw [← List.drop_drop, hCells, List.drop_one, List.tail_cons]
          rw [hCells, Cell.spells, Bool.and_eq_true, beq_iff_eq, ← hLater] at h
          have hRest := ih (fun hMem => hSign (List.mem_cons_of_mem d hMem)) h.2
          intro k hLt
          cases k with
          | zero =>
              have hd : d ≠ Cell.escapedGlyph := fun hSame => hSign (hSame ▸ List.mem_cons_self)
              exact ⟨c, hHere, glyph_eq_some hd h.1⟩
          | succ k =>
              have hMore := hRest k (by simpa using hLt)
              rwa [show i + 1 + k = i + (k + 1) by omega] at hMore

theorem Carries.of_change {e : Enclosure} {pairs : List (Nat × Nat)} {l : Line} {delimiter : Text}
    {i : Nat} (h : (e.change pairs l).Carries delimiter i) : l.Carries delimiter i := by
  intro k hLt
  obtain ⟨c, hCell, hChar, hKept, hEscaped⟩ := h k hLt
  rw [Enclosure.change, List.getElem?_mapIdx] at hCell
  obtain ⟨d, hSource, rfl⟩ := Option.map_eq_some_iff.mp hCell
  simp only [Enclosure.changed, Bool.and_eq_true] at hKept
  exact ⟨d, hSource, hChar, hKept.1, hEscaped⟩

/-- The positions of the delimiters of some enclosures on a line, from `start` on. The pairs do not
overlap, and each of them has at least one character between its delimiters. -/
structure HasPairs (l : Line) (e : Enclosure) (start : Nat) (pairs : List (Nat × Nat)) : Prop where
  start_le : ∀ p ∈ pairs, start ≤ p.1
  content : ∀ p ∈ pairs, p.1 + e.opening.length < p.2
  apart : pairs.Pairwise fun p q => p.2 + e.closing.length ≤ q.1
  opening : ∀ p ∈ pairs, l.Carries e.opening p.1
  closing : ∀ p ∈ pairs, l.Carries e.closing p.2

theorem Encloses.exists_pairs {e : Enclosure} (hOpening : Cell.escapedGlyph ∉ e.opening)
    (hClosing : Cell.escapedGlyph ∉ e.closing) {start count : Nat} {l done : Line}
    (h : Encloses e start l done count) :
    ∃ pairs, count = pairs.length ∧ l.HasPairs e start pairs ∧ done = e.change pairs l := by
  induction h with
  | @absent start l | @unterminated start _ l =>
      exact ⟨[], rfl, ⟨by simp, by simp, .nil, by simp, by simp⟩, (e.change_nil l).symm⟩
  | @pair start i k count l done hFirst hSecond _ ih =>
      obtain ⟨pairs, hCount, hPairs, hDone⟩ := ih
      have hLe := hSecond.start_le
      rw [Enclosure.eraseAround_eq_change e l (i, k) (by simp only; omega)]
        at hPairs hDone
      rw [Enclosure.change_change] at hDone
      refine ⟨(i, k) :: pairs, by rw [hCount, List.length_cons], ⟨?_, ?_, ?_, ?_, ?_⟩, hDone⟩
      · refine List.forall_mem_cons.mpr ⟨hFirst.start_le, fun p hMem => ?_⟩
        have hBehind := hPairs.start_le p hMem
        have hFrom := hFirst.start_le
        omega
      · exact List.forall_mem_cons.mpr ⟨hLe, hPairs.content⟩
      · exact List.pairwise_cons.mpr ⟨hPairs.start_le, hPairs.apart⟩
      · exact List.forall_mem_cons.mpr ⟨carries_of_spells hOpening hFirst.spells,
          fun p hMem => (hPairs.opening p hMem).of_change⟩
      · exact List.forall_mem_cons.mpr ⟨carries_of_spells hClosing hSecond.spells,
          fun p hMem => (hPairs.closing p hMem).of_change⟩

/-- Whatever has been erased or escaped before, erasing enclosures comes to an end, and all that it
changes is in pairs of delimiters that stood on the line and do not overlap: the delimiters are
erased, and the text between them is erased, or marked, or left as it is. A line without a closing
delimiter behind an opening one stays as it is. -/
theorem eraseEnclosure_accounts (l : Line) (e : Enclosure)
    (hOpening : Cell.escapedGlyph ∉ e.opening) (hClosing : Cell.escapedGlyph ∉ e.closing) :
    Encloses e 0 l (l.eraseEnclosure e).1 (l.eraseEnclosure e).2 ∧
    (∃ pairs, (l.eraseEnclosure e).2 = pairs.length ∧ l.HasPairs e 0 pairs ∧
      (l.eraseEnclosure e).1 = e.change pairs l) ∧
    ((∀ i k, l.Carries e.opening i → i + e.opening.length < k → ¬ l.Carries e.closing k) →
      l.eraseEnclosure e = (l, 0)) := by
  have hLoop := eraseEnclosure_encloses l e
  obtain ⟨pairs, hCount, hPairs, hDone⟩ := hLoop.exists_pairs hOpening hClosing
  refine ⟨hLoop, ⟨pairs, hCount, hPairs, hDone⟩, fun hNone => ?_⟩
  cases pairs with
  | nil => exact Prod.ext (hDone.trans (e.change_nil l)) hCount
  | cons pair rest =>
      have hMem : pair ∈ pair :: rest := List.mem_cons_self
      exact absurd (hPairs.closing pair hMem)
        (hNone pair.1 pair.2 (hPairs.opening pair hMem) (hPairs.content pair hMem))

/-- A line with two enclosures, a double star, an escaped star and a star that has been erased. -/
theorem eraseEnclosure_accounts_stars :
    let l := (ofText 1 true "*a*, **b** \\*c *d (e)* f*".toList).erase 23 1
    let e : Enclosure := ⟨['*'], ['*'], .inlineMarkup, true⟩
    (Cell.escapedGlyph ∉ e.opening ∧ Cell.escapedGlyph ∉ e.closing) ∧
      (l.eraseEnclosure e).2 = 2 ∧
      (l.eraseEnclosure e).1.keptText = "a, **b** *c d (e) f".toList ∧
      ∃ pairs, (l.eraseEnclosure e).2 = pairs.length ∧ l.HasPairs e 0 pairs ∧
        (l.eraseEnclosure e).1 = e.change pairs l := by
  intro l e
  have hOpening : Cell.escapedGlyph ∉ e.opening := by decide
  have hClosing : Cell.escapedGlyph ∉ e.closing := by decide
  exact ⟨⟨hOpening, hClosing⟩, by decide +kernel, by decide +kernel,
    (eraseEnclosure_accounts l e hOpening hClosing).2.1⟩

end Line

end ProseLint
