import ProseLint.Proofs.Markup.Walks

/-! The walk over inline text goes on and does not go back. Whatever the pieces of the text are, and
whether or not the lines spell them, what is found lies ahead, the index never falls, and it never
passes the last entry. All that a walk does to its lines is to erase characters and to add links. -/

namespace ProseLint.Markdown

open CommonMark (Inline)

namespace Entry

/-! ## What is found -/

theorem matchLength?_le {needle : Text} {entries : List Entry} {n : Nat}
    (h : matchLength? needle entries = some n) : n ≤ entries.length := by
  induction needle generalizing entries n with
  | nil =>
      rw [matchLength?] at h
      cases h
      exact Nat.zero_le _
  | cons c needle ih =>
      cases entries with
      | nil => cases h
      | cons e entries =>
          rw [matchLength?] at h
          split at h
          · cases h
          split at h
          · obtain ⟨k, hRest, rfl⟩ := Option.map_eq_some_iff.mp h
            have hIndent := (List.takeWhile_sublist
              (fun e : Entry => e.glyph == some ' ' || e.glyph == some '\t')
              (l := entries)).length_le
            have hLe := ih hRest
            rw [List.length_drop] at hLe
            rw [List.length_cons]
            omega
          · obtain ⟨k, hRest, rfl⟩ := Option.map_eq_some_iff.mp h
            exact Nat.succ_le_succ (ih hRest)

/-- A span that lies in some entries, which start at index `i`. -/
structure IsWithin (span : Nat × Nat) (i : Nat) (entries : List Entry) : Prop where
  start_le : i ≤ span.1
  le : span.1 ≤ span.2
  stop_le : span.2 ≤ i + entries.length

theorem IsWithin.cons {span : Nat × Nat} {i : Nat} {entries : List Entry}
    (h : IsWithin span (i + 1) entries) (e : Entry) : IsWithin span i (e :: entries) where
  start_le := Nat.le_of_succ_le h.start_le
  le := h.le
  stop_le := by
    have hStop := h.stop_le
    rw [List.length_cons]
    omega

theorem isWithin_of_match {needle : Text} {entries : List Entry} {n : Nat}
    (h : matchLength? needle entries = some n) (i : Nat) : IsWithin (i, i + n) i entries :=
  ⟨Nat.le_refl i, Nat.le_add_right i n, Nat.add_le_add_left (matchLength?_le h) i⟩

theorem find?_isWithin {needle : Text} {i : Nat} {entries : List Entry} {span : Nat × Nat}
    (h : find? needle i entries = some span) : IsWithin span i entries := by
  induction entries generalizing i with
  | nil => cases h
  | cons e rest ih =>
      rw [find?] at h
      split at h
      · next n hMatch =>
          cases h
          exact isWithin_of_match hMatch i
      · exact (ih h).cons e

/-- A match of a text on one line is as long as the text. -/
theorem stop_of_find? {needle : Text} (hLine : '\n' ∉ needle) {i : Nat} {entries : List Entry}
    {span : Nat × Nat} (h : find? needle i entries = some span) :
    span.2 = span.1 + needle.length := by
  induction entries generalizing i with
  | nil => cases h
  | cons e rest ih =>
      rw [find?] at h
      split at h
      · next n hMatch =>
          cases h
          rw [((matchLength?_eq_some_iff hLine).mp hMatch).1]
      · exact ih h

theorem findRun?_isWithin {needle : Text} {before : Option Char} {i : Nat} {entries : List Entry}
    {span : Nat × Nat} (h : findRun? needle before i entries = some span) :
    IsWithin span i entries := by
  induction entries generalizing before i with
  | nil => cases h
  | cons e rest ih =>
      simp only [findRun?] at h
      split at h
      · next n hMatch =>
          split at h
          · exact (ih h).cons e
          · cases h
            exact isWithin_of_match hMatch i
      · exact (ih h).cons e

theorem parenthesized?_le {depth n : Nat} {entries : List Entry}
    (h : parenthesized? depth entries = some n) : n ≤ entries.length := by
  induction entries generalizing depth n with
  | nil => cases h
  | cons e rest ih =>
      rw [parenthesized?] at h
      rw [List.length_cons]
      split at h
      · obtain ⟨k, hRest, rfl⟩ := Option.map_eq_some_iff.mp h
        exact Nat.succ_le_succ (ih hRest)
      split at h
      · split at h
        · cases h
          exact Nat.le_add_left 1 _
        · obtain ⟨k, hRest, rfl⟩ := Option.map_eq_some_iff.mp h
          exact Nat.succ_le_succ (ih hRest)
      · obtain ⟨k, hRest, rfl⟩ := Option.map_eq_some_iff.mp h
        exact Nat.succ_le_succ (ih hRest)

theorem tailLength_le (entries : List Entry) : tailLength entries ≤ entries.length := by
  unfold tailLength
  split
  · cases hFound : parenthesized? 0 entries with
    | none => exact Nat.zero_le _
    | some n => exact parenthesized?_le hFound
  · cases hFound : (entries.drop 1).findIdx? (·.glyph == some ']') with
    | none => exact Nat.zero_le _
    | some k =>
        have hLt := (List.findIdx?_eq_some_iff_getElem.mp hFound).1
        rw [List.length_drop] at hLt
        simp only [Option.map_some, Option.getD_some]
        omega
  · exact Nat.zero_le _

end Entry

namespace Cursor

variable {c d e : Cursor}

theorem find?_isWithin {needle : Text} {span : Nat × Nat} (h : c.find? needle = some span) :
    Entry.IsWithin span c.index c.ahead :=
  Entry.find?_isWithin h

theorem findRun?_isWithin {needle : Text} {span : Nat × Nat} (h : c.findRun? needle = some span) :
    Entry.IsWithin span c.index c.ahead :=
  Entry.findRun?_isWithin h

/-- The index behind a closing bracket and what belongs to it. -/
def bracketTail (c : Cursor) (close : Nat) : Nat :=
  close + 1 + Entry.tailLength (c.entries.drop (close + 1))

theorem lt_bracketTail (c : Cursor) (close : Nat) : close < c.bracketTail close :=
  Nat.lt_of_lt_of_le (Nat.lt_succ_self close) (Nat.le_add_right _ _)

theorem bracketTail_le {close : Nat} (h : close < c.entries.length) :
    c.bracketTail close ≤ c.entries.length := by
  have hTail := Entry.tailLength_le (c.entries.drop (close + 1))
  rw [List.length_drop] at hTail
  unfold bracketTail
  omega

/-! ## One step of a walk -/

/-- Going on in the same entries, and not past the last of them. -/
structure Advances (c d : Cursor) : Prop where
  index_le : c.index ≤ d.index
  length_eq : d.entries.length = c.entries.length
  inside : c.index ≤ c.entries.length → d.index ≤ d.entries.length

theorem Advances.refl (c : Cursor) : Advances c c := ⟨Nat.le_refl _, rfl, id⟩

theorem Advances.trans (h : Advances c d) (h' : Advances d e) : Advances c e where
  index_le := Nat.le_trans h.index_le h'.index_le
  length_eq := h'.length_eq.trans h.length_eq
  inside := fun hInside => h'.inside (h.inside hInside)

theorem advances_erase (c : Cursor) (span : Nat × Nat) : Advances c (c.erase span) where
  index_le := Nat.le_refl _
  length_eq := List.length_mapIdx
  inside := by
    intro hInside
    rw [erase, List.length_mapIdx]
    exact hInside

theorem advances_moveTo {i : Nat} (hLe : c.index ≤ i)
    (hInside : c.index ≤ c.entries.length → i ≤ c.entries.length) : Advances c (c.moveTo i) :=
  ⟨hLe, rfl, hInside⟩

theorem advances_addLink (c : Cursor) (i : Nat) (url : Text) : Advances c (c.addLink i url) :=
  ⟨Nat.le_refl _, rfl, id⟩

theorem advances_moveTo_erase (span : Nat × Nat) {i : Nat} (hLe : c.index ≤ i)
    (hInside : c.index ≤ c.entries.length → i ≤ c.entries.length) :
    Advances c ((c.erase span).moveTo i) := by
  have hErase := c.advances_erase span
  refine hErase.trans (advances_moveTo hLe fun h => ?_)
  rw [hErase.length_eq] at h ⊢
  exact hInside h

/-- What is ahead ends where the entries end. -/
theorem stop_le_length {span : Nat × Nat} (h : Entry.IsWithin span c.index c.ahead)
    (hInside : c.index ≤ c.entries.length) : span.2 ≤ c.entries.length := by
  have hStop := h.stop_le
  rw [ahead, List.length_drop] at hStop
  omega

/-- Passing what is ahead. -/
theorem advances_pass {span : Nat × Nat} (h : Entry.IsWithin span c.index c.ahead) :
    Advances c (c.eraseAndPass span) :=
  advances_moveTo_erase span (Nat.le_trans h.start_le h.le) (stop_le_length h)

/-- Passing over one character. -/
theorem advances_skip_singleton (c : Cursor) (ch : Char) : Advances c (c.skip [ch]) := by
  rw [skip, Entry.skip]
  split
  · next k hFound =>
      have hLt := (List.findIdx?_eq_some_iff_getElem.mp hFound).1
      rw [ahead, List.length_drop] at hLt
      apply advances_moveTo
      · rw [Entry.skip]
        omega
      · intro _
        rw [Entry.skip]
        omega
  · exact .refl c

/-- A text is passed over one character after the other. -/
theorem skip_cons (c : Cursor) (ch : Char) (text : Text) :
    c.skip (ch :: text) = (c.skip [ch]).skip text := by
  simp only [skip, Entry.skip]
  split
  · simp only [moveTo, ahead, List.drop_drop, Nat.add_assoc]
  · rfl

theorem advances_consume (c : Cursor) (needle : Text) : Advances c (c.consume needle) := by
  unfold consume
  split
  · next span hFound => exact advances_pass (find?_isWithin hFound)
  · exact .refl c

theorem consumeTail_eq {start : Option Nat} {close stop : Nat}
    (h : c.find? [']'] = some (close, stop)) :
    c.consumeTail start = c.eraseAndPass (start.getD close, c.bracketTail close) := by
  obtain rfl : stop = close + 1 := Entry.stop_of_find? (by decide) h
  rw [consumeTail, h]
  rfl

theorem advances_consumeTail (c : Cursor) (start : Option Nat) :
    Advances c (c.consumeTail start) := by
  cases hFound : c.find? [']'] with
  | none =>
      rw [consumeTail, hFound]
      exact .refl c
  | some span =>
      obtain ⟨close, stop⟩ := span
      have hWithin := find?_isWithin hFound
      obtain rfl : stop = close + 1 := Entry.stop_of_find? (by decide) hFound
      rw [consumeTail_eq hFound]
      apply advances_moveTo_erase
      · exact Nat.le_trans hWithin.start_le (Nat.le_of_lt (c.lt_bracketTail close))
      · intro hInside
        exact bracketTail_le (stop_le_length hWithin hInside)

theorem advances_passLineBreak (c : Cursor) (hard : Bool) :
    Advances c (c.passLineBreak hard) := by
  unfold passLineBreak
  split
  · exact .refl c
  · next start stop hFound =>
      have hWithin := find?_isWithin hFound
      have hLe := Nat.le_trans hWithin.start_le hWithin.le
      dsimp only
      split
      · exact advances_moveTo_erase _ hLe (stop_le_length hWithin)
      · exact advances_moveTo hLe (stop_le_length hWithin)

theorem advances_openLink (c : Cursor) (opening : Char) (url : Text) :
    Advances c (c.openLink opening url) := by
  unfold openLink
  split
  · exact .refl c
  · next span hFound =>
      exact (c.advances_addLink span.1 url).trans (advances_pass (find?_isWithin hFound))

/-! ## The whole walk -/

/-- Going on through some cursors, one after the other. -/
inductive Trail : Cursor → List Cursor → Cursor → Prop
  | done (c : Cursor) : Trail c [] c
  | next {c d e : Cursor} {trace : List Cursor} (hFirst : Advances c d)
      (hRest : Trail d trace e) : Trail c (d :: trace) e

theorem Trail.single (h : Advances c d) : Trail c [d] d := .next h (.done d)

theorem Trail.append {first later : List Cursor} (h : Trail c first d) (h' : Trail d later e) :
    Trail c (first ++ later) e := by
  induction h with
  | done c => exact h'
  | next hFirst hRest ih => exact .next hFirst (ih h')

theorem Trail.advances {trace : List Cursor} (h : Trail c trace e) : ∀ d ∈ trace, Advances c d := by
  induction h with
  | done c => exact nofun
  | next hFirst hRest ih =>
      exact List.forall_mem_cons.mpr ⟨hFirst, fun d hMem => hFirst.trans (ih d hMem)⟩

theorem Trail.pairwise {trace : List Cursor} (h : Trail c trace e) :
    (c :: trace).Pairwise Advances := by
  induction h with
  | done c => exact List.pairwise_singleton _ c
  | next hFirst hRest ih => exact List.pairwise_cons.mpr ⟨(Trail.next hFirst hRest).advances, ih⟩

theorem Trail.getLast? {trace : List Cursor} (h : Trail c trace e) :
    (c :: trace).getLast? = some e := by
  induction h with
  | done c => rfl
  | next hFirst hRest ih => rw [List.getLast?_cons_cons, ih]

/-- The cursors of passing over a text, one for each of its characters. -/
def skipTrace (c : Cursor) : Text → List Cursor
  | [] => []
  | ch :: text => c.skip [ch] :: (c.skip [ch]).skipTrace text

/-- The cursors of erasing a code span, one behind each of its marks. -/
def codeSpanTrace (c : Cursor) (mark : Text) : List Cursor :=
  match c.findRun? mark with
  | none => []
  | some opening =>
      let inside := c.eraseAndPass opening
      match inside.findRun? mark with
      | none => [inside]
      | some closing => [inside, inside.eraseAndPass closing]

/-- The cursors of erasing an image: behind its opening, within its description and behind it
all. -/
def imageTrace (c : Cursor) (description : Text) : List Cursor :=
  match c.find? ['!', '['] with
  | none => []
  | some (start, stop) =>
      let inside := c.moveTo stop
      inside :: (inside.skipTrace description ++
        [(inside.skip description).consumeTail (some start)])

theorem skipTrace_trail (c : Cursor) (text : Text) : Trail c (c.skipTrace text) (c.skip text) := by
  induction text generalizing c with
  | nil => exact .done c
  | cons ch text ih =>
      rw [c.skip_cons ch text]
      exact .next (c.advances_skip_singleton ch) (ih _)

theorem codeSpanTrace_trail (c : Cursor) (mark : Text) :
    Trail c (c.codeSpanTrace mark) (c.eraseCodeSpan mark) := by
  unfold codeSpanTrace eraseCodeSpan
  cases hOpening : c.findRun? mark with
  | none => exact .done c
  | some opening =>
      have hOpens := advances_pass (findRun?_isWithin hOpening)
      dsimp only
      cases hClosing : (c.eraseAndPass opening).findRun? mark with
      | none => exact .single hOpens
      | some closing => exact .next hOpens (.single (advances_pass (findRun?_isWithin hClosing)))

theorem imageTrace_trail (c : Cursor) (description : Text) :
    Trail c (c.imageTrace description) (c.eraseImage description) := by
  unfold imageTrace eraseImage
  cases hFound : c.find? ['!', '['] with
  | none => exact .done c
  | some span =>
      have hWithin := find?_isWithin hFound
      have hOpens := advances_moveTo (Nat.le_trans hWithin.start_le hWithin.le)
        (stop_le_length hWithin)
      exact .next hOpens ((skipTrace_trail _ description).append
        (.single (advances_consumeTail _ (some span.1))))

end Cursor

namespace Walk

/-- The cursors at which a walk stands while it passes a piece. -/
def stages (w : Walk) (piece : Inline) : List Cursor :=
  match piece with
  | .text content => w.cursor.skipTrace content
  | .codeSpan mark => w.cursor.codeSpanTrace mark
  | .image description => w.cursor.imageTrace description
  | _ => ((w.pass piece).toOption.map (·.cursor)).toList

/-- The cursors at which a walk stands while it passes some pieces. -/
def trace (w : Walk) : List Inline → List Cursor
  | [] => []
  | piece :: pieces =>
      match w.pass piece with
      | .ok v => w.stages piece ++ v.trace pieces
      | .error _ => []

theorem stages_trail {w v : Walk} {piece : Inline} (h : w.pass piece = .ok v) :
    Cursor.Trail w.cursor (w.stages piece) v.cursor := by
  cases piece with
  | text content =>
      cases h
      exact w.cursor.skipTrace_trail content
  | codeSpan mark =>
      rw [pass] at h
      split at h
      · cases h
      · cases h
        exact w.cursor.codeSpanTrace_trail mark
  | lineBreak hard =>
      cases h
      exact .single (w.cursor.advances_passLineBreak hard)
  | html content =>
      cases h
      exact .single (w.cursor.advances_consume content)
  | image description =>
      cases h
      exact w.cursor.imageTrace_trail description
  | linkOpen auto url =>
      cases h
      exact .single (w.cursor.advances_openLink _ url)
  | linkClose =>
      cases h
      apply Cursor.Trail.single
      dsimp only
      split
      · exact w.cursor.advances_consume ['>']
      · exact w.cursor.advances_consumeTail none
  | delimiter mark =>
      cases h
      exact .single (w.cursor.advances_consume mark)
  | other =>
      cases h
      exact .single (.refl w.cursor)

/-- A walk gets over a piece unless that is a code span without a mark. -/
theorem pass_ok (w : Walk) {piece : Inline} (h : ∀ mark, piece = .codeSpan mark → mark ≠ []) :
    ∃ v, w.pass piece = .ok v := by
  cases piece with
  | codeSpan mark =>
      have hSome : mark.isEmpty = false := List.isEmpty_eq_false_iff.mpr (h mark rfl)
      exact ⟨_, by rw [pass, hSome]; rfl⟩
  | _ => exact ⟨_, rfl⟩

/-- A walk over some pieces gets to their end, and goes on all the way. -/
theorem foldlM_pass_ok {pieces : List Inline} (h : ∀ mark, .codeSpan mark ∈ pieces → mark ≠ [])
    (w : Walk) : ∃ v, pieces.foldlM pass w = .ok v ∧
      Cursor.Trail w.cursor (w.trace pieces) v.cursor := by
  induction pieces generalizing w with
  | nil => exact ⟨w, rfl, .done w.cursor⟩
  | cons piece pieces ih =>
      obtain ⟨v, hPass⟩ := w.pass_ok fun mark hPiece => h mark (hPiece ▸ List.mem_cons_self)
      obtain ⟨z, hFold, hTrail⟩ :=
        ih (fun mark hMem => h mark (List.mem_cons_of_mem piece hMem)) v
      refine ⟨z, ?_, ?_⟩
      · rw [List.foldlM_cons, hPass]
        exact hFold
      · rw [trace, hPass]
        exact (stages_trail hPass).append hTrail

end Walk

/-! ## What is left of the lines -/

/-- A line after some of its characters have been erased and links have been added to it. -/
def IsStripped (l m : Line) : Prop :=
  ∃ gone more, m = { l.without gone with links := l.links ++ more }

theorem isStripped_without (l : Line) (gone : Nat → Bool) : IsStripped l (l.without gone) := by
  refine ⟨gone, [], ?_⟩
  rw [List.append_nil]
  rfl

theorem isStripped_addLink (l : Line) (position : Int) (url : Text) :
    IsStripped l (l.addLink position url) := by
  refine ⟨fun _ => false, [(position, url)], ?_⟩
  rw [l.without_none]
  rfl

theorem IsStripped.refl (l : Line) : IsStripped l l := by
  have hNone := isStripped_without l fun _ => false
  rwa [l.without_none] at hNone

theorem IsStripped.trans {l m k : Line} (h : IsStripped l m) (h' : IsStripped m k) :
    IsStripped l k := by
  obtain ⟨gone, links, rfl⟩ := h
  obtain ⟨later, more, rfl⟩ := h'
  refine ⟨fun i => gone i || later i, links ++ more, ?_⟩
  rw [← Line.without_without, ← List.append_assoc]
  rfl

theorem recordLink_isStripped (c : Cursor) (number : Nat) (l : Line) (link : Nat × Text) :
    IsStripped l (recordLink c number l link) := by
  unfold recordLink
  split
  · split
    · exact isStripped_addLink l _ _
    · exact .refl l
  · exact .refl l

theorem applyWalk_isStripped (c : Cursor) (number : Nat) (l : Line) :
    IsStripped l (applyWalk c number l) := by
  rw [applyWalk, foldl_eraseEntry]
  exact (isStripped_without l _).trans
    (rel_foldl .refl .trans (recordLink_isStripped c number) c.links _)

/-! ## Going on within the lines -/

/-- The cursors of the walk over some lines, the one at their start first. -/
def cursors (pieces : List Inline) (lines : List Line) : List Cursor :=
  .ofLines lines :: Walk.trace ⟨.ofLines lines, []⟩ pieces

/-- A cursor among `n` entries. Whatever it finds lies ahead of it and within them, and so does
what belongs to a closing bracket. -/
structure Cursor.IsAmong (n : Nat) (c : Cursor) : Prop where
  length_eq : c.entries.length = n
  index_le : c.index ≤ n
  found : ∀ needle span, c.find? needle = some span ∨ c.findRun? needle = some span →
    c.index ≤ span.1 ∧ span.1 ≤ span.2 ∧ span.2 ≤ n
  tail : ∀ close < n, close < c.bracketTail close ∧ c.bracketTail close ≤ n

theorem Cursor.isAmong {c : Cursor} (h : c.index ≤ c.entries.length) :
    c.IsAmong c.entries.length where
  length_eq := rfl
  index_le := h
  found := by
    intro needle span hFound
    have hWithin : Entry.IsWithin span c.index c.ahead :=
      hFound.elim find?_isWithin findRun?_isWithin
    exact ⟨hWithin.start_le, hWithin.le, stop_le_length hWithin h⟩
  tail := fun close hLt => ⟨c.lt_bracketTail close, bracketTail_le hLt⟩

/-- A walk over some lines that gets to the end of its pieces. Its index never falls, it stays
among the characters of the lines, and the lines only lose characters and get links. -/
structure KeepsOn (pieces : List Inline) (lines : List Line) : Prop where
  index_le : (cursors pieces lines).Pairwise (·.index ≤ ·.index)
  isAmong : ∀ c ∈ cursors pieces lines, c.IsAmong (Entry.ofLines lines).length
  lines : ∃ last done, (cursors pieces lines).getLast? = some last ∧
    eraseInline pieces lines = .ok done ∧ done = lines.mapIdx (applyWalk last) ∧
      List.Forall₂ IsStripped lines done

/-- However little the pieces say about the lines, the walk over them keeps on. -/
theorem eraseInline_keepsOn {pieces : List Inline}
    (hMarks : ∀ mark, .codeSpan mark ∈ pieces → mark ≠ []) (lines : List Line) :
    KeepsOn pieces lines := by
  obtain ⟨w, hWalk, hTrail⟩ := Walk.foldlM_pass_ok hMarks ⟨.ofLines lines, []⟩
  have hFirst := (Cursor.ofLines lines).isAmong (Nat.zero_le _)
  constructor
  · exact hTrail.pairwise.imp Cursor.Advances.index_le
  · intro c hMem
    rcases List.mem_cons.mp hMem with rfl | hLater
    · exact hFirst
    · have hGoes := hTrail.advances c hLater
      have hAmong := c.isAmong (hGoes.inside hFirst.index_le)
      rwa [hGoes.length_eq] at hAmong
  · refine ⟨w.cursor, _, hTrail.getLast?, ?_, rfl, ?_⟩
    · rw [eraseInline, hWalk]
      rfl
    · exact forall₂_mapIdx (applyWalk_isStripped w.cursor) lines

/-- A code span that is not closed, a line break with an indented line behind it, a link that is
not opened and an image that is not there. -/
theorem eraseInline_keepsOn_unmatched :
    let pieces : List Inline := [.codeSpan ['`'], .lineBreak true, .delimiter ['*'], .linkClose,
      .image ['z'], .text ['g', 'f']]
    let lines : List Line := ["a`b".toList, "  c*](d)f".toList].map (.ofText 1 false)
    (∀ mark, .codeSpan mark ∈ pieces → mark ≠ []) ∧
      (cursors pieces lines).map (·.index) = [0, 2, 6, 8, 12, 12, 13] ∧ KeepsOn pieces lines := by
  have hMarks : ∀ mark, .codeSpan mark ∈ [Inline.codeSpan ['`'], .lineBreak true, .delimiter ['*'],
      .linkClose, .image ['z'], .text ['g', 'f']] → mark ≠ [] := by simp
  exact ⟨hMarks, by decide, eraseInline_keepsOn hMarks _⟩

end ProseLint.Markdown
