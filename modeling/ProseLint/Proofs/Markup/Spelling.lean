import ProseLint.Proofs.Layout.Conservation
import ProseLint.Proofs.Markup.Walks
import ProseLint.Proofs.Source.Lines
import Mathlib.Data.List.Chain

/-! Markdown text spelled out in pieces. The walk looks for each piece from where the last one has
ended, and when the pieces make up the lines it finds each of them right there, however often its
characters stand elsewhere. So just the delimiters go. -/

namespace ProseLint

namespace Line

/-- Nothing of the line is escaped or erased, and no white space stands around its text. -/
structure IsPlain (l : Line) : Prop where
  read : l.IsRead
  kept : ∀ c ∈ l.cells, c.kept = true
  unescaped : '\\' ∉ l.raw
  unbroken : '\n' ∉ l.raw
  starts : ∀ c ∈ l.raw.head?, isBlank c = false
  ends : ∀ c ∈ l.raw.getLast?, isBlank c = false

theorem IsPlain.origin_cells {l : Line} (h : l.IsPlain) :
    l.cells.map Cell.origin = (cellsFrom false 0 l.raw).map Cell.origin := by
  obtain ⟨number, escapes, raw, hOrigin⟩ := h.read
  obtain rfl : l.raw = raw := congrArg (·.2.1) hOrigin
  rw [cells_origin_eq hOrigin, ofText_cells h.unescaped h.ends]

theorem IsPlain.text_eq {l : Line} (h : l.IsPlain) : l.text = l.raw := by
  have hChars := congrArg (List.map (·.1)) h.origin_cells
  rw [List.map_map, List.map_map] at hChars
  exact hChars.trans (cellsFrom_char 0 l.raw)

theorem IsPlain.escaped {l : Line} (h : l.IsPlain) {c : Cell} (hMem : c ∈ l.cells) :
    c.escaped = false := by
  have hOrigin : c.origin ∈ (cellsFrom false 0 l.raw).map Cell.origin :=
    h.origin_cells ▸ List.mem_map_of_mem hMem
  obtain ⟨d, hRead, hSame⟩ := List.mem_map.mp hOrigin
  rw [← (mem_cellsFrom_fresh hRead).2]
  exact (congrArg (·.2.2) hSame).symm

/-- The line with nothing erased. -/
def whole (l : Line) : Line := { l with cells := l.cells.map fun c => { c with kept := true } }

theorem IsPlain.whole_without {l : Line} (h : l.IsPlain) (gone : Nat → Bool) :
    (l.without gone).whole = l := by
  have hSame : ((l.without gone).cells.map fun c => ({ c with kept := true } : Cell)) =
      l.cells := by
    apply List.ext_getElem (by simp [without])
    intro i hLeft hRight
    have hKept := h.kept l.cells[i] (List.getElem_mem hRight)
    simp [without, ← hKept]
  rw [whole, hSame]
  rfl

end Line

namespace Markdown

open CommonMark (Inline)

/-! ## Lines as they are walked through -/

/-- No space or tab follows a line change. -/
def Unindented (c d : Char) : Prop := c = '\n' → d ≠ ' ' ∧ d ≠ '\t'

theorem isChain_of_not_mem {t : Text} (h : '\n' ∉ t) : t.IsChain Unindented := by
  induction t with
  | nil => exact .nil
  | cons c rest ih =>
      rw [List.mem_cons, not_or] at h
      exact List.isChain_cons.mpr ⟨fun _ _ hBreak => absurd hBreak.symm h.1, ih h.2⟩

theorem head?_intercalate {part : Text} {rest : List Text} {c : Char}
    (h : c ∈ (['\n'].intercalate (part :: rest)).head?) : c = '\n' ∨ c ∈ part.head? := by
  cases rest with
  | nil =>
      rw [List.intercalate_singleton] at h
      exact Or.inr h
  | cons next rest =>
      rw [List.intercalate_cons_cons, List.append_assoc] at h
      cases part with
      | nil => exact Or.inl (Option.some.inj h).symm
      | cons d part => exact Or.inr h

theorem intercalate_isChain {parts : List Text} (hLine : ∀ part ∈ parts, '\n' ∉ part)
    (hStarts : ∀ part ∈ parts, ∀ c ∈ part.head?, isBlank c = false) :
    (['\n'].intercalate parts).IsChain Unindented := by
  induction parts with
  | nil => exact .nil
  | cons part rest ih =>
      obtain ⟨hFirst, hLater⟩ := List.forall_mem_cons.mp hLine
      cases rest with
      | nil => simpa using isChain_of_not_mem hFirst
      | cons next rest =>
          have hRest := ih hLater (List.forall_mem_cons.mp hStarts).2
          rw [List.intercalate_cons_cons, List.append_assoc]
          refine List.isChain_append.mpr ⟨isChain_of_not_mem hFirst,
            List.isChain_cons.mpr ⟨fun c hHead _ => ?_, hRest⟩, fun c hLast _ _ hBreak => ?_⟩
          · have hSeen : c = '\n' ∨ isBlank c = false := by
              rcases head?_intercalate hHead with hBreak | hNext
              · exact Or.inl hBreak
              · exact Or.inr (hStarts next (by simp) c hNext)
            constructor
            · rintro rfl
              exact absurd hSeen (by decide)
            · rintro rfl
              exact absurd hSeen (by decide)
          · exact absurd (hBreak ▸ List.mem_of_getLast? hLast) hFirst

theorem ofLines_isFresh {lines : List Line} (h : ∀ l ∈ lines, l.IsPlain) {e : Entry}
    (hMem : e ∈ Entry.ofLines lines) : e.IsFresh := by
  rcases Entry.mem_ofLinesFrom (List.mem_of_mem_drop hMem) with rfl | ⟨n, _, l, hLine, hEntry⟩
  · exact ⟨rfl, fun _ => rfl⟩
  · obtain ⟨i, c, hCell, rfl, _⟩ := Entry.mem_ofLine hEntry
    have hPlain := h l hLine
    refine ⟨?_, nofun⟩
    simp [Cell.glyph, hPlain.kept c hCell, hPlain.escaped hCell]

theorem ofLines_char {lines : List Line} (h : ∀ l ∈ lines, l.IsPlain) :
    (Entry.ofLines lines).map (·.char) = ['\n'].intercalate (lines.map (·.raw)) := by
  have hLine : ∀ n, ∀ l ∈ lines, (Entry.ofLine n l).map (·.char) = l.raw := by
    intro n l hMem
    rw [Entry.ofLine_eq (h l hMem).kept, map_mapIdx, ← (h l hMem).text_eq]
    exact mapIdx_const Cell.char l.cells
  rw [Entry.map_ofLines hLine, mapIdx_const]
  rfl

/-! ## Pieces -/

/-- A backtick. -/
def tick : Char := '\x60'

/-- What a text is spelled out of. A code span has a number of backticks around its content. -/
inductive Piece where
  | text (content : Text)
  | delimiter (mark : Text)
  | lineBreak
  | code (ticks : Nat) (content : Text)
  deriving DecidableEq, Repr

namespace Piece

/-- The piece as the grammar sees it. -/
def inline : Piece → Inline
  | text content => .text content
  | delimiter mark => .delimiter mark
  | lineBreak => .lineBreak false
  | code ticks _ => .codeSpan (List.replicate ticks tick)

/-- The characters of the piece, each with whether it is to stay. -/
def spelled : Piece → List (Char × Bool)
  | text content => content.map (·, true)
  | delimiter mark => mark.map (·, false)
  | lineBreak => [('\n', true)]
  | code ticks content =>
      let marks := List.replicate ticks (tick, false)
      marks ++ (content.map (·, true) ++ marks)

def source (p : Piece) : Text := p.spelled.map Prod.fst

theorem source_text (content : Text) : (text content).source = content := by
  simp [source, spelled, Function.comp_def]

theorem source_delimiter (mark : Text) : (delimiter mark).source = mark := by
  simp [source, spelled, Function.comp_def]

theorem source_code (ticks : Nat) (content : Text) : (code ticks content).source =
    List.replicate ticks tick ++ (content ++ List.replicate ticks tick) := by
  simp [source, spelled, Function.comp_def]

/-- What of the piece is no markup. -/
def prose : Piece → Text
  | text content => content
  | delimiter _ => []
  | lineBreak => ['\n']
  | code _ content => content

/-- A code span of some backticks between two texts, of which nothing can be taken for its marks. -/
structure IsCodeSpan (before : Text) (ticks : Nat) (content after : Text) : Prop where
  ticks_pos : 0 < ticks
  content_ne_nil : content ≠ []
  starts : content.head? ≠ some tick
  ends : content.getLast? ≠ some tick
  no_run : ¬ HasRun tick ticks content
  before : before.getLast? ≠ some tick
  after : after.head? ≠ some tick

/-- Only breaks change lines, and code spans can be told from what stands around them. -/
structure Legible (pieces : List Piece) : Prop where
  breaks : ∀ p ∈ pieces, p ≠ .lineBreak → '\n' ∉ p.source
  code : ∀ before ticks content after, pieces = before ++ .code ticks content :: after →
    IsCodeSpan (before.flatMap source) ticks content (after.flatMap source)

/-! ## Passing a piece -/

/-- A piece is passed by a walk that has it right ahead: it leaves the piece behind with its
delimiters erased. -/
structure Passes (p : Piece) (behind here rest done : List Entry) : Prop where
  origin : done.map Entry.origin = here.map Entry.origin
  marks : done.map Entry.mark = p.spelled
  sound : ∀ e ∈ done, e.IsSound
  pass : ∀ openLinks, Walk.pass ⟨.between behind (here ++ rest), openLinks⟩ p.inline =
    .ok ⟨.between (behind ++ done) rest, openLinks⟩

section Passing

variable {behind here rest : List Entry}

theorem text_passes {content : Text} (hFresh : ∀ e ∈ here, e.IsFresh)
    (hHere : here.map (·.char) = (text content).source) :
    (text content).Passes behind here rest here := by
  have hContent := hHere.trans (source_text content)
  refine ⟨rfl, ?_, fun e hMem => (hFresh e hMem).isSound, fun openLinks => ?_⟩
  · rw [Entry.map_mark hFresh, hContent]
    rfl
  · rw [inline, Walk.pass, Walk.change, ← hContent, Cursor.between_skip]

theorem delimiter_passes {mark : Text} (hFresh : ∀ e ∈ here, e.IsFresh)
    (hHere : here.map (·.char) = (delimiter mark).source) (hLine : '\n' ∉ (delimiter mark).source) :
    (delimiter mark).Passes behind here rest (here.map Entry.erased) := by
  have hMark := hHere.trans (source_delimiter mark)
  rw [source_delimiter] at hLine
  have hPlaces := Entry.place_ne_lineBreak hFresh (hMark ▸ hLine)
  refine ⟨Entry.map_origin_erased here, ?_, Entry.isSound_erased hFresh, fun openLinks => ?_⟩
  · rw [Entry.map_mark_erased hPlaces, hMark]
    rfl
  · rw [inline, Walk.pass, Walk.change, Cursor.between_consume hLine]
    rw [Entry.map_glyph hFresh, hMark]

theorem lineBreak_passes (hFresh : ∀ e ∈ here, e.IsFresh)
    (hHere : here.map (·.char) = lineBreak.source) (hSpace : Entry.headGlyph rest ≠ some ' ')
    (hTab : Entry.headGlyph rest ≠ some '\t') : lineBreak.Passes behind here rest here := by
  obtain ⟨e, hHere, hBreak⟩ : ∃ e, here = [e] ∧ e.char = '\n' := by
    simpa [source, spelled] using hHere
  subst hHere
  have hGlyph : e.glyph = some '\n' := hBreak ▸ (hFresh e (List.mem_singleton.mpr rfl)).glyph
  refine ⟨rfl, ?_, fun e hMem => (hFresh e hMem).isSound, fun openLinks => ?_⟩
  · rw [Entry.map_mark hFresh, List.map_singleton, hBreak]
    rfl
  · rw [inline, Walk.pass, Walk.change, Cursor.between_passLineBreak hGlyph hSpace hTab]

theorem code_passes {before after : Text} {ticks : Nat} {content : Text}
    (h : IsCodeSpan before ticks content after) (hFresh : ∀ e ∈ here, e.IsFresh)
    (hHere : here.map (·.char) = (code ticks content).source)
    (hBefore : behind.getLast?.bind (·.glyph) ≠ some tick)
    (hAfter : Entry.headGlyph rest ≠ some tick) :
    ∃ done, (code ticks content).Passes behind here rest done := by
  rw [source_code] at hHere
  obtain ⟨opening, others, rfl, hOpening, hOthers⟩ := List.map_eq_append_iff.mp hHere
  obtain ⟨inner, closing, rfl, hInner, hClosing⟩ := List.map_eq_append_iff.mp hOthers
  obtain ⟨hFirst, hLater⟩ := List.forall_mem_append.mp hFresh
  obtain ⟨hMiddle, hLast⟩ := List.forall_mem_append.mp hLater
  have hMarks : '\n' ∉ List.replicate ticks tick := fun hMem =>
    absurd (List.eq_of_mem_replicate hMem) (by decide)
  have hFirstPlaces := Entry.place_ne_lineBreak hFirst (hOpening ▸ hMarks)
  have hLastPlaces := Entry.place_ne_lineBreak hLast (hClosing ▸ hMarks)
  have hInnerGlyphs := (Entry.map_glyph hMiddle).trans (congrArg (List.map some) hInner)
  refine ⟨opening.map Entry.erased ++ (inner ++ closing.map Entry.erased), ?_, ?_, ?_,
    fun openLinks => ?_⟩
  · simp only [List.map_append, Entry.map_origin_erased]
  · simp only [List.map_append]
    rw [Entry.map_mark_erased hFirstPlaces, Entry.map_mark_erased hLastPlaces,
      Entry.map_mark hMiddle, hOpening, hClosing, hInner, List.map_replicate]
    rfl
  · exact List.forall_mem_append.mpr ⟨Entry.isSound_erased hFirst, List.forall_mem_append.mpr
      ⟨fun e hMem => (hMiddle e hMem).isSound, Entry.isSound_erased hLast⟩⟩
  · rw [inline, Walk.pass, if_neg (by simp [h.ticks_pos.ne']), Walk.change]
    simp only [List.append_assoc]
    rw [Cursor.between_eraseCodeSpan (by decide) h.ticks_pos hFirstPlaces]
    · rw [Entry.map_glyph hFirst, hOpening, List.map_replicate]
    · rw [Entry.map_glyph hLast, hClosing, List.map_replicate]
    · exact fun hNone => h.content_ne_nil (by rw [← hInner, hNone, List.map_nil])
    · rw [Entry.headGlyph_eq_head? hMiddle, hInner]
      exact h.starts
    · rw [hInnerGlyphs, List.getLast?_map]
      intro hSame
      obtain ⟨c, hContent, hTick⟩ := Option.map_eq_some_iff.mp hSame
      exact h.ends (hContent.trans hTick)
    · rw [hInnerGlyphs]
      exact fun hRun => h.no_run (hRun.of_map fun _ _ => Option.some.inj)
    · exact hBefore
    · exact hAfter

end Passing

/-- One piece of a text that spells out what is ahead. What stands beside it is told by the pieces
passed before and by those that follow. -/
theorem exists_passes {passed pieces : List Piece} {p : Piece} {behind here rest : List Entry}
    (h : Legible (passed ++ p :: pieces))
    (hChain : ((p :: pieces).flatMap source).IsChain Unindented)
    (hBehind : behind.map (·.char) = passed.flatMap source) (hSound : ∀ e ∈ behind, e.IsSound)
    (hFresh : ∀ e ∈ here ++ rest, e.IsFresh) (hHere : here.map (·.char) = p.source)
    (hRest : rest.map (·.char) = pieces.flatMap source) :
    ∃ done, p.Passes behind here rest done := by
  obtain ⟨hFirst, hLater⟩ := List.forall_mem_append.mp hFresh
  have hAfter := Entry.headGlyph_eq_head? hLater
  rw [hRest] at hAfter
  cases p with
  | text content => exact ⟨here, text_passes hFirst hHere⟩
  | delimiter mark =>
      have hLine := h.breaks (.delimiter mark) (by simp) nofun
      exact ⟨here.map Entry.erased, delimiter_passes hFirst hHere hLine⟩
  | lineBreak =>
      have hNext : ∀ c ∈ (pieces.flatMap source).head?, c ≠ ' ' ∧ c ≠ '\t' := fun c hHead =>
        (List.isChain_cons.mp hChain).1 c hHead rfl
      refine ⟨here, lineBreak_passes hFirst hHere ?_ ?_⟩
      · exact fun hSpace => (hNext ' ' (hAfter ▸ hSpace)).1 rfl
      · exact fun hTab => (hNext '\t' (hAfter ▸ hTab)).2 rfl
  | code ticks content =>
      have hSpan := h.code passed ticks content pieces rfl
      refine code_passes hSpan hFirst hHere (fun hBefore => hSpan.before ?_) (hAfter ▸ hSpan.after)
      obtain ⟨e, hLast, hGlyph⟩ := Option.bind_eq_some_iff.mp hBefore
      have hChar := (hSound e (List.mem_of_getLast? hLast)).glyph tick hGlyph
      rw [← hBehind, List.getLast?_map, hLast, Option.map_some, hChar]

/-- A walk over all pieces of a text. -/
theorem foldlM_passes {pieces : List Piece} (passed : List Piece) (behind ahead : List Entry)
    (h : Legible (passed ++ pieces)) (hChain : (pieces.flatMap source).IsChain Unindented)
    (hBehind : behind.map (·.char) = passed.flatMap source) (hSound : ∀ e ∈ behind, e.IsSound)
    (hFresh : ∀ e ∈ ahead, e.IsFresh) (hAhead : ahead.map (·.char) = pieces.flatMap source)
    (openLinks : List Char) :
    ∃ done, done.map Entry.origin = ahead.map Entry.origin ∧
      done.map Entry.mark = pieces.flatMap spelled ∧ (∀ e ∈ done, e.IsSound) ∧
      (pieces.map inline).foldlM Walk.pass ⟨.between behind ahead, openLinks⟩ =
        .ok ⟨.between (behind ++ done) [], openLinks⟩ := by
  induction pieces generalizing passed behind ahead with
  | nil =>
      obtain rfl : ahead = [] := List.map_eq_nil_iff.mp hAhead
      refine ⟨[], rfl, rfl, by simp, ?_⟩
      rw [List.append_nil]
      rfl
  | cons p pieces ih =>
      rw [List.flatMap_cons] at hAhead
      obtain ⟨here, rest, rfl, hHere, hRest⟩ := List.map_eq_append_iff.mp hAhead
      obtain ⟨done, hDone⟩ := exists_passes h hChain hBehind hSound hFresh hHere hRest
      have hChars : done.map (·.char) = p.source := by
        have hSame := congrArg (List.map Prod.snd) hDone.origin
        rw [List.map_map, List.map_map] at hSame
        exact hSame.trans hHere
      have hSuffix : pieces.flatMap source <:+ (p :: pieces).flatMap source :=
        List.suffix_append p.source _
      obtain ⟨more, hOrigin, hMarks, hMore, hPass⟩ := ih (passed ++ [p]) (behind ++ done) rest
        (by simpa using h) (hChain.suffix hSuffix)
        (by simp [hBehind, hChars]) (List.forall_mem_append.mpr ⟨hSound, hDone.sound⟩)
        (List.forall_mem_append.mp hFresh).2 hRest
      refine ⟨done ++ more, ?_, ?_, List.forall_mem_append.mpr ⟨hDone.sound, hMore⟩, ?_⟩
      · rw [List.map_append, List.map_append, hDone.origin, hOrigin]
      · rw [List.map_append, hDone.marks, hMarks, List.flatMap_cons]
      · rw [List.map_cons, List.foldlM_cons, hDone.pass]
        simpa [bind, Except.bind] using hPass

end Piece

/-! ## What is left -/

/-- The characters that are still there. -/
def kept (marks : List (Char × Bool)) : Text := (marks.filter Prod.snd).map Prod.fst

theorem kept_append (marks more : List (Char × Bool)) :
    kept (marks ++ more) = kept marks ++ kept more := by
  simp [kept]

theorem kept_map_true (t : Text) : kept (t.map (·, true)) = t := by
  simp [kept, List.filter_map, Function.comp_def]

theorem kept_map_false (t : Text) : kept (t.map (·, false)) = [] := by
  simp [kept, List.filter_map, Function.comp_def]

theorem kept_piece (p : Piece) : kept p.spelled = p.prose := by
  cases p with
  | text content => exact kept_map_true content
  | delimiter mark => exact kept_map_false mark
  | lineBreak => rfl
  | code ticks content =>
      have hTicks := kept_map_false (List.replicate ticks tick)
      rw [List.map_replicate] at hTicks
      rw [Piece.spelled, kept_append, kept_append, hTicks, kept_map_true, List.append_nil]
      rfl

theorem kept_spelled (pieces : List Piece) :
    kept (pieces.flatMap Piece.spelled) = pieces.flatMap Piece.prose := by
  induction pieces with
  | nil => rfl
  | cons p rest ih => rw [List.flatMap_cons, List.flatMap_cons, kept_append, kept_piece, ih]

theorem kept_intercalate (parts : List (List (Char × Bool))) :
    kept ([('\n', true)].intercalate parts) = ['\n'].intercalate (parts.map kept) := by
  induction parts with
  | nil => rfl
  | cons part rest ih =>
      cases rest with
      | nil => simp
      | cons next rest =>
          rw [List.intercalate_cons_cons, List.map_cons, List.map_cons, List.intercalate_cons_cons,
            ← List.map_cons, ← ih]
          simp [kept]

theorem kept_line (l : Line) : kept l.spelled = l.keptText := by
  simp [kept, Line.spelled, Line.keptText, List.filter_map, Function.comp_def]

theorem mem_keptText {l : Line} {c : Char} (h : c ∈ l.keptText) : c ∈ l.text :=
  (List.filter_sublist.map Cell.char).subset h

/-- Erasing the inline markup of lines takes away the delimiters of the pieces that the lines are
spelled out of, and nothing else: the text and the content of code spans stay, whatever characters
they hold. -/
theorem eraseInline_spelled {pieces : List Piece} {lines : List Line}
    (hLines : ∀ l ∈ lines, l.IsPlain) (hPieces : Piece.Legible pieces)
    (hSpelled : ['\n'].intercalate (lines.map (·.raw)) = pieces.flatMap Piece.source) :
    ∃ done, eraseInline (pieces.map Piece.inline) lines = .ok done ∧
      done.map Line.whole = lines ∧
      [('\n', true)].intercalate (done.map Line.spelled) = pieces.flatMap Piece.spelled ∧
      (lines ≠ [] → done.map Line.keptText = (pieces.flatMap Piece.prose).splitOn '\n') := by
  have hChain : (['\n'].intercalate (lines.map (·.raw))).IsChain Unindented := intercalate_isChain
    (List.forall_mem_map.mpr fun l hMem => (hLines l hMem).unbroken)
    (List.forall_mem_map.mpr fun l hMem => (hLines l hMem).starts)
  rw [hSpelled] at hChain
  obtain ⟨entries, hOrigin, hMarks, hSound, hWalk⟩ := Piece.foldlM_passes [] []
    (Entry.ofLines lines) hPieces hChain rfl (by simp)
    (fun e hMem => ofLines_isFresh hLines hMem) ((ofLines_char hLines).trans hSpelled) []
  rw [List.nil_append] at hWalk
  have hErase : applyWalk (.between entries []) = fun n l =>
      l.without fun i => Entry.gone entries (.at n i) := by
    funext n l
    rw [applyWalk_between, List.append_nil]
  have hAll := spelled_without (fun l hMem => (hLines l hMem).kept) hOrigin hSound
  rw [hMarks] at hAll
  refine ⟨lines.mapIdx fun n l => l.without fun i => Entry.gone entries (.at n i), ?_, ?_, hAll,
    fun hSome => ?_⟩
  · rw [eraseInline, show Cursor.ofLines lines = .between [] (Entry.ofLines lines) from rfl, hWalk,
      ← hErase]
    rfl
  · rw [map_mapIdx]
    apply List.ext_getElem (by simp)
    intro i hLeft hRight
    rw [List.getElem_mapIdx]
    exact (hLines lines[i] (List.getElem_mem hRight)).whole_without _
  · have hKept := congrArg kept hAll
    have hTexts : kept ∘ Line.spelled = Line.keptText := funext kept_line
    rw [kept_intercalate, kept_spelled, List.map_map, hTexts] at hKept
    rw [← hKept]
    refine (List.splitOn_intercalate '\n' ?_ ?_).symm
    · intro t hText hBreak
      obtain ⟨l, hMem, rfl⟩ := List.mem_map.mp hText
      obtain ⟨i, hLt, rfl⟩ := List.mem_mapIdx.mp hMem
      have hPlain := hLines lines[i] (List.getElem_mem hLt)
      have hChar := mem_keptText hBreak
      rw [Line.text_without, hPlain.text_eq] at hChar
      exact hPlain.unbroken hChar
    · simpa using hSome

/-- Two lines on which delimiters and backticks stand in the text as well. -/
theorem eraseInline_spelled_two :
    let lines := [Line.ofText 1 true "2**\x60a\x60\x60*b\x60*".toList,
      Line.ofText 2 true "*c".toList]
    let pieces : List Piece := [.text "2*".toList, .delimiter ['*'],
      .code 1 "a\x60\x60*b".toList, .delimiter ['*'], .lineBreak, .text "*c".toList]
    (∀ l ∈ lines, l.IsPlain) ∧ Piece.Legible pieces ∧
      ['\n'].intercalate (lines.map (·.raw)) = pieces.flatMap Piece.source ∧
      ∃ done, eraseInline (pieces.map Piece.inline) lines = .ok done ∧
        done.map Line.whole = lines ∧
        done.map Line.keptText = ["2*a\x60\x60*b".toList, "*c".toList] := by
  intro lines pieces
  have hLines : ∀ l ∈ lines, l.IsPlain := by
    refine List.forall_mem_cons.mpr ⟨?_, List.forall_mem_singleton.mpr ?_⟩
    · refine ⟨⟨1, true, _, rfl⟩, by decide, by decide, by decide, ?_, ?_⟩
      · rintro c ⟨⟩
        decide
      · rintro c ⟨⟩
        decide
    · refine ⟨⟨2, true, _, rfl⟩, by decide, by decide, by decide, ?_, ?_⟩
      · rintro c ⟨⟩
        decide
      · rintro c ⟨⟩
        decide
  have hPieces : Piece.Legible pieces := by
    constructor
    · decide
    · intro before ticks content after hSplit
      obtain ⟨rfl, ⟨rfl, rfl⟩, rfl⟩ : before = [.text "2*".toList, .delimiter ['*']] ∧
          (ticks = 1 ∧ content = "a\x60\x60*b".toList) ∧
            after = [.delimiter ['*'], .lineBreak, .text "*c".toList] := by
        simpa [pieces, List.cons_eq_append_iff] using hSplit
      exact ⟨by decide, by decide, by decide, by decide, by decide, by decide, by decide⟩
  have hSpelled : ['\n'].intercalate (lines.map (·.raw)) = pieces.flatMap Piece.source := by decide
  obtain ⟨done, hDone, hWhole, -, hKept⟩ := eraseInline_spelled hLines hPieces hSpelled
  refine ⟨hLines, hPieces, hSpelled, done, hDone, hWhole, (hKept (by decide)).trans ?_⟩
  decide

end Markdown

end ProseLint
