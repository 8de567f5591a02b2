import ProseLint.Proofs.Markup.SingleLine
import ProseLint.Proofs.Source.Escapes

/-! A code span on a line of text. The backslashes of the line have been read as escapes before
the walk over its pieces comes to know what is code. So the content of the span stays as it is
written if there is no backslash in it, and only then. -/

namespace ProseLint

/-- A backslash with something behind it is lost when a line is read. -/
theorem Line.count_text_lt {before content behind : Text} (hBefore : '\\' ∉ before)
    (hContent : '\\' ∈ content) (hBehind : behind ≠ []) (number : Nat) :
    List.count '\\' (ofText number true (before ++ (content ++ behind))).text <
      List.count '\\' (before ++ (content ++ behind)) := by
  obtain ⟨head, tail, rfl, hHead⟩ := List.eq_append_cons_of_mem hContent
  obtain ⟨d, rest, hNext⟩ := List.exists_cons_of_ne_nil
    (List.append_ne_nil_of_right_ne_nil tail hBehind)
  have hRaw : before ++ (head ++ '\\' :: tail ++ behind) =
      before ++ head ++ '\\' :: d :: rest := by simp [← hNext]
  have hFirst : '\\' ∉ before ++ head := by simp [hBefore, hHead]
  have hRead := cellsFrom_char_sublist_of_escape hFirst 0 d rest
  have hTrim := (trim_isPrefix (cellsFrom true 0 (before ++ head ++ '\\' :: d :: rest))).sublist
  rw [hRaw]
  calc
    _ ≤ List.count '\\' (before ++ head ++ d :: rest) :=
      ((hTrim.map Cell.char).trans hRead).count_le '\\'
    _ < List.count '\\' (before ++ head ++ '\\' :: d :: rest) := by
      simp

namespace Markdown

open CommonMark (Inline)

section

variable {before content after : Text} {ticks : Nat}

/-- The pieces of a code span between two texts are passed wherever they stand. -/
theorem exists_foldlM_code (before after : Text) (hTicks : 0 < ticks) (w : Walk) :
    ∃ v, [Inline.text before, .codeSpan (List.replicate ticks tick), .text after].foldlM
      Walk.pass w = .ok v := by
  have hMark : (List.replicate ticks tick).isEmpty = false := by
    simpa using hTicks.ne'
  simp [Walk.pass, hMark, bind, Except.bind, pure, Except.pure]

theorem source_code_endsVisibly (hTicks : 0 < ticks) (content : Text) :
    (Piece.code ticks content).source.EndsVisibly := by
  obtain ⟨n, rfl⟩ := Nat.exists_eq_add_of_lt hTicks
  rw [Piece.source_code, List.replicate_succ', ← List.append_assoc, ← List.append_assoc]
  exact ⟨_, tick, rfl, by decide⟩

/-- What a walk leaves of a line has been read on it. -/
theorem keptText_applyWalk_sublist (c : Cursor) (number : Nat) (l : Line) :
    (applyWalk c number l).keptText.Sublist l.text := by
  have hChanges : Changes (fun _ => False) False l (applyWalk c number l) := applyWalk_changes c number l
  rw [← Line.text_eq_of_origin hChanges.origin_eq]
  exact List.filter_sublist.map Cell.char

/-- The walk erases the backticks of a code span right behind the text before it. -/
theorem exists_walk_code {first here last : List Entry}
    (h : Piece.IsCodeSpan before ticks content after)
    (hFresh : ∀ e ∈ first ++ (here ++ last), e.IsFresh) (hFirst : first.map (·.char) = before)
    (hHere : here.map (·.char) = (Piece.code ticks content).source)
    (hAfter : Entry.headGlyph last ≠ some tick) :
    ∃ span, (Piece.code ticks content).Passes first here last span ∧
      [Inline.text before, .codeSpan (List.replicate ticks tick), .text after].foldlM Walk.pass
        ⟨.between [] (first ++ (here ++ last)), []⟩ =
          .ok ⟨(Cursor.between (first ++ span) last).skip after, []⟩ := by
  obtain ⟨hFreshFirst, hFreshOthers⟩ := List.forall_mem_append.mp hFresh
  have hFreshHere := (List.forall_mem_append.mp hFreshOthers).1
  have hBefore : first.getLast?.bind (·.glyph) ≠ some tick := by
    intro hSame
    obtain ⟨e, hEnd, hGlyph⟩ := Option.bind_eq_some_iff.mp hSame
    apply h.before
    rw [← hFirst, List.getLast?_map, hEnd, Option.map_some]
    exact (hFreshFirst e (List.mem_of_getLast? hEnd)).glyph.symm.trans hGlyph
  have hText : (Piece.text before).Passes [] first (here ++ last) first :=
    Piece.text_passes hFreshFirst (hFirst.trans (Piece.source_text before).symm)
  obtain ⟨span, hSpan⟩ := Piece.code_passes h hFreshHere hHere hBefore hAfter
  have hFirstPass : Walk.pass ⟨.between [] (first ++ (here ++ last)), []⟩ (.text before) =
      .ok ⟨.between first (here ++ last), []⟩ := hText.pass []
  have hCodePass : Walk.pass ⟨.between first (here ++ last), []⟩
      (.codeSpan (List.replicate ticks tick)) = .ok ⟨.between (first ++ span) last, []⟩ :=
    hSpan.pass []
  refine ⟨span, hSpan, ?_⟩
  rw [foldlM_pass_cons hFirstPass, foldlM_pass_cons hCodePass]
  rfl

/-- Without a backslash just the backticks go, and the white space at the end of the line. -/
theorem eraseInline_code (h : Piece.IsCodeSpan before ticks content after)
    (hPlain : '\\' ∉ before ++ ((Piece.code ticks content).source ++ after)) (number : Nat) :
    ∃ done, eraseInline [.text before, .codeSpan (List.replicate ticks tick), .text after]
        [Line.ofText number true (before ++ ((Piece.code ticks content).source ++ after))] =
          .ok [done] ∧
      done.keptText = before ++ (content ++ after.stripRight) := by
  have hFresh := fun e hMem => ofLines_ofText_isFresh hPlain number (e := e) hMem
  have hKept := fun c hMem => (ofText_isFresh hPlain number (c := c) hMem).1
  have hStrip := Text.stripRight_append
    ((source_code_endsVisibly h.ticks_pos content).append_left before) after
  rw [List.append_assoc, List.append_assoc] at hStrip
  have hChars := (ofLines_ofText_char hPlain number).trans hStrip
  generalize Line.ofText number true _ = l at *
  obtain ⟨first, others, hAll, hFirst, hOthers⟩ := List.map_eq_append_iff.mp hChars
  obtain ⟨here, last, rfl, hHere, hLast⟩ := List.map_eq_append_iff.mp hOthers
  rw [hAll] at hFresh
  obtain ⟨hFreshFirst, hFreshOthers⟩ := List.forall_mem_append.mp hFresh
  have hFreshLast := (List.forall_mem_append.mp hFreshOthers).2
  have hAfter : Entry.headGlyph last ≠ some tick := by
    rw [Entry.headGlyph_eq_head? hFreshLast, hLast]
    intro hSame
    obtain ⟨blanks, hBlanks⟩ := Text.stripRight_isPrefix after
    apply h.after
    rw [← hBlanks, List.head?_append, hSame]
    rfl
  obtain ⟨span, hSpan, hWalk⟩ := exists_walk_code h hFresh hFirst hHere hAfter
  have hCovers : Cursor.Covers ((Cursor.between (first ++ span) last).skip after) l := by
    constructor
    · change (first ++ span ++ last).map Entry.origin = _
      simp only [hAll, List.map_append, hSpan.origin, List.append_assoc]
    · change ∀ e ∈ first ++ span ++ last, e.IsSound
      simp only [List.forall_mem_append]
      exact ⟨⟨fun e hMem => (hFreshFirst e hMem).isSound, hSpan.sound⟩,
        fun e hMem => (hFreshLast e hMem).isSound⟩
  rw [← hAll] at hWalk
  refine ⟨_, eraseInline_singleton hWalk, ?_⟩
  calc
    _ = kept ((first ++ span ++ last).map Entry.mark) := hCovers.keptText_eq hKept
    _ = kept (first.map Entry.mark) ++ (kept (span.map Entry.mark) ++
        kept (last.map Entry.mark)) := by
      rw [List.map_append, List.map_append, kept_append, kept_append, List.append_assoc]
    _ = before ++ (content ++ after.stripRight) := by
      rw [Entry.map_mark hFreshFirst, Entry.map_mark hFreshLast, hSpan.marks, kept_piece, hFirst,
        hLast, kept_map_true, kept_map_true]
      rfl

/-- The content of a code span is kept to the letter just when no backslash is in it. The walk finds
the backticks by what the line has been read as, where a backslash is gone and what it escapes
shows no more. -/
theorem eraseInline_code_verbatim_iff (h : Piece.IsCodeSpan before ticks content after)
    (hBefore : '\\' ∉ before) (hAfter : '\\' ∉ after) (number : Nat) :
    let marks := List.replicate ticks tick
    ∃ done, eraseInline [.text before, .codeSpan marks, .text after]
        [Line.ofText number true (before ++ (marks ++ (content ++ marks) ++ after))] =
          .ok [done] ∧
      (done.keptText = before ++ (content ++ after.stripRight) ↔ '\\' ∉ content) := by
  intro marks
  have hMarks : '\\' ∉ marks := fun hMem => absurd (List.eq_of_mem_replicate hMem) (by decide)
  by_cases hContent : '\\' ∈ content
  · have hBehind : marks ++ after ≠ [] := by simp [marks, h.ticks_pos.ne']
    have hFirst : '\\' ∉ before ++ marks := by simp [hBefore, hMarks]
    have hLost := Line.count_text_lt hFirst hContent hBehind number
    have hRaw : before ++ marks ++ (content ++ (marks ++ after)) =
        before ++ (marks ++ (content ++ marks) ++ after) := by simp
    rw [hRaw] at hLost
    obtain ⟨w, hWalk⟩ := exists_foldlM_code before after h.ticks_pos
      ⟨.ofLines [Line.ofText number true (before ++ (marks ++ (content ++ marks) ++ after))], []⟩
    refine ⟨_, eraseInline_singleton hWalk, iff_of_false (fun hKept => ?_) (not_not.mpr hContent)⟩
    have hLeft := (keptText_applyWalk_sublist w.cursor 0
      (Line.ofText number true (before ++ (marks ++ (content ++ marks) ++ after)))).count_le '\\'
    rw [hKept] at hLeft
    simp only [List.count_append, List.count_eq_zero.mpr hBefore, List.count_eq_zero.mpr hMarks,
      List.count_eq_zero.mpr hAfter] at hLeft hLost
    omega
  · have hPlain : '\\' ∉ before ++ ((Piece.code ticks content).source ++ after) := by
      simp only [Piece.source_code, List.mem_append, not_or]
      exact ⟨hBefore, ⟨hMarks, hContent, hMarks⟩, hAfter⟩
    obtain ⟨done, hDone, hKept⟩ := eraseInline_code h hPlain number
    rw [Piece.source_code] at hDone
    exact ⟨done, hDone, iff_of_true hKept hContent⟩

/-- A code span without backslashes has markup of all kinds in it, and longer runs of backticks. -/
theorem eraseInline_code_verbatim_iff_stars :
    let content := "a*b\x60\x60_[c".toList
    Piece.IsCodeSpan "Run ".toList 1 content " now. ".toList ∧
      '\\' ∉ "Run ".toList ∧ '\\' ∉ " now. ".toList ∧
      ∃ done, eraseInline [.text "Run ".toList, .codeSpan [tick], .text " now. ".toList]
          [Line.ofText 1 true "Run \x60a*b\x60\x60_[c\x60 now. ".toList] = .ok [done] ∧
        done.keptText = "Run a*b\x60\x60_[c now.".toList := by
  intro content
  have hSpan : Piece.IsCodeSpan "Run ".toList 1 content " now. ".toList :=
    ⟨by decide, by decide, by decide, by decide, by decide, by decide, by decide⟩
  have hBefore : '\\' ∉ "Run ".toList := by decide
  have hAfter : '\\' ∉ " now. ".toList := by decide
  obtain ⟨done, hDone, hVerbatim⟩ := eraseInline_code_verbatim_iff hSpan hBefore hAfter 1
  exact ⟨hSpan, hBefore, hAfter, done, hDone, hVerbatim.mpr (by decide)⟩

/-- In a code span a backslash before a sign is lost. -/
theorem exists_code_not_verbatim :
    Piece.IsCodeSpan "Run ".toList 1 "a\\*b".toList " now.".toList ∧
      ∃ done, eraseInline [.text "Run ".toList, .codeSpan [tick], .text " now.".toList]
          [Line.ofText 1 true "Run \x60a\\*b\x60 now.".toList] = .ok [done] ∧
        done.keptText = "Run a*b now.".toList ∧ done.keptText ≠ "Run a\\*b now.".toList := by
  refine ⟨⟨by decide, by decide, by decide, by decide, by decide, by decide, by decide⟩, _, rfl, ?_⟩
  decide

end

end Markdown

end ProseLint
