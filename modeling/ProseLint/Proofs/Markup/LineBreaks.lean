import ProseLint.Markup.Reading
import ProseLint.Proofs.Source.Lines

/-! Breaks between lines. A text falls into one line more than it has line breaks, and a line break
behind a text leaves the lines above it and below it as they are. Which of the three forms the
breaks have makes no difference to the lines, and so none to what is read line by line. -/

namespace ProseLint

namespace Text

/-- The number of line breaks in a text. A carriage return with a line feed after it is one. -/
def lineBreaks : Text → Nat
  | [] => 0
  | '\r' :: '\n' :: rest => lineBreaks rest + 1
  | c :: rest => lineBreaks rest + if c = '\r' ∨ c = '\n' then 1 else 0

theorem length_splitLines (t : Text) : t.splitLines.length = t.lineBreaks + 1 := by
  induction t using splitLines.induct with
  | case1 => rfl
  | case2 rest ih => rw [splitLines_returnFeed, lineBreaks, List.length_cons, ih]
  | case3 c rest hSingle hEnd ih =>
      rw [splitLines_break hEnd hSingle, lineBreaks, if_pos hEnd, List.length_cons, ih]
      exact hSingle
  | case4 c rest hSingle hEnd hRest ih => exact (splitLines_ne_nil rest hRest).elim
  | case5 c rest hSingle hEnd line lines hRest ih =>
      rw [splitLines_cons (not_or.mp hEnd) hRest, lineBreaks, if_neg hEnd, Nat.add_zero, ← ih,
        hRest]
      · rfl
      · exact hSingle

/-- The lines of a text are what stands between its line breaks, but for an empty part at the
end. -/
theorem splitLines_eq_lines (t : Text) :
    t.splitLines = t.lines ∨ t.splitLines = t.lines ++ [[]] := by
  by_cases hEmpty : t.splitLines.getLast? = some []
  · obtain ⟨before, hBefore⟩ := List.getLast?_eq_some_iff.mp hEmpty
    rw [lines, if_pos hEmpty, hBefore, List.dropLast_concat]
    exact .inr rfl
  · rw [lines, if_neg hEmpty]
    exact .inl rfl

/-! ## Texts one behind the other -/

theorem splitLines_newline (t : Text) : splitLines ('\n' :: t) = [] :: splitLines t := rfl

theorem getLast?_ne_of_cons {c d : Char} {rest : Text} (h : (c :: rest).getLast? ≠ some d) :
    rest.getLast? ≠ some d := by
  intro hLast
  rw [List.getLast?_cons, hLast] at h
  exact h rfl

/-- A line feed behind a text ends its last line. Behind a carriage return it would only belong to a
line break that is there already. -/
theorem splitLines_append_newline {s : Text} (h : s.getLast? ≠ some '\r') (t : Text) :
    splitLines (s ++ '\n' :: t) = splitLines s ++ splitLines t := by
  induction s using splitLines.induct with
  | case1 => exact splitLines_newline t
  | case2 rest ih =>
      rw [List.cons_append, List.cons_append, splitLines_returnFeed, splitLines_returnFeed,
        ih (getLast?_ne_of_cons (getLast?_ne_of_cons h)), List.cons_append]
  | case3 c rest hSingle hEnd ih =>
      have hApart : ∀ more, c = '\r' → rest ++ '\n' :: t = '\n' :: more → False := by
        rintro more rfl hMore
        cases rest with
        | nil => exact h rfl
        | cons d later =>
            rw [List.cons_append, List.cons.injEq] at hMore
            exact hSingle later rfl (by rw [hMore.1])
      rw [List.cons_append, splitLines_break hEnd hApart, splitLines_break hEnd hSingle,
        ih (getLast?_ne_of_cons h), List.cons_append]
  | case4 c rest hSingle hEnd hRest ih => exact (splitLines_ne_nil rest hRest).elim
  | case5 c rest hSingle hEnd line lines hRest ih =>
      have hMore := ih (getLast?_ne_of_cons h)
      rw [hRest, List.cons_append] at hMore
      rw [List.cons_append, splitLines_cons (not_or.mp hEnd) hMore,
        splitLines_cons (not_or.mp hEnd) hRest, List.cons_append]

/-- Below a blank line the lines of a text are as they are alone. Above it no line break is passed
over, also not the last one. -/
theorem lines_append_blankLine {s : Text} (h : s.getLast? ≠ some '\r') (t : Text) :
    (s ++ blankLine ++ t).lines = s.splitLines ++ [] :: t.lines := by
  have hParts : (s ++ blankLine ++ t).splitLines = s.splitLines ++ [] :: t.splitLines := by
    rw [List.append_assoc, ← splitLines_newline]
    exact splitLines_append_newline h ('\n' :: t)
  have hSome := splitLines_ne_nil t
  have hLast : (s.splitLines ++ [] :: t.splitLines).getLast? = t.splitLines.getLast? := by
    rw [List.append_cons, List.getLast?_append_of_ne_nil _ hSome]
  simp only [lines, hParts, hLast]
  split
  · rw [List.append_cons, List.dropLast_append_of_ne_nil hSome, ← List.append_cons]
  · rfl

theorem lineBreaks_append_blankLine {s : Text} (h : s.getLast? ≠ some '\r') :
    (s ++ blankLine).lineBreaks = s.splitLines.length + 1 := by
  have hParts : (s ++ blankLine).splitLines = s.splitLines ++ [[], []] :=
    splitLines_append_newline h ['\n']
  have hCount := length_splitLines (s ++ blankLine)
  rw [hParts, List.length_append] at hCount
  exact (Nat.succ.inj hCount).symm

/-! ## Other line endings -/

/-- The text with another ending in the place of every line feed. -/
def withEndings (t ending : Text) : Text := t.flatMap fun c => if c = '\n' then ending else [c]

theorem withEndings_newline (t ending : Text) :
    withEndings ('\n' :: t) ending = ending ++ t.withEndings ending := rfl

theorem withEndings_cons {c : Char} (h : c ≠ '\n') (t ending : Text) :
    withEndings (c :: t) ending = c :: t.withEndings ending := by
  rw [withEndings, List.flatMap_cons, if_neg h]
  rfl

theorem splitLines_return {t : Text} (h : '\n' ∉ t) :
    splitLines (['\r'] ++ t) = [] :: splitLines t := by
  refine splitLines_break (.inl rfl) ?_
  rintro rest _ rfl
  exact h List.mem_cons_self

theorem not_mem_withEndings {ending : Text} (h : '\n' ∉ ending) (t : Text) :
    '\n' ∉ t.withEndings ending := by
  intro hMem
  obtain ⟨c, _, hIn⟩ := List.mem_flatMap.mp hMem
  split at hIn
  · exact h hIn
  · next hOther => exact hOther (List.mem_singleton.mp hIn).symm

/-- Carriage returns, with line feeds or alone, end the same lines as line feeds. -/
theorem splitLines_withEndings {ending : Text} (hEnding : ending = ['\r', '\n'] ∨ ending = ['\r'])
    {t : Text} (h : '\r' ∉ t) : splitLines (t.withEndings ending) = splitLines t := by
  induction t with
  | nil => rfl
  | cons c rest ih =>
      rw [List.mem_cons, not_or] at h
      obtain ⟨hFirst, hRest⟩ := h
      have hLater := ih hRest
      by_cases hBreak : c = '\n'
      · subst hBreak
        have hEnds : splitLines (ending ++ withEndings rest ending) =
            [] :: splitLines (withEndings rest ending) := by
          rcases hEnding with rfl | rfl
          · exact splitLines_returnFeed _
          · exact splitLines_return (not_mem_withEndings (by decide) rest)
        rw [withEndings_newline, splitLines_newline, hEnds, hLater]
      · have hPlain : c ≠ '\r' ∧ c ≠ '\n' := ⟨Ne.symm hFirst, hBreak⟩
        obtain ⟨line, lines, hLines⟩ := List.exists_cons_of_ne_nil (splitLines_ne_nil rest)
        rw [withEndings_cons hBreak, splitLines_cons hPlain hLines,
          splitLines_cons hPlain (hLater.trans hLines)]

theorem lines_withEndings {ending : Text} (hEnding : ending = ['\r', '\n'] ∨ ending = ['\r'])
    {t : Text} (h : '\r' ∉ t) : (t.withEndings ending).lines = t.lines := by
  rw [lines, lines, splitLines_withEndings hEnding h]

end Text

/-! ## Documents -/

namespace Format

/-- Nothing of a text but its lines counts, except in Markdown. -/
theorem classify_congr {f : Format} (hFormat : f ≠ .markdown) {t u : Text}
    (h : t.lines = u.lines) : f.classify t = f.classify u := by
  have hRead : ∀ escapes, Line.readAll escapes t = Line.readAll escapes u :=
    fun escapes => by rw [Line.readAll, Line.readAll, h]
  cases f with
  | plain | wiki | rest | review => simp only [classify, hRead]
  | markdown => exact (hFormat rfl).elim

/-- Line endings do not matter outside Markdown. A text without carriage returns is read as the same
document, and with the same warnings, when all its line feeds get a carriage return in front of them
or become carriage returns. -/
theorem read_withEndings {f : Format} (hFormat : f ≠ .markdown) {ending : Text}
    (hEnding : ending = ['\r', '\n'] ∨ ending = ['\r']) {t : Text} (h : '\r' ∉ t)
    (o : ReadOptions) : f.read o (t.withEndings ending) = f.read o t := by
  rw [read, read, classify_congr hFormat (Text.lines_withEndings hEnding h)]

/-- Titles and rules are found behind carriage returns as well. -/
theorem read_withEndings_title :
    let o : ReadOptions := ⟨.standard, none, none⟩
    let t : Text := "Title\n=====\n\n//@Suppress@\nOne.\n".toList
    let u : Text := "Title\r=====\r\r//@Suppress@\rOne.\r".toList
    Format.rest ≠ .markdown ∧ '\r' ∉ t ∧ t.withEndings ['\r'] = u ∧
      Format.rest.read o u = Format.rest.read o t := by
  intro o t u
  have hFormat : Format.rest ≠ .markdown := nofun
  have hNone : '\r' ∉ t := by decide
  exact ⟨hFormat, hNone, rfl, read_withEndings hFormat (.inr rfl) hNone o⟩

end Format

end ProseLint
