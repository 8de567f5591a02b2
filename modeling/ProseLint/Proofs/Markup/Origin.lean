import ProseLint.Markup.Reading
import ProseLint.Proofs.Markup.Changes

/-! Classifying the lines of a text keeps the origin of every line, in all formats. Markup
can therefore hide characters and give lines a level, but it cannot move a character, make
one up, or change how many lines there are. -/

namespace ProseLint

open Line

/-! ## Suppress comments -/

theorem Suppress.eraseComments_origin (lines : List Line) :
    (Suppress.eraseComments lines).map origin = lines.map origin := by
  rw [Suppress.eraseComments, List.map_map]
  apply List.map_congr_left
  intro l _
  simp only [Function.comp_apply]
  split <;> simp

/-! ## Wiki -/

namespace Wiki

theorem eraseLink_origin (l : Line) (link : Link) : (eraseLink l link).origin = l.origin := by
  unfold eraseLink
  cases link.bar with
  | none => simp
  | some bar => simp

theorem eraseLinks_origin (l : Line) : (eraseLinks l).origin = l.origin :=
  foldl_origin eraseLink eraseLink_origin _ l

theorem markStart_origin (l : Line) (text : Text) : (markStart l text).origin = l.origin := by
  unfold markStart
  cases header? text with
  | some h => exact erase_origin l 0 h.2
  | none =>
      cases listItem? text with
      | none => rfl
      | some item =>
          simp only
          split
          · rfl
          · exact erase_origin l 0 item.2

theorem classifyProse_origin (l : Line) : (classifyProse l).origin = l.origin := by
  unfold classifyProse
  rw [foldl_origin _ (fun l e => eraseEnclosure_origin l e), eraseLinks_origin,
    markStart_origin, eraseEnclosure_origin]

theorem classifyLine_origin (inComment : Bool) (l : Line) :
    (classifyLine inComment l).2.origin = l.origin := by
  unfold classifyLine
  split
  · simp
  · split
    · simp
    · exact classifyProse_origin l

theorem classifyLines_origin (inComment : Bool) (lines : List Line) :
    (classifyLines inComment lines).2.map origin = lines.map origin := by
  induction lines generalizing inComment with
  | nil => rfl
  | cons l rest ih =>
      simp only [classifyLines, List.map_cons]
      rw [classifyLine_origin, ih]

theorem classify_origin (lines : List Line) :
    (classify lines).lines.map origin = lines.map origin :=
  classifyLines_origin false lines

end Wiki

/-! ## Book manuscripts -/

namespace Review

theorem markItem_origin (l : Line) (level : Int) (length : Nat) :
    (markItem l level length).origin = l.origin :=
  erase_origin l 0 length

theorem list?_origin {s : State} {l : Line} {result : State × Line}
    (h : list? s l = some result) : result.2.origin = l.origin := by
  unfold list? at h
  split at h
  · cases h
    exact markItem_origin l _ _
  · split at h
    · cases h
      exact markItem_origin l _ _
    · split at h
      · cases h
        exact eraseAll_origin l
      · cases h

theorem eraseLink_origin (l : Line) (text : Text) (content close : Nat) :
    (eraseLink l text content close).origin = l.origin := by
  unfold eraseLink
  split <;> simp

theorem eraseCommand_origin (text : Text) (l : Line) (c : Command) :
    (eraseCommand text l c).origin = l.origin := by
  unfold eraseCommand
  split
  · rfl
  · split
    · rfl
    · simp only
      split
      · simp
      · simp [eraseLink_origin]
      · split <;> simp
      · split <;> simp
      · simp

theorem eraseCommands_origin (l : Line) : (eraseCommands l).origin = l.origin :=
  foldl_origin (eraseCommand l.text) (eraseCommand_origin l.text) _ l

theorem classifyBody_origin (s : State) (l : Line) :
    (classifyBody s l).2.origin = l.origin := by
  unfold classifyBody
  split
  · next h => exact list?_origin h
  · split <;> rfl

theorem classifyLine_origin (s : State) (l : Line) :
    (classifyLine s l).2.origin = l.origin := by
  unfold classifyLine
  simp only
  split
  · simp
  · split
    · simp
    · split
      · simp
      · split
        · split
          · simp
          · rw [eraseCommands_origin]
            exact erase_origin l 0 _
        · rw [eraseCommands_origin, classifyBody_origin]

theorem classifyLines_origin (s : State) (lines : List Line) :
    (classifyLines s lines).2.map origin = lines.map origin := by
  induction lines generalizing s with
  | nil => rfl
  | cons l rest ih =>
      simp only [classifyLines, List.map_cons]
      rw [ih]
      split
      · rfl
      · rw [classifyLine_origin]

theorem classify_origin (lines : List Line) :
    (classify lines).lines.map origin = lines.map origin := by
  rw [← Suppress.eraseComments_origin lines]
  exact classifyLines_origin _ _

end Review

/-! ## Structured text -/

namespace Rest

theorem map_eraseAll_origin (lines : List Line) :
    (lines.map Line.eraseAll).map origin = lines.map origin := by
  rw [List.map_map]
  exact List.map_congr_left fun l _ => eraseAll_origin l

/-- A title changes its own line, the one above and the one below. The lines that were passed
may be erased by a title but stay where they are. -/
theorem markTitles_origin (done lines : List Line) :
    (markTitles done lines).1.map origin = (done.reverse ++ lines).map origin := by
  induction done, lines using markTitles.induct with
  | case1 done => simp [markTitles]
  | case2 done l =>
      rw [markTitles]
      split <;> simp
  | case3 done l next rest previous following hSkip transition ih =>
      rw [markTitles, if_pos hSkip, ih]
      by_cases hErase : transition <;> simp [hErase]
  | case4 done l next rest previous following hSeen hNone ih =>
      rw [markTitles, if_neg hSeen]
      simp only [previous, following] at hNone
      simp only [hNone, ih]
      simp
  | case5 done l next rest previous following hSeen level hLevel title above done' _ _ _ ih =>
      rw [markTitles, if_neg hSeen]
      simp only [previous, following] at hLevel
      simp only [hLevel]
      have hTitle : title.origin = l.origin := by
        simp only [title]
        split <;> rfl
      have hDone : done'.map origin = done.map origin := by
        simp only [done']
        split
        · rw [List.map_append, map_eraseAll_origin, ← List.map_append, List.take_append_drop]
        · rfl
      refine ih.trans ?_
      simp [hTitle, hDone]

theorem titles_origin (lines : List Line) : (titles lines).1.map origin = lines.map origin :=
  markTitles_origin [] lines

theorem erasePhraseLink_origin (l : Line) (link : PhraseLink) :
    (erasePhraseLink l link).origin = l.origin := by
  unfold erasePhraseLink
  split
  · rfl
  · cases link.url with
    | none => simp
    | some url => simp

theorem erasePhraseLinks_origin (l : Line) : (erasePhraseLinks l).origin = l.origin :=
  foldl_origin erasePhraseLink erasePhraseLink_origin _ l

theorem eraseReference_origin (l : Line) (r : Nat × Nat) :
    (eraseReference l r).origin = l.origin := by
  unfold eraseReference
  split <;> simp

theorem eraseInline_origin (l : Line) : (eraseInline l).origin = l.origin := by
  unfold eraseInline
  simp only
  rw [foldl_origin eraseReference eraseReference_origin,
    foldl_origin _ (fun l e => eraseEnclosure_origin l e), erasePhraseLinks_origin]

theorem markItem_origin (l : Line) (level : Int) (length : Nat) :
    (markItem l level length).origin = l.origin :=
  erase_origin l 0 length

theorem classifyList_origin (s : State) (previous following : Option Line) (l : Line) :
    (classifyList s previous following l).2.origin = l.origin := by
  unfold classifyList
  simp only
  split
  · exact markItem_origin l _ _
  · split
    · exact markItem_origin l _ _
    · split
      · exact eraseAll_origin l
      · split
        · split <;> exact erase_origin l 0 _
        · rfl

theorem eraseColons_origin (l : Line) : (eraseColons l).origin = l.origin := by
  unfold eraseColons
  simp only
  split
  · split <;> simp
  · simp

theorem classifyProse_origin (s : State) (previous following : Option Line) (l : Line) :
    (classifyProse s previous following l).2.origin = l.origin := by
  unfold classifyProse
  simp only
  rw [eraseInline_origin, classifyList_origin]
  split
  · exact eraseColons_origin l
  · rfl

theorem classifyOpen_origin (s : State) (previous following : Option Line) (l : Line) :
    (classifyOpen s previous following l).2.origin = l.origin := by
  unfold classifyOpen
  simp only
  split
  · simp
  · split
    · simp
    · split
      · simp
      · split
        · simp
        · split
          · simp
          · exact classifyProse_origin s previous following l

theorem classifyLine_origin (s : State) (previous following : Option Line) (l : Line) :
    (classifyLine s previous following l).2.origin = l.origin := by
  unfold classifyLine
  split
  · exact eraseInline_origin l
  · split
    · rfl
    · split
      · exact classifyOpen_origin s previous following l
      · split
        · simp
        · exact classifyOpen_origin _ previous following l

theorem classifyLines_origin (s : State) (previous : Option Line) (lines : List Line) :
    (classifyLines s previous lines).map origin = lines.map origin := by
  induction lines generalizing s previous with
  | nil => rfl
  | cons l rest ih =>
      simp only [classifyLines, List.map_cons]
      rw [ih]
      split
      · rfl
      · rw [classifyLine_origin]

theorem classify_origin (lines : List Line) :
    (classify lines).lines.map origin = lines.map origin := by
  rw [← Suppress.eraseComments_origin lines]
  exact (classifyLines_origin _ _ _).trans (titles_origin _)

end Rest

/-! ## Markdown -/

namespace Markdown

/-- Nothing is assumed about the blocks. They need not nest, and need not be the blocks of the
text whose lines these are. -/
theorem classify_origin {blocks : List CommonMark.Block} {lines : List Line} {c : Classified}
    (h : classify blocks lines = .ok c) : c.lines.map origin = lines.map origin :=
  (classify_changes h).origin_eq

theorem classifyText_origin (t : Text) :
    (classifyText t).lines.map origin = (Line.readAll true t).map origin := by
  unfold classifyText
  simp only
  split
  · next h => exact classify_origin h
  · rfl

end Markdown

/-! ## All formats -/

namespace Format

/-- Whether a backslash escapes the character behind it. -/
def hasEscapes (f : Format) : Bool := f != .plain

theorem classify_origin (f : Format) (t : Text) :
    (f.classify t).lines.map origin = (Line.readAll f.hasEscapes t).map origin := by
  cases f with
  | plain => rfl
  | wiki => exact Wiki.classify_origin _
  | markdown => exact Markdown.classifyText_origin t
  | rest => exact Rest.classify_origin _
  | review => exact Review.classify_origin _

end Format

end ProseLint
