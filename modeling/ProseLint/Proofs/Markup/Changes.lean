import ProseLint.Markup.Markdown.Reading
import ProseLint.Proofs.Source.Origin
import Mathlib.Data.List.Forall2
import Mathlib.Logic.Relation

/-! What the blocks of a Markdown text do to its lines, as a run of small changes of single
lines. What no small change undoes is there at the end. -/

namespace ProseLint

theorem Line.isEmpty_erase {l : Line} (h : l.isEmpty = true) (start count : Int) :
    (l.erase start count).isEmpty = true := by
  simp only [isEmpty, erase, change, List.all_eq_true] at h ⊢
  intro c hCell
  obtain ⟨i, hLt, rfl⟩ := List.mem_mapIdx.mp hCell
  split
  · rfl
  · exact h _ (List.getElem_mem hLt)

theorem Line.isEmpty_eraseAll (l : Line) : l.eraseAll.isEmpty = true := by
  simp [isEmpty, eraseAll]

namespace Markdown

open CommonMark (Inline Block)

/-- A small change of a line. Headings have levels of some kind, and lines may become lines of
list items or not. -/
inductive Change (levels : Nat → Prop) (items : Prop) : Line → Line → Prop where
  | erase (l : Line) (start count : Int) : Change levels items l (l.erase start count)
  | eraseAll (l : Line) : Change levels items l l.eraseAll
  | addLink (l : Line) (position : Int) (url : Text) :
      Change levels items l (l.addLink position url)
  | level (l : Line) {n : Nat} (hLevel : levels n) :
      Change levels items l { l with sectionLevel := n }
  | depth (l : Line) (hItems : items) (depth : Int) :
      Change levels items l { l with listLevel := depth }
  | start (l : Line) (hItems : items) : Change levels items l { l with listStart := true }

/-- Small changes of a line, one after the other. -/
abbrev Changes (levels : Nat → Prop) (items : Prop) : Line → Line → Prop :=
  Relation.ReflTransGen (Change levels items)

/-! ## What a change keeps -/

section Keeping

variable {levels : Nat → Prop} {items : Prop} {l m : Line}

theorem Changes.induction {P : Line → Prop} (hStep : ∀ {l m}, Change levels items l m → P l → P m)
    (h : Changes levels items l m) (hStart : P l) : P m := by
  induction h with
  | refl => exact hStart
  | tail _ hLast ih => exact hStep hLast ih

theorem Change.origin_eq (h : Change levels items l m) : m.origin = l.origin := by
  cases h with
  | erase start count => exact Line.erase_origin l start count
  | eraseAll => exact Line.eraseAll_origin l
  | addLink position url => rfl
  | level hLevel => rfl
  | depth hItems depth => rfl
  | start hItems => rfl

theorem Changes.origin_eq (h : Changes levels items l m) : m.origin = l.origin := by
  induction h with
  | refl => rfl
  | tail _ hLast ih => exact hLast.origin_eq.trans ih

theorem Change.isEmpty (h : Change levels items l m) (hEmpty : l.isEmpty = true) :
    m.isEmpty = true := by
  cases h with
  | erase start count => exact Line.isEmpty_erase hEmpty start count
  | eraseAll => exact Line.isEmpty_eraseAll l
  | addLink position url => exact hEmpty
  | level hLevel => exact hEmpty
  | depth hItems depth => exact hEmpty
  | start hItems => exact hEmpty

theorem Change.listStart (h : Change levels items l m) (hStart : l.listStart = true) :
    m.listStart = true := by
  cases h with
  | start hItems => rfl
  | _ => exact hStart

theorem Change.sectionLevel_pos (hLevels : ∀ n, levels n → 0 < n) (h : Change levels items l m)
    (hHeader : 0 < l.sectionLevel) : 0 < m.sectionLevel := by
  cases h with
  | level hLevel => exact hLevels _ hLevel
  | _ => exact hHeader

end Keeping

/-! ## Single lines -/

section Lines

variable {levels : Nat → Prop} {items : Prop}

theorem eraseSpaces_changes (l : Line) (position : Nat) :
    Changes levels items l (eraseSpaces l position) :=
  .single (.erase l _ _)

theorem eraseClosing_changes (l : Line) : Changes levels items l (eraseClosing l) := by
  unfold eraseClosing
  extract_lets cells signs before blanks stands
  split
  · exact .single (.erase l _ _)
  · exact .refl

theorem eraseSigns_changes (l : Line) : Changes levels items l (eraseSigns l) := by
  unfold eraseSigns
  split
  · exact eraseClosing_changes l
  · exact .head (.erase l _ _) ((eraseSpaces_changes _ _).trans (eraseClosing_changes _))

theorem startItem_changes (hItems : items) (depth : Int) (l : Line) :
    Changes levels items l { l with listStart := true, listLevel := depth } :=
  .head (.start l hItems) (.single (.depth _ hItems depth))

theorem continueItem_changes (hItems : items) (depth : Int) (l : Line) :
    Changes levels items l (continueItem depth l) := by
  unfold continueItem
  split
  · exact .refl
  · exact .head (.depth l hItems depth) (eraseSpaces_changes _ 0)

theorem eraseQuoteMark_changes (l : Line) : Changes levels items l (eraseQuoteMark l) := by
  unfold eraseQuoteMark
  split
  · exact .refl
  · split
    · exact .refl
    · split
      · exact .single (.erase l _ 2)
      · exact .single (.erase l _ 1)

theorem foldl_changes {α : Type} {f : Line → α → Line} (hf : ∀ l a, Changes levels items l (f l a))
    (steps : List α) (l : Line) : Changes levels items l (steps.foldl f l) :=
  rel_foldl (fun _ => .refl) .trans hf steps l

theorem applyWalk_changes (c : Cursor) (number : Nat) (l : Line) :
    Changes levels items l (applyWalk c number l) := by
  have hEntry : ∀ (l : Line) e, Changes levels items l (eraseEntry number l e) := fun l e => by
    unfold eraseEntry
    split
    · split
      · exact .single (.erase l _ 1)
      · exact .refl
    · exact .refl
  have hLink : ∀ (l : Line) link, Changes levels items l (recordLink c number l link) := by
    intro l link
    unfold recordLink
    split
    · split
      · exact .single (.addLink l _ _)
      · exact .refl
    · exact .refl
  exact (foldl_changes hEntry c.entries l).trans (foldl_changes hLink c.links _)

end Lines

/-! ## Blocks -/

section Blocks

variable {levels : Nat → Prop} {items : Prop}

/-- Small changes of some lines, each one for itself. -/
abbrev AllChange (levels : Nat → Prop) (items : Prop) (lines done : List Line) : Prop :=
  List.Forall₂ (Changes levels items) lines done

theorem AllChange.refl (lines : List Line) : AllChange levels items lines lines :=
  List.forall₂_same.mpr fun _ _ => .refl

theorem AllChange.trans {a b c : List Line} (h : AllChange levels items a b)
    (k : AllChange levels items b c) : AllChange levels items a c := by
  induction h generalizing c with
  | nil => exact k
  | cons hFirst _ ih =>
      cases k with
      | cons hNext hRest => exact .cons (hFirst.trans hNext) (ih hRest)

theorem AllChange.append {a b c d : List Line} (h : AllChange levels items a b)
    (k : AllChange levels items c d) : AllChange levels items (a ++ c) (b ++ d) :=
  List.rel_append h k

theorem AllChange.mapIdx {f : Nat → Line → Line} (hf : ∀ i l, Changes levels items l (f i l))
    (lines : List Line) : AllChange levels items lines (lines.mapIdx f) :=
  forall₂_mapIdx hf lines

theorem AllChange.map {f : Line → Line} (hf : ∀ l, Changes levels items l (f l))
    (lines : List Line) : AllChange levels items lines (lines.map f) :=
  List.forall₂_map_right_iff.mpr (List.forall₂_same.mpr fun l _ => hf l)

theorem AllChange.origin_eq {lines done : List Line} (h : AllChange levels items lines done) :
    done.map Line.origin = lines.map Line.origin := by
  induction h with
  | nil => rfl
  | cons hFirst _ ih =>
      rw [List.map_cons, List.map_cons, ih, hFirst.origin_eq]

theorem markItem_changes (hItems : items) (depth : Int) (mark : Text) (lines : List Line) :
    AllChange levels items lines (markItem depth mark lines) := by
  unfold markItem
  split
  · exact .nil
  · split
    · exact .refl _
    · refine .cons ?_ (AllChange.map (continueItem_changes hItems depth) _)
      exact .head (.erase _ _ _)
        ((eraseSpaces_changes _ _).trans (startItem_changes hItems depth _))

theorem markHeading_changes {tag mark : Text} (hLevel : ∀ n, levelOf tag = .ok n → levels n)
    {lines done : List Line} (h : markHeading tag mark lines = .ok done) :
    AllChange levels items lines done := by
  cases lines with
  | nil =>
      cases h
      exact .nil
  | cons title rest =>
      cases hTag : levelOf tag with
      | error fault => simp [markHeading, hTag, bind, Except.bind] at h
      | ok level =>
          simp only [markHeading, hTag, bind, Except.bind, pure, Except.pure] at h
          split at h
          · cases h
            exact .cons ((eraseSigns_changes title).tail (.level _ (hLevel level hTag)))
              (AllChange.refl rest)
          · split at h
            · next hLast =>
                cases h
                rw [List.getLast?_eq_none_iff] at hLast
                subst hLast
                exact .cons (.head (.eraseAll title) (.single (.level _ (hLevel level hTag)))) .nil
            · next underline hLast =>
                cases h
                obtain ⟨before, rfl⟩ := List.getLast?_eq_some_iff.mp hLast
                rw [List.dropLast_concat]
                refine .cons (.single (.level title (hLevel level hTag))) ?_
                exact (AllChange.refl before).append (.cons (.single (.eraseAll _)) .nil)

/-- Whatever the pieces of a text are, and whether they match the lines or not, the walk over
them only erases and records links. -/
theorem eraseInline_changes {pieces : List Inline} {lines done : List Line}
    (h : eraseInline pieces lines = .ok done) : AllChange levels items lines done := by
  unfold eraseInline at h
  cases hWalk : pieces.foldlM Walk.pass ⟨.ofLines lines, []⟩ with
  | error fault => simp [hWalk, Except.map] at h
  | ok w =>
      simp only [hWalk, Except.map, Except.ok.injEq] at h
      subst h
      exact .mapIdx (applyWalk_changes w.cursor) lines

/-- What is done to the lines of a span is done in their places. -/
theorem changeSpan_eq {ε : Type} {first stop : Nat} {f : List Line → Except ε (List Line)}
    {lines changed : List Line} (h : changeSpan (some (first, stop)) f lines = .ok changed) :
    ∃ part, f ((lines.take stop).drop first) = .ok part ∧
      changed = lines.take first ++ part ++ lines.drop (max first stop) := by
  cases hPart : f ((lines.take stop).drop first) with
  | error fault => simp [changeSpan, hPart, Except.map] at h
  | ok part =>
      simp only [changeSpan, hPart, Except.map, Except.ok.injEq] at h
      exact ⟨part, rfl, h.symm⟩

/-- A span of a list between what is before and behind it. -/
theorem append_span_append {α : Type} (items : List α) (first stop : Nat) :
    items.take first ++ (items.take stop).drop first ++ items.drop (max first stop) = items := by
  have hRest : items.drop (max first stop) = (items.drop first).drop (stop - first) := by
    rw [List.drop_drop, show first + (stop - first) = max first stop by omega]
  rw [hRest, List.drop_take, List.append_assoc, List.take_append_drop, List.take_append_drop]

theorem changeSpan_changes {ε : Type} {span : Option (Nat × Nat)}
    {f : List Line → Except ε (List Line)} {lines changed : List Line}
    (hf : ∀ part done, f part = .ok done → AllChange levels items part done)
    (h : changeSpan span f lines = .ok changed) : AllChange levels items lines changed := by
  cases span with
  | none =>
      cases h
      exact .refl lines
  | some bounds =>
      obtain ⟨first, stop⟩ := bounds
      obtain ⟨part, hPart, rfl⟩ := changeSpan_eq h
      have hParts : AllChange levels items
          (lines.take first ++ (lines.take stop).drop first ++ lines.drop (max first stop))
          (lines.take first ++ part ++ lines.drop (max first stop)) :=
        ((AllChange.refl _).append (hf _ _ hPart)).append (.refl _)
      rwa [append_span_append] at hParts

theorem change_changes {s t : State} {b : Block} {f : List Line → Except BlockFault (List Line)}
    (hf : ∀ part done, f part = .ok done → AllChange levels items part done)
    (h : s.change b f = .ok t) : AllChange levels items s.lines t.lines := by
  unfold State.change at h
  cases hSpan : changeSpan b.lines f s.lines with
  | error fault => simp [hSpan, Except.map] at h
  | ok lines =>
      simp only [hSpan, Except.map, Except.ok.injEq] at h
      subst h
      exact changeSpan_changes hf hSpan

/-- The levels that headings among some blocks have. -/
def HeadingLevel (blocks : List Block) (n : Nat) : Prop :=
  ∃ b ∈ blocks, ∃ tag mark, b.kind = .heading tag mark ∧ levelOf tag = .ok n

/-- One block of any kind, on any span of lines. -/
theorem pass_changes {s t : State} {b : Block} {blocks : List Block} (hBlock : b ∈ blocks)
    (hItems : ∀ mark, b.kind = .item mark → items) (h : s.pass b = .ok t) :
    AllChange (HeadingLevel blocks) items s.lines t.lines := by
  unfold State.pass at h
  split at h
  · cases h
    exact .refl _
  · cases h
    exact .refl _
  · next mark hKind =>
      refine change_changes (fun part done hDone => ?_) h
      cases hDone
      exact markItem_changes (hItems mark hKind) _ _ part
  · next tag mark hKind =>
      refine change_changes (fun part done hDone => ?_) h
      exact markHeading_changes (fun n hLevel => ⟨b, hBlock, tag, mark, hKind, hLevel⟩) hDone
  · refine change_changes (fun part done hDone => ?_) h
    cases hDone
    exact .map eraseQuoteMark_changes part
  · refine change_changes (fun part done hDone => ?_) h
    cases hDone
    exact .map (fun l => .single (.eraseAll l)) part
  · exact change_changes (fun part done hDone => eraseInline_changes hDone) h
  · cases h
    exact .refl _

theorem foldlM_pass_changes {s t : State} {blocks passed : List Block}
    (hPassed : ∀ b ∈ passed, b ∈ blocks) (h : passed.foldlM State.pass s = .ok t) :
    AllChange (HeadingLevel blocks) True s.lines t.lines := by
  induction passed generalizing s with
  | nil =>
      cases h
      exact .refl _
  | cons b rest ih =>
      obtain ⟨hFirst, hRest⟩ := List.forall_mem_cons.mp hPassed
      obtain ⟨next, hPass, hLater⟩ := foldlM_cons_eq_ok.mp h
      exact (pass_changes hFirst (fun _ _ => trivial) hPass).trans (ih hRest hLater)

theorem eraseUncovered_changes (blocks : List Block) (lines : List Line) :
    AllChange levels items lines (eraseUncovered blocks lines) := by
  refine .mapIdx (fun i l => ?_) lines
  split
  · exact .refl
  · exact .single (.eraseAll l)

/-- Lines are classified by the blocks, one after the other. -/
theorem exists_of_classify {blocks : List Block} {lines : List Line} {c : Classified}
    (h : classify blocks lines = .ok c) : ∃ s, blocks.foldlM State.pass ⟨lines, 0⟩ = .ok s ∧
      c.lines = eraseUncovered blocks s.lines := by
  unfold classify at h
  cases hFold : blocks.foldlM State.pass ⟨lines, 0⟩ with
  | error fault => simp [hFold, Except.map] at h
  | ok s =>
      simp only [hFold, Except.map, Except.ok.injEq] at h
      exact ⟨s, rfl, by rw [← h]⟩

/-- Classifying lines changes each of them for itself, whatever the blocks are. -/
theorem classify_changes {blocks : List Block} {lines : List Line} {c : Classified}
    (h : classify blocks lines = .ok c) : AllChange (HeadingLevel blocks) True lines c.lines := by
  obtain ⟨s, hFold, hLines⟩ := exists_of_classify h
  rw [hLines]
  exact (foldlM_pass_changes (fun _ hMem => hMem) hFold).trans
    (eraseUncovered_changes blocks s.lines)

end Blocks

end Markdown

end ProseLint
