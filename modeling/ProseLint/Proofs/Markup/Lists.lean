import ProseLint.Proofs.Markup.Changes

/-! List items of Markdown. An item marks all its lines, and the items inside it mark some of them
again. So when items are nested, the innermost item of a line has the last word: the line has the
depth of that item, and it starts an item just when it is the first line of one. -/

namespace ProseLint

namespace Markdown

open CommonMark (Block)

/-! ## Marks of lines -/

/-- What list items say about a line. -/
structure ListMark where
  level : Int
  starts : Bool
  deriving DecidableEq, Repr

def listMark (l : Line) : ListMark := ⟨l.listLevel, l.listStart⟩

/-- The marks of lines, in order. -/
def listMarks (lines : List Line) : List ListMark := lines.map listMark

theorem Changes.listMark_eq {allowed : Nat → Prop} {l m : Line} (h : Changes allowed False l m) :
    listMark m = listMark l := by
  induction h with
  | refl => rfl
  | tail _ hLast ih =>
      refine Eq.trans ?_ ih
      cases hLast with
      | depth hItems => exact hItems.elim
      | start hItems => exact hItems.elim
      | _ => rfl

/-- Small changes other than those of an item. -/
theorem AllChange.listMarks_eq {allowed : Nat → Prop} {lines done : List Line}
    (h : AllChange allowed False lines done) : listMarks done = listMarks lines := by
  induction h with
  | nil => rfl
  | cons hFirst _ ih => exact congrArg₂ List.cons hFirst.listMark_eq ih

/-! ## Items -/

/-- A list item on the lines from the first one up to and not including the last one, as deep in
lists as it is. -/
structure Item where
  first : Nat
  stop : Nat
  depth : Int
  deriving DecidableEq, Repr

namespace Item

/-- Whether the item has the line of a number. -/
def Covers (k : Item) (i : Nat) : Prop := k.first ≤ i ∧ i < k.stop

instance (k : Item) (i : Nat) : Decidable (k.Covers i) := inferInstanceAs (Decidable (_ ∧ _))

/-- What an item makes of the mark of a line. A line that starts an item stays as it is, unless it
starts this one too. -/
def mark (i : Nat) (m : ListMark) (k : Item) : ListMark :=
  if k.Covers i then
    if i = k.first then ⟨k.depth, true⟩ else if m.starts then m else ⟨k.depth, false⟩
  else m

end Item

/-- The item that a block starts when `depth` lists are open. -/
def openedBy (depth : Int) (b : Block) : List Item :=
  match b.kind, b.lines with
  | .item _, some (first, stop) => [⟨first, stop, depth⟩]
  | _, _ => []

/-- The number of lists that are open behind a block. -/
def depthAfter (depth : Int) (b : Block) : Int :=
  match b.kind with
  | .listOpen => depth + 1
  | .listClose => depth - 1
  | _ => depth

/-- The items of some blocks, when `depth` lists are open before the blocks. -/
def openedFrom (depth : Int) : List Block → List Item
  | [] => []
  | b :: rest => openedBy depth b ++ openedFrom (depthAfter depth b) rest

/-- Whether the first line of an item shows something, so that a marker can be there. Nothing is
asked of other blocks. -/
def showsMarker (lines : List Line) (b : Block) : Bool :=
  match b.kind, b.lines with
  | .item _, some (first, _) => (lines[first]?.bind firstVisible?).isSome
  | _, _ => true

/-- Whether every item shows something on its first line when its turn comes. -/
def showMarkers (s : State) : List Block → Bool
  | [] => true
  | b :: rest =>
      showsMarker s.lines b &&
        match s.pass b with
        | .ok t => showMarkers t rest
        | .error _ => true

theorem continueItem_listMark (depth : Int) (l : Line) :
    listMark (continueItem depth l) =
      if (listMark l).starts then listMark l else ⟨depth, false⟩ := by
  unfold continueItem
  cases hStart : l.listStart with
  | true => simp [listMark, hStart]
  | false => simp [listMark, eraseSpaces, Line.erase, hStart]

theorem markItem_listMarks (depth : Int) (mark : Text) {lines : List Line}
    (hVisible : ∀ first ∈ lines.head?, (firstVisible? first).isSome = true) :
    listMarks (markItem depth mark lines) = (listMarks lines).mapIdx fun i m =>
      if i = 0 then ⟨depth, true⟩ else if m.starts then m else ⟨depth, false⟩ := by
  cases lines with
  | nil => rfl
  | cons first rest =>
      obtain ⟨start, hStart⟩ := Option.isSome_iff_exists.mp (hVisible first rfl)
      have hRest : listMarks (rest.map (continueItem depth)) =
          (listMarks rest).map fun m => if m.starts then m else ⟨depth, false⟩ := by
        rw [listMarks, listMarks, List.map_map, List.map_map]
        exact List.map_congr_left fun l _ => continueItem_listMark depth l
      simp only [markItem, hStart]
      rw [listMarks, List.map_cons, ← listMarks, hRest, listMarks, listMarks, List.map_cons,
        List.mapIdx_cons, if_pos rfl]
      simp only [Nat.succ_ne_zero, if_false, mapIdx_const]
      rfl

/-- A change of the items of a span, by their places in it. -/
theorem mapIdx_span {α : Type} (items : List α) (first stop : Nat) (f : Nat → α → α) :
    items.take first ++ ((items.take stop).drop first).mapIdx f ++ items.drop (max first stop) =
      items.mapIdx fun i a => if first ≤ i ∧ i < stop then f (i - first) a else a := by
  have hMiddle := mapIdx_middle_at f (items.take first) ((items.take stop).drop first)
    (items.drop (max first stop))
  rw [← List.append_assoc, append_span_append, ← List.append_assoc] at hMiddle
  rw [← hMiddle]
  apply List.ext_getElem (by simp)
  intro i hLeft hRight
  rw [List.length_mapIdx] at hLeft
  simp only [List.getElem_mapIdx, List.length_take, List.length_drop]
  rcases Nat.lt_or_ge items.length first with hOff | hOn
  · rw [if_neg (by omega), if_neg (by omega)]
  · simp only [Nat.min_eq_left hOn]
    exact if_congr (by omega) rfl rfl

/-- What a block does to the marks of lines. -/
theorem pass_listMarks {s t : State} {b : Block} (hPass : s.pass b = .ok t)
    (hShows : showsMarker s.lines b = true) (i : Nat) :
    (listMarks t.lines)[i]? =
      (listMarks s.lines)[i]?.map fun m => (openedBy s.depth b).foldl (Item.mark i) m := by
  by_cases hItem : ∃ mark, b.kind = .item mark
  · obtain ⟨mark, hKind⟩ := hItem
    simp only [State.pass, hKind, State.change] at hPass
    cases hLines : b.lines with
    | none =>
        rw [hLines] at hPass
        cases hPass
        simp [openedBy, hKind, hLines]
    | some span =>
        obtain ⟨first, stop⟩ := span
        simp only [showsMarker, hKind, hLines] at hShows
        have hHead : ∀ m ∈ ((s.lines.take stop).drop first).head?,
            (firstVisible? m).isSome = true := by
          intro m hMem
          rw [List.head?_drop, List.getElem?_take] at hMem
          split at hMem
          · rwa [hMem, Option.bind_some] at hShows
          · cases hMem
        have hMarks := markItem_listMarks s.depth mark hHead
        simp only [hLines, changeSpan, Except.map, Except.ok.injEq] at hPass
        rw [← hPass]
        simp only [listMarks, List.map_append, List.map_take, List.map_drop] at hMarks ⊢
        rw [hMarks, mapIdx_span, List.getElem?_mapIdx]
        congr 1
        funext m
        simp only [openedBy, hKind, hLines, List.foldl_cons, List.foldl_nil, Item.mark, Item.Covers]
        refine if_ctx_congr Iff.rfl (fun hIn => if_congr ?_ rfl rfl) fun _ => rfl
        have := hIn.1
        omega
  · have hOther : openedBy s.depth b = [] := by
      unfold openedBy
      split
      · next hKind _ => exact absurd ⟨_, hKind⟩ hItem
      · rfl
    have hSame := (pass_changes (List.mem_singleton_self b) (fun mark hKind => hItem ⟨mark, hKind⟩)
      hPass).listMarks_eq
    rw [hSame, hOther]
    simp

theorem pass_depth {s t : State} {b : Block} (hPass : s.pass b = .ok t) :
    t.depth = depthAfter s.depth b := by
  unfold State.pass at hPass
  unfold depthAfter
  have hChange : ∀ f, s.change b f = .ok t → t.depth = s.depth := by
    intro f hChange
    unfold State.change at hChange
    cases hSpan : changeSpan b.lines f s.lines with
    | error fault => simp [hSpan, Except.map] at hChange
    | ok lines =>
        simp only [hSpan, Except.map, Except.ok.injEq] at hChange
        rw [← hChange]
  cases hKind : b.kind with
  | listOpen | listClose | other =>
      simp only [hKind, Except.ok.injEq] at hPass ⊢
      rw [← hPass]
  | item mark | heading tag mark | quote | noProse | inlines pieces =>
      simp only [hKind] at hPass ⊢
      exact hChange _ hPass

/-- What some blocks do to the marks of lines: their items mark them, one after the other. -/
theorem foldlM_pass_listMarks {s t : State} {blocks : List Block}
    (hRun : blocks.foldlM State.pass s = .ok t) (hShow : showMarkers s blocks = true) (i : Nat) :
    (listMarks t.lines)[i]? =
      (listMarks s.lines)[i]?.map fun m => (openedFrom s.depth blocks).foldl (Item.mark i) m := by
  induction blocks generalizing s with
  | nil =>
      cases hRun
      simp [openedFrom]
  | cons b rest ih =>
      obtain ⟨next, hPass, hLater⟩ := foldlM_cons_eq_ok.mp hRun
      simp only [showMarkers, hPass, Bool.and_eq_true] at hShow
      rw [ih hLater hShow.2, pass_listMarks hPass hShow.1 i, pass_depth hPass, Option.map_map,
        openedFrom]
      congr 1
      funext m
      rw [Function.comp_apply, List.foldl_append]

/-! ## What is left of the marks of several items -/

/-- The item of a line that was opened last. -/
def lastCovering (items : List Item) (i : Nat) : Option Item :=
  (items.filter fun k => decide (k.Covers i)).getLast?

theorem lastCovering_concat (items : List Item) (k : Item) (i : Nat) :
    lastCovering (items ++ [k]) i = if k.Covers i then some k else lastCovering items i := by
  unfold lastCovering
  rw [List.filter_append]
  split
  · next hIn => simp [hIn]
  · next hOut => simp [hOut]

/-- When no item begins above one that was opened before it, the last item of a line decides. No
item finds a line in its way that starts another one. -/
theorem foldl_mark {items : List Item} (hOrder : items.Pairwise fun x y => x.first ≤ y.first)
    (hLines : ∀ k ∈ items, k.first < k.stop) (i : Nat) :
    let m := items.foldl (Item.mark i) ⟨0, false⟩
    (m.starts = true ↔ ∃ k ∈ items, k.first = i) ∧
      m.level = ((lastCovering items i).map (·.depth)).getD 0 := by
  induction items using List.reverseRecOn with
  | nil => simp [lastCovering]
  | append_singleton items k ih =>
      obtain ⟨hBefore, -, hAbove⟩ := List.pairwise_append.mp hOrder
      obtain ⟨hStarts, hLevel⟩ := ih hBefore fun x hMem => hLines x (List.mem_append_left [k] hMem)
      have hSome : k.first < k.stop := hLines k (List.mem_append_right items (.head _))
      have hConcat : (∃ x ∈ items ++ [k], x.first = i) ↔
          (∃ x ∈ items, x.first = i) ∨ k.first = i := by
        simp [or_and_right, exists_or]
      rw [hConcat, lastCovering_concat, List.foldl_concat]
      generalize items.foldl (Item.mark i) ⟨0, false⟩ = m at hStarts hLevel ⊢
      unfold Item.mark
      by_cases hIn : k.Covers i
      · rw [if_pos hIn, if_pos hIn]
        by_cases hFirst : i = k.first
        · rw [if_pos hFirst]
          exact ⟨⟨fun _ => .inr hFirst.symm, fun _ => rfl⟩, rfl⟩
        · have hNone : ¬ ∃ x ∈ items, x.first = i := by
            rintro ⟨x, hMem, rfl⟩
            have hLe := hAbove x hMem k (.head _)
            exact hFirst (Nat.le_antisymm hLe hIn.1)
          have hNot : m.starts ≠ true := fun hStart => hNone (hStarts.mp hStart)
          rw [if_neg hFirst, if_neg hNot]
          refine ⟨⟨fun h => absurd h Bool.false_ne_true, fun h => ?_⟩, rfl⟩
          exact (h.elim hNone fun hSame => hFirst hSame.symm).elim
      · rw [if_neg hIn, if_neg hIn]
        have hNe : k.first ≠ i := by
          rintro rfl
          exact hIn ⟨Nat.le_refl _, hSome⟩
        exact ⟨hStarts.trans ⟨.inl, fun h => h.resolve_right hNe⟩, hLevel⟩

/-! ## Nested items -/

/-- A stretch of blocks in which every list is closed. Items stand in lists only, and no list
stands in another one without an item around it. -/
inductive Outline : Bool → Type where
  | done {inList : Bool} : Outline inList
  | block {inList : Bool} (b : Block) (hItem : ∀ mark, b.kind ≠ .item mark)
      (hOpen : b.kind ≠ .listOpen) (hClose : b.kind ≠ .listClose) (next : Outline inList) :
      Outline inList
  | list (opening closing : Option (Nat × Nat)) (items : Outline true) (next : Outline false) :
      Outline false
  | item (mark : Text) (first stop : Nat) (content : Outline false) (next : Outline true) :
      Outline true

namespace Outline

def blocks {inList : Bool} : Outline inList → List Block
  | done => []
  | block b _ _ _ next => b :: next.blocks
  | list opening closing items next =>
      ⟨.listOpen, opening⟩ :: (items.blocks ++ ⟨.listClose, closing⟩ :: next.blocks)
  | item mark first stop content next =>
      ⟨.item mark, some (first, stop)⟩ :: (content.blocks ++ next.blocks)

/-- The items in the order in which they are opened, when `depth` items are around them. -/
def items {inList : Bool} (depth : Int) : Outline inList → List Item
  | done => []
  | block _ _ _ _ next => next.items depth
  | list _ _ items next => items.items depth ++ next.items depth
  | item _ first stop content next =>
      ⟨first, stop, depth + 1⟩ :: (content.items (depth + 1) ++ next.items depth)

/-- The lines of the outermost items. -/
def spans {inList : Bool} : Outline inList → List (Nat × Nat)
  | done => []
  | block _ _ _ _ next => next.spans
  | list _ _ items next => items.spans ++ next.spans
  | item _ first stop _ next => (first, stop) :: next.spans

/-- Spans that lie one behind the other. -/
def Apart (spans : List (Nat × Nat)) : Prop := spans.Pairwise fun r s => r.2 ≤ s.1

instance (spans : List (Nat × Nat)) : Decidable (Apart spans) :=
  inferInstanceAs (Decidable (List.Pairwise _ _))

/-- Every item has lines, and the items directly inside it have some of these lines, each of them
lines of its own, in order. -/
def Fits {inList : Bool} : Outline inList → Prop
  | done => True
  | block _ _ _ _ next => next.Fits
  | list _ _ items next => items.Fits ∧ next.Fits
  | item _ first stop content next =>
      first < stop ∧ (∀ r ∈ content.spans, first ≤ r.1 ∧ r.2 ≤ stop) ∧ Apart content.spans ∧
        content.Fits ∧ next.Fits

/-- The number of open lists around the blocks of an outline with `depth` items around it. -/
def openLists (inList : Bool) (depth : Int) : Int := if inList then depth + 1 else depth

theorem openedFrom_append {inList : Bool} (o : Outline inList) (depth : Int) (rest : List Block) :
    openedFrom (openLists inList depth) (o.blocks ++ rest) =
      o.items depth ++ openedFrom (openLists inList depth) rest := by
  induction o generalizing depth rest with
  | done => rfl
  | block b hItem hOpen hClose next ih =>
      have hNone : ∀ d, openedBy d b = [] := by
        intro d
        unfold openedBy
        split
        · next hKind _ => exact absurd hKind (hItem _)
        · rfl
      have hSame : ∀ d, depthAfter d b = d := by
        intro d
        unfold depthAfter
        split
        · next hKind => exact absurd hKind hOpen
        · next hKind => exact absurd hKind hClose
        · rfl
      rw [blocks, List.cons_append, openedFrom, hNone, hSame, ih]
      rfl
  | list opening closing inner next ihItems ihNext =>
      have hClosed : openLists true depth - 1 = openLists false depth := by
        simp [openLists]
      rw [blocks, List.cons_append, openedFrom, List.append_assoc]
      have hInside := ihItems depth (⟨.listClose, closing⟩ :: next.blocks ++ rest)
      rw [List.cons_append, openedFrom] at hInside
      simp only [openedBy, depthAfter, List.nil_append, List.cons_append] at hInside ⊢
      rw [hClosed, ihNext] at hInside
      rw [show openLists false depth + 1 = openLists true depth from rfl, hInside, items,
        List.append_assoc]
  | item mark first stop content next ihContent ihNext =>
      rw [blocks, List.cons_append, openedFrom, List.append_assoc]
      simp only [openedBy, depthAfter]
      rw [show openLists true depth = openLists false (depth + 1) from rfl, ihContent,
        show openLists false (depth + 1) = openLists true depth from rfl, ihNext, items]
      simp [openLists, List.append_assoc]

theorem openedFrom_blocks (o : Outline false) : openedFrom 0 o.blocks = o.items 0 := by
  have hAll := o.openedFrom_append 0 []
  rwa [List.append_nil, openedFrom, List.append_nil] at hAll

/-! ## Order of items -/

/-- An item opened behind another one lies inside it, and deeper, or below it. -/
def Follows (x y : Item) : Prop :=
  (x.first ≤ y.first ∧ y.stop ≤ x.stop ∧ x.depth < y.depth) ∨ x.stop ≤ y.first

/-- Every item has lines, which are lines of an outermost item. -/
theorem exists_span {inList : Bool} {o : Outline inList} (hFits : o.Fits) {depth : Int} {k : Item}
    (hMem : k ∈ o.items depth) : k.first < k.stop ∧ depth < k.depth ∧
      ∃ r ∈ o.spans, r.1 ≤ k.first ∧ k.stop ≤ r.2 := by
  induction o generalizing depth with
  | done => cases hMem
  | block b hItem hOpen hClose next ih => exact ih hFits hMem
  | list opening closing items next ihItems ihNext =>
      rcases List.mem_append.mp hMem with hHere | hLater
      · obtain ⟨hLines, hDeep, r, hSpan, hIn⟩ := ihItems hFits.1 hHere
        exact ⟨hLines, hDeep, r, List.mem_append_left _ hSpan, hIn⟩
      · obtain ⟨hLines, hDeep, r, hSpan, hIn⟩ := ihNext hFits.2 hLater
        exact ⟨hLines, hDeep, r, List.mem_append_right _ hSpan, hIn⟩
  | item mark first stop content next ihContent ihNext =>
      obtain ⟨hLines, hInside, -, hContent, hNext⟩ := hFits
      rcases List.mem_cons.mp hMem with rfl | hOther
      · exact ⟨hLines, Int.lt_succ depth, (first, stop), .head _, Nat.le_refl _, Nat.le_refl _⟩
      · rcases List.mem_append.mp hOther with hHere | hLater
        · obtain ⟨hOwn, hDeep, r, hSpan, hIn⟩ := ihContent hContent hHere
          obtain ⟨hFrom, hTo⟩ := hInside r hSpan
          exact ⟨hOwn, by omega, (first, stop), .head _, Nat.le_trans hFrom hIn.1,
            Nat.le_trans hIn.2 hTo⟩
        · obtain ⟨hOwn, hDeep, r, hSpan, hIn⟩ := ihNext hNext hLater
          exact ⟨hOwn, hDeep, r, .tail _ hSpan, hIn⟩

theorem items_pairwise {inList : Bool} {o : Outline inList} (hFits : o.Fits)
    (hApart : Apart o.spans) (depth : Int) : (o.items depth).Pairwise Follows := by
  induction o generalizing depth with
  | done => exact .nil
  | block b hItem hOpen hClose next ih => exact ih hFits hApart depth
  | list opening closing items next ihItems ihNext =>
      obtain ⟨hUpper, hLower, hBetween⟩ := List.pairwise_append.mp hApart
      refine List.pairwise_append.mpr
        ⟨ihItems hFits.1 hUpper depth, ihNext hFits.2 hLower depth, fun x hx y hy => .inr ?_⟩
      obtain ⟨-, -, r, hr, -, hTo⟩ := exists_span hFits.1 hx
      obtain ⟨-, -, s, hs, hFrom, -⟩ := exists_span hFits.2 hy
      exact Nat.le_trans hTo (Nat.le_trans (hBetween r hr s hs) hFrom)
  | item mark first stop content next ihContent ihNext =>
      obtain ⟨-, hInside, hContentApart, hContent, hNext⟩ := hFits
      obtain ⟨hBelow, hNextApart⟩ := List.pairwise_cons.mp hApart
      -- What lies inside the item, and what lies below it.
      have hIn : ∀ k ∈ content.items (depth + 1),
          first ≤ k.first ∧ k.stop ≤ stop ∧ depth + 1 < k.depth := by
        intro k hMem
        obtain ⟨-, hDeep, r, hSpan, hFrom, hTo⟩ := exists_span hContent hMem
        obtain ⟨hAbove, hUnder⟩ := hInside r hSpan
        exact ⟨Nat.le_trans hAbove hFrom, Nat.le_trans hTo hUnder, hDeep⟩
      have hUnder : ∀ k ∈ next.items depth, stop ≤ k.first := by
        intro k hMem
        obtain ⟨-, -, r, hSpan, hFrom, -⟩ := exists_span hNext hMem
        exact Nat.le_trans (hBelow r hSpan) hFrom
      refine List.pairwise_cons.mpr ⟨fun k hMem => ?_, List.pairwise_append.mpr
        ⟨ihContent hContent hContentApart _, ihNext hNext hNextApart _, fun x hx y hy => .inr ?_⟩⟩
      · exact (List.mem_append.mp hMem).imp (hIn k) (hUnder k)
      · exact Nat.le_trans (hIn x hx).2.1 (hUnder y hy)

end Outline

/-- Of the items of a line the one opened last is the innermost one. -/
theorem exists_lastCovering {items : List Item} (hFollows : items.Pairwise Outline.Follows)
    {i : Nat} {x : Item} (hMem : x ∈ items) (hIn : x.Covers i) : ∃ k, lastCovering items i = some k ∧
      x.first ≤ k.first ∧ k.stop ≤ x.stop ∧ x.depth ≤ k.depth := by
  have hx : x ∈ items.filter fun k => decide (k.Covers i) :=
    List.mem_filter.mpr ⟨hMem, decide_eq_true hIn⟩
  have hSub := hFollows.sublist (List.filter_sublist (p := fun k => decide (k.Covers i)))
  obtain ⟨before, k, hLast⟩ : ∃ before k,
      items.filter (fun k => decide (k.Covers i)) = before ++ [k] :=
    ⟨_, _, (List.dropLast_append_getLast (List.ne_nil_of_mem hx)).symm⟩
  have hCovers : k.Covers i := by
    have hk : k ∈ items.filter fun k => decide (k.Covers i) := by simp [hLast]
    exact of_decide_eq_true (List.mem_filter.mp hk).2
  refine ⟨k, by rw [lastCovering, hLast, List.getLast?_concat], ?_⟩
  rw [hLast] at hx hSub
  rcases List.mem_append.mp hx with hBefore | hSame
  · rcases (List.pairwise_append.mp hSub).2.2 x hBefore k (.head _) with hInside | hBelow
    · exact ⟨hInside.1, hInside.2.1, Int.le_of_lt hInside.2.2⟩
    · exact absurd (Nat.lt_of_lt_of_le hIn.2 hBelow) (Nat.not_lt.mpr hCovers.1)
  · rw [List.mem_singleton.mp hSame]
    exact ⟨Nat.le_refl _, Nat.le_refl _, Int.le_refl _⟩

/-- When items are nested and every marker can be seen, a line starts an item just when it is the
first line of one. It has the depth of the item that was opened last among those that it is in, and
that item lies inside all others of them. A line in no item has no level. -/
theorem classify_marks_innermost {o : Outline false} (hFits : o.Fits)
    (hApart : Outline.Apart o.spans) {lines : List Line}
    (hFresh : ∀ l ∈ lines, l.listLevel = 0 ∧ l.listStart = false)
    (hShow : showMarkers ⟨lines, 0⟩ o.blocks = true) {c : Classified}
    (hClassify : classify o.blocks lines = .ok c) {i : Nat} {l : Line}
    (hLine : c.lines[i]? = some l) :
    (l.listStart = true ↔ ∃ k ∈ o.items 0, k.first = i) ∧
      (∀ x ∈ o.items 0, x.Covers i → ∃ k, lastCovering (o.items 0) i = some k ∧
        l.listLevel = k.depth ∧ x.first ≤ k.first ∧ k.stop ≤ x.stop ∧ x.depth ≤ k.depth) ∧
      ((∀ k ∈ o.items 0, ¬ k.Covers i) → l.listLevel = 0) := by
  have hFollows := Outline.items_pairwise hFits hApart 0
  have hLines : ∀ k ∈ o.items 0, k.first < k.stop := fun k hMem =>
    (Outline.exists_span hFits hMem).1
  have hOrder : (o.items 0).Pairwise fun x y => x.first ≤ y.first := by
    refine hFollows.imp_of_mem fun {x y} hx hy hFollow => ?_
    exact hFollow.elim (·.1) fun hBelow => Nat.le_trans (Nat.le_of_lt (hLines x hx)) hBelow
  obtain ⟨hStarts, hLevel⟩ := foldl_mark hOrder hLines i
  have hMark : listMark l = (o.items 0).foldl (Item.mark i) ⟨0, false⟩ := by
    obtain ⟨s, hFold, hErased⟩ := exists_of_classify hClassify
    have hChanges : AllChange (fun _ => False) False s.lines (eraseUncovered o.blocks s.lines) :=
      eraseUncovered_changes o.blocks s.lines
    have hSame : listMarks c.lines = listMarks s.lines := hErased ▸ hChanges.listMarks_eq
    have hThen := foldlM_pass_listMarks hFold hShow i
    rw [← hSame, listMarks, List.getElem?_map, hLine, Option.map_some] at hThen
    obtain ⟨m, hStart, hMarked⟩ := Option.map_eq_some_iff.mp hThen.symm
    obtain ⟨old, hOld, rfl⟩ := List.mem_map.mp (List.mem_of_getElem? hStart)
    rw [← hMarked, Outline.openedFrom_blocks, listMark, (hFresh old hOld).1, (hFresh old hOld).2]
  rw [← hMark] at hStarts hLevel
  refine ⟨hStarts, fun x hMem hIn => ?_, fun hNone => ?_⟩
  · obtain ⟨k, hLast, hWithin⟩ := exists_lastCovering hFollows hMem hIn
    exact ⟨k, hLast, by rw [hLast] at hLevel; exact hLevel, hWithin⟩
  · have hEmpty : lastCovering (o.items 0) i = none := by
      rw [lastCovering, List.getLast?_eq_none_iff, List.filter_eq_nil_iff]
      simpa using hNone
    rw [hEmpty] at hLevel
    exact hLevel

/-- Two items that start on one line, a third one and more text inside the first one, and a fourth
one below. -/
def nestedText : Text := "- - a\n  - b\n\n  c\n\n- d\n\ne".toList

/-- Text on one line. -/
def Outline.inlines {inList : Bool} (pieces : List CommonMark.Inline) (line : Nat)
    (next : Outline inList) : Outline inList :=
  .block ⟨.inlines pieces, some (line, line + 1)⟩ nofun nofun nofun next

/-- The blocks of `nestedText`. -/
def nestedOutline : Outline false :=
  .list (some (0, 7)) none
    (.item ['-'] 0 5
      (.list (some (0, 3)) none
        (.item ['-'] 0 1 (.inlines [.text ['a']] 0 .done)
          (.item ['-'] 1 3 (.inlines [.text ['b']] 1 .done) .done))
        (.inlines [.text ['c']] 3 .done))
      (.item ['-'] 5 7 (.inlines [.text ['d']] 5 .done) .done))
    (.inlines [.text ['e']] 7 .done)

theorem classify_marks_innermost_nested :
    let lines := Line.readAll true nestedText
    nestedOutline.Fits ∧ Outline.Apart nestedOutline.spans ∧
      (∀ l ∈ lines, l.listLevel = 0 ∧ l.listStart = false) ∧
      showMarkers ⟨lines, 0⟩ nestedOutline.blocks = true ∧
      ∃ c, classify nestedOutline.blocks lines = .ok c ∧
        listMarks c.lines = [⟨2, true⟩, ⟨2, true⟩, ⟨2, false⟩, ⟨1, false⟩, ⟨1, false⟩, ⟨1, true⟩,
          ⟨1, false⟩, ⟨0, false⟩] ∧
        ∀ l, c.lines[0]? = some l → (l.listStart = true ↔ ∃ k ∈ nestedOutline.items 0, k.first = 0) := by
  intro lines
  have hFits : nestedOutline.Fits := by
    simp [nestedOutline, Outline.inlines, Outline.Fits, Outline.spans, Outline.Apart]
  have hApart : Outline.Apart nestedOutline.spans := by decide
  have hFresh : ∀ l ∈ lines, l.listLevel = 0 ∧ l.listStart = false := by decide +kernel
  have hShow : showMarkers ⟨lines, 0⟩ nestedOutline.blocks = true := by decide +kernel
  have hEvaluated : (classify nestedOutline.blocks lines).toOption.map (fun c => listMarks c.lines) =
      some [⟨2, true⟩, ⟨2, true⟩, ⟨2, false⟩, ⟨1, false⟩, ⟨1, false⟩, ⟨1, true⟩, ⟨1, false⟩,
        ⟨0, false⟩] := by decide +kernel
  cases hClassify : classify nestedOutline.blocks lines with
  | error fault =>
      rw [hClassify] at hEvaluated
      cases hEvaluated
  | ok c =>
      rw [hClassify] at hEvaluated
      exact ⟨hFits, hApart, hFresh, hShow, c, rfl, Option.some_inj.mp hEvaluated, fun l hLine =>
        (classify_marks_innermost hFits hApart hFresh hShow hClassify hLine).1⟩

end Markdown

end ProseLint
