import ProseLint.Markup.Markdown.Inline
import ProseLint.Proofs.List.Map
import ProseLint.Proofs.Source.Origin
import Mathlib.Data.List.Pairwise

/-! A walk over the characters of some lines, at a place with some of them behind it and some
ahead. When what is looked for stands right ahead the walk passes just that, and all that it does
to a line is to erase the characters of the entries that it has erased. -/

namespace ProseLint

variable {α β : Type}

/-! ## Runs -/

/-- Exactly `n` times an item in a row, with other items or none around them. -/
def HasRun (a : α) (n : Nat) (items : List α) : Prop :=
  ∃ before after, items = before ++ (List.replicate n a ++ after) ∧
    before.getLast? ≠ some a ∧ after.head? ≠ some a

/-- A run is found by trying each place. -/
theorem hasRun_iff {a : α} {n : Nat} {items : List α} : HasRun a n items ↔
    ∃ i ∈ List.range (items.length + 1), List.replicate n a <+: items.drop i ∧
      (items.take i).getLast? ≠ some a ∧ (items.drop (i + n)).head? ≠ some a := by
  constructor
  · rintro ⟨before, after, rfl, hBefore, hAfter⟩
    have hRange : before.length ∈
        List.range ((before ++ (List.replicate n a ++ after)).length + 1) := by
      rw [List.mem_range, List.length_append]
      omega
    refine ⟨before.length, hRange, ?_, ?_, ?_⟩
    · rw [List.drop_left]
      exact List.prefix_append _ _
    · rwa [List.take_left]
    · rwa [← List.drop_drop, List.drop_left, List.drop_left' List.length_replicate]
  · rintro ⟨i, -, ⟨after, hAfter⟩, hBefore, hBehind⟩
    refine ⟨items.take i, after, ?_, hBefore, ?_⟩
    · rw [hAfter, List.take_append_drop]
    · rwa [← List.drop_drop, ← hAfter, List.drop_left' List.length_replicate] at hBehind

instance [DecidableEq α] (a : α) (n : Nat) (items : List α) : Decidable (HasRun a n items) :=
  decidable_of_iff _ hasRun_iff.symm

theorem HasRun.of_map {f : α → β} (hf : Function.Injective f) {a : α} {n : Nat} {items : List α}
    (h : HasRun (f a) n (items.map f)) : HasRun a n items := by
  obtain ⟨before, after, hItems, hBefore, hAfter⟩ := h
  obtain ⟨first, others, rfl, rfl, hOthers⟩ := List.map_eq_append_iff.mp hItems
  obtain ⟨run, last, rfl, hRun, rfl⟩ := List.map_eq_append_iff.mp hOthers
  rw [← List.map_replicate] at hRun
  rw [hf.list_map hRun]
  refine ⟨first, last, rfl, fun hSame => hBefore ?_, fun hSame => hAfter ?_⟩
  · rw [List.getLast?_map, hSame, Option.map_some]
  · rw [List.head?_map, hSame, Option.map_some]

/-- A list that ends in something else has room for what it starts with. -/
theorem exists_of_replicate_isPrefix {a : α} {n : Nat} {items more : List α} (hSome : items ≠ [])
    (hEnds : items.getLast? ≠ some a) (h : List.replicate n a <+: items ++ more) :
    ∃ after, items = List.replicate n a ++ after := by
  rcases Nat.le_total n items.length with hLe | hGe
  · obtain ⟨after, hAfter⟩ := List.prefix_of_prefix_length_le h (List.prefix_append items more)
      (by rwa [List.length_replicate])
    exact ⟨after, hAfter.symm⟩
  · have hInside := List.prefix_of_prefix_length_le (List.prefix_append items more) h
      (by rwa [List.length_replicate])
    have hLast := List.getLast_mem hSome
    refine absurd ?_ hEnds
    rw [List.getLast?_eq_some_getLast hSome, List.eq_of_mem_replicate (hInside.subset hLast)]

namespace Markdown

namespace Entry

/-! ## Matches -/

/-- A text on one line matches where its characters show. -/
theorem matchLength?_eq_some_iff {needle : Text} (hLine : '\n' ∉ needle) {entries : List Entry}
    {n : Nat} : matchLength? needle entries = some n ↔
      n = needle.length ∧ needle.map some <+: entries.map (·.glyph) := by
  induction needle generalizing entries n with
  | nil => simp [matchLength?, eq_comm]
  | cons c needle ih =>
      rw [List.mem_cons, not_or] at hLine
      obtain ⟨hFirst, hLater⟩ := hLine
      cases entries with
      | nil => simp [matchLength?]
      | cons e entries =>
          rw [matchLength?]
          by_cases hShows : e.glyph = some c
          · rw [if_neg (not_not.mpr hShows), if_neg (Ne.symm hFirst)]
            simp only [Option.map_eq_some_iff, ih hLater, List.map_cons, hShows,
              List.cons_prefix_cons, List.length_cons]
            constructor
            · rintro ⟨k, ⟨rfl, hRest⟩, rfl⟩
              exact ⟨rfl, trivial, hRest⟩
            · rintro ⟨rfl, -, hRest⟩
              exact ⟨needle.length, ⟨rfl, hRest⟩, rfl⟩
          · rw [if_pos hShows]
            simp [Ne.symm hShows]

theorem matchLength?_append {needle : Text} (hLine : '\n' ∉ needle) {here : List Entry}
    (h : here.map (·.glyph) = needle.map some) (rest : List Entry) :
    matchLength? needle (here ++ rest) = some here.length := by
  apply (matchLength?_eq_some_iff hLine).mpr
  constructor
  · simpa using congrArg List.length h
  · rw [List.map_append, h]
    exact List.prefix_append _ _

/-- A text right ahead is found there. -/
theorem find?_append {needle : Text} (hLine : '\n' ∉ needle) {here : List Entry} (hSome : here ≠ [])
    (h : here.map (·.glyph) = needle.map some) (i : Nat) (rest : List Entry) :
    find? needle i (here ++ rest) = some (i, i + here.length) := by
  have hMatch := matchLength?_append hLine h rest
  obtain ⟨e, here, rfl⟩ := List.exists_cons_of_ne_nil hSome
  rw [List.cons_append] at hMatch ⊢
  rw [find?, hMatch]

theorem headGlyph_eq (entries : List Entry) :
    headGlyph entries = (entries.map (·.glyph)).head?.join := by
  cases entries with
  | nil => rfl
  | cons e rest => rfl

/-- A run right ahead is found there, when nothing beside it makes it longer. -/
theorem findRun?_append {x : Char} (hLine : x ≠ '\n') {here : List Entry} (hSome : here ≠ [])
    (h : here.map (·.glyph) = List.replicate here.length (some x)) {before : Option Char}
    (hBefore : before ≠ some x) {rest : List Entry} (hRest : headGlyph rest ≠ some x) (i : Nat) :
    findRun? (List.replicate here.length x) before i (here ++ rest) =
      some (i, i + here.length) := by
  have hNeedle : '\n' ∉ List.replicate here.length x :=
    fun hMem => hLine (List.eq_of_mem_replicate hMem).symm
  have hMatch := matchLength?_append hNeedle (by rw [h, List.map_replicate]) rest
  obtain ⟨e, more, rfl⟩ := List.exists_cons_of_ne_nil hSome
  rw [List.cons_append] at hMatch ⊢
  simp only [findRun?, hMatch]
  apply if_neg
  simp [List.replicate_succ, Ne.symm hBefore, Ne.symm hRest]

/-- A match in entries that hold no run of its length has more of its character beside it. -/
theorem beside_match {x : Char} (hLine : x ≠ '\n') {m n : Nat} {here rest : List Entry}
    (hSome : here ≠ []) {passed : List (Option Char)}
    (hRun : ¬ HasRun (some x) m (passed ++ here.map (·.glyph)))
    (hEnds : (here.map (·.glyph)).getLast? ≠ some (some x))
    (h : matchLength? (List.replicate m x) (here ++ rest) = some n) :
    passed.getLast? = some (some x) ∨ headGlyph ((here ++ rest).drop n) = some x := by
  have hNeedle : '\n' ∉ List.replicate m x := fun hMem => hLine (List.eq_of_mem_replicate hMem).symm
  obtain ⟨rfl, hPrefix⟩ := (matchLength?_eq_some_iff hNeedle).mp h
  rw [List.map_append, List.map_replicate] at hPrefix
  obtain ⟨after, hAfter⟩ := exists_of_replicate_isPrefix (by simpa using hSome) hEnds hPrefix
  by_contra hAlone
  obtain ⟨hBefore, hBehind⟩ := not_or.mp hAlone
  refine hRun ⟨passed, after, by rw [hAfter], hBefore, fun hSame => hBehind ?_⟩
  rw [headGlyph_eq, List.map_drop, List.map_append, hAfter, List.append_assoc,
    List.drop_left' (by simp), List.head?_append, hSame]
  rfl

/-- The next run behind some entries that hold none of its length and do not lengthen it. The
induction is on those entries, with what the ones passed before have shown. -/
theorem findRun?_behind {x : Char} (hLine : x ≠ '\n') {closing rest : List Entry}
    (hSome : closing ≠ [])
    (hClosing : closing.map (·.glyph) = List.replicate closing.length (some x))
    (hRest : headGlyph rest ≠ some x) {inner : List Entry} {passed : List (Option Char)}
    {before : Option Char} (hBefore : before = some x ↔ passed.getLast? = some (some x))
    (hRun : ¬ HasRun (some x) closing.length (passed ++ inner.map (·.glyph)))
    (hEnds : (passed ++ inner.map (·.glyph)).getLast? ≠ some (some x)) (i : Nat) :
    findRun? (List.replicate closing.length x) before i (inner ++ (closing ++ rest)) =
      some (i + inner.length, i + inner.length + closing.length) := by
  induction inner generalizing passed before i with
  | nil =>
      rw [List.map_nil, List.append_nil] at hEnds
      exact findRun?_append hLine hSome hClosing (fun hSame => hEnds (hBefore.mp hSame)) hRest i
  | cons e inner ih =>
      have hSplit : passed ++ (e :: inner).map (·.glyph) =
          passed ++ [e.glyph] ++ inner.map (·.glyph) := by simp
      have hNext : e.glyph = some x ↔ (passed ++ [e.glyph]).getLast? = some (some x) := by simp
      have hLater := ih hNext (hSplit ▸ hRun) (hSplit ▸ hEnds) (i + 1)
      have hSpan : i + 1 + inner.length = i + (e :: inner).length := by
        rw [List.length_cons]
        omega
      rw [hSpan] at hLater
      rw [List.cons_append, findRun?, hLater]
      cases hMatch : matchLength? (List.replicate closing.length x)
          (e :: (inner ++ (closing ++ rest))) with
      | none => rfl
      | some n =>
          have hHead : (List.replicate closing.length x).head? = some x := by
            rw [List.head?_replicate, if_neg (mt List.length_eq_zero_iff.mp hSome)]
          have hLast : ((e :: inner).map (·.glyph)).getLast? ≠ some (some x) := by
            rw [List.getLast?_append] at hEnds
            exact fun hSame => hEnds (by rw [hSame]; rfl)
          apply if_pos
          rw [hHead, Bool.or_eq_true, beq_iff_eq, beq_iff_eq]
          exact (beside_match hLine (List.cons_ne_nil e inner) hRun hLast hMatch).imp
            (fun hSame => (hBefore.mpr hSame).symm) Eq.symm

/-- Passing over what stands right ahead. -/
theorem skip_append (here rest : List Entry) (i : Nat) :
    skip i (here ++ rest) (here.map (·.char)) = i + here.length := by
  induction here generalizing i with
  | nil => rfl
  | cons e here ih =>
      rw [List.cons_append, List.map_cons, skip, List.findIdx?_cons, if_pos (beq_self_eq_true _)]
      simp only [Nat.add_zero, Nat.zero_add, List.drop_one, List.tail_cons]
      rw [ih, List.length_cons]
      omega

/-! ## What erasing keeps -/

/-- What is never changed about an entry. -/
def origin (e : Entry) : Place × Char := (e.place, e.char)

/-- A character with whether it is still there. -/
def mark (e : Entry) : Char × Bool := (e.char, e.glyph.isSome)

@[simp] theorem origin_erased (e : Entry) : e.erased.origin = e.origin := by
  unfold erased
  split <;> rfl

theorem glyph_erased {e : Entry} (h : e.place ≠ .lineBreak) : e.erased.glyph = none := by
  unfold erased
  split
  · next hBreak => exact absurd hBreak h
  · rfl

theorem map_origin_erased (entries : List Entry) :
    (entries.map erased).map origin = entries.map origin := by
  rw [List.map_map]
  exact List.map_congr_left fun e _ => origin_erased e

/-- What an entry shows, if anything, is its character, and a line break always shows. -/
structure IsSound (e : Entry) : Prop where
  glyph : ∀ c, e.glyph = some c → e.char = c
  lineBreak : e.place = .lineBreak → e.glyph ≠ none

theorem IsSound.erased {e : Entry} (h : e.IsSound) : e.erased.IsSound := by
  unfold Entry.erased
  split
  · exact h
  · next hPlace => exact ⟨nofun, fun hBreak => nomatch hPlace.symm.trans hBreak⟩

/-- An entry that has not been erased. A line break is an entry between two lines. -/
structure IsFresh (e : Entry) : Prop where
  glyph : e.glyph = some e.char
  lineBreak : e.place = .lineBreak → e.char = '\n'

theorem IsFresh.isSound {e : Entry} (h : e.IsFresh) : e.IsSound := by
  constructor
  · intro c hShows
    exact Option.some.inj (h.glyph.symm.trans hShows)
  · intro _ hNone
    rw [h.glyph] at hNone
    cases hNone

theorem map_glyph {entries : List Entry} (h : ∀ e ∈ entries, e.IsFresh) :
    entries.map (·.glyph) = (entries.map (·.char)).map some := by
  rw [List.map_map]
  exact List.map_congr_left fun e hMem => (h e hMem).glyph

theorem headGlyph_eq_head? {entries : List Entry} (h : ∀ e ∈ entries, e.IsFresh) :
    headGlyph entries = (entries.map (·.char)).head? := by
  cases entries with
  | nil => rfl
  | cons e rest => exact (h e List.mem_cons_self).glyph

theorem map_mark {entries : List Entry} (h : ∀ e ∈ entries, e.IsFresh) :
    entries.map mark = (entries.map (·.char)).map (·, true) := by
  rw [List.map_map]
  exact List.map_congr_left fun e hMem => by simp [mark, (h e hMem).glyph]

theorem place_ne_lineBreak {entries : List Entry} (h : ∀ e ∈ entries, e.IsFresh)
    (hLine : '\n' ∉ entries.map (·.char)) : ∀ e ∈ entries, e.place ≠ .lineBreak :=
  fun e hMem hBreak => hLine (List.mem_map.mpr ⟨e, hMem, (h e hMem).lineBreak hBreak⟩)

theorem map_mark_erased {entries : List Entry} (h : ∀ e ∈ entries, e.place ≠ .lineBreak) :
    (entries.map erased).map mark = (entries.map (·.char)).map (·, false) := by
  rw [List.map_map, List.map_map]
  apply List.map_congr_left
  intro e hMem
  have hChar : e.erased.char = e.char := congrArg Prod.snd e.origin_erased
  simp [mark, glyph_erased (h e hMem), hChar]

theorem isSound_erased {entries : List Entry} (h : ∀ e ∈ entries, e.IsFresh) :
    ∀ e ∈ entries.map erased, e.IsSound := by
  intro e hMem
  obtain ⟨d, hSource, rfl⟩ := List.mem_map.mp hMem
  exact (h d hSource).isSound.erased

end Entry

/-! ## Places in a walk -/

namespace Cursor

/-- A walk without links, with some entries behind it and some ahead. -/
def between (behind ahead : List Entry) : Cursor := ⟨behind ++ ahead, behind.length, []⟩

variable (behind here rest : List Entry)

theorem between_ahead : (between behind rest).ahead = rest :=
  List.drop_left

theorem between_glyphBefore :
    (between behind rest).glyphBefore behind.length = behind.getLast?.bind (·.glyph) := by
  cases behind using List.reverseRecOn with
  | nil => rfl
  | append_singleton before e => simp [glyphBefore, between]

theorem between_find? (needle : Text) :
    (between behind rest).find? needle = Entry.find? needle behind.length rest := by
  rw [find?, between_ahead]
  rfl

theorem between_findRun? (needle : Text) : (between behind rest).findRun? needle =
    Entry.findRun? needle (behind.getLast?.bind (·.glyph)) behind.length rest := by
  rw [findRun?, between_ahead, ← between_glyphBefore behind rest]
  rfl

theorem between_moveTo : (between behind (here ++ rest)).moveTo (behind.length + here.length) =
    between (behind ++ here) rest := by
  simp [moveTo, between]

theorem between_eraseAndPass (passed : List Entry) {start stop : Nat}
    (hStart : start = behind.length + passed.length) (hStop : stop = start + here.length) :
    (between behind (passed ++ (here ++ rest))).eraseAndPass (start, stop) =
      between (behind ++ (passed ++ here.map Entry.erased)) rest := by
  have hMiddle := mapIdx_middle Entry.erased (behind ++ passed) here rest
  rw [List.length_append, ← hStart, ← hStop, List.append_assoc] at hMiddle
  rw [eraseAndPass, erase, moveTo, between, hMiddle, between]
  simp [hStop, hStart, Nat.add_assoc]

/-- Prose right ahead is passed. -/
theorem between_skip :
    (between behind (here ++ rest)).skip (here.map (·.char)) = between (behind ++ here) rest := by
  rw [skip, between_ahead, Entry.skip_append]
  exact between_moveTo behind here rest

variable {behind here rest}

/-- A delimiter right ahead is erased. -/
theorem between_consume {mark : Text} (hLine : '\n' ∉ mark)
    (h : here.map (·.glyph) = mark.map some) :
    (between behind (here ++ rest)).consume mark =
      between (behind ++ here.map Entry.erased) rest := by
  unfold consume
  rw [between_find?]
  cases here with
  | nil =>
      obtain rfl : mark = [] := List.map_eq_nil_iff.mp h.symm
      cases rest with
      | nil => simp [Entry.find?]
      | cons e rest => exact between_eraseAndPass behind [] (e :: rest) [] rfl rfl
  | cons e here =>
      rw [Entry.find?_append hLine (List.cons_ne_nil e here) h]
      exact between_eraseAndPass behind (e :: here) rest [] rfl rfl

/-- A line break right ahead is passed, and no more than that when the line behind it is not
indented. -/
theorem between_passLineBreak {e : Entry} (hBreak : e.glyph = some '\n')
    (hSpace : Entry.headGlyph rest ≠ some ' ') (hTab : Entry.headGlyph rest ≠ some '\t') :
    (between behind ([e] ++ rest)).passLineBreak false = between (behind ++ [e]) rest := by
  have hIndent : (rest.takeWhile fun e => e.glyph == some ' ' || e.glyph == some '\t') = [] := by
    cases rest with
    | nil => rfl
    | cons d rest =>
        apply List.takeWhile_cons_of_neg
        simpa using ⟨hSpace, hTab⟩
  have hFind : (between behind ([e] ++ rest)).find? ['\n'] =
      some (behind.length, behind.length + 1) := by
    rw [between_find?, List.singleton_append, Entry.find?, Entry.matchLength?,
      if_neg (not_not.mpr hBreak), if_pos rfl, hIndent]
    rfl
  rw [passLineBreak, hFind]
  exact between_moveTo behind [e] rest

theorem getLast?_erased {opening : List Entry} (hSome : opening ≠ [])
    (hPlaces : ∀ e ∈ opening, e.place ≠ .lineBreak) :
    (behind ++ opening.map Entry.erased).getLast?.bind (·.glyph) = none := by
  cases opening using List.reverseRecOn with
  | nil => exact absurd rfl hSome
  | append_singleton before e =>
      have hGone := Entry.glyph_erased (hPlaces e (by simp))
      simp [hGone]

/-- A code span right ahead loses its backticks and nothing else. -/
theorem between_eraseCodeSpan {x : Char} (hLine : x ≠ '\n') {n : Nat} (hPos : 0 < n)
    {opening inner closing : List Entry} (hPlaces : ∀ e ∈ opening, e.place ≠ .lineBreak)
    (hOpening : opening.map (·.glyph) = List.replicate n (some x))
    (hClosing : closing.map (·.glyph) = List.replicate n (some x))
    (hSome : inner ≠ []) (hStarts : Entry.headGlyph inner ≠ some x)
    (hEnds : (inner.map (·.glyph)).getLast? ≠ some (some x))
    (hRun : ¬ HasRun (some x) n (inner.map (·.glyph)))
    (hBefore : behind.getLast?.bind (·.glyph) ≠ some x) (hRest : Entry.headGlyph rest ≠ some x) :
    (between behind (opening ++ (inner ++ (closing ++ rest)))).eraseCodeSpan (List.replicate n x) =
      between (behind ++ (opening.map Entry.erased ++ (inner ++ closing.map Entry.erased)))
        rest := by
  obtain rfl : n = opening.length := by simpa using (congrArg List.length hOpening).symm
  have hSame : closing.length = opening.length := by simpa using congrArg List.length hClosing
  have hOpens := List.ne_nil_of_length_pos hPos
  have hCloses := List.ne_nil_of_length_pos (hSame ▸ hPos)
  have hFirst : (between behind (opening ++ (inner ++ (closing ++ rest)))).findRun?
      (List.replicate opening.length x) = some (behind.length, behind.length + opening.length) := by
    obtain ⟨e, more, rfl⟩ := List.exists_cons_of_ne_nil hSome
    rw [between_findRun?]
    apply Entry.findRun?_append hLine hOpens hOpening hBefore
    exact hStarts
  have hInside : (between behind (opening ++ (inner ++ (closing ++ rest)))).eraseAndPass
      (behind.length, behind.length + opening.length) =
        between (behind ++ opening.map Entry.erased) (inner ++ (closing ++ rest)) :=
    between_eraseAndPass behind opening _ [] rfl rfl
  have hSecond : (between (behind ++ opening.map Entry.erased)
      (inner ++ (closing ++ rest))).findRun? (List.replicate opening.length x) =
        some ((behind ++ opening.map Entry.erased).length + inner.length,
          (behind ++ opening.map Entry.erased).length + inner.length + closing.length) := by
    rw [← hSame] at hClosing hRun
    rw [between_findRun?, getLast?_erased hOpens hPlaces, ← hSame]
    have hStart : (none : Option Char) = some x ↔
        ([] : List (Option Char)).getLast? = some (some x) := by simp
    exact Entry.findRun?_behind hLine hCloses hClosing hRest hStart hRun hEnds _
  rw [eraseCodeSpan, hFirst]
  simp only [hInside, hSecond]
  rw [between_eraseAndPass _ closing rest inner rfl rfl, List.append_assoc]

end Cursor

/-! ## The walk over some lines -/

namespace Entry

/-- All characters of a line are in a walk when none of them has been erased. -/
theorem ofLine_eq {l : Line} (hKept : ∀ c ∈ l.cells, c.kept = true) (number : Nat) :
    ofLine number l = l.cells.mapIdx fun i c => ⟨.at number i, c.char, c.glyph⟩ := by
  apply List.filter_eq_self.mpr
  intro e hMem
  obtain ⟨i, hLt, rfl⟩ := List.mem_mapIdx.mp hMem
  simp [Cell.glyph, hKept l.cells[i] (List.getElem_mem hLt)]

theorem mem_ofLine {number : Nat} {l : Line} {e : Entry} (h : e ∈ ofLine number l) :
    ∃ i, ∃ c ∈ l.cells, e = ⟨.at number i, c.char, c.glyph⟩ ∧ e.glyph ≠ none := by
  obtain ⟨hMem, hSome⟩ := List.mem_filter.mp h
  obtain ⟨i, hLt, rfl⟩ := List.mem_mapIdx.mp hMem
  exact ⟨i, l.cells[i], List.getElem_mem hLt, rfl, Option.isSome_iff_ne_none.mp hSome⟩

theorem mem_ofLinesFrom {number : Nat} {lines : List Line} {e : Entry}
    (h : e ∈ ofLinesFrom number lines) :
    e = lineBreak ∨ ∃ n, number ≤ n ∧ ∃ l ∈ lines, e ∈ ofLine n l := by
  induction lines generalizing number with
  | nil => cases h
  | cons l rest ih =>
      rw [ofLinesFrom, List.mem_cons, List.mem_append] at h
      rcases h with hBreak | hHere | hLater
      · exact Or.inl hBreak
      · exact Or.inr ⟨number, Nat.le_refl _, l, List.mem_cons_self, hHere⟩
      · rcases ih hLater with hBreak | ⟨n, hLe, m, hMem, hEntry⟩
        · exact Or.inl hBreak
        · exact Or.inr ⟨n, Nat.le_of_succ_le hLe, m, List.mem_cons_of_mem l hMem, hEntry⟩

/-- No two characters of a walk have one place. -/
def Apart (d e : Entry) : Prop := d.place = e.place → d.place = .lineBreak

instance : Std.Symm Apart := ⟨fun _ _ h hSame => hSame.trans (h hSame.symm)⟩

theorem ofLine_pairwise (number : Nat) (l : Line) : (ofLine number l).Pairwise Apart := by
  apply List.Pairwise.filter
  rw [List.pairwise_iff_getElem]
  intro i k hLeft hRight hLt hSame
  simp only [List.getElem_mapIdx, Place.at.injEq] at hSame
  omega

theorem ofLinesFrom_pairwise (number : Nat) (lines : List Line) :
    (ofLinesFrom number lines).Pairwise Apart := by
  induction lines generalizing number with
  | nil => exact .nil
  | cons l rest ih =>
      refine List.pairwise_cons.mpr ⟨fun e _ _ => rfl, List.pairwise_append.mpr
        ⟨ofLine_pairwise number l, ih (number + 1), fun d hHere e hLater hSame => ?_⟩⟩
      obtain ⟨i, c, _, rfl, _⟩ := mem_ofLine hHere
      rcases mem_ofLinesFrom hLater with rfl | ⟨n, hLe, m, _, hEntry⟩
      · cases hSame
      · obtain ⟨k, d, _, rfl, _⟩ := mem_ofLine hEntry
        simp only [Place.at.injEq] at hSame
        omega

theorem ofLines_pairwise (lines : List Line) : (ofLines lines).Pairwise Apart :=
  (ofLinesFrom_pairwise 0 lines).sublist (List.drop_sublist 1 _)

/-- What is said of the entries of a walk is said of its lines, with something between two of
them. -/
theorem map_ofLines {f : Entry → β} {g : Nat → Line → List β} {lines : List Line}
    (h : ∀ n, ∀ l ∈ lines, (ofLine n l).map f = g n l) :
    (ofLines lines).map f = [f lineBreak].intercalate (lines.mapIdx g) := by
  suffices hFrom : ∀ number, ((ofLinesFrom number lines).drop 1).map f =
      [f lineBreak].intercalate (lines.mapIdx fun i => g (number + i)) by
    simpa [ofLines] using hFrom 0
  intro number
  induction lines generalizing number with
  | nil => rfl
  | cons l rest ih =>
      obtain ⟨hFirst, hLater⟩ : (∀ n, (ofLine n l).map f = g n l) ∧
          ∀ n, ∀ m ∈ rest, (ofLine n m).map f = g n m :=
        ⟨fun n => h n l List.mem_cons_self, fun n m hMem => h n m (List.mem_cons_of_mem l hMem)⟩
      have hRest := ih hLater (number + 1)
      rw [ofLinesFrom, List.drop_one, List.tail_cons, List.map_append, hFirst]
      cases rest with
      | nil => simp [ofLinesFrom]
      | cons m rest =>
          rw [ofLinesFrom, List.drop_one, List.tail_cons] at hRest
          rw [ofLinesFrom, List.map_cons, hRest]
          simp [List.mapIdx_cons, List.intercalate_cons_cons, Nat.add_comm, Nat.add_left_comm]

end Entry

end Markdown

/-! ## What is left of the lines -/

namespace Line

/-- The characters of a line, with whether each of them is still there. -/
def spelled (l : Line) : List (Char × Bool) := l.cells.map fun c => (c.char, c.kept)

end Line

namespace Markdown

/-- Whether the entry has been erased, and was at a place. -/
def Entry.erases (e : Entry) (p : Place) : Bool := e.place == p && e.glyph.isNone

/-- Whether what was at a place has been erased. -/
def Entry.gone (entries : List Entry) (p : Place) : Bool := entries.any (·.erases p)

theorem Entry.gone_iff {entries : List Entry} {p : Place} :
    gone entries p = true ↔ ∃ e ∈ entries, e.place = p ∧ e.glyph = none := by
  simp [gone, erases]

theorem eraseEntry_eq (number : Nat) (l : Line) (e : Entry) :
    eraseEntry number l e = l.without fun i => e.erases (.at number i) := by
  obtain ⟨_ | ⟨line, position⟩, char, glyph⟩ := e
  · exact l.without_none.symm
  · cases glyph with
    | some c =>
        simp only [eraseEntry, Entry.erases, Option.isNone_some, Bool.and_false]
        exact l.without_none.symm
    | none =>
        simp only [eraseEntry, Entry.erases, Option.isNone_none, Bool.and_true]
        by_cases hLine : line = number
        · have hErase : l.erase position 1 = _ := Line.erase_eq l position 1
          rw [if_pos hLine, hErase]
          congr 1
          funext i
          have hHere : position ≤ i ∧ i < position + 1 ↔
              Place.at line position = .at number i := by
            rw [Place.at.injEq]
            omega
          rw [decide_eq_decide.mpr hHere, beq_eq_decide]
        · have hOther : ∀ i, (Place.at line position == Place.at number i) = false :=
            fun i => beq_eq_false_iff_ne.mpr fun hSame => hLine (Place.at.inj hSame).1
          simp only [hOther]
          rw [if_neg hLine, l.without_none]

theorem foldl_eraseEntry (number : Nat) (l : Line) (entries : List Entry) :
    entries.foldl (eraseEntry number) l = l.without fun i => Entry.gone entries (.at number i) := by
  induction entries generalizing l with
  | nil => exact l.without_none.symm
  | cons e rest ih =>
      rw [List.foldl_cons, ih, eraseEntry_eq, Line.without_without]
      rfl

/-- A walk without links erases what it has erased on the way, and nothing else. -/
theorem applyWalk_between (behind ahead : List Entry) (number : Nat) (l : Line) :
    applyWalk (.between behind ahead) number l =
      l.without fun i => Entry.gone (behind ++ ahead) (.at number i) :=
  foldl_eraseEntry number l (behind ++ ahead)

section Spelled

variable {lines : List Line} {entries : List Entry}

/-- An entry has been erased when one at its place has. -/
theorem isSome_glyph_eq (hOrigin : entries.map Entry.origin =
    (Entry.ofLines lines).map Entry.origin) (hSound : ∀ e ∈ entries, e.IsSound) {e : Entry}
    (hMem : e ∈ entries) : e.glyph.isSome = !Entry.gone entries e.place := by
  have hApart : entries.Pairwise Entry.Apart := by
    have hPlaces : (entries.map Entry.origin).Pairwise fun p q => p.1 = q.1 → p.1 = .lineBreak := by
      rw [hOrigin]
      exact List.pairwise_map.mpr (Entry.ofLines_pairwise lines)
    exact (List.pairwise_map.mp hPlaces).imp id
  cases hGlyph : e.glyph with
  | none =>
      rw [Entry.gone_iff.mpr ⟨e, hMem, rfl, hGlyph⟩]
      rfl
  | some c =>
      suffices hStays : ¬ Entry.gone entries e.place = true by simp [hStays]
      intro hGone
      obtain ⟨d, hOther, hPlace, hNone⟩ := Entry.gone_iff.mp hGone
      by_cases hSame : d = e
      · rw [hSame, hGlyph] at hNone
        cases hNone
      · have hBreak := hApart.forall hOther hMem hSame hPlace
        exact (hSound d hOther).lineBreak hBreak hNone

/-- The characters of the lines stay or go as the walk says. -/
theorem spelled_without (hKept : ∀ l ∈ lines, ∀ c ∈ l.cells, c.kept = true)
    (hOrigin : entries.map Entry.origin = (Entry.ofLines lines).map Entry.origin)
    (hSound : ∀ e ∈ entries, e.IsSound) :
    [('\n', true)].intercalate ((lines.mapIdx fun n l =>
      l.without fun i => Entry.gone entries (.at n i)).map Line.spelled) =
        entries.map Entry.mark := by
  let stays (o : Place × Char) : Char × Bool := (o.2, !Entry.gone entries o.1)
  have hMarks : entries.map Entry.mark = (entries.map Entry.origin).map stays := by
    rw [List.map_map]
    apply List.map_congr_left
    intro e hMem
    simp [Entry.mark, isSome_glyph_eq hOrigin hSound hMem, stays, Entry.origin]
  have hBreak : stays Entry.lineBreak.origin = ('\n', true) := by
    have hStays : ¬ Entry.gone entries .lineBreak = true := by
      intro hGone
      obtain ⟨e, hMem, hPlace, hNone⟩ := Entry.gone_iff.mp hGone
      exact (hSound e hMem).lineBreak hPlace hNone
    simp [stays, Entry.origin, Entry.lineBreak, hStays]
  have hLine : ∀ n, ∀ l ∈ lines, (Entry.ofLine n l).map (stays ∘ Entry.origin) =
      (l.without fun i => Entry.gone entries (.at n i)).spelled := by
    intro n l hMem
    rw [Entry.ofLine_eq (hKept l hMem), map_mapIdx, Line.spelled, Line.without, map_mapIdx]
    apply List.ext_getElem (by simp)
    intro i hLeft hRight
    have hLt : i < l.cells.length := by simpa using hLeft
    have hCell := hKept l hMem l.cells[i] (List.getElem_mem hLt)
    simp [stays, Entry.origin, hCell]
  rw [hMarks, hOrigin, List.map_map, Entry.map_ofLines hLine, map_mapIdx]
  simp only [Function.comp_apply, hBreak]

end Spelled

end Markdown

end ProseLint
