import ProseLint.Proofs.Layout.Passage
import ProseLint.Proofs.List.Map
import ProseLint.Source.Erasure
import Mathlib.Data.List.TakeWhile

/-! Links on their way from lines to sentences. A link has a place on its line. The first character
left at that place or behind it, whether on the line, between two lines or on a later line, takes
the link along into its sentence. When there is no such character, or it lies in a stretch of white
space that becomes no sentence, the last sentence has the link. -/

namespace ProseLint

/-- Where a character of joined lines comes from. A joint lies before a line that follows another
one. -/
inductive Source where
  | cell (line position : Nat)
  | joint (line : Nat)
  deriving DecidableEq, Repr

namespace Source

def line : Source → Nat
  | cell line _ => line
  | joint line => line

def isJoint : Source → Bool
  | cell _ _ => false
  | joint _ => true

end Source

/-- A link on one of some lines. -/
structure RecordedLink where
  line : Nat
  position : Int
  url : Text
  deriving DecidableEq, Repr

namespace RecordedLink

/-- Whether a character stands at the place of the link or behind it. -/
def reaches (k : RecordedLink) : Source → Bool
  | .cell line position => decide (k.line < line) || k.line == line && decide (k.position ≤ position)
  | .joint line => k.line < line

variable {k : RecordedLink}

theorem reaches_of_lt {s : Source} (h : k.line < s.line) : k.reaches s = true := by
  cases s <;> simp_all [reaches, Source.line]

theorem not_reaches_of_lt {s : Source} (h : s.line < k.line) : k.reaches s = false := by
  cases s <;> simp_all [reaches, Source.line] <;> omega

end RecordedLink

namespace Passage

/-! ## Characters of joined lines -/

/-- The characters left on a line, which is the line `n` of some. -/
def cellsOf (n : Nat) (l : Line) : List (Source × Glyph) :=
  (l.cells.zipIdx.filter (·.1.kept)).map fun c =>
    (.cell n c.2, ⟨c.1.char, ⟨l.number, c.1.offset⟩, c.1.inline⟩)

def jointOf (separator : Option Char) (n : Nat) : Option Line → List (Source × Glyph)
  | some before => (separatorAfter separator before).map fun g => (.joint n, g)
  | none => []

def sourcedFrom (separator : Option Char) (n : Nat) (previous : Option Line) :
    List Line → List (Source × Glyph)
  | [] => []
  | l :: rest =>
      jointOf separator n previous ++ (cellsOf n l ++ sourcedFrom separator (n + 1) (some l) rest)

/-- Nothing is joined to nothing. -/
def begun (text : List (Source × Glyph)) : List (Source × Glyph) := text.dropWhile (·.1.isJoint)

/-- The characters left on some lines and those that join the lines. -/
def sourced (separator : Option Char) (lines : List Line) : List (Source × Glyph) :=
  begun (sourcedFrom separator 0 none lines)

theorem line_of_mem_cellsOf {n : Nat} {l : Line} {s : Source × Glyph} (h : s ∈ cellsOf n l) :
    s.1.line = n ∧ s.1.isJoint = false := by
  obtain ⟨c, -, rfl⟩ := List.mem_map.mp h
  exact ⟨rfl, rfl⟩

theorem of_mem_jointOf {separator : Option Char} {n : Nat} {previous : Option Line}
    {s : Source × Glyph} (h : s ∈ jointOf separator n previous) : s.1 = .joint n := by
  cases previous with
  | none => cases h
  | some before =>
      obtain ⟨g, -, rfl⟩ := List.mem_map.mp h
      rfl

theorem le_line_of_mem_sourcedFrom {separator : Option Char} {n : Nat} {previous : Option Line}
    {lines : List Line} {s : Source × Glyph} (h : s ∈ sourcedFrom separator n previous lines) :
    n ≤ s.1.line := by
  induction lines generalizing n previous with
  | nil => cases h
  | cons l rest ih =>
      rw [sourcedFrom, List.mem_append, List.mem_append] at h
      rcases h with hJoint | hCell | hLater
      · rw [of_mem_jointOf hJoint]
        exact Nat.le_refl n
      · exact Nat.le_of_eq (line_of_mem_cellsOf hCell).1.symm
      · exact Nat.le_of_succ_le (ih hLater)

theorem cellsOf_glyphs (n : Nat) (l : Line) : (cellsOf n l).map (·.2) = glyphsOf l := by
  have hKept : (l.cells.zipIdx.filter (·.1.kept)).map (·.1) = l.cells.filter (·.kept) := by
    rw [← List.zipIdx_map_fst 0 l.cells, List.filter_map, List.zipIdx_map_fst]
    rfl
  rw [glyphsOf, ← hKept, cellsOf, List.map_map, List.map_map]
  rfl

/-- The characters of a line before a position and those behind it. -/
theorem exists_cellsOf_split (n : Nat) (l : Line) (position : Nat) :
    ∃ before behind, cellsOf n l = before ++ behind ∧ before.length = keptBefore l position ∧
      (∀ s ∈ before, ∃ i < position, s.1 = .cell n i) ∧
      ∀ s ∈ behind, ∃ i, position ≤ i ∧ s.1 = .cell n i := by
  have hCells : l.cells.zipIdx =
      (l.cells.take position).zipIdx ++ (l.cells.drop position).zipIdx (min position l.length) := by
    conv_lhs => rw [← List.take_append_drop position l.cells]
    rw [List.zipIdx_append, List.length_take, Nat.zero_add]
    rfl
  refine ⟨_, _, by rw [cellsOf, hCells, List.filter_append, List.map_append], ?_, ?_, ?_⟩
  · rw [List.length_map, ← List.countP_eq_length_filter, keptBefore,
      ← List.zipIdx_map_fst 0 (l.cells.take position), List.countP_map, List.zipIdx_map_fst]
    rfl
  · intro s hMem
    obtain ⟨c, hCell, rfl⟩ := List.mem_map.mp hMem
    have hIndex := List.snd_lt_of_mem_zipIdx (List.mem_filter.mp hCell).1
    rw [List.length_take] at hIndex
    exact ⟨c.2, by omega, rfl⟩
  · intro s hMem
    obtain ⟨c, hCell, rfl⟩ := List.mem_map.mp hMem
    have hFrom := List.le_snd_of_mem_zipIdx (List.mem_filter.mp hCell).1
    have hTo := List.snd_lt_add_of_mem_zipIdx (List.mem_filter.mp hCell).1
    rw [List.length_drop, Line.length] at *
    exact ⟨c.2, by omega, rfl⟩

/-! ## Joining as it goes -/

theorem begun_append_cells (text : List (Source × Glyph)) {cells : List (Source × Glyph)}
    (hCells : ∀ s ∈ cells, s.1.isJoint = false) : begun (text ++ cells) = begun text ++ cells := by
  have hSame : begun cells = cells := List.dropWhile_eq_self_iff.mpr fun hSome => by
    simpa using hCells _ (List.getElem_mem hSome)
  unfold begun at hSame ⊢
  rw [List.dropWhile_append, hSame]
  split
  · next hNone => rw [List.isEmpty_iff.mp hNone, List.nil_append]
  · rfl

theorem mem_begun {text : List (Source × Glyph)} {s : Source × Glyph} (h : s ∈ text)
    (hCell : s.1.isJoint = false) : s ∈ begun text := by
  rw [← List.takeWhile_append_dropWhile (p := (·.1.isJoint)) (l := text)] at h
  rcases List.mem_append.mp h with hJoint | hLater
  · rw [List.mem_takeWhile_imp hJoint] at hCell
    cases hCell
  · exact hLater

/-- What has been joined so far, and the next line behind it. -/
theorem append_eq {separator : Option Char} {p : Passage} {done : List (Source × Glyph)}
    (hGlyphs : p.glyphs = (begun done).map (·.2)) (n : Nat) (previous : Option Line) (l : Line) :
    p.append separator previous l =
      ⟨(begun (done ++ jointOf separator n previous ++ cellsOf n l)).map (·.2),
        p.links ++ linksOf (begun (done ++ jointOf separator n previous)).length l⟩ := by
  have hOpened : p.glyphs ++ (match previous with
      | some before => if p.glyphs.isEmpty then [] else separatorAfter separator before
      | none => []) = (begun (done ++ jointOf separator n previous)).map (·.2) := by
    cases previous with
    | none => simp [jointOf, hGlyphs]
    | some before =>
        have hJoint : begun (jointOf separator n (some before)) = [] :=
          List.dropWhile_eq_nil_iff.mpr fun s hMem => by rw [of_mem_jointOf hMem]; rfl
        have hBack : (jointOf separator n (some before)).map (·.2) =
            separatorAfter separator before := by
          simp [jointOf, Function.comp_def]
        unfold begun at hGlyphs hJoint ⊢
        rw [List.dropWhile_append, hJoint, hGlyphs]
        cases done.dropWhile (·.1.isJoint) with
        | nil => rfl
        | cons s rest => simp [hBack]
  have hWhole : begun (done ++ jointOf separator n previous ++ cellsOf n l) =
      begun (done ++ jointOf separator n previous) ++ cellsOf n l :=
    begun_append_cells _ fun s hMem => (line_of_mem_cellsOf hMem).2
  have hLength := congrArg List.length hOpened
  rw [List.length_map] at hLength
  rw [hWhole, List.map_append, cellsOf_glyphs, ← hOpened, ← hLength]
  rfl

theorem appendAll_glyphs_eq {separator : Option Char} {p : Passage} {done : List (Source × Glyph)}
    (hGlyphs : p.glyphs = (begun done).map (·.2)) (n : Nat) (previous : Option Line)
    (lines : List Line) : (appendAll separator p previous lines).glyphs =
      (begun (done ++ sourcedFrom separator n previous lines)).map (·.2) := by
  induction lines generalizing p done n previous with
  | nil => simpa [appendAll, sourcedFrom] using hGlyphs
  | cons l rest ih =>
      rw [appendAll, append_eq hGlyphs n, ih rfl (n + 1), sourcedFrom]
      simp only [List.append_assoc]

/-! ## Links of joined lines -/

/-- The links on some lines, of which the first is the line `n`. -/
def recordedFrom (n : Nat) (lines : List Line) : List RecordedLink :=
  (lines.zipIdx n).flatMap fun l => l.1.links.map fun k => ⟨l.2, k.1, k.2⟩

def recorded (lines : List Line) : List RecordedLink := recordedFrom 0 lines

theorem recordedFrom_cons (n : Nat) (l : Line) (rest : List Line) :
    recordedFrom n (l :: rest) =
      (l.links.map fun k => ⟨n, k.1, k.2⟩) ++ recordedFrom (n + 1) rest := rfl

theorem recordedFrom_urls (n : Nat) (lines : List Line) :
    (recordedFrom n lines).map (·.url) = lines.flatMap fun l => l.links.map (·.2) := by
  induction lines generalizing n with
  | nil => rfl
  | cons l rest ih =>
      rw [recordedFrom_cons, List.map_append, ih, List.flatMap_cons, List.map_map]
      rfl

/-- The index at which a link stands in a text: as many characters as lie before its place. -/
def indexOf (text : List (Source × Glyph)) (k : RecordedLink) : Nat :=
  text.findIdx fun s => k.reaches s.1

theorem indexOf_begun {k : RecordedLink} {before behind : List (Source × Glyph)}
    (hBefore : ∀ s ∈ before, k.reaches s.1 = false) (hBehind : ∀ s ∈ behind, k.reaches s.1 = true) :
    indexOf (begun (before ++ behind)) k = (begun before).length := by
  have hNone : indexOf (begun before) k = (begun before).length :=
    List.findIdx_eq_length.mpr fun s hMem => hBefore s (((List.dropWhile_sublist _).subset hMem))
  have hFirst : ∀ text, (∀ s ∈ text, k.reaches s.1 = true) → indexOf text k = 0 := by
    intro text hAll
    cases text with
    | nil => rfl
    | cons s rest => simp [indexOf, List.findIdx_cons, hAll s List.mem_cons_self]
  unfold begun at hNone ⊢
  rw [List.dropWhile_append]
  split
  · next hEmpty =>
      rw [List.isEmpty_iff.mp hEmpty]
      exact hFirst _ fun s hMem => hBehind s (((List.dropWhile_sublist _).subset hMem))
  · unfold indexOf at hNone hFirst ⊢
    rw [List.findIdx_append, hNone, if_neg (Nat.lt_irrefl _), hFirst behind hBehind, Nat.zero_add]

/-- The links of a line in another order. -/
theorem linksOf_perm (base : Nat) {l : Line} (hOn : ∀ k ∈ l.links, 0 ≤ k.1) :
    (linksOf base l).Perm (l.links.map fun k => (base + keptBefore l k.1.toNat, k.2)) := by
  let place (k : Int × Text) : Nat := k.1.toNat
  let moved (k : Int × Text) : Nat × Text := (base + keptBefore l (place k), k.2)
  have hInner : ((List.range l.length).flatMap fun (i : Nat) =>
      (l.links.filter fun k => k.1 == (i : Int)).map fun k => (base + keptBefore l i, k.2)) =
        ((List.range l.length).flatMap fun i => l.links.filter (place · == i)).map moved := by
    rw [List.map_flatMap]
    refine List.flatMap_congr fun i _ => ?_
    have hSame : (l.links.filter fun k => k.1 == (i : Int)) = l.links.filter (place · == i) :=
      List.filter_congr fun k hMem => by
        have hPlace := hOn k hMem
        simp only [beq_eq_decide, decide_eq_decide, place]
        omega
    rw [hSame]
    refine List.map_congr_left fun k hMem => ?_
    rw [← beq_iff_eq.mp (List.mem_filter.mp hMem).2]
  have hOuter : (l.links.filter fun k =>
      !(decide (0 ≤ k.1) && decide (k.1 < (l.length : Int)))) =
        l.links.filter fun k => !decide (place k < l.length) :=
    List.filter_congr fun k hMem => by
      have hPlace := hOn k hMem
      simp only [hPlace, decide_true, Bool.true_and, place, Bool.not_inj_iff, decide_eq_decide]
      omega
  have hBehind : ∀ k ∈ l.links.filter (fun k => !decide (place k < l.length)),
      moved k = (base + (glyphsOf l).length, k.2) := by
    intro k hMem
    have hLe : l.length ≤ place k := by simpa using (List.mem_filter.mp hMem).2
    simp only [moved, keptBefore, List.take_of_length_le hLe, glyphsOf, List.length_map,
      List.countP_eq_length_filter]
  have hSorted := (List.mergeSort_perm (l.links.filter fun k => !decide (place k < l.length))
    fun a b => decide (a.1 ≤ b.1)).map fun k => (base + (glyphsOf l).length, k.2)
  rw [← List.map_congr_left hBehind] at hSorted
  have hPlaced := (flatMap_range_filter_perm place l.length l.links).map moved
  unfold linksOf
  simp only
  rw [hInner, hOuter]
  refine (hPlaced.append hSorted).trans ?_
  rw [← List.map_append]
  exact (List.filter_append_perm _ l.links).map moved

/-- A link stands behind all that was joined before its line and behind what is left of the line
before its position. -/
theorem indexOf_link {opened later : List (Source × Glyph)} {n : Nat} {l : Line}
    (hOpened : ∀ s ∈ opened, s.1.line < n ∨ s.1 = .joint n) (hLater : ∀ s ∈ later, n < s.1.line)
    {position : Int} (hOn : 0 ≤ position) (url : Text) :
    indexOf (begun (opened ++ (cellsOf n l ++ later))) ⟨n, position, url⟩ =
      (begun opened).length + keptBefore l position.toNat := by
  obtain ⟨before, behind, hCells, hCount, hBefore, hBehind⟩ :=
    exists_cellsOf_split n l position.toNat
  have hKept : begun (opened ++ before) = begun opened ++ before :=
    begun_append_cells opened fun s hMem => by
      obtain ⟨i, -, hSource⟩ := hBefore s hMem
      rw [hSource, Source.isJoint]
  rw [hCells, List.append_assoc, ← List.append_assoc opened, indexOf_begun, hKept,
    List.length_append, hCount]
  · intro s hMem
    rcases List.mem_append.mp hMem with hEarlier | hHere
    · rcases hOpened s hEarlier with hLine | hJoint
      · exact RecordedLink.not_reaches_of_lt hLine
      · simp [hJoint, RecordedLink.reaches]
    · obtain ⟨i, hLt, hSource⟩ := hBefore s hHere
      simp only [hSource, RecordedLink.reaches, Nat.lt_irrefl, decide_false, Bool.false_or,
        beq_self_eq_true, Bool.true_and, decide_eq_false_iff_not]
      omega
  · intro s hMem
    rcases List.mem_append.mp hMem with hHere | hBelow
    · obtain ⟨i, hLe, hSource⟩ := hBehind s hHere
      simp only [hSource, RecordedLink.reaches, Nat.lt_irrefl, decide_false, Bool.false_or,
        beq_self_eq_true, Bool.true_and, decide_eq_true_eq]
      omega
    · exact RecordedLink.reaches_of_lt (hLater s hBelow)

theorem appendAll_links_perm {separator : Option Char} {p : Passage} {done : List (Source × Glyph)}
    (hGlyphs : p.glyphs = (begun done).map (·.2)) {n : Nat} (hDone : ∀ s ∈ done, s.1.line < n)
    (previous : Option Line) {lines : List Line} (hOn : ∀ l ∈ lines, ∀ k ∈ l.links, 0 ≤ k.1) :
    (appendAll separator p previous lines).links.Perm (p.links ++
      (recordedFrom n lines).map fun k =>
        (indexOf (begun (done ++ sourcedFrom separator n previous lines)) k, k.url)) := by
  induction lines generalizing p done n previous with
  | nil => simp [appendAll, recordedFrom]
  | cons l rest ih =>
      let opened := done ++ jointOf separator n previous
      let later := sourcedFrom separator (n + 1) (some l) rest
      have hOpened : ∀ s ∈ opened, s.1.line < n ∨ s.1 = .joint n := by
        intro s hMem
        exact (List.mem_append.mp hMem).imp (hDone s) of_mem_jointOf
      have hLine : ∀ s ∈ opened ++ cellsOf n l, s.1.line < n + 1 := by
        intro s hMem
        rcases List.mem_append.mp hMem with hBefore | hCell
        · rcases hOpened s hBefore with hEarlier | hJoint
          · exact Nat.lt_succ_of_lt hEarlier
          · rw [hJoint, Source.line]
            exact Nat.lt_succ_self n
        · rw [(line_of_mem_cellsOf hCell).1]
          exact Nat.lt_succ_self n
      have hHere : (linksOf (begun opened).length l).Perm ((l.links.map fun k => ⟨n, k.1, k.2⟩).map
          fun k : RecordedLink => (indexOf (begun (opened ++ (cellsOf n l ++ later))) k, k.url)) := by
        rw [List.map_map]
        refine (linksOf_perm _ (hOn l List.mem_cons_self)).trans (.of_eq ?_)
        refine List.map_congr_left fun k hMem => ?_
        have hLater : ∀ s ∈ later, n < s.1.line := fun s => le_line_of_mem_sourcedFrom
        have hIndex := indexOf_link (l := l) hOpened hLater (hOn l List.mem_cons_self k hMem) k.2
        rw [Function.comp_apply, hIndex]
      have hNext : p.append separator previous l = _ := append_eq hGlyphs n previous l
      have hAll := ih (congrArg glyphs hNext) hLine (some l) fun m hMem =>
        hOn m (List.mem_cons_of_mem l hMem)
      rw [appendAll, recordedFrom_cons, List.map_append, sourcedFrom]
      refine hAll.trans ?_
      rw [congrArg links hNext]
      simp only [opened, later, List.append_assoc] at hHere ⊢
      exact (hHere.append_right _).append_left _

theorem ofLines_glyphs_eq (separator : Option Char) (lines : List Line) :
    (ofLines separator lines).glyphs = (sourced separator lines).map (·.2) := by
  have hNothing : (⟨[], []⟩ : Passage).glyphs = (begun []).map (·.2) := rfl
  exact appendAll_glyphs_eq hNothing 0 none lines

theorem ofLines_links_perm (separator : Option Char) {lines : List Line}
    (hOn : ∀ l ∈ lines, ∀ k ∈ l.links, 0 ≤ k.1) :
    (ofLines separator lines).links.Perm
      ((recorded lines).map fun k => (indexOf (sourced separator lines) k, k.url)) := by
  have hNothing : (⟨[], []⟩ : Passage).glyphs = (begun []).map (·.2) := rfl
  exact appendAll_links_perm hNothing (fun _ hMem => nomatch hMem) none hOn

/-! ## Links of sentences -/

variable {e : Extractor}

/-- Whether a span has an index in it. -/
def Around (r : Nat × Nat) (i : Nat) : Prop := r.1 ≤ i ∧ i < r.2

/-- Of ranges that lie one behind the other, one only has an index in it. -/
theorem eq_of_around {ranges : List (Nat × Nat)} (hApart : ranges.Pairwise fun r s => r.2 ≤ s.1)
    {i m j : Nat} {r s : Nat × Nat} (hr : ranges[i]? = some r) (hs : ranges[m]? = some s)
    (hIn : Around r j) (hAlso : Around s j) : i = m := by
  obtain ⟨hi, rfl⟩ := List.getElem?_eq_some_iff.mp hr
  obtain ⟨hm, rfl⟩ := List.getElem?_eq_some_iff.mp hs
  rcases Nat.lt_trichotomy i m with hBefore | hSame | hBehind
  · have hLe := List.pairwise_iff_getElem.mp hApart i m hi hm hBefore
    exact absurd hIn.2 (Nat.not_lt.mpr (Nat.le_trans hLe hAlso.1))
  · exact hSame
  · have hLe := List.pairwise_iff_getElem.mp hApart m i hm hi hBehind
    exact absurd hAlso.2 (Nat.not_lt.mpr (Nat.le_trans hLe hIn.1))

theorem cuts_pairwise (e : Extractor) (t : Text) : (e.cuts t).Pairwise fun r s => r.2 ≤ s.1 := by
  obtain ⟨stop, hRanges, -⟩ := e.cuts_endToEnd t
  exact hRanges.pairwise

theorem around_iff {r : Nat × Nat} {j : Nat} :
    (decide (r.1 ≤ j) && decide (j < r.2)) = true ↔ Around r j := by
  simp [Around]

theorem targetOf_eq_of_around {spans : List (Nat × Nat)}
    (hApart : spans.Pairwise fun r s => r.2 ≤ s.1) {i j : Nat} {r : Nat × Nat}
    (hAt : spans[i]? = some r) (hIn : Around r j) : targetOf spans j = i := by
  unfold targetOf
  cases hFind : spans.findIdx? (fun r => r.1 ≤ j && decide (j < r.2)) with
  | some m =>
      obtain ⟨hLt, hAround, -⟩ := List.findIdx?_eq_some_iff_getElem.mp hFind
      exact eq_of_around hApart (List.getElem?_eq_getElem hLt) hAt (around_iff.mp hAround) hIn
  | none =>
      have hNot := List.findIdx?_eq_none_iff.mp hFind r (List.mem_of_getElem? hAt)
      rw [around_iff.mpr hIn] at hNot
      cases hNot

theorem targetOf_eq_last {spans : List (Nat × Nat)} {j : Nat}
    (hNone : ∀ r ∈ spans, ¬ Around r j) : targetOf spans j = spans.length - 1 := by
  have hFind : spans.findIdx? (fun r => r.1 ≤ j && decide (j < r.2)) = none :=
    List.findIdx?_eq_none_iff.mpr fun r hMem => by simpa [Around] using hNone r hMem
  rw [targetOf, hFind, Option.getD_none]

theorem targetOf_lt {spans : List (Nat × Nat)} (hSome : spans ≠ []) (j : Nat) :
    targetOf spans j < spans.length := by
  unfold targetOf
  cases hFind : spans.findIdx? (fun r => r.1 ≤ j && decide (j < r.2)) with
  | some i => exact (List.findIdx?_eq_some_iff_getElem.mp hFind).1
  | none => exact Nat.sub_lt (List.length_pos_iff.mpr hSome) Nat.one_pos

/-- Which sentence of a text takes a link. The sentences are counted without the stretches of white
space that are none. -/
inductive GoesTo (e : Extractor) (text : List (Source × Glyph)) (k : RecordedLink) : Nat → Prop where
  /-- The first character that the link reaches is in the sentence. -/
  | around {first i : Nat} {r : Nat × Nat} (hFirst : text.findIdx? (k.reaches ·.1) = some first)
      (hSpan : (spans e (text.map (·.2.char)))[i]? = some r) (hIn : Around r first) :
      GoesTo e text k i
  /-- No character stands at the place of the link or behind it. -/
  | absent (hNone : ∀ s ∈ text, k.reaches s.1 = false) :
      GoesTo e text k ((spans e (text.map (·.2.char))).length - 1)
  /-- The first character that the link reaches is in a stretch of white space. -/
  | dropped {first : Nat} {r : Nat × Nat} (hFirst : text.findIdx? (k.reaches ·.1) = some first)
      (hCut : r ∈ e.cuts (text.map (·.2.char))) (hIn : Around r first)
      (hBlank : (Text.slice (text.map (·.2.char)) r.1 r.2).isAllBlank = true) :
      GoesTo e text k ((spans e (text.map (·.2.char))).length - 1)

theorem exists_goesTo (e : Extractor) (text : List (Source × Glyph)) (k : RecordedLink) :
    ∃ i, GoesTo e text k i := by
  cases hFirst : text.findIdx? (k.reaches ·.1) with
  | none =>
      exact ⟨_, .absent fun s hMem => by simpa using List.findIdx?_eq_none_iff.mp hFirst s hMem⟩
  | some first =>
      obtain ⟨hLt, -⟩ := List.findIdx?_eq_some_iff_getElem.mp hFirst
      obtain ⟨stop, hRanges, hLe⟩ := e.cuts_endToEnd (text.map (·.2.char))
      rw [List.length_map] at hLe
      obtain ⟨r, hCut, hIn⟩ :=
        hRanges.exists_around (Nat.zero_le first) (Nat.lt_of_lt_of_le hLt hLe)
      cases hBlank : (Text.slice (text.map (·.2.char)) r.1 r.2).isAllBlank with
      | true => exact ⟨_, .dropped hFirst hCut hIn hBlank⟩
      | false =>
          have hSpan : r ∈ spans e (text.map (·.2.char)) :=
            List.mem_filter.mpr ⟨hCut, by rw [hBlank, Bool.not_false]⟩
          obtain ⟨i, hAt⟩ := List.getElem?_of_mem hSpan
          exact ⟨i, .around hFirst hAt hIn⟩

theorem GoesTo.eq_targetOf {text : List (Source × Glyph)} {k : RecordedLink} {i : Nat}
    (h : GoesTo e text k i) :
    i = targetOf (spans e (text.map (·.2.char))) (indexOf text k) := by
  have hSub : (spans e (text.map (·.2.char))).Sublist (e.cuts (text.map (·.2.char))) :=
    List.filter_sublist
  cases h with
  | around hFirst hSpan hIn =>
      rw [indexOf, (List.findIdx?_eq_some_iff_findIdx_eq.mp hFirst).2]
      exact (targetOf_eq_of_around ((cuts_pairwise e _).sublist hSub) hSpan hIn).symm
  | absent hNone =>
      rw [indexOf, List.findIdx_eq_length.mpr hNone]
      refine (targetOf_eq_last fun r hMem hIn => ?_).symm
      have hLe := Extractor.le_of_mem_cuts (hSub.subset hMem)
      rw [List.length_map] at hLe
      exact absurd hIn.2 (Nat.not_lt.mpr hLe)
  | @dropped first r hFirst hCut hIn hBlank =>
      rw [indexOf, (List.findIdx?_eq_some_iff_findIdx_eq.mp hFirst).2]
      refine (targetOf_eq_last fun s hMem hAlso => ?_).symm
      obtain ⟨i, hr⟩ := List.getElem?_of_mem hCut
      obtain ⟨m, hs⟩ := List.getElem?_of_mem (hSub.subset hMem)
      cases eq_of_around (cuts_pairwise e _) hr hs hIn hAlso
      cases hr.symm.trans hs
      have hSeen := (List.mem_filter.mp hMem).2
      rw [hBlank] at hSeen
      cases hSeen

/-- Every link goes to one sentence. -/
theorem goesTo_iff {text : List (Source × Glyph)} {k : RecordedLink} {i : Nat} :
    GoesTo e text k i ↔ i = targetOf (spans e (text.map (·.2.char))) (indexOf text k) := by
  constructor
  · exact GoesTo.eq_targetOf
  · rintro rfl
    obtain ⟨i, h⟩ := exists_goesTo e text k
    rwa [← h.eq_targetOf]

/-- The links of the sentence at a place. -/
def linksAt (e : Extractor) (p : Passage) (i : Nat) : List Text :=
  (p.links.filter fun k => targetOf (spans e p.content) k.1 == i).map (·.2)

theorem sentenceOf_links (p : Passage) (links : List Text) (span : Nat × Nat) :
    (p.sentenceOf links span).links = links := rfl

theorem sentences_length (e : Extractor) (p : Passage) :
    (p.sentences e).length = (spans e p.content).length := List.length_mapIdx

theorem sentences_placed (e : Extractor) (p : Passage) :
    (p.sentences e).map Sentence.placed =
      (spans e p.content).map fun span => (p.within span).map Glyph.placed := by
  rw [sentences, map_mapIdx_eq _ _ fun span => (p.within span).map Glyph.placed]
  intro i span
  exact sentenceOf_placed p [] span

theorem links_of_getElem? {p : Passage} {i : Nat} {s : Sentence}
    (h : (p.sentences e)[i]? = some s) : s.links = linksAt e p i := by
  obtain ⟨hLt, rfl⟩ := List.getElem?_eq_some_iff.mp h
  simp [sentences, sentenceOf_links, linksAt]

theorem sentences_links (e : Extractor) (p : Passage) :
    (p.sentences e).map (·.links) = (List.range (spans e p.content).length).map (linksAt e p) := by
  apply List.ext_getElem (by simp [sentences_length])
  intro i hLeft hRight
  rw [List.getElem_map, List.getElem_map, List.getElem_range]
  exact links_of_getElem? (List.getElem?_eq_getElem _)

/-- Every link of a passage goes to a sentence, provided that there is one. -/
theorem flatMap_links_perm {p : Passage} (hSome : spans e p.content ≠ []) :
    ((p.sentences e).flatMap (·.links)).Perm (p.links.map (·.2)) := by
  have hAll : p.links.filter (fun k => decide (targetOf (spans e p.content) k.1 <
      (spans e p.content).length)) = p.links :=
    List.filter_eq_self.mpr fun k _ => decide_eq_true (targetOf_lt hSome k.1)
  have hPlaced := (flatMap_range_filter_perm (fun k => targetOf (spans e p.content) k.1)
    (spans e p.content).length p.links).map (·.2)
  rw [hAll, List.map_flatMap] at hPlaced
  rwa [List.flatMap_def, sentences_links, ← List.flatMap_def]

theorem mem_sourcedFrom (separator : Option Char) {lines : List Line} {l : Line}
    (hLine : l ∈ lines) {g : Glyph} (hGlyph : g ∈ glyphsOf l) (n : Nat) (previous : Option Line) :
    ∃ s ∈ sourcedFrom separator n previous lines, s.1.isJoint = false ∧ s.2 = g := by
  induction lines generalizing n previous with
  | nil => cases hLine
  | cons first rest ih =>
      rcases List.mem_cons.mp hLine with rfl | hLater
      · rw [← cellsOf_glyphs n l] at hGlyph
        obtain ⟨s, hMem, rfl⟩ := List.mem_map.mp hGlyph
        exact ⟨s, by simp [sourcedFrom, hMem], (line_of_mem_cellsOf hMem).2, rfl⟩
      · obtain ⟨s, hMem, hSource⟩ := ih hLater (n + 1) (some first)
        exact ⟨s, by simp [sourcedFrom, hMem], hSource⟩

/-- Something is seen of lines that are not empty, so there is a sentence. -/
theorem spans_ne_nil (e : Extractor) {lines : List Line} (hSeen : ∃ l ∈ lines, l.isEmpty = false) :
    spans e (ofLines e.separator lines).content ≠ [] := by
  obtain ⟨l, hLine, hSome⟩ := hSeen
  obtain ⟨p, hVisible⟩ := List.exists_mem_of_ne_nil _ (Line.visible_ne_nil hSome)
  obtain ⟨hPlaced, hShown⟩ := List.mem_filter.mp hVisible
  obtain ⟨g, hGlyph, rfl⟩ := List.mem_map.mp hPlaced
  obtain ⟨s, hMem, hCell, rfl⟩ := mem_sourcedFrom e.separator hLine hGlyph 0 none
  have hLeft : s.2 ∈ (ofLines e.separator lines).glyphs := by
    rw [ofLines_glyphs_eq]
    exact List.mem_map_of_mem (mem_begun hMem hCell)
  have hAny : s.2.placed ∈ ((ofLines e.separator lines).sentences e).flatMap Sentence.visible := by
    rw [sentences_visible]
    exact List.mem_filter.mpr ⟨List.mem_map_of_mem hLeft, hShown⟩
  intro hNone
  rw [sentences, hNone] at hAny
  cases hAny

end Passage

/-- Joining lines and cutting them into sentences keeps every link once. -/
theorem Line.sentences_take_links (e : Extractor) {lines : List Line}
    (hSeen : ∃ l ∈ lines, l.isEmpty = false) (hOn : ∀ l ∈ lines, ∀ k ∈ l.links, 0 ≤ k.1) :
    let text := Passage.sourced e.separator lines
    let ranges := Passage.spans e (text.map (·.2.char))
    (Line.sentences e lines).map Sentence.placed =
        ranges.map (fun r => ((text.map (·.2.placed)).take r.2).drop r.1) ∧
      ((Line.sentences e lines).flatMap (·.links)).Perm
        (lines.flatMap fun l => l.links.map (·.2)) ∧
      ∃ home : RecordedLink → Nat,
        (∀ k, home k < (Line.sentences e lines).length ∧
          ∀ i, Passage.GoesTo e text k i ↔ i = home k) ∧
        ∀ (i : Nat) (s : Sentence), (Line.sentences e lines)[i]? = some s →
          s.links.Perm (((Passage.recorded lines).filter (home · == i)).map (·.url)) := by
  intro text ranges
  let p := Passage.ofLines e.separator lines
  have hGlyphs : p.glyphs = text.map (·.2) := Passage.ofLines_glyphs_eq e.separator lines
  have hContent : p.content = text.map (·.2.char) := by
    rw [Passage.content, hGlyphs, List.map_map]
    rfl
  have hLinks := Passage.ofLines_links_perm e.separator hOn
  have hSome : Passage.spans e p.content ≠ [] := Passage.spans_ne_nil e hSeen
  refine ⟨?_, ?_, fun k => Passage.targetOf ranges (Passage.indexOf text k), fun k => ⟨?_, ?_⟩, ?_⟩
  · have hPlaced := Passage.sentences_placed e p
    rw [hContent] at hPlaced
    refine hPlaced.trans (List.map_congr_left fun r _ => ?_)
    rw [Passage.within, hGlyphs, List.map_drop, List.map_take, List.map_map]
    rfl
  · have hUrls := hLinks.map (·.2)
    rw [List.map_map] at hUrls
    refine (Passage.flatMap_links_perm hSome).trans (hUrls.trans ?_)
    exact .of_eq (Passage.recordedFrom_urls 0 lines)
  · have hLength := Passage.sentences_length e p
    rw [hContent] at hLength hSome
    exact hLength ▸ Passage.targetOf_lt hSome _
  · exact fun i => Passage.goesTo_iff
  · intro i s hAt
    have hOwn : s.links = Passage.linksAt e p i := Passage.links_of_getElem? hAt
    have hTaken := (hLinks.filter fun k => Passage.targetOf ranges k.1 == i).map (·.2)
    rw [List.filter_map, List.map_map] at hTaken
    rw [hOwn, Passage.linksAt, hContent]
    exact hTaken

/-- A link on the separator between two lines, one on a stretch of white space that is no sentence
and one on an erased character behind it. -/
theorem Line.sentences_take_links_at_end :
    let first : Line := { Line.ofText 1 false "One. Two".toList with
      links := [(8, "joint".toList), (0, "start".toList)] }
    let second : Line := { (Line.ofText 2 false "more. X".toList).erase 6 1 with
      links := [(5, "blank".toList), (0, "more".toList), (6, "erased".toList)] }
    (∃ l ∈ [first, second], l.isEmpty = false) ∧
      (∀ l ∈ [first, second], ∀ k ∈ l.links, 0 ≤ k.1) ∧
      (Line.sentences .standard [first, second]).map (fun s => (s.content, s.links)) =
        [("One.".toList, ["start".toList]), (" Two more.".toList,
          ["joint".toList, "more".toList, "blank".toList, "erased".toList])] ∧
      ((Line.sentences .standard [first, second]).flatMap (·.links)).Perm
        ([first, second].flatMap fun l => l.links.map (·.2)) := by
  intro first second
  have hSeen : ∃ l ∈ [first, second], l.isEmpty = false := by decide
  have hOn : ∀ l ∈ [first, second], ∀ k ∈ l.links, 0 ≤ k.1 := by decide
  exact ⟨hSeen, hOn, by decide +kernel,
    (Line.sentences_take_links .standard hSeen hOn).2.1⟩

end ProseLint
