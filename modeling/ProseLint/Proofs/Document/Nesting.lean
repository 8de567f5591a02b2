import ProseLint.Proofs.Document.Building
import Mathlib.Data.List.Intervals
import Mathlib.Data.Nat.Find
import Mathlib.Order.Bounds.Basic

/-! How sections nest. The builder looks only at the section that was added last and at those
around it. That this finds the nearest earlier section of a lower level, whatever levels come in,
is an invariant of building. It makes the order of the sections that of a walk through the tree. -/

namespace ProseLint

variable {σ τ : Type}

/-- What encloses a section of a level that stands behind `n` others: the nearest of these with
a lower level, or nothing if none of them has one. -/
def IsEnclosing (levels : List Int) (level : Int) (n : Nat) : Option Nat → Prop
  | some p =>
      p < n ∧ (∃ l, levels[p]? = some l ∧ l < level) ∧
        ∀ k l, p < k → k < n → levels[k]? = some l → level ≤ l
  | none => ∀ k l, k < n → levels[k]? = some l → level ≤ l

/-- The indices from `lo` up to `hi` at which a parent is named, in order. -/
def inside (parents : List (Option Nat)) (parent : Option Nat) (lo hi : Nat) : List Nat :=
  (List.Ico lo hi).filter fun j => decide (parents[j]? = some parent)

/-- Every section is inside the nearest earlier one of a lower level, and every section
records what is directly inside it. -/
structure IsNested (sections : List (Section σ)) : Prop where
  parent : ∀ i s, sections[i]? = some s →
    IsEnclosing (sections.map (·.level)) s.level i s.parent
  subsections : ∀ i s, sections[i]? = some s →
    s.subsections = inside (sections.map (·.parent)) (some i) 0 sections.length

/-! ## The invariant -/

theorem IsEnclosing.append {levels : List Int} {level : Int} {n : Nat} {p : Option Nat}
    (h : IsEnclosing levels level n p) (hLe : n ≤ levels.length) (more : List Int) :
    IsEnclosing (levels ++ more) level n p := by
  have hSame : ∀ k, k < n → (levels ++ more)[k]? = levels[k]? := fun k hLt =>
    List.getElem?_append_left (by omega)
  cases p with
  | none => exact fun k l hLt hAt => h k l hLt (hSame k hLt ▸ hAt)
  | some p =>
      obtain ⟨hBefore, hLower, hBetween⟩ := h
      refine ⟨hBefore, ?_, fun k l hk hLt hAt => hBetween k l hk hLt (hSame k hLt ▸ hAt)⟩
      rwa [hSame p hBefore]

/-- What encloses a section is the greatest index of one with a lower level. -/
theorem IsEnclosing.eq_some_iff {levels : List Int} {level : Int} {n : Nat} {p : Option Nat}
    (h : IsEnclosing levels level n p) (j : Nat) :
    p = some j ↔ IsGreatest {k | k < n ∧ ∃ l, levels[k]? = some l ∧ l < level} j := by
  cases p with
  | none =>
      refine ⟨fun hIs => (by cases hIs), fun hGreatest => ?_⟩
      obtain ⟨hLt, l, hAt, hLower⟩ := hGreatest.1
      have hLe := h j l hLt hAt
      omega
  | some q =>
      have hGreatest : IsGreatest {k | k < n ∧ ∃ l, levels[k]? = some l ∧ l < level} q := by
        obtain ⟨hBefore, hLower, hBetween⟩ := h
        refine ⟨⟨hBefore, hLower⟩, fun k hk => ?_⟩
        obtain ⟨hLt, l, hAt, hLess⟩ := hk
        by_contra hNot
        have hLe := hBetween k l (by omega) hLt hAt
        omega
      constructor
      · intro hIs
        cases hIs
        exact hGreatest
      · intro hOther
        rw [hGreatest.unique hOther]

theorem IsEnclosing.eq_none_iff {levels : List Int} {level : Int} {n : Nat} {p : Option Nat}
    (h : IsEnclosing levels level n p) :
    p = none ↔ ¬ ∃ k, k < n ∧ ∃ l, levels[k]? = some l ∧ l < level := by
  cases p with
  | none =>
      refine ⟨fun _ hSome => ?_, fun _ => rfl⟩
      obtain ⟨k, hLt, l, hAt, hLower⟩ := hSome
      have hLe := h k l hLt hAt
      omega
  | some q => exact ⟨fun hIs => (by cases hIs), fun hNone => (hNone ⟨q, h.1, h.2.1⟩).elim⟩

theorem inside_append {lo mid hi : Nat} (parents : List (Option Nat)) (parent : Option Nat)
    (hLo : lo ≤ mid) (hHi : mid ≤ hi) :
    inside parents parent lo hi = inside parents parent lo mid ++ inside parents parent mid hi := by
  rw [inside, ← List.Ico.append_consecutive hLo hHi, List.filter_append]
  rfl

theorem inside_eq_nil {parents : List (Option Nat)} {parent : Option Nat} {lo hi : Nat}
    (h : ∀ j, lo ≤ j → j < hi → parents[j]? ≠ some parent) : inside parents parent lo hi = [] := by
  refine List.filter_eq_nil_iff.mpr fun j hMem => ?_
  obtain ⟨hLo, hHi⟩ := List.Ico.mem.mp hMem
  simpa using h j hLo hHi

theorem mem_inside {parents : List (Option Nat)} {parent : Option Nat} {lo hi j : Nat} :
    j ∈ inside parents parent lo hi ↔ (lo ≤ j ∧ j < hi) ∧ parents[j]? = some parent := by
  rw [inside, List.mem_filter, List.Ico.mem, decide_eq_true_eq]

/-- Of the indices up to some place, those before an earlier place. -/
theorem filter_inside (parents : List (Option Nat)) (parent : Option Nat) {m n : Nat} (h : m ≤ n) :
    (inside parents parent 0 n).filter (fun j => decide (j < m)) = inside parents parent 0 m := by
  rw [inside_append parents parent (Nat.zero_le m) h, List.filter_append]
  have hBefore : (inside parents parent 0 m).filter (fun j => decide (j < m)) =
      inside parents parent 0 m :=
    List.filter_eq_self.mpr fun j hMem => by simpa using (mem_inside.mp hMem).1.2
  have hAfter : (inside parents parent m n).filter (fun j => decide (j < m)) = [] :=
    List.filter_eq_nil_iff.mpr fun j hMem => by simpa using (mem_inside.mp hMem).1.1
  rw [hBefore, hAfter, List.append_nil]

/-- One more place holds one more index, if the parent is named there. -/
theorem inside_succ (parents : List (Option Nat)) (parent : Option Nat) (n : Nat) :
    inside parents parent 0 (n + 1) =
      inside parents parent 0 n ++ if parents[n]? = some parent then [n] else [] := by
  have hNew : inside parents parent n (n + 1) = if parents[n]? = some parent then [n] else [] := by
    rw [inside, List.Ico.succ_singleton]
    simp [List.filter_cons]
  rw [inside_append _ _ (Nat.zero_le _) (Nat.le_succ n), hNew]

theorem inside_concat (parents : List (Option Nat)) (p parent : Option Nat) :
    inside (parents ++ [p]) parent 0 (parents.length + 1) =
      inside parents parent 0 parents.length ++
        if p = parent then [parents.length] else [] := by
  have hOld : inside (parents ++ [p]) parent 0 parents.length =
      inside parents parent 0 parents.length := by
    refine List.filter_congr fun j hMem => ?_
    rw [List.getElem?_append_left (List.Ico.mem.mp hMem).2]
  rw [inside_succ, hOld, List.getElem?_concat_length]
  simp

namespace Section

theorem attach_level (sections : List (Section σ)) (s : Section σ) :
    (attach sections s).map (·.level) = sections.map (·.level) ++ [s.level] :=
  attach_map (fun _ _ => rfl) sections s

theorem attach_length (sections : List (Section σ)) (s : Section σ) :
    (attach sections s).length = sections.length + 1 := by
  simpa using congrArg List.length (attach_level sections s)

theorem attach_parent (sections : List (Section σ)) (s : Section σ) :
    (attach sections s).map (·.parent) = sections.map (·.parent) ++ [s.parent] :=
  attach_map (fun _ _ => rfl) sections s

/-- Of the sections that are there already only the one around the new one changes. -/
theorem getElem?_attach (sections : List (Section σ)) (s : Section σ) (i : Nat) :
    (attach sections s)[i]? =
      if i = sections.length then some s
      else sections[i]?.map fun r =>
        if s.parent = some i then r.enclose sections.length else r := by
  have hAppend : ∀ old : List (Section σ), old.length = sections.length →
      (old ++ [s])[i]? = if i = sections.length then some s else old[i]? := by
    intro old hLength
    rcases Nat.lt_trichotomy i sections.length with hLt | hEq | hGt
    · rw [if_neg hLt.ne, List.getElem?_append_left (by omega)]
    · rw [if_pos hEq, List.getElem?_append_right (by omega), hLength, hEq, Nat.sub_self]
      rfl
    · have hPast : (old ++ [s]).length ≤ i := by
        rw [List.length_append, List.length_singleton]
        omega
      rw [if_neg (by omega), List.getElem?_eq_none hPast, List.getElem?_eq_none (by omega)]
  unfold attach
  cases hParent : s.parent with
  | none =>
      simp only [hAppend sections rfl]
      congr 1
      simp
  | some p =>
      simp only [hAppend _ (List.length_modify ..), List.getElem?_modify]
      congr 2
      funext r
      simp only [Option.some_inj, eq_comm]

theorem of_getElem?_attach {sections : List (Section σ)} {s r : Section σ} {i : Nat}
    (h : (attach sections s)[i]? = some r) :
    (∃ old, sections[i]? = some old ∧
      r = if s.parent = some i then old.enclose sections.length else old) ∨
    (i = sections.length ∧ r = s) := by
  rw [getElem?_attach] at h
  split at h
  · next hEnd => exact Or.inr ⟨hEnd, (Option.some.inj h).symm⟩
  · obtain ⟨old, hOld, rfl⟩ := Option.map_eq_some_iff.mp h
    exact Or.inl ⟨old, hOld, rfl⟩

end Section

theorem getElem?_parents {sections : List (Section σ)} {i : Nat} {p : Option Nat} :
    (sections.map (·.parent))[i]? = some p ↔ ∃ s, sections[i]? = some s ∧ s.parent = p := by
  rw [List.getElem?_map, Option.map_eq_some_iff]

theorem getElem?_level {sections : List (Section σ)} {i : Nat} {s : Section σ}
    (h : sections[i]? = some s) : (sections.map (·.level))[i]? = some s.level := by
  rw [List.getElem?_map, h]
  rfl

namespace IsNested

variable {sections : List (Section σ)}

theorem parent_lt (h : IsNested sections) {i p : Nat} {s : Section σ}
    (hAt : sections[i]? = some s) (hParent : s.parent = some p) : p < i := by
  have hEnclosing := h.parent i s hAt
  rw [hParent] at hEnclosing
  exact hEnclosing.1

/-- What is inside a section has a higher level. -/
theorem level_lt (h : IsNested sections) {i p : Nat} {s r : Section σ}
    (hs : sections[i]? = some s) (hParent : s.parent = some p) (hr : sections[p]? = some r) :
    r.level < s.level := by
  have hEnclosing := h.parent i s hs
  rw [hParent] at hEnclosing
  obtain ⟨_, ⟨l, hLevel, hLower⟩, _⟩ := hEnclosing
  rw [getElem?_level hr, Option.some_inj] at hLevel
  rwa [hLevel]

/-- Nothing up to a section is inside it. -/
theorem inside_self_eq_nil (h : IsNested sections) {i hi : Nat} (hLe : hi ≤ i + 1) :
    inside (sections.map (·.parent)) (some i) 0 hi = [] := by
  refine inside_eq_nil fun j _ hLt hIs => ?_
  obtain ⟨s, hAt, hParent⟩ := getElem?_parents.mp hIs
  have hBefore := h.parent_lt hAt hParent
  omega

theorem attach (h : IsNested sections) {s : Section σ}
    (hParent : IsEnclosing (sections.map (·.level)) s.level sections.length s.parent)
    (hAlone : s.subsections = []) : IsNested (Section.attach sections s) := by
  have hEarlier : ∀ p, s.parent = some p → p < sections.length := by
    intro p hIs
    rw [hIs] at hParent
    exact hParent.1
  refine ⟨fun i r hAt => ?_, fun i r hAt => ?_⟩
  · rw [Section.attach_level]
    rcases Section.of_getElem?_attach hAt with ⟨old, hOld, rfl⟩ | ⟨rfl, rfl⟩
    · have hSame : IsEnclosing (sections.map (·.level)) old.level i old.parent :=
        h.parent i old hOld
      have hLt := (List.getElem?_eq_some_iff.mp hOld).1
      have hLe : i ≤ (sections.map (·.level)).length := by simpa using hLt.le
      split
      · exact hSame.append hLe _
      · exact hSame.append hLe _
    · exact hParent.append (by simp) _
  · have hInside := inside_concat (sections.map (·.parent)) s.parent (some i)
    rw [List.length_map] at hInside
    rw [Section.attach_parent, Section.attach_length, hInside]
    rcases Section.of_getElem?_attach hAt with ⟨old, hOld, rfl⟩ | ⟨rfl, rfl⟩
    · split
      · rw [← h.subsections i old hOld]
        rfl
      · rw [h.subsections i old hOld, List.append_nil]
    · -- Every parent stands in front, so nothing is inside the last section yet.
      have hNot : ¬ r.parent = some sections.length := fun hIs => (hEarlier _ hIs).ne rfl
      rw [hAlone, h.inside_self_eq_nil (Nat.le_succ _), if_neg hNot, List.append_nil]

/-- Only levels, parents and subsections count. -/
theorem of_frames {others : List (Section τ)} (h : IsNested sections)
    (hSame : others.map Section.frame = sections.map Section.frame) : IsNested others := by
  have hLevels : others.map (·.level) = sections.map (·.level) := by
    have hFirst := congrArg (List.map (·.1)) hSame
    rwa [List.map_map, List.map_map] at hFirst
  have hParents : others.map (·.parent) = sections.map (·.parent) := by
    have hSecond := congrArg (List.map (·.2.1)) hSame
    rwa [List.map_map, List.map_map] at hSecond
  have hAt : ∀ (i : Nat) (r : Section τ), others[i]? = some r →
      ∃ s : Section σ, sections[i]? = some s ∧ s.frame = r.frame := by
    intro i r hIs
    refine Option.map_eq_some_iff.mp ?_
    rw [← List.getElem?_map, ← hSame, List.getElem?_map, hIs]
    rfl
  refine ⟨fun i r hIs => ?_, fun i r hIs => ?_⟩
  · obtain ⟨s, hOld, hFrame⟩ := hAt i r hIs
    have hLevel : s.level = r.level := congrArg (·.1) hFrame
    have hParent : s.parent = r.parent := congrArg (·.2.1) hFrame
    rw [hLevels, ← hLevel, ← hParent]
    exact h.parent i s hOld
  · obtain ⟨s, hOld, hFrame⟩ := hAt i r hIs
    have hSubsections : s.subsections = r.subsections := congrArg (·.2.2) hFrame
    have hLength : others.length = sections.length := by
      simpa using congrArg List.length hSame
    rw [hParents, hLength, ← hSubsections]
    exact h.subsections i s hOld

end IsNested

/-! ## Building keeps it -/

namespace Builder

/-- From a section that only sections of no lower level follow, the walk outwards meets the
nearest one of a lower level. What it leaves out lies behind a section of no lower level and
before another, and that is enough. -/
theorem enclosing_spec {sections : List (Section Sentence)} (h : IsNested sections) (level : Int)
    (i : Nat) (hLt : i < sections.length)
    (hBehind : ∀ k l, i < k → k < sections.length →
      (sections.map (·.level))[k]? = some l → level ≤ l) :
    IsEnclosing (sections.map (·.level)) level sections.length (enclosing sections level i) := by
  induction i using Nat.strong_induction_on with
  | _ i ih =>
      have hAt := List.getElem?_eq_getElem hLt
      have hLevel := getElem?_level hAt
      have hParent := h.parent i _ hAt
      rw [enclosing, hAt]
      simp only
      split
      · next hLower => exact ⟨hLt, ⟨_, hLevel, hLower⟩, hBehind⟩
      · next hNotLower =>
          cases hIs : sections[i].parent with
          | none =>
              rw [hIs] at hParent
              intro k l hk hkAt
              rcases Nat.lt_trichotomy k i with hBefore | rfl | hAfter
              · have hLe := hParent k l hBefore hkAt
                omega
              · rw [hLevel, Option.some_inj] at hkAt
                omega
              · exact hBehind k l hAfter hk hkAt
          | some p =>
              rw [hIs] at hParent
              obtain ⟨hBefore, _, hBetween⟩ := hParent
              simp only [hBefore, if_true]
              refine ih p hBefore (by omega) fun k l hpk hk hkAt => ?_
              rcases Nat.lt_trichotomy k i with hEarlier | rfl | hAfter
              · have hLe := hBetween k l hpk hEarlier hkAt
                omega
              · rw [hLevel, Option.some_inj] at hkAt
                omega
              · exact hBehind k l hAfter hk hkAt

theorem parentFor_spec {b : Builder} (h : IsNested b.sections) (level : Int) :
    IsEnclosing (b.sections.map (·.level)) level b.sections.length (b.parentFor level) := by
  unfold parentFor
  rcases Nat.eq_zero_or_pos b.sections.length with hZero | hPos
  · rw [List.length_eq_zero_iff] at hZero
    rw [hZero, enclosing]
    exact fun k l hk => absurd hk (Nat.not_lt_zero k)
  · exact enclosing_spec h level _ (by omega) fun k l hk hLt => by omega

theorem addSection_isNested {b : Builder} (h : IsNested b.sections) (level : Int)
    (header : List Sentence) : IsNested (b.addSection level header).sections :=
  h.attach (parentFor_spec h level) rfl

/-- What opening a section keeps, and changing one without moving it, every step keeps. -/
theorem apply_sections_induction {P : List (Section Sentence) → Prop}
    (hOpen : ∀ (b : Builder) level header, P b.sections → P (b.addSection level header).sections)
    (hChange : ∀ sections i (f : Section Sentence → Section Sentence),
      (∀ s, (f s).frame = s.frame) → P sections → P (sections.modify i f))
    (b : Builder) (operation : Operation) (h : P b.sections) :
    P (b.apply operation).sections := by
  have hRequire : ∀ c : Builder, P c.sections → P c.requireSection.sections := by
    intro c hc
    unfold requireSection
    split
    · exact hOpen c 0 [] hc
    · exact hc
  have hParagraph : ∀ c : Builder, P c.sections → P c.addParagraph.sections := fun c hc =>
    hChange _ _ _ (fun _ => rfl) (hRequire { c with inList := false } hc)
  have hBlock : ∀ c : Builder, P c.sections → P c.addListBlock.sections := fun c hc =>
    hChange _ _ _ (fun _ => rfl) (hRequire { c with inList := true } hc)
  have hElement : ∀ (c : Builder) level added, P c.sections →
      P (c.addListElement level added).sections := by
    intro c level added hc
    refine hChange _ _ _ (fun _ => rfl) ?_
    split
    · exact hRequire c hc
    · exact hBlock _ (hRequire c hc)
  cases operation with
  | setFileName name => exact h
  | addRule rule => exact h
  | addSection level header => exact hOpen b level header h
  | addParagraph => exact hParagraph b h
  | addSentence sentence =>
      show P (b.addSentence sentence).sections
      unfold addSentence
      extract_lets opened noParagraph ready
      have hReady : P ready.sections := by
        simp only [ready]
        split
        · exact hParagraph _ (hRequire b h)
        · exact hRequire b h
      exact hChange _ _ _ (fun _ => rfl) hReady
  | addListBlock => exact hBlock b h
  | addListElement level added => exact hElement b level added h
  | extendListElement level added =>
      simp only [apply, extendListElement]
      split
      · exact hElement _ level added (hRequire b h)
      · exact hChange _ _ _ (fun _ => rfl) (hRequire b h)

/-- However a document is built, its sections nest by their levels. -/
theorem run_isNested (operations : List Operation) : IsNested (run operations).sections := by
  refine run_induction (P := fun b => IsNested b.sections) ?_ (fun b operation h => ?_) operations
  · exact ⟨by simp [empty], by simp [empty]⟩
  · refine apply_sections_induction (fun _ level header hb => addSection_isNested hb level header)
      (fun sections i f hf hs => hs.of_frames ?_) b operation h
    exact map_modify_of_eq hf sections i

end Builder

/-! ## The tree -/

/-- The sections from `lo` up to `hi` are some sections with one and the same parent, each with
all that is inside it right behind it. -/
inductive IsForest (sections : List (Section σ)) : Option Nat → Nat → Nat → List Nat → Prop where
  | nil (p : Option Nat) (lo : Nat) : IsForest sections p lo lo []
  | cons {lo mid hi : Nat} {s : Section σ} {rest : List Nat} (root : sections[lo]? = some s)
      (inner : IsForest sections (some lo) (lo + 1) mid s.subsections)
      (outer : IsForest sections s.parent mid hi rest) :
      IsForest sections s.parent lo hi (lo :: rest)

/-- The places up to the next one with a given parent, or up to the end. -/
theorem exists_next (sections : List (Section σ)) (p : Option Nat) {lo hi : Nat} (hLt : lo < hi) :
    ∃ mid, lo < mid ∧ mid ≤ hi ∧
      (mid < hi → (sections.map (·.parent))[mid]? = some p) ∧
      ∀ k, lo < k → k < mid → (sections.map (·.parent))[k]? ≠ some p := by
  have hSome : ∃ k, lo < k ∧ (k = hi ∨ (sections.map (·.parent))[k]? = some p) :=
    ⟨hi, hLt, Or.inl rfl⟩
  classical
  obtain ⟨hAfter, hEnd⟩ := Nat.find_spec hSome
  refine ⟨Nat.find hSome, hAfter, Nat.find_min' hSome ⟨hLt, Or.inl rfl⟩, fun hBefore => ?_, ?_⟩
  · exact hEnd.resolve_left hBefore.ne
  · exact fun k hk hkLt hIs => Nat.find_min hSome hkLt ⟨hk, Or.inr hIs⟩

namespace IsNested

variable {sections : List (Section σ)}

/-- What stands between a section and its parent is inside the parent, at some depth. -/
theorem le_parent_of_between (h : IsNested sections) {i k q : Nat} {s r : Section σ}
    (hs : sections[i]? = some s) (hq : s.parent = some q) (hr : sections[k]? = some r)
    (hqk : q < k) (hki : k < i) : ∃ p, r.parent = some p ∧ q ≤ p := by
  have hOuter := h.parent i s hs
  rw [hq] at hOuter
  obtain ⟨_, ⟨l, hLevel, hLower⟩, hBetween⟩ := hOuter
  have hLe := hBetween k r.level hqk hki (getElem?_level hr)
  have hInner := h.parent k r hr
  cases hp : r.parent with
  | none =>
      rw [hp] at hInner
      have hNone := hInner q l hqk hLevel
      omega
  | some p =>
      rw [hp] at hInner
      refine ⟨p, rfl, ?_⟩
      by_contra hNot
      have hBelow := hInner.2.2 q l (by omega) hqk hLevel
      omega

theorem subsections_eq_inside (h : IsNested sections) {lo mid : Nat} {s : Section σ}
    (hAt : sections[lo]? = some s) (hLt : lo < mid) (hBound : mid ≤ sections.length)
    (hApart : ∀ k r q, mid ≤ k → sections[k]? = some r → r.parent = some q → q < lo ∨ mid ≤ q) :
    s.subsections = inside (sections.map (·.parent)) (some lo) (lo + 1) mid := by
  have hOff : ∀ j, j ≤ lo ∨ mid ≤ j → (sections.map (·.parent))[j]? ≠ some (some lo) := by
    intro j hj hIs
    obtain ⟨r, hr, hParent⟩ := getElem?_parents.mp hIs
    have hBefore := h.parent_lt hr hParent
    rcases hj with hEarly | hLate
    · omega
    · rcases hApart j r lo hLate hr hParent with hLess | hGreater <;> omega
  rw [h.subsections lo s hAt, inside_append _ _ (Nat.zero_le mid) hBound,
    inside_append _ _ (Nat.zero_le (lo + 1)) hLt,
    inside_eq_nil fun j _ hj => hOff j (Or.inl (by omega)),
    inside_eq_nil fun j hj _ => hOff j (Or.inr hj), List.nil_append, List.append_nil]

end IsNested

/-- Sections from `lo` up to `hi` that are inside each other, but for one parent that they may
have in front, while nothing behind them is inside any of them. -/
structure IsStretch (sections : List (Section σ)) (p : Option Nat) (lo hi : Nat) : Prop where
  le : lo ≤ hi
  bound : hi ≤ sections.length
  outer : ∀ q, p = some q → q < lo
  within : ∀ k s, lo ≤ k → k < hi → sections[k]? = some s →
    s.parent = p ∨ ∃ q, s.parent = some q ∧ lo ≤ q
  behind : ∀ k s q, hi ≤ k → sections[k]? = some s → s.parent = some q → q < lo ∨ hi ≤ q

namespace IsStretch

variable {sections : List (Section σ)} {p : Option Nat} {lo mid hi : Nat}

theorem all (sections : List (Section σ)) : IsStretch sections none 0 sections.length := by
  refine ⟨Nat.zero_le _, le_rfl, by simp, ?_, ?_⟩
  · intro k s _ _ _
    cases hParent : s.parent with
    | none => exact Or.inl rfl
    | some q => exact Or.inr ⟨q, rfl, Nat.zero_le q⟩
  · intro k s q hk hs
    have hLt := (List.getElem?_eq_some_iff.mp hs).1
    omega

/-- The first section of a stretch has no other one in it as its parent. -/
theorem first_parent (hStretch : IsStretch sections p lo hi) (h : IsNested sections)
    (hLt : lo < hi) {s : Section σ} (hAt : sections[lo]? = some s) : s.parent = p := by
  rcases hStretch.within lo s le_rfl hLt hAt with hIs | ⟨q, hIs, hGe⟩
  · exact hIs
  · have hEarlier := h.parent_lt hAt hIs
    omega

/-- Up to the next one with the same parent, sections are inside the first or each other. So
nothing from there on is inside any of them. -/
theorem apart_of_next (hStretch : IsStretch sections p lo hi) (h : IsNested sections)
    (hUpTo : mid ≤ hi) (hNext : mid < hi → (sections.map (·.parent))[mid]? = some p)
    (k : Nat) (s : Section σ) (q : Nat) (hk : mid ≤ k) (hs : sections[k]? = some s)
    (hq : s.parent = some q) : q < lo ∨ mid ≤ q := by
  rcases Nat.lt_or_ge k hi with hLt | hGe
  · by_contra hNot
    -- A parent of `k` before `mid` would have `mid` inside it too, and `mid` is inside `p`.
    obtain ⟨m, hm, hmParent⟩ := getElem?_parents.mp (hNext (by omega))
    have hBetween : ∃ o, m.parent = some o ∧ q ≤ o := by
      rcases Nat.eq_or_lt_of_le hk with rfl | hBefore
      · rw [hm, Option.some_inj] at hs
        exact ⟨q, hs ▸ hq, le_rfl⟩
      · exact h.le_parent_of_between hs hq hm (by omega) hBefore
    obtain ⟨o, ho, hqo⟩ := hBetween
    have hoLt := hStretch.outer o (hmParent ▸ ho)
    omega
  · rcases hStretch.behind k s q hGe hs hq with hLess | hGreater
    · exact Or.inl hLess
    · exact Or.inr (hUpTo.trans hGreater)

/-- What stands before the next one with the same parent, without the first. -/
theorem inside_first (hStretch : IsStretch sections p lo hi) (hAfter : lo < mid) (hUpTo : mid ≤ hi)
    (hNone : ∀ k, lo < k → k < mid → (sections.map (·.parent))[k]? ≠ some p)
    (hApart : ∀ k s q, mid ≤ k → sections[k]? = some s → s.parent = some q → q < lo ∨ mid ≤ q) :
    IsStretch sections (some lo) (lo + 1) mid := by
  refine ⟨hAfter, hUpTo.trans hStretch.bound, by simp, ?_, ?_⟩
  · intro k s hk hkLt hs
    rcases hStretch.within k s (by omega) (by omega) hs with hIs | ⟨q, hIs, hGe⟩
    · exact (hNone k hk hkLt (getElem?_parents.mpr ⟨s, hs, hIs⟩)).elim
    · rcases Nat.eq_or_lt_of_le hGe with rfl | hGreater
      · exact Or.inl hIs
      · exact Or.inr ⟨q, hIs, hGreater⟩
  · intro k s q hk hs hq
    rcases hApart k s q hk hs hq with hLess | hGreater
    · exact Or.inl (by omega)
    · exact Or.inr hGreater

/-- What stands from the next one with the same parent on. -/
theorem from_next (hStretch : IsStretch sections p lo hi) (hAfter : lo < mid) (hUpTo : mid ≤ hi)
    (hApart : ∀ k s q, mid ≤ k → sections[k]? = some s → s.parent = some q → q < lo ∨ mid ≤ q) :
    IsStretch sections p mid hi := by
  refine ⟨hUpTo, hStretch.bound, fun q hq => (hStretch.outer q hq).trans hAfter, ?_, ?_⟩
  · intro k s hk hkLt hs
    rcases hStretch.within k s (by omega) hkLt hs with hIs | ⟨q, hIs, hGe⟩
    · exact Or.inl hIs
    · rcases hApart k s q hk hs hIs with hLess | hGreater
      · omega
      · exact Or.inr ⟨q, hIs, hGreater⟩
  · intro k s q hk hs hq
    rcases hStretch.behind k s q hk hs hq with hLess | hGreater
    · exact Or.inl (hLess.trans hAfter)
    · exact Or.inr hGreater

end IsStretch

theorem inside_eq_cons {sections : List (Section σ)} {p : Option Nat} {lo mid hi : Nat}
    {s : Section σ} (hAt : sections[lo]? = some s) (hRoot : s.parent = p) (hAfter : lo < mid)
    (hUpTo : mid ≤ hi) (hNone : ∀ k, lo < k → k < mid → (sections.map (·.parent))[k]? ≠ some p) :
    inside (sections.map (·.parent)) p lo hi =
      lo :: inside (sections.map (·.parent)) p mid hi := by
  have hFirst : inside (sections.map (·.parent)) p lo (lo + 1) = [lo] := by
    rw [inside, List.Ico.succ_singleton]
    simp [hAt, hRoot]
  rw [inside_append _ _ hAfter.le hUpTo, inside_append _ _ (Nat.le_succ lo) hAfter, hFirst,
    inside_eq_nil fun j hj hjLt => hNone j (by omega) hjLt]
  rfl

/-- A stretch of sections makes a forest. -/
theorem IsStretch.isForest {sections : List (Section σ)} (h : IsNested sections)
    {lo hi : Nat} {p : Option Nat} (hStretch : IsStretch sections p lo hi) :
    IsForest sections p lo hi (inside (sections.map (·.parent)) p lo hi) := by
  -- The size decreases twice: inside the first section, and past all that is inside it.
  induction hSize : hi - lo using Nat.strong_induction_on generalizing lo hi p with
  | _ size ih =>
      rcases Nat.eq_or_lt_of_le hStretch.le with rfl | hLt
      · rw [inside, List.Ico.self_empty]
        exact .nil p lo
      · obtain ⟨mid, hAfter, hUpTo, hNext, hNone⟩ := exists_next sections p hLt
        have hBound := hStretch.bound
        have hApart := hStretch.apart_of_next h hUpTo hNext
        have hAt := List.getElem?_eq_getElem (show lo < sections.length by omega)
        have hRoot : sections[lo].parent = p := hStretch.first_parent h hLt hAt
        have hInner : IsForest sections (some lo) (lo + 1) mid sections[lo].subsections := by
          rw [h.subsections_eq_inside hAt hAfter (by omega) hApart]
          exact ih (mid - (lo + 1)) (by omega)
            (hStretch.inside_first hAfter hUpTo hNone hApart) rfl
        have hRest : IsForest sections p mid hi (inside (sections.map (·.parent)) p mid hi) :=
          ih (hi - mid) (by omega) (hStretch.from_next hAfter hUpTo hApart) rfl
        rw [inside_eq_cons hAt hRoot hAfter hUpTo hNone]
        rw [← hRoot] at hRest ⊢
        exact .cons hAt hInner hRest

namespace Document

theorem mem_childrenOf {d : Document σ} {i j : Nat} (h : j ∈ d.childrenOf i) :
    i < j ∧ j < d.sections.length := by
  rw [childrenOf, List.mem_filter, Bool.and_eq_true, decide_eq_true_eq, decide_eq_true_eq] at h
  exact h.2

/-- A section and all that is inside it, parents first and in the order of the subsections. -/
def preorder (d : Document σ) (i : Nat) : List Nat :=
  i :: (d.childrenOf i).attach.flatMap fun j => d.preorder j.1
termination_by d.sections.length - i
decreasing_by
  have h := mem_childrenOf j.2
  omega

theorem preorder_eq (d : Document σ) (i : Nat) :
    d.preorder i = i :: (d.childrenOf i).flatMap d.preorder := by
  rw [preorder]
  simp [List.flatMap_def]

theorem childrenOf_eq {d : Document σ} (h : IsNested d.sections) {i : Nat} {s : Section σ}
    (hAt : d.sections[i]? = some s) : d.childrenOf i = s.subsections := by
  rw [childrenOf, hAt]
  refine List.filter_eq_self.mpr fun j hMem => ?_
  simp only [Option.map_some, Option.getD_some, h.subsections i s hAt, mem_inside] at hMem
  obtain ⟨⟨_, hLt⟩, hIs⟩ := hMem
  obtain ⟨r, hr, hParent⟩ := getElem?_parents.mp hIs
  simp [hLt, h.parent_lt hr hParent]

theorem roots_eq (d : Document σ) :
    d.roots = inside (d.sections.map (·.parent)) none 0 d.sections.length := by
  rw [roots, inside, List.Ico.zero_bot]
  refine List.filter_congr fun j hMem => ?_
  obtain ⟨s, hAt⟩ : ∃ s, d.sections[j]? = some s :=
    ⟨_, List.getElem?_eq_getElem (List.mem_range.mp hMem)⟩
  rw [List.getElem?_map, hAt]
  cases hParent : s.parent <;> simp [hParent]

/-- A walk through a forest meets its sections in their order. -/
theorem flatMap_preorder {d : Document σ} (h : IsNested d.sections) {p : Option Nat} {lo hi : Nat}
    {roots : List Nat} (hForest : IsForest d.sections p lo hi roots) :
    lo ≤ hi ∧ roots.flatMap d.preorder = List.Ico lo hi := by
  induction hForest with
  | nil p lo => simp
  | @cons lo mid hi s rest root inner outer hInner hOuter =>
      obtain ⟨hFirst, hInside⟩ := hInner
      obtain ⟨hSecond, hBehind⟩ := hOuter
      refine ⟨by omega, ?_⟩
      rw [List.flatMap_cons, preorder_eq, childrenOf_eq h root, hInside, hBehind,
        List.cons_append, List.Ico.append_consecutive hFirst hSecond,
        ← List.Ico.eq_cons (by omega)]

end Document

theorem Section.map_frame (f : σ → τ) (s : Section σ) : (s.map f).frame = s.frame := rfl

theorem Builder.build_isNested (operations : List Builder.Operation)
    (tokenizer : Option Tokenizer) :
    IsNested ((Builder.run operations).build tokenizer).sections := by
  refine (Builder.run_isNested operations).of_frames ?_
  rw [Builder.build_sections, List.map_map]
  exact List.map_congr_left fun s _ => s.map_frame _

/-- In a document that is built in any way, a section is inside the nearest earlier section of
a lower level, and inside none exactly if there is none. It records the sections directly
inside it in their order, and all of these have a higher level. A walk from the sections that
nothing encloses, each followed by what is inside it, meets the sections in their order. -/
theorem sections_nest (operations : List Builder.Operation) (tokenizer : Option Tokenizer) :
    let d := (Builder.run operations).build tokenizer
    (∀ i s, d.sections[i]? = some s →
      (∀ j, s.parent = some j ↔
        IsGreatest {k | k < i ∧ ∃ r, d.sections[k]? = some r ∧ r.level < s.level} j) ∧
      (s.parent = none ↔ ¬ ∃ k, k < i ∧ ∃ r, d.sections[k]? = some r ∧ r.level < s.level) ∧
      (s.subsections = (List.range d.sections.length).filter fun j =>
        decide (d.sections[j]?.bind (·.parent) = some i)) ∧
      (∀ j ∈ s.subsections, ∃ r, d.sections[j]? = some r ∧ s.level < r.level) ∧
      d.childrenOf i = s.subsections) ∧
    d.roots.flatMap d.preorder = List.range d.sections.length := by
  intro d
  have hNested : IsNested d.sections := Builder.build_isNested operations tokenizer
  refine ⟨fun i s hAt => ⟨fun j => ?_, ?_, ?_, ?_, Document.childrenOf_eq hNested hAt⟩, ?_⟩
  · rw [(hNested.parent i s hAt).eq_some_iff]
    simp
  · rw [(hNested.parent i s hAt).eq_none_iff]
    simp
  · rw [hNested.subsections i s hAt, inside, List.Ico.zero_bot]
    refine List.filter_congr fun j _ => ?_
    rw [List.getElem?_map]
    cases d.sections[j]? <;> simp
  · intro j hMem
    rw [hNested.subsections i s hAt, mem_inside] at hMem
    obtain ⟨r, hr, hParent⟩ := getElem?_parents.mp hMem.2
    exact ⟨r, hr, hNested.level_lt hr hParent hAt⟩
  · rw [Document.roots_eq, ← List.Ico.zero_bot]
    exact (Document.flatMap_preorder hNested ((IsStretch.all d.sections).isForest hNested)).2

/-- Levels may jump, repeat and fall below all that came before. -/
example : (Builder.run ([2, 1, 3, 3, 2, 0, 5].map fun l => .addSection l [])).sections.map
    (fun s => (s.parent, s.subsections)) =
      [(none, []), (none, [2, 3, 4]), (some 1, []), (some 1, []), (some 1, []), (none, [6]),
        (some 5, [])] := by
  decide +kernel

end ProseLint
