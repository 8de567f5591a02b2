import Mathlib.Data.List.TakeWhile
import ProseLint.Text.Blank

/-! What is seen of a text. White space is not seen, so a piece of a text that shows something
is not blank, and cutting off the white space at the end leaves a character that is seen. -/

namespace ProseLint

/-- Something is seen of a text from one position up to another. -/
def Text.ShowsIn (t : Text) (start stop : Nat) : Prop :=
  ∃ i c, start ≤ i ∧ i < stop ∧ t[i]? = some c ∧ isBlank c = false

namespace Text.ShowsIn

variable {t : Text} {start stop : Nat}

theorem mono {start' stop' : Nat} (h : t.ShowsIn start stop) (hStart : start' ≤ start)
    (hStop : stop ≤ stop') : t.ShowsIn start' stop' := by
  obtain ⟨i, c, hFrom, hTo, hAt, hSeen⟩ := h
  exact ⟨i, c, by omega, by omega, hAt, hSeen⟩

theorem of_drop {n : Nat} (h : ShowsIn (t.drop n) start stop) :
    t.ShowsIn (n + start) (n + stop) := by
  obtain ⟨i, c, hFrom, hTo, hAt, hSeen⟩ := h
  rw [List.getElem?_drop] at hAt
  exact ⟨n + i, c, by omega, by omega, hAt, hSeen⟩

theorem of_prefix {w : Text} (h : w <+: t) (hSeen : ∃ c ∈ w, isBlank c = false) :
    t.ShowsIn 0 w.length := by
  obtain ⟨behind, rfl⟩ := h
  obtain ⟨c, hMem, hSeen⟩ := hSeen
  obtain ⟨i, hAt⟩ := List.getElem?_of_mem hMem
  have hLt : i < w.length := (List.getElem?_eq_some_iff.mp hAt).1
  exact ⟨i, c, Nat.zero_le i, hLt, by rw [List.getElem?_append_left hLt, hAt], hSeen⟩

theorem isAllBlank_slice (h : t.ShowsIn start stop) : (t.slice start stop).isAllBlank = false := by
  obtain ⟨i, c, hFrom, hTo, hAt, hSeen⟩ := h
  have hMem : c ∈ t.slice start stop := by
    refine List.mem_of_getElem? (i := i - start) ?_
    rw [slice, List.getElem?_drop, Nat.add_sub_cancel' hFrom, List.getElem?_take_of_lt hTo, hAt]
  exact List.all_eq_false.mpr ⟨c, hMem, by simp [hSeen]⟩

end Text.ShowsIn

namespace Text

/-- The last character of the text is seen. -/
def EndsVisibly (t : Text) : Prop := ∃ before c, t = before ++ [c] ∧ isBlank c = false

namespace EndsVisibly

variable {t : Text}

theorem ne_nil (h : t.EndsVisibly) : t ≠ [] := by
  obtain ⟨before, c, rfl, _⟩ := h
  simp

theorem append_left (h : t.EndsVisibly) (more : Text) : EndsVisibly (more ++ t) := by
  obtain ⟨before, c, rfl, hSeen⟩ := h
  exact ⟨more ++ before, c, by simp, hSeen⟩

theorem of_append {before : Text} (h : EndsVisibly (before ++ t)) (hSome : t ≠ []) :
    t.EndsVisibly := by
  obtain ⟨init, last, rfl⟩ := (List.eq_nil_or_concat t).resolve_left hSome
  obtain ⟨all, c, hText, hSeen⟩ := h
  rw [List.concat_eq_append, ← List.append_assoc] at hText
  obtain rfl : last = c := by simpa using (List.append_inj' hText rfl).2
  exact ⟨init, last, List.concat_eq_append, hSeen⟩

theorem showsIn (h : t.EndsVisibly) {start : Nat} (hLt : start < t.length) :
    t.ShowsIn start t.length := by
  obtain ⟨before, c, rfl, hSeen⟩ := h
  rw [List.length_append, List.length_singleton] at hLt ⊢
  exact ⟨before.length, c, by omega, by omega, by simp, hSeen⟩

theorem isAllBlank_eq_false (h : t.EndsVisibly) : t.isAllBlank = false := by
  obtain ⟨before, c, rfl, hSeen⟩ := h
  exact List.all_eq_false.mpr ⟨c, by simp, by simp [hSeen]⟩

end EndsVisibly

theorem stripRight_eq_self {t : Text} (h : t.EndsVisibly) : t.stripRight = t := by
  obtain ⟨before, c, rfl, hSeen⟩ := h
  simp [stripRight, dropRightWhile, hSeen]

theorem stripRight_endsVisibly {t : Text} (h : t.stripRight ≠ []) : t.stripRight.EndsVisibly := by
  have hSome : t.reverse.dropWhile isBlank ≠ [] := fun hNone =>
    h (congrArg List.reverse hNone)
  obtain ⟨last, rest, hLast⟩ := List.exists_cons_of_ne_nil hSome
  have hStop := List.head?_dropWhile_not isBlank t.reverse
  rw [hLast] at hStop
  exact ⟨rest.reverse, last, by rw [stripRight, dropRightWhile, hLast, List.reverse_cons], hStop⟩

theorem stripLeft_stripLeft (t : Text) : t.stripLeft.stripLeft = t.stripLeft := by
  cases hLeft : t.stripLeft with
  | nil => rfl
  | cons c rest =>
      have hStop := List.head?_dropWhile_not isBlank t
      rw [← stripLeft, hLeft] at hStop
      exact List.dropWhile_cons_of_neg (by simpa using hStop)

/-- Stripping once is enough. -/
theorem strip_strip (t : Text) : t.strip.strip = t.strip := by
  by_cases hNone : t.strip = []
  · rw [hNone]
    rfl
  · have hSplit : t.stripRight.takeWhile isBlank ++ t.strip = t.stripRight :=
      List.takeWhile_append_dropWhile
    have hSome : t.stripRight ≠ [] := fun hIs => hNone (by rw [strip, hIs]; rfl)
    have hEnds : t.strip.EndsVisibly :=
      .of_append (hSplit ▸ stripRight_endsVisibly hSome) hNone
    rw [strip, stripRight_eq_self hEnds, strip, stripLeft_stripLeft]

/-- Only what is behind the last visible part of a text is stripped. -/
theorem stripRight_append {t : Text} (h : t.EndsVisibly) (more : Text) :
    stripRight (t ++ more) = t ++ more.stripRight := by
  obtain ⟨before, c, rfl, hSeen⟩ := h
  simp only [stripRight, dropRightWhile, List.reverse_append, List.dropWhile_append]
  split
  · next hNone =>
      rw [List.isEmpty_iff.mp hNone]
      simp [hSeen]
  · simp

theorem stripRight_isPrefix (t : Text) : t.stripRight <+: t := by
  have h := List.reverse_prefix.mpr (List.dropWhile_suffix (l := t.reverse) isBlank)
  rwa [List.reverse_reverse] at h

theorem mem_of_mem_stripRight {t : Text} {c : Char} (h : c ∈ t.stripRight) : c ∈ t :=
  List.mem_reverse.mp ((List.dropWhile_sublist _).subset (List.mem_reverse.mp h))

/-- The end of a text without the white space behind it. -/
theorem endsWith_stripRight_iff {c : Char} (hSeen : isBlank c = false) (t : Text) :
    t.stripRight.endsWith [c] = true ↔
      ∃ before blanks : Text, t = before ++ c :: blanks ∧ blanks.isAllBlank = true := by
  rw [endsWith, List.isSuffixOf_iff_suffix]
  constructor
  · rintro ⟨before, hEnd⟩
    have hSplit : t.stripRight ++ (t.reverse.takeWhile isBlank).reverse = t := by
      rw [stripRight, dropRightWhile, ← List.reverse_append, List.takeWhile_append_dropWhile,
        List.reverse_reverse]
    refine ⟨before, (t.reverse.takeWhile isBlank).reverse, ?_, ?_⟩
    · rw [List.append_cons, hEnd, hSplit]
    · exact List.all_reverse.trans List.all_takeWhile
  · rintro ⟨before, blanks, rfl, hBlank⟩
    have hEnds : EndsVisibly (before ++ [c]) := ⟨before, c, rfl, hSeen⟩
    have hNone : stripRight blanks = [] := by
      rw [stripRight, dropRightWhile, List.reverse_eq_nil_iff, List.dropWhile_eq_nil_iff]
      exact fun d hMem => List.all_eq_true.mp hBlank d (List.mem_reverse.mp hMem)
    rw [List.append_cons, stripRight_append hEnds, hNone, List.append_nil]
    exact List.suffix_append before [c]

end Text

end ProseLint
