import ProseLint.Boundary.Extractor

/-! Sentence ranges lie end to end. Whatever the end tokens and the protected words are, the
ranges of a text start at its first character, none is empty, each starts where the one
before it stops, and the rest of the text starts where the last one stops. So with the rest every
character is in one range, and no range reaches past the last character. -/

namespace ProseLint

/-- Ranges that lie end to end from one place to another. None of them is empty. -/
inductive EndToEnd : Nat → List (Nat × Nat) → Nat → Prop where
  | nil (i : Nat) : EndToEnd i [] i
  | cons {i j stop : Nat} {rest : List (Nat × Nat)}
      (hLt : i < j) (hRest : EndToEnd j rest stop) : EndToEnd i ((i, j) :: rest) stop

namespace EndToEnd

theorem le {i stop : Nat} {ranges : List (Nat × Nat)} (h : EndToEnd i ranges stop) :
    i ≤ stop := by
  induction h with
  | nil => exact Nat.le_refl _
  | cons hLt _ ih => exact Nat.le_trans (Nat.le_of_lt hLt) ih

theorem concat {i j stop : Nat} {ranges : List (Nat × Nat)} (h : EndToEnd i ranges j)
    (hLt : j < stop) : EndToEnd i (ranges ++ [(j, stop)]) stop := by
  induction h with
  | nil => exact .cons hLt (.nil _)
  | cons hFirst _ ih => exact .cons hFirst (ih hLt)

/-- What the ranges cut out of a list, followed by what lies behind them, is the list from
the start of the ranges on. The ranges may reach past its end. -/
theorem flatMap_slice {α : Type} {i stop : Nat} {ranges : List (Nat × Nat)}
    (h : EndToEnd i ranges stop) (items : List α) :
    (ranges.flatMap fun r => (items.take r.2).drop r.1) ++ items.drop stop = items.drop i := by
  induction h with
  | nil => simp
  | @cons i j stop rest hLt hRest ih =>
      have hDrop : items.drop j = (items.drop i).drop (j - i) := by
        rw [List.drop_drop, show i + (j - i) = j by omega]
      rw [List.flatMap_cons, List.append_assoc, ih, List.drop_take, hDrop,
        List.take_append_drop]

theorem le_of_mem {i stop : Nat} {ranges : List (Nat × Nat)} (h : EndToEnd i ranges stop)
    {r : Nat × Nat} (hMem : r ∈ ranges) : i ≤ r.1 := by
  induction h with
  | nil => cases hMem
  | cons hLt _ ih =>
      rcases List.mem_cons.mp hMem with rfl | hLater
      · exact Nat.le_refl _
      · exact Nat.le_trans (Nat.le_of_lt hLt) (ih hLater)

theorem pairwise {i stop : Nat} {ranges : List (Nat × Nat)} (h : EndToEnd i ranges stop) :
    ranges.Pairwise fun r s => r.2 ≤ s.1 := by
  induction h with
  | nil => exact .nil
  | cons _ hRest ih => exact .cons (fun s hMem => hRest.le_of_mem hMem) ih

/-- Whatever lies between the two places is in a range. -/
theorem exists_around {i stop : Nat} {ranges : List (Nat × Nat)} (h : EndToEnd i ranges stop)
    {k : Nat} (hFrom : i ≤ k) (hTo : k < stop) : ∃ r ∈ ranges, r.1 ≤ k ∧ k < r.2 := by
  induction h with
  | nil => exact absurd hTo (Nat.not_lt.mpr hFrom)
  | @cons i j stop rest hLt _ ih =>
      rcases Nat.lt_or_ge k j with hIn | hBehind
      · exact ⟨(i, j), List.mem_cons_self, hFrom, hIn⟩
      · obtain ⟨r, hMem, hAround⟩ := ih hBehind hTo
        exact ⟨r, List.mem_cons_of_mem _ hMem, hAround⟩

end EndToEnd

namespace EndRule

theorem exists_of_tokenAt? {tokens : List Text} {t : Text} {n : Nat}
    (h : tokenAt? tokens t = some n) : ∃ w ∈ tokens, w.length = n ∧ w <+: t := by
  obtain ⟨w, hFind, rfl⟩ := Option.map_eq_some_iff.mp h
  refine ⟨w, List.mem_of_find?_eq_some hFind, rfl, ?_⟩
  exact List.isPrefixOf_iff_prefix.mp (by simpa using List.find?_some hFind)

theorem tokenAt?_le {tokens : List Text} {t : Text} {n : Nat} (h : tokenAt? tokens t = some n) :
    n ≤ t.length := by
  obtain ⟨w, -, rfl, hPrefix⟩ := exists_of_tokenAt? h
  exact hPrefix.length_le

theorem search_le {tokens : List Text} {i start stop : Nat} {t : Text}
    (h : search tokens i t = some (start, stop)) : stop ≤ i + t.length := by
  induction t generalizing i with
  | nil => cases h
  | cons c rest ih =>
      simp only [search] at h
      split at h
      · next hToken =>
          cases h
          exact Nat.add_le_add_left (tokenAt?_le hToken) _
      · have hLater := ih h
        rw [List.length_cons]
        omega

theorem runEnd_le (tokens : List Text) (i : Nat) (t : Text) :
    runEnd tokens i t ≤ i + t.length := by
  induction i, t using runEnd.induct tokens with
  | case1 i => simp [runEnd]
  | case2 i c rest hNone => simp [runEnd, hNone]
  | case3 i c rest hEmpty => simp [runEnd, hEmpty]
  | case4 i c rest n hToken ih =>
      have hLe := tokenAt?_le hToken
      rw [runEnd, hToken]
      rw [List.length_drop] at ih
      simp only at ih ⊢
      omega

/-- The last character of a sentence is one of the text. -/
theorem endFrom?_lt {r : EndRule} {shields : List (Nat × Nat)} {i last : Nat} {t : Text}
    (h : r.endFrom? shields i t = some last) : last < i + t.length := by
  have hStop : ∀ {i start stop : Nat} {t : Text}, search r.tokens i t = some (start, stop) →
      (if isShielded shields start stop then stop
        else runEnd r.tokens stop (t.drop (stop - i))) ≤ i + t.length := by
    intro i start stop t hSearch
    have hToken := search_le hSearch
    have hRun := runEnd_le r.tokens stop (t.drop (stop - i))
    rw [List.length_drop] at hRun
    split <;> omega
  fun_induction endFrom? r shields i t with
  | case1 => cases h
  | case2 => cases h
  | case3 => cases h
  | case4 i c rest start stop hSearch stop' hMore after hShielded ih =>
      have hLe : stop' ≤ i + (c :: rest).length := hStop hSearch
      have hLater := ih h
      rw [List.length_drop] at hLater
      omega
  | case5 i c rest start stop hSearch stop' hMore after hShielded hCloses =>
      have hLe : stop' ≤ i + (c :: rest).length := hStop hSearch
      cases h
      omega
  | case6 i c rest start stop hSearch stop' hMore after hShielded hCloses ih =>
      have hLe : stop' ≤ i + (c :: rest).length := hStop hSearch
      have hLater := ih h
      rw [List.length_drop] at hLater
      omega

end EndRule

namespace Extractor

theorem make_rule {symbols quotations words : List Text} {e : Extractor}
    (h : make symbols quotations words = .ok e) :
    e.rule = .ofSymbols symbols (quotations.filter (!·.isEmpty)) words := by
  unfold make at h
  simp only at h
  split at h
  · cases h
  · cases h
    rfl
  · cases h

theorem rangesFrom_endToEnd (r : EndRule) (shields : List (Nat × Nat)) (i : Nat) (t : Text) :
    EndToEnd i (rangesFrom r shields i t).1 (rangesFrom r shields i t).2 := by
  induction i, t using rangesFrom.induct r shields with
  | case1 i =>
      rw [rangesFrom]
      exact .nil i
  | case2 i c rest hNone =>
      rw [rangesFrom, hNone]
      exact .nil i
  | case3 i c rest last hEnd hLess =>
      rw [rangesFrom, hEnd]
      simp only [hLess, if_true]
      exact .nil i
  | case4 i c rest last hEnd hLess _ _ _ ih =>
      rw [rangesFrom, hEnd]
      simp only [hLess, if_false]
      exact .cons (by omega) ih

theorem rangesFrom_le {r : EndRule} {shields : List (Nat × Nat)} {i : Nat} {t : Text}
    {range : Nat × Nat} (h : range ∈ (rangesFrom r shields i t).1) : range.2 ≤ i + t.length := by
  induction i, t using rangesFrom.induct r shields with
  | case1 i => simp [rangesFrom] at h
  | case2 i c rest hNone => simp [rangesFrom, hNone] at h
  | case3 i c rest last hEnd hLess => simp [rangesFrom, hEnd, hLess] at h
  | case4 i c rest last hEnd hLess _ _ _ ih =>
      rw [rangesFrom, hEnd] at h
      simp only [hLess, if_false] at h
      have hLast := EndRule.endFrom?_lt hEnd
      rcases List.mem_cons.mp h with rfl | hLater
      · exact hLast
      · have hLe := ih hLater
        rw [List.length_drop] at hLe
        omega

/-- The ranges of a text, with the unfinished rest as a last one unless it is empty. -/
def cuts (e : Extractor) (t : Text) : List (Nat × Nat) :=
  let (ranges, remainder) := e.extract t
  if remainder < t.length then ranges ++ [(remainder, t.length)] else ranges

theorem le_of_mem_cuts {e : Extractor} {t : Text} {range : Nat × Nat} (h : range ∈ e.cuts t) :
    range.2 ≤ t.length := by
  have hRanges : ∀ r ∈ (e.extract t).1, r.2 ≤ t.length := fun r hMem => by
    simpa using rangesFrom_le hMem
  unfold cuts at h
  generalize e.extract t = found at h hRanges
  obtain ⟨ranges, remainder⟩ := found
  simp only at h hRanges
  split at h
  · rcases List.mem_append.mp h with hComplete | hRest
    · exact hRanges range hComplete
    · cases List.mem_singleton.mp hRest
      exact Nat.le_refl _
  · exact hRanges range h

theorem cuts_endToEnd (e : Extractor) (t : Text) :
    ∃ stop, EndToEnd 0 (e.cuts t) stop ∧ t.length ≤ stop := by
  have hRanges : EndToEnd 0 (e.extract t).1 (e.extract t).2 :=
    rangesFrom_endToEnd e.rule (e.rule.shields t) 0 t
  unfold cuts
  generalize e.extract t = found at hRanges
  obtain ⟨ranges, remainder⟩ := found
  simp only at hRanges ⊢
  split
  · next hRest => exact ⟨t.length, hRanges.concat hRest, Nat.le_refl _⟩
  · next hRest => exact ⟨remainder, hRanges, Nat.not_lt.mp hRest⟩

/-- Nothing of a text is lost or taken twice when it is cut into sentences. The cuts may be
made in anything that is as long as the text. -/
theorem flatMap_cuts {α : Type} (e : Extractor) (t : Text) (items : List α)
    (hLength : items.length = t.length) :
    ((e.cuts t).flatMap fun r => (items.take r.2).drop r.1) = items := by
  obtain ⟨stop, hRanges, hLe⟩ := e.cuts_endToEnd t
  have hAll := hRanges.flatMap_slice items
  rwa [List.drop_eq_nil_of_le (by omega), List.append_nil] at hAll

end Extractor

end ProseLint
