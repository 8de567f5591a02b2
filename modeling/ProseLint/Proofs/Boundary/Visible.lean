import ProseLint.Proofs.Boundary.Search
import ProseLint.Proofs.Text.Visible

/-! Something is seen of every complete sentence. A sentence ends behind an end token, so when
something is seen of every end token no range of a text is blank. -/

namespace ProseLint

namespace EndRule

/-- Something is seen of every end token. -/
def IsVisible (r : EndRule) : Prop := ∀ w ∈ r.tokens, ∃ c ∈ w, isBlank c = false

theorem ofSymbols_isVisible {symbols : List Text} (h : ∀ w ∈ symbols, ∃ c ∈ w, isBlank c = false)
    (quotations words : List Text) : (ofSymbols symbols quotations words).IsVisible := by
  intro token hMem
  obtain ⟨w, hSymbol, rfl | ⟨q, _, rfl⟩⟩ := exists_symbol_of_mem_tokens hMem
  · exact h token hSymbol
  · obtain ⟨c, hChar, hSeen⟩ := h w hSymbol
    exact ⟨c, List.mem_append_left q hChar, hSeen⟩

theorem search_spec {tokens : List Text} {i start stop : Nat} {t : Text}
    (h : search tokens i t = some (start, stop)) :
    ∃ w ∈ tokens, ∃ n, start = i + n ∧ stop = start + w.length ∧ w <+: t.drop n := by
  obtain ⟨n, k, rfl, rfl, hToken, -⟩ := search_eq_some h
  obtain ⟨w, hMem, rfl, hPrefix⟩ := exists_of_tokenAt? hToken
  exact ⟨w, hMem, n, rfl, rfl, hPrefix⟩

theorem le_runEnd (tokens : List Text) (i : Nat) (t : Text) : i ≤ runEnd tokens i t := by
  induction i, t using runEnd.induct tokens with
  | case1 i => simp [runEnd]
  | case2 i c rest hNone => simp [runEnd, hNone]
  | case3 i c rest hEmpty => simp [runEnd, hEmpty]
  | case4 i c rest n hToken ih =>
      rw [runEnd, hToken]
      exact Nat.le_trans (by omega) ih

/-- A sentence ends behind the first end token, or where one ends that starts further on. -/
theorem endFrom?_cases {r : EndRule} {shields : List (Nat × Nat)} {i last : Nat} {t : Text}
    (h : r.endFrom? shields i t = some last) :
    (∃ start stop, search r.tokens i t = some (start, stop) ∧ stop ≤ last + 1) ∨
      ∃ n, 0 < n ∧ r.endFrom? shields (i + n) (t.drop n) = some last := by
  cases t with
  | nil => simp [endFrom?] at h
  | cons c rest =>
      rw [endFrom?] at h
      split at h
      · cases h
      · next start stop hSearch =>
          simp only at h
          generalize hStop : (if isShielded shields start stop = true then stop
            else runEnd r.tokens stop ((c :: rest).drop (stop - i))) = stop' at h
          have hLe : stop ≤ stop' := by
            rw [← hStop]
            split
            · exact Nat.le_refl _
            · exact le_runEnd _ _ _
          split at h
          · cases h
          · next hLess =>
              have hOn : r.endFrom? shields stop' ((c :: rest).drop (stop' - i)) = some last →
                  ∃ n, 0 < n ∧ r.endFrom? shields (i + n) ((c :: rest).drop n) = some last := by
                intro hLater
                refine ⟨stop' - i, by omega, ?_⟩
                rwa [show i + (stop' - i) = stop' by omega]
              split at h
              · exact Or.inr (hOn h)
              · split at h
                · cases h
                  exact Or.inl ⟨start, stop, hSearch, by omega⟩
                · exact Or.inr (hOn h)

/-- A sentence that ends shows something, since it holds an end token. -/
theorem endFrom?_shows {r : EndRule} (hVisible : r.IsVisible) {shields : List (Nat × Nat)}
    {i last : Nat} {t : Text} (h : r.endFrom? shields i t = some last) :
    ∃ n, last + 1 = i + n ∧ t.ShowsIn 0 n := by
  -- On the length, since the end may be looked for again from any place further on.
  induction hLength : t.length using Nat.strongRecOn generalizing i t with
  | ind length ih =>
      rcases endFrom?_cases h with ⟨start, stop, hSearch, hLe⟩ | ⟨n, hPos, hLater⟩
      · obtain ⟨w, hToken, n, rfl, rfl, hPrefix⟩ := search_spec hSearch
        refine ⟨last + 1 - i, by omega, ?_⟩
        have hShows := (Text.ShowsIn.of_prefix hPrefix (hVisible w hToken)).of_drop
        exact hShows.mono (by omega) (by omega)
      · have hSome : t ≠ [] := by
          rintro rfl
          simp [endFrom?] at h
        have hLess : (t.drop n).length < length := by
          have hFull := List.length_pos_iff.mpr hSome
          rw [List.length_drop]
          omega
        obtain ⟨m, hEnd, hShows⟩ := ih _ hLess hLater rfl
        exact ⟨n + m, by omega, hShows.of_drop.mono (by omega) (Nat.le_refl _)⟩

end EndRule

namespace Extractor

theorem make_isVisible {symbols quotations words : List Text} {e : Extractor}
    (h : make symbols quotations words = .ok e)
    (hSeen : ∀ w ∈ symbols, ∃ c ∈ w, isBlank c = false) : e.rule.IsVisible := by
  rw [make_rule h]
  exact EndRule.ofSymbols_isVisible hSeen _ _

theorem rangesFrom_shows {r : EndRule} (hVisible : r.IsVisible) {shields : List (Nat × Nat)}
    {i : Nat} {t : Text} {range : Nat × Nat} (h : range ∈ (rangesFrom r shields i t).1) :
    ∃ m n, range = (i + m, i + n) ∧ t.ShowsIn m n := by
  induction i, t using rangesFrom.induct r shields with
  | case1 i => simp [rangesFrom] at h
  | case2 i c rest hNone => simp [rangesFrom, hNone] at h
  | case3 i c rest last hEnd hLess => simp [rangesFrom, hEnd, hLess] at h
  | case4 i c rest last hEnd hLess ranges remainder hRest ih =>
      rw [rangesFrom, hEnd] at h
      simp only [hLess, if_false] at h
      obtain ⟨k, hLast, hShows⟩ := EndRule.endFrom?_shows hVisible hEnd
      rcases List.mem_cons.mp h with rfl | hLater
      · exact ⟨0, k, by rw [hLast, Nat.add_zero], hShows⟩
      · obtain ⟨m, n, rfl, hShows⟩ := ih hLater
        rw [show last + 1 - i = k by omega] at hShows
        exact ⟨k + m, k + n, by rw [hLast, Nat.add_assoc, Nat.add_assoc], hShows.of_drop⟩

/-- No piece of a text is blank when its last character is seen, and something of every end
token. -/
theorem isAllBlank_of_mem_cuts {e : Extractor} (hVisible : e.rule.IsVisible) {t : Text}
    (hLast : t.EndsVisibly) {range : Nat × Nat} (h : range ∈ e.cuts t) :
    (t.slice range.1 range.2).isAllBlank = false := by
  have hRanges : ∀ r ∈ (e.extract t).1, (t.slice r.1 r.2).isAllBlank = false := by
    intro r hMem
    obtain ⟨m, n, rfl, hShows⟩ := rangesFrom_shows hVisible hMem
    rw [Nat.zero_add, Nat.zero_add]
    exact hShows.isAllBlank_slice
  unfold cuts at h
  generalize e.extract t = found at h hRanges
  obtain ⟨ranges, remainder⟩ := found
  simp only at h
  split at h
  · next hRest =>
      rcases List.mem_append.mp h with hComplete | hUnfinished
      · exact hRanges range hComplete
      · rw [List.mem_singleton.mp hUnfinished]
        exact (hLast.showsIn hRest).isAllBlank_slice
  · exact hRanges range h

end Extractor

end ProseLint
