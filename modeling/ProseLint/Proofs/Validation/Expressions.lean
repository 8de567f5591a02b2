import ProseLint.Proofs.Report.Grouping
import ProseLint.Proofs.Validation.Spans

/-! Expressions in a sentence. A search that goes on behind what it has found comes to an end as
long as it does not look for the empty text, and what it finds are the leftmost places that do not
overlap. The expressions of the attribute are in order, each once, and none of them is empty. -/

namespace ProseLint

namespace Text

/-! ## Searching on -/

/-- A search that goes on behind each place that it finds, up to where it finds none. -/
inductive Searches (t needle : Text) : Option Nat → List Nat → Prop where
  | done : Searches t needle none []
  | found {i : Nat} {places : List Nat}
      (hNext : Searches t needle (t.findFrom? needle (i + needle.length)) places) :
      Searches t needle (some i) (i :: places)

theorem greedyFrom_skip (needle : Text) (skip i : Nat) (t : Text) :
    greedyFrom needle skip i t = greedyFrom needle 0 (i + skip) (t.drop skip) := by
  induction t generalizing skip i with
  | nil => rw [List.drop_nil]; rfl
  | cons c rest ih =>
      cases skip with
      | zero => rfl
      | succ k =>
          rw [greedyFrom, ih, List.drop_succ_cons]
          congr 1
          omega

theorem greedyFrom_of_find?_none {needle t : Text} (h : t.find? needle = none) (n : Nat) :
    greedyFrom needle 0 n t = [] := by
  induction t generalizing n with
  | nil => rfl
  | cons c rest ih =>
      simp only [find?] at h
      split at h
      · cases h
      · next hNone => rw [greedyFrom, if_neg hNone, ih (Option.map_eq_none_iff.mp h)]

/-- The walk takes the first place and goes on behind it. -/
theorem greedyFrom_of_find?_some {needle t : Text} (hSome : needle ≠ []) {k : Nat}
    (h : t.find? needle = some k) (n : Nat) : greedyFrom needle 0 n t = (n + k) ::
      greedyFrom needle 0 (n + (k + needle.length)) (t.drop (k + needle.length)) := by
  induction t generalizing n k with
  | nil =>
      rw [find?, if_neg (by simpa using hSome)] at h
      cases h
  | cons c rest ih =>
      simp only [find?] at h
      split at h
      · next hHere =>
          cases h
          obtain ⟨m, hLength⟩ := Nat.exists_eq_succ_of_ne_zero
            (Nat.ne_of_gt (List.length_pos_iff.mpr hSome))
          rw [greedyFrom, if_pos hHere, greedyFrom_skip, hLength, Nat.succ_sub_one, Nat.zero_add,
            List.drop_succ_cons, Nat.add_assoc, Nat.add_comm 1]
          rfl
      · next hNone =>
          obtain ⟨j, hLater, rfl⟩ := Option.map_eq_some_iff.mp h
          rw [greedyFrom, if_neg hNone, ih hLater, Nat.add_right_comm j 1, List.drop_succ_cons]
          simp only [Nat.add_assoc, Nat.add_comm 1]

theorem searches_greedyFrom {needle : Text} (hSome : needle ≠ []) (t : Text) (n : Nat) :
    Searches t needle (t.findFrom? needle n) (greedyFrom needle 0 n (t.drop n)) := by
  rw [findFrom?]
  cases hFind : find? (t.drop n) needle with
  | none =>
      rw [greedyFrom_of_find?_none hFind]
      exact .done
  | some k =>
      have hLe : k + needle.length ≤ t.length - n := by
        rw [← List.length_drop]
        exact (standsAt_of_find? hFind).le_length
      have hLength : 0 < needle.length := List.length_pos_iff.mpr hSome
      have hNext := searches_greedyFrom hSome t (n + (k + needle.length))
      rw [greedyFrom_of_find?_some hSome hFind, List.drop_drop, Option.map_some, Nat.add_comm k n]
      exact .found (by rwa [Nat.add_assoc])
termination_by t.length - n
decreasing_by omega

/-- The search for a text that is not empty comes to an end. -/
theorem searches_greedy {needle : Text} (hSome : needle ≠ []) (t : Text) :
    Searches t needle (t.find? needle) (t.greedy needle) := by
  have hStart : t.findFrom? needle 0 = t.find? needle := by simp [findFrom?]
  rw [← hStart]
  exact searches_greedyFrom hSome t 0

/-! ## Leftmost places -/

theorem standsAt_drop_iff {t piece : Text} (hSome : piece ≠ []) {n i : Nat} :
    StandsAt (t.drop n) i piece ↔ t.StandsAt (n + i) piece := by
  have hLength : 0 < piece.length := List.length_pos_iff.mpr hSome
  rw [StandsAt.iff_prefix_drop, StandsAt.iff_prefix_drop, List.drop_drop, List.length_drop]
  refine and_congr_left fun hPrefix => ?_
  have hLe := hPrefix.length_le
  rw [List.length_drop] at hLe
  omega

/-- What a search from a place on returns. -/
theorem findFrom?_eq_some {t needle : Text} (hSome : needle ≠ []) {n i : Nat}
    (h : t.findFrom? needle n = some i) :
    n ≤ i ∧ t.StandsAt i needle ∧ ∀ j, n ≤ j → j < i → ¬ t.StandsAt j needle := by
  obtain ⟨k, hFind, rfl⟩ := Option.map_eq_some_iff.mp h
  refine ⟨Nat.le_add_left n k, ?_, fun j hFrom hTo hAt => ?_⟩
  · rw [Nat.add_comm, ← standsAt_drop_iff hSome]
    exact standsAt_of_find? hFind
  · refine not_standsAt_of_lt_find? hFind (j := j - n) (by omega) ((standsAt_drop_iff hSome).mpr ?_)
    rwa [Nat.add_sub_cancel' hFrom]

theorem findFrom?_eq_none {t needle : Text} (hSome : needle ≠ []) {n : Nat}
    (h : t.findFrom? needle n = none) {j : Nat} (hFrom : n ≤ j) : ¬ t.StandsAt j needle := by
  intro hAt
  refine not_standsAt_of_find?_eq_none (Option.map_eq_none_iff.mp h) (j - n)
    ((standsAt_drop_iff hSome).mpr ?_)
  rwa [Nat.add_sub_cancel' hFrom]

/-- The places from `n` on where a needle is taken from left to right: it stands there, no two
overlap, and wherever it stands else it overlaps one that has been taken before. -/
structure IsLeftmost (t needle : Text) (n : Nat) (places : List Nat) : Prop where
  stands : ∀ i ∈ places, n ≤ i ∧ t.StandsAt i needle
  apart : places.Pairwise fun i j => i + needle.length ≤ j
  overlaps : ∀ i, n ≤ i → t.StandsAt i needle → ∃ j ∈ places, j ≤ i ∧ i < j + needle.length

theorem Searches.isLeftmost {t needle : Text} (hSome : needle ≠ []) {start : Option Nat}
    {places : List Nat} (h : Searches t needle start places) {n : Nat}
    (hStart : start = t.findFrom? needle n) : IsLeftmost t needle n places := by
  induction h generalizing n with
  | done =>
      exact ⟨by simp, .nil, fun i hFrom hAt =>
        absurd hAt (findFrom?_eq_none hSome hStart.symm hFrom)⟩
  | @found i places _ ih =>
      obtain ⟨hFrom, hAt, hBefore⟩ := findFrom?_eq_some hSome hStart.symm
      have hLater := ih rfl
      refine ⟨?_, .cons (fun j hMem => (hLater.stands j hMem).1) hLater.apart,
        fun j hLe hStands => ?_⟩
      · refine List.forall_mem_cons.mpr ⟨⟨hFrom, hAt⟩, fun j hMem => ?_⟩
        obtain ⟨hBehind, hStands⟩ := hLater.stands j hMem
        exact ⟨by omega, hStands⟩
      · rcases Nat.lt_or_ge j (i + needle.length) with hNear | hFar
        · have hBehind : i ≤ j := Nat.le_of_not_lt fun hLt => hBefore j hLe hLt hStands
          exact ⟨i, List.mem_cons_self, hBehind, hNear⟩
        · obtain ⟨k, hMem, hOverlap⟩ := hLater.overlaps j hFar hStands
          exact ⟨k, List.mem_cons_of_mem i hMem, hOverlap⟩

theorem greedy_isLeftmost {needle : Text} (hSome : needle ≠ []) (t : Text) :
    IsLeftmost t needle 0 (t.greedy needle) :=
  (searches_greedyFrom hSome t 0).isLeftmost hSome rfl

end Text

/-! ## Attributes -/

/-- A list in order without repetition goes up. -/
theorem pairwise_lt_eraseDups {α : Type} [LinearOrder α] [BEq α] [LawfulBEq α] {l : List α}
    (h : l.Pairwise (· ≤ ·)) : l.eraseDups.Pairwise (· < ·) := by
  match l with
  | [] => exact .nil
  | a :: rest =>
      obtain ⟨hFirst, hRest⟩ := List.pairwise_cons.mp h
      rw [List.eraseDups_cons]
      refine .cons (fun b hMem => ?_) (pairwise_lt_eraseDups (hRest.sublist List.filter_sublist))
      obtain ⟨hIn, hOther⟩ := List.mem_filter.mp (List.mem_eraseDups.mp hMem)
      exact lt_of_le_of_ne (hFirst b hIn) fun hSame => by simp [hSame] at hOther
termination_by l.length
decreasing_by exact Nat.lt_succ_of_le (List.length_filter_le _ _)

namespace Rule

variable {s : ValidatorSetup}

/-- What an attribute that is read as a set holds: the items without the white space around them,
in order, each once, and none that is blank. -/
theorem texts_eq_ok {key : String} {items : List Text}
    (hItems : ValidatorSetup.itemsOf? (s.value key) = some items) :
    ∃ texts, s.texts key = .ok texts ∧ texts.Pairwise (· < ·) ∧
      ∀ t, t ∈ texts ↔ t ≠ [] ∧ ∃ item ∈ items, Text.strip item = t := by
  rw [ValidatorSetup.texts, hItems]
  refine ⟨_, rfl, pairwise_lt_eraseDups ?_, fun t => ?_⟩
  · refine (List.pairwise_mergeSort ?_ ?_ _).imp Text.le_iff.mp
    · exact fun t u v htu huv => Text.le_iff.mpr ((Text.le_iff.mp htu).trans (Text.le_iff.mp huv))
    · intro t u
      rw [Bool.or_eq_true, Text.le_iff, Text.le_iff]
      exact le_total t u
  · simp [and_comm]

theorem invalidExpression_check_eq {expressions : List Text}
    (h : s.texts "list" = .ok expressions) :
    invalidExpression.check s = .ok (.onSentence fun site => some
      ((expressionPlaces expressions site.sentence.content).map fun (i, e) =>
        s.problemAt (about "Found invalid expression " e ".") site i (i + e.length))) := by
  unfold invalidExpression
  dsimp only
  rw [h]
  rfl

/-- Every expression of the attribute is found wherever it stands. The expressions are taken in
their order, each once and none that is blank, and the search for each of them comes to an end. Its
places in the sentence go up and do not overlap, each problem has exactly the expression, and
wherever the expression stands it overlaps a place that is reported and not behind it. -/
theorem invalidExpression_leftmost {items : List Text}
    (hItems : ValidatorSetup.itemsOf? (s.value "list") = some items) :
    ∃ (expressions : List Text) (find : Site → Option (List Problem)),
      invalidExpression.check s = .ok (.onSentence find) ∧
      expressions.Pairwise (· < ·) ∧
      (∀ e, e ∈ expressions ↔ e ≠ [] ∧ ∃ item ∈ items, Text.strip item = e) ∧
      ∀ site : Site, ∃ places : Text → List Nat,
        find site = some (expressions.flatMap fun e => (places e).map fun i =>
          s.problemAt (about "Found invalid expression " e ".") site i (i + e.length)) ∧
        ∀ e ∈ expressions,
          Text.Searches site.sentence.content e (site.sentence.content.find? e) (places e) ∧
          Text.IsLeftmost site.sentence.content e 0 (places e) ∧
          ∀ i ∈ places e, site.sentence.content.slice i (i + e.length) = e := by
  obtain ⟨expressions, hTexts, hOrder, hMem⟩ := texts_eq_ok hItems
  have hCheck := invalidExpression_check_eq hTexts
  refine ⟨expressions, _, hCheck, hOrder, hMem, fun site =>
    ⟨site.sentence.content.greedy, ?_, fun e hExpression => ?_⟩⟩
  · simp only [expressionPlaces, List.map_flatMap, List.map_map, Function.comp_def]
  · have hSome : e ≠ [] := ((hMem e).mp hExpression).1
    have hLeftmost := Text.greedy_isLeftmost hSome site.sentence.content
    exact ⟨Text.searches_greedy hSome _, hLeftmost, fun i hPlace =>
      (hLeftmost.stands i hPlace).2.slice_eq⟩

/-- The third place where the expression stands in `baaaa` overlaps the one in front of it and the
one behind it, and is reported under one of them. Blank items are no expressions. -/
theorem invalidExpression_leftmost_overlapping :
    let s : ValidatorSetup :=
      ⟨"InvalidExpression".toList, [("list", .str " aa, b,aa ,,")], .standard, .error⟩
    let aa := "aa".toList
    ∃ (expressions : List Text) (find : Site → Option (List Problem)),
      invalidExpression.check s = .ok (.onSentence find) ∧ aa ∈ expressions ∧ [] ∉ expressions ∧
      ∀ site : Site, site.sentence.content = "baaaa".toList → ∃ places : Text → List Nat,
        find site = some (expressions.flatMap fun e => (places e).map fun i =>
          s.problemAt (about "Found invalid expression " e ".") site i (i + e.length)) ∧
        ∃ i ∈ places aa, i ≤ 2 ∧ 2 < i + 2 := by
  intro s aa
  have hItems : ValidatorSetup.itemsOf? (s.value "list") =
      some ([" aa", " b", "aa ", "", ""].map String.toList) := rfl
  obtain ⟨expressions, find, hCheck, _, hMem, hFind⟩ := invalidExpression_leftmost hItems
  have hIn : aa ∈ expressions := (hMem aa).mpr ⟨by decide, _, List.mem_cons_self, by decide⟩
  refine ⟨expressions, find, hCheck, hIn, fun hNil => ((hMem []).mp hNil).1 rfl,
    fun site hContent => ?_⟩
  obtain ⟨places, hProblems, hPlaces⟩ := hFind site
  have hStands : site.sentence.content.StandsAt 2 aa := ⟨"ba".toList, "a".toList, rfl, hContent⟩
  exact ⟨places, hProblems, (hPlaces aa hIn).2.1.overlaps 2 (Nat.zero_le 2) hStands⟩

end Rule

end ProseLint
