import ProseLint.Document.Token

/-! Pieces of a text. What a search returns is a place where the piece stands, and a token
stands at its offset. -/

namespace ProseLint

namespace Text

/-- A piece that starts earlier stops with what the shorter one stops with. -/
theorem slice_isSuffix {i j : Nat} (hLe : i ≤ j) (t : Text) (stop : Nat) :
    t.slice j stop <:+ t.slice i stop := by
  rw [slice, slice, show j = i + (j - i) by omega, ← List.drop_drop]
  exact List.drop_suffix _ _

/-- The piece stands in the text from a position on. -/
def StandsAt (t : Text) (i : Nat) (piece : Text) : Prop :=
  ∃ before after, before.length = i ∧ t = before ++ (piece ++ after)

namespace StandsAt

variable {t piece : Text} {i : Nat}

theorem zero (h : piece <+: t) : t.StandsAt 0 piece := by
  obtain ⟨after, rfl⟩ := h
  exact ⟨[], after, rfl, rfl⟩

theorem cons (h : t.StandsAt i piece) (c : Char) : StandsAt (c :: t) (i + 1) piece := by
  obtain ⟨before, after, rfl, rfl⟩ := h
  exact ⟨c :: before, after, rfl, rfl⟩

theorem append_left (h : t.StandsAt i piece) (more : Text) :
    StandsAt (more ++ t) (more.length + i) piece := by
  obtain ⟨before, after, rfl, rfl⟩ := h
  exact ⟨more ++ before, after, by simp, by simp⟩

theorem cons_succ_iff {c : Char} : StandsAt (c :: t) (i + 1) piece ↔ t.StandsAt i piece := by
  refine ⟨?_, fun h => h.cons c⟩
  rintro ⟨before, after, hLength, hText⟩
  cases before with
  | nil => cases hLength
  | cons d before =>
      exact ⟨before, after, Nat.succ_inj.mp hLength, (List.cons.inj hText).2⟩

theorem le_length (h : t.StandsAt i piece) : i + piece.length ≤ t.length := by
  obtain ⟨before, after, rfl, rfl⟩ := h
  simp only [List.length_append]
  omega

theorem slice_eq (h : t.StandsAt i piece) : t.slice i (i + piece.length) = piece := by
  obtain ⟨before, after, rfl, rfl⟩ := h
  have hTake : (before ++ (piece ++ after)).take (before.length + piece.length) =
      before ++ piece := by
    rw [List.take_length_add_append, List.take_left]
  rw [slice, hTake, List.drop_left]

theorem isSuffix_slice (h : t.StandsAt i piece) {start : Nat} (hLe : start ≤ i) :
    piece <:+ t.slice start (i + piece.length) := by
  have hSuffix := slice_isSuffix hLe t (i + piece.length)
  rwa [h.slice_eq] at hSuffix

theorem iff_prefix_drop : t.StandsAt i piece ↔ i ≤ t.length ∧ piece <+: t.drop i := by
  constructor
  · rintro ⟨before, after, rfl, rfl⟩
    exact ⟨by simp, by rw [List.drop_left]; exact List.prefix_append _ _⟩
  · rintro ⟨hLe, after, hAfter⟩
    exact ⟨t.take i, after, List.length_take_of_le hLe, by rw [hAfter, List.take_append_drop]⟩

theorem zero_iff : t.StandsAt 0 piece ↔ piece.isPrefixOf t = true := by
  rw [iff_prefix_drop, List.isPrefixOf_iff_prefix, List.drop_zero]
  exact and_iff_right (Nat.zero_le _)

end StandsAt

/-! ## Searching -/

theorem find?_nil (needle : Text) :
    find? [] needle = if needle.isEmpty then some 0 else none := rfl

theorem find?_cons (c : Char) (rest needle : Text) :
    find? (c :: rest) needle =
      if needle.isPrefixOf (c :: rest) then some 0 else (find? rest needle).map (· + 1) := rfl

theorem standsAt_of_find? {t needle : Text} {i : Nat} (h : t.find? needle = some i) :
    t.StandsAt i needle := by
  induction t generalizing i with
  | nil =>
      rw [find?_nil] at h
      split at h
      · next hEmpty =>
          cases h
          rw [List.isEmpty_iff.mp hEmpty]
          exact .zero (List.nil_prefix)
      · cases h
  | cons c rest ih =>
      rw [find?_cons] at h
      split at h
      · next hHere =>
          cases h
          exact .zero (List.isPrefixOf_iff_prefix.mp hHere)
      · obtain ⟨j, hLater, rfl⟩ := Option.map_eq_some_iff.mp h
        exact (ih hLater).cons c

/-- Before the place that a search returns the needle does not stand. -/
theorem not_standsAt_of_lt_find? {t needle : Text} {i j : Nat} (h : t.find? needle = some i)
    (hLt : j < i) : ¬ t.StandsAt j needle := by
  induction t generalizing i j with
  | nil =>
      rw [find?_nil] at h
      split at h
      · cases h
        exact absurd hLt (Nat.not_lt_zero j)
      · cases h
  | cons c rest ih =>
      rw [find?_cons] at h
      split at h
      · cases h
        exact absurd hLt (Nat.not_lt_zero j)
      · next hNone =>
          obtain ⟨k, hLater, rfl⟩ := Option.map_eq_some_iff.mp h
          cases j with
          | zero => exact mt StandsAt.zero_iff.mp hNone
          | succ j => exact mt StandsAt.cons_succ_iff.mp (ih hLater (Nat.lt_of_succ_lt_succ hLt))

theorem not_standsAt_of_find?_eq_none {t needle : Text} (h : t.find? needle = none) (j : Nat) :
    ¬ t.StandsAt j needle := by
  induction t generalizing j with
  | nil =>
      rintro ⟨before, after, _, hText⟩
      obtain ⟨_, hBehind⟩ := List.append_eq_nil_iff.mp hText.symm
      rw [(List.append_eq_nil_iff.mp hBehind).1] at h
      cases h
  | cons c rest ih =>
      rw [find?_cons] at h
      split at h
      · cases h
      · next hNone =>
          cases j with
          | zero => exact mt StandsAt.zero_iff.mp hNone
          | succ j => exact mt StandsAt.cons_succ_iff.mp (ih (Option.map_eq_none_iff.mp h) j)

theorem mem_occurrencesFrom {needle : Text} {i j : Nat} {t : Text} :
    j ∈ occurrencesFrom needle i t ↔ ∃ k < t.length, j = i + k ∧ needle <+: t.drop k := by
  induction t generalizing i with
  | nil => simp [occurrencesFrom]
  | cons c rest ih =>
      have hLater : j ∈ occurrencesFrom needle (i + 1) rest ↔
          ∃ k < rest.length, j = i + (k + 1) ∧ needle <+: (c :: rest).drop (k + 1) := by
        simp only [ih, List.drop_succ_cons, Nat.add_assoc, Nat.add_comm 1]
      simp only [occurrencesFrom, List.length_cons, Nat.exists_lt_succ_left, List.drop_zero]
      split
      · next hHere => simp [hLater, List.isPrefixOf_iff_prefix.mp hHere]
      · next hNone =>
          rw [hLater]
          simp [← List.isPrefixOf_iff_prefix, hNone]

/-- Every place at which a needle stands is found, also where it overlaps itself. -/
theorem mem_occurrences_iff {t needle : Text} (hSome : needle ≠ []) {i : Nat} :
    i ∈ t.occurrences needle ↔ t.StandsAt i needle := by
  rw [occurrences, mem_occurrencesFrom, StandsAt.iff_prefix_drop]
  constructor
  · rintro ⟨k, hLt, rfl, hPrefix⟩
    rw [Nat.zero_add]
    exact ⟨Nat.le_of_lt hLt, hPrefix⟩
  · rintro ⟨hLe, hPrefix⟩
    refine ⟨i, ?_, (Nat.zero_add i).symm, hPrefix⟩
    have hPos := Nat.lt_of_lt_of_le (List.length_pos_iff.mpr hSome) hPrefix.length_le
    rw [List.length_drop] at hPos
    omega

/-- What stands in front decides whether there is one place more. -/
theorem length_occurrences_cons (needle : Text) (c : Char) (rest : Text) :
    (occurrences (c :: rest) needle).length =
      (if needle.isPrefixOf (c :: rest) then 1 else 0) + (occurrences rest needle).length := by
  have hShift : ∀ (t : Text) (i j : Nat),
      (occurrencesFrom needle i t).length = (occurrencesFrom needle j t).length := by
    intro t
    induction t with
    | nil => exact fun _ _ => rfl
    | cons c t ih =>
        intro i j
        simp only [occurrencesFrom, apply_ite List.length, List.length_cons, ih (i + 1) (j + 1)]
  rw [occurrences, occurrences, occurrencesFrom, hShift rest 0 (0 + 1)]
  split
  · exact Nat.add_comm _ 1
  · exact (Nat.zero_add _).symm

/-- Nothing is found where the first character is not. -/
theorem length_occurrences_append {first : Char} {before : Text} (h : first ∉ before)
    (start rest : Text) :
    (occurrences (before ++ rest) (first :: start)).length =
      (occurrences rest (first :: start)).length := by
  induction before with
  | nil => rfl
  | cons c before ih =>
      obtain ⟨hFirst, hRest⟩ := not_or.mp (mt List.mem_cons.mpr h)
      rw [List.cons_append, length_occurrences_cons, ih hRest, List.isPrefixOf_cons_cons,
        beq_false_of_ne hFirst]
      exact Nat.zero_add _

theorem isInfix_iff_standsAt {t needle : Text} : needle <:+: t ↔ ∃ i, t.StandsAt i needle := by
  constructor
  · rintro ⟨before, after, rfl⟩
    exact ⟨before.length, before, after, rfl, List.append_assoc _ _ _⟩
  · rintro ⟨_, before, after, -, rfl⟩
    exact ⟨before, after, List.append_assoc _ _ _⟩

theorem occurrences_eq_nil_iff {t needle : Text} (hSome : needle ≠ []) :
    t.occurrences needle = [] ↔ ¬ needle <:+: t := by
  rw [isInfix_iff_standsAt, not_exists, List.eq_nil_iff_forall_not_mem]
  exact forall_congr' fun i => not_congr (mem_occurrences_iff hSome)

theorem exists_standsAt_of_mem_greedyFrom {needle : Text} {skip i j : Nat} {t : Text}
    (h : j ∈ greedyFrom needle skip i t) : ∃ k, j = i + k ∧ t.StandsAt k needle := by
  induction t generalizing skip i with
  | nil => cases h
  | cons c rest ih =>
      have hLater : ∀ m, j ∈ greedyFrom needle m (i + 1) rest →
          ∃ k, j = i + k ∧ StandsAt (c :: rest) k needle := by
        intro m hMem
        obtain ⟨k, rfl, hAt⟩ := ih hMem
        exact ⟨k + 1, by omega, hAt.cons c⟩
      cases skip with
      | succ k => exact hLater k h
      | zero =>
          simp only [greedyFrom] at h
          split at h
          · next hHere =>
              rcases List.mem_cons.mp h with rfl | hMem
              · exact ⟨0, rfl, .zero (List.isPrefixOf_iff_prefix.mp hHere)⟩
              · exact hLater _ hMem
          · exact hLater 0 h

theorem standsAt_of_mem_greedy {t needle : Text} {i : Nat} (h : i ∈ t.greedy needle) :
    t.StandsAt i needle := by
  obtain ⟨k, rfl, hAt⟩ := exists_standsAt_of_mem_greedyFrom h
  simpa using hAt

/-! ## Parts -/

theorem splitOn_cons (separator c : Char) (rest : Text) :
    splitOn separator (c :: rest) =
      if c = separator then [] :: splitOn separator rest
      else match splitOn separator rest with
        | [] => [[c]]
        | part :: parts => (c :: part) :: parts := rfl

theorem splitOn_ne_nil (separator : Char) (t : Text) : splitOn separator t ≠ [] := by
  cases t with
  | nil => exact List.cons_ne_nil _ _
  | cons c rest =>
      rw [splitOn_cons]
      split
      · exact List.cons_ne_nil _ _
      · split <;> exact List.cons_ne_nil _ _

/-- Text without separators goes into the first part. -/
theorem splitOn_append {separator : Char} {before : Text} (h : separator ∉ before) (rest : Text) :
    ∃ first more, splitOn separator rest = first :: more ∧
      splitOn separator (before ++ rest) = (before ++ first) :: more := by
  obtain ⟨first, more, hSplit⟩ := List.exists_cons_of_ne_nil (splitOn_ne_nil separator rest)
  refine ⟨first, more, hSplit, ?_⟩
  induction before with
  | nil => exact hSplit
  | cons c before ih =>
      obtain ⟨hFirst, hRest⟩ := not_or.mp (mt List.mem_cons.mpr h)
      rw [List.cons_append, splitOn_cons, if_neg (Ne.symm hFirst), ih hRest]
      rfl

theorem splitOn_append_cons {separator : Char} {before : Text} (h : separator ∉ before)
    (rest : Text) :
    splitOn separator (before ++ separator :: rest) = before :: splitOn separator rest := by
  obtain ⟨first, more, hSplit, hWhole⟩ := splitOn_append h (separator :: rest)
  rw [splitOn_cons, if_pos rfl] at hSplit
  obtain ⟨rfl, rfl⟩ := List.cons.inj hSplit
  rw [hWhole, List.append_nil]

theorem join_cons_cons (separator part next : Text) (rest : List Text) :
    join separator (part :: next :: rest) =
      part ++ (separator ++ join separator (next :: rest)) :=
  List.append_assoc part separator _

theorem join_concat (separator : Text) {parts : List Text} (hSome : parts ≠ []) (last : Text) :
    join separator (parts ++ [last]) = join separator parts ++ (separator ++ last) := by
  induction parts with
  | nil => exact absurd rfl hSome
  | cons part rest ih =>
      cases rest with
      | nil => exact join_cons_cons separator part last []
      | cons next rest =>
          have hRest := ih (List.cons_ne_nil next rest)
          rw [List.cons_append] at hRest
          rw [List.cons_append, List.cons_append, join_cons_cons, hRest, join_cons_cons,
            List.append_assoc, List.append_assoc]

/-- Parts that are joined can be told apart again. -/
theorem splitOn_join {separator : Char} {parts : List Text} (hSome : parts ≠ [])
    (hParts : ∀ part ∈ parts, separator ∉ part) :
    splitOn separator (join [separator] parts) = parts := by
  induction parts with
  | nil => exact absurd rfl hSome
  | cons part parts ih =>
      obtain ⟨hPart, hRest⟩ := List.forall_mem_cons.mp hParts
      cases parts with
      | nil =>
          obtain ⟨first, more, hSplit, hWhole⟩ := splitOn_append hPart []
          obtain ⟨rfl, rfl⟩ := List.cons.inj hSplit
          rw [List.append_nil] at hWhole
          exact hWhole
      | cons next parts =>
          rw [join_cons_cons, List.singleton_append, splitOn_append_cons hPart,
            ih (List.cons_ne_nil _ _) hRest]

end Text

/-! ## Tokens -/

namespace Token

/-- The token is a piece of a text that starts at position `start`, at its offset. -/
def IsIn (token : Token) (start : Nat) (t : Text) : Prop :=
  token.surface ≠ [] ∧ ∃ i, token.offset = start + i ∧ t.StandsAt i token.surface

theorem IsIn.append_left {token : Token} {start : Nat} {t more : Text}
    (h : token.IsIn (start + more.length) t) : token.IsIn start (more ++ t) := by
  obtain ⟨hSome, i, hOffset, hAt⟩ := h
  exact ⟨hSome, more.length + i, by omega, hAt.append_left more⟩

theorem isIn_of_mem_finish {current : Text} {i : Nat} {token : Token}
    (h : token ∈ finish current i) (rest : Text) :
    token.IsIn (i - current.length) (current.reverse ++ rest) := by
  unfold finish at h
  split at h
  · cases h
  · next hSome =>
      rw [List.mem_singleton.mp h]
      exact ⟨by simpa using hSome, 0, rfl, .zero (List.prefix_append _ _)⟩

/-- The word read so far and what is left to scan are one text, and every token that comes of
them stands in it. -/
theorem isIn_of_mem_scan {current t : Text} {i : Nat} {token : Token}
    (hLe : current.length ≤ i) (h : token ∈ scan current i t) :
    token.IsIn (i - current.length) (current.reverse ++ t) := by
  induction t generalizing current i with
  | nil => exact isIn_of_mem_finish h []
  | cons c rest ih =>
      have hStart : i = i - current.length + current.reverse.length := by
        rw [List.length_reverse]
        omega
      -- The character goes on with the word, or ends it and is a token itself or none at all.
      have hOn : token ∈ scan (c :: current) (i + 1) rest →
          token.IsIn (i - current.length) (current.reverse ++ c :: rest) := by
        intro hMem
        have hIn := ih (Nat.succ_le_succ hLe) hMem
        rwa [List.length_cons, Nat.add_sub_add_right, List.reverse_cons, List.append_assoc] at hIn
      have hBehind : token ∈ scan [] (i + 1) rest →
          token.IsIn (i - current.length) (current.reverse ++ c :: rest) := by
        intro hMem
        have hIn : token.IsIn (i + [c].length) rest := ih (Nat.zero_le _) hMem
        refine IsIn.append_left ?_
        rw [← hStart]
        exact hIn.append_left
      have hHere : (⟨[c], .symbol, i⟩ : Token).IsIn (i - current.length)
          (current.reverse ++ c :: rest) := by
        refine IsIn.append_left ⟨by simp, 0, hStart, .zero ⟨rest, rfl⟩⟩
      simp only [scan] at h
      split at h
      · exact hOn h
      · split at h
        · exact hOn h
        · split at h
          · rcases List.mem_append.mp h with hWord | hLater
            · exact isIn_of_mem_finish hWord _
            · exact hBehind hLater
          · rcases List.mem_append.mp h with hWord | hLater
            · exact isIn_of_mem_finish hWord _
            · rcases List.mem_cons.mp hLater with rfl | hLater
              · exact hHere
              · exact hBehind hLater

theorem isIn_of_mem_ofText {t : Text} {token : Token} (h : token ∈ ofText t) :
    token.surface ≠ [] ∧ t.StandsAt token.offset token.surface := by
  obtain ⟨hSome, i, hOffset, hAt⟩ := isIn_of_mem_scan (Nat.zero_le _) h
  rw [show token.offset = i by simpa using hOffset]
  exact ⟨hSome, hAt⟩

end Token

end ProseLint
