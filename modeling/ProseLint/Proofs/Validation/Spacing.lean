import ProseLint.Proofs.Validation.Spans

/-! Repairs of spacing. Each report about spacing says how to repair the sentence, by a space more
or by a space less. All repairs at once leave nothing to report, though the places that are reported
overlap. A space that is put in changes what is next to it, so what the other mode reports behind
it is followed over the places of the characters. -/

namespace ProseLint

namespace Text

/-! ## Edits -/

/-- The text with a space behind each character whose place is listed. Places count from `i`. -/
def spacedFrom (places : List Nat) (i : Nat) : Text → Text
  | [] => []
  | c :: rest =>
      let later := spacedFrom places (i + 1) rest
      if i ∈ places then c :: ' ' :: later else c :: later

/-- The text with a space behind each character whose place is listed. -/
def spaced (places : List Nat) (t : Text) : Text := spacedFrom places 0 t

/-- The text without the characters whose places are listed. Places count from `i`. -/
def withoutFrom (places : List Nat) (i : Nat) : Text → Text
  | [] => []
  | c :: rest =>
      let later := withoutFrom places (i + 1) rest
      if i ∈ places then later else c :: later

/-- The text without the characters whose places are listed. -/
def without (places : List Nat) (t : Text) : Text := withoutFrom places 0 t

/-- Where a character goes when a space is put behind each character whose place is listed. -/
def moved (places : List Nat) (i : Nat) : Nat := i + (List.range i).countP (· ∈ places)

section Spaced

variable {places : List Nat} {t : Text} {i : Nat}

theorem moved_succ (places : List Nat) (i : Nat) :
    moved places (i + 1) = moved places i + if i ∈ places then 2 else 1 := by
  simp only [moved, List.range_succ, List.countP_append, List.countP_singleton, decide_eq_true_eq]
  split <;> omega

theorem drop_spaced (places : List Nat) (t : Text) (i : Nat) :
    (spaced places t).drop (moved places i) = spacedFrom places i (t.drop i) := by
  induction i with
  | zero => rfl
  | succ i ih =>
      rw [moved_succ, ← List.drop_drop, ih, ← List.drop_drop]
      cases t.drop i with
      | nil => exact List.drop_nil
      | cons c rest =>
          rw [spacedFrom]
          split <;> rfl

/-- A character stands where it has moved to. -/
theorem getElem?_spaced_moved (places : List Nat) (t : Text) (i : Nat) :
    (spaced places t)[moved places i]? = t[i]? := by
  rw [← Nat.add_zero (moved places i), ← List.getElem?_drop, drop_spaced, ← Nat.add_zero i,
    ← List.getElem?_drop, Nat.add_zero]
  cases t.drop i with
  | nil => rfl
  | cons c rest =>
      rw [spacedFrom]
      split <;> rfl

/-- Behind a character whose place is listed stands a space. -/
theorem getElem?_spaced_succ (hLt : i < t.length) (hMem : i ∈ places) :
    (spaced places t)[moved places i + 1]? = some ' ' := by
  rw [← List.getElem?_drop, drop_spaced, List.drop_eq_getElem_cons hLt, spacedFrom, if_pos hMem]
  rfl

/-- Every place has a character that has moved there, or the space behind one. -/
theorem exists_moved {m : Nat} (hLt : m < (spaced places t).length) :
    ∃ k < t.length, m = moved places k ∨ k ∈ places ∧ m = moved places k + 1 := by
  have hBound : ∀ n, m < moved places n →
      ∃ k < n, m = moved places k ∨ k ∈ places ∧ m = moved places k + 1 := by
    intro n hBelow
    induction n with
    | zero => exact absurd hBelow (Nat.not_lt_zero m)
    | succ n ih =>
        rcases Nat.lt_or_ge m (moved places n) with hEarlier | hHere
        · obtain ⟨k, hk, hPlace⟩ := ih hEarlier
          exact ⟨k, Nat.lt_succ_of_lt hk, hPlace⟩
        · refine ⟨n, Nat.lt_succ_self n, ?_⟩
          rw [moved_succ] at hBelow
          split at hBelow
          · next hMem =>
              rcases Nat.eq_or_lt_of_le hHere with hSame | hBehind
              · exact Or.inl hSame.symm
              · exact Or.inr ⟨hMem, by omega⟩
          · exact Or.inl (by omega)
  have hEnd := drop_spaced places t t.length
  rw [List.drop_length] at hEnd
  exact hBound t.length (Nat.lt_of_lt_of_le hLt (List.drop_eq_nil_iff.mp hEnd))

end Spaced

/-- Places in front of the text do not matter. -/
theorem withoutFrom_cons_of_lt {places : List Nat} {j i : Nat} (hLt : j < i) (t : Text) :
    withoutFrom (j :: places) i t = withoutFrom places i t := by
  induction t generalizing i with
  | nil => rfl
  | cons c rest ih =>
      have hOther : i ∈ j :: places ↔ i ∈ places := by
        rw [List.mem_cons, or_iff_right (Nat.ne_of_gt hLt)]
      simp only [withoutFrom, ih (Nat.lt_succ_of_lt hLt), hOther]

end Text

namespace Rule

/-! ## Places with reports -/

/-- A Latin word and the text around it meet behind the character at this place. -/
def MeetsAt (t : Text) (i : Nat) : Prop :=
  ∃ left right, t[i]? = some left ∧ t[i + 1]? = some right ∧ isBorder left right = true

/-- A single space behind the character at this place parts a Latin word from the text around
it. -/
def PartsAt (t : Text) (i : Nat) : Prop :=
  ∃ left right, t[i]? = some left ∧ t[i + 1]? = some ' ' ∧ t[i + 2]? = some right ∧
    isBorder left right = true

theorem isBorder_space_left (c : Char) : isBorder ' ' c = false := rfl

theorem isBorder_space_right (c : Char) : isBorder c ' ' = false := by
  simp [isBorder, show isCjk ' ' = false from rfl, show isLatinLetter ' ' = false from rfl]

theorem map_missingSpaces_cons (i : Nat) (left right : Char) (rest : Text) :
    (missingSpaces i (left :: right :: rest)).map Prod.fst =
      if isBorder left right then i :: (missingSpaces (i + 1) (right :: rest)).map Prod.fst
      else (missingSpaces (i + 1) (right :: rest)).map Prod.fst := by
  rw [missingSpaces, isBorder]
  cases isCjk left && isLatinLetter right <;> cases isLatinLetter left && isCjk right <;> rfl

theorem borderSpaces_cons (i : Nat) (left mid right : Char) (rest : Text) :
    borderSpaces i (left :: mid :: right :: rest) =
      if mid = ' ' && isBorder left right then
        (i + 1) :: borderSpaces (i + 1) (mid :: right :: rest)
      else borderSpaces (i + 1) (mid :: right :: rest) := rfl

theorem mem_missingPlaces {i j : Nat} {t : Text} :
    j ∈ (missingSpaces i t).map Prod.fst ↔ ∃ k, j = i + k ∧ MeetsAt t k := by
  induction t generalizing i with
  | nil => simp [missingSpaces, MeetsAt]
  | cons left rest ih =>
      cases rest with
      | nil => simp [missingSpaces, MeetsAt]
      | cons right rest =>
          have hLater : j ∈ (missingSpaces (i + 1) (right :: rest)).map Prod.fst ↔
              ∃ k, j = i + (k + 1) ∧ MeetsAt (left :: right :: rest) (k + 1) := by
            rw [ih]
            simp only [Nat.add_assoc, Nat.add_comm 1]
            rfl
          have hHere : MeetsAt (left :: right :: rest) 0 ↔ isBorder left right = true := by
            simp [MeetsAt]
          rw [map_missingSpaces_cons, ← Nat.or_exists_add_one, ← hLater, hHere]
          split <;> simp [*]

theorem mem_borderSpaces_iff {i j : Nat} {t : Text} :
    j ∈ borderSpaces i t ↔ ∃ k, j = i + k + 1 ∧ PartsAt t k := by
  induction t generalizing i with
  | nil => simp [borderSpaces, PartsAt]
  | cons left rest ih =>
      rcases rest with _ | ⟨mid, _ | ⟨right, rest⟩⟩
      · simp [borderSpaces, PartsAt]
      · simp [borderSpaces, PartsAt]
      · have hLater : j ∈ borderSpaces (i + 1) (mid :: right :: rest) ↔
            ∃ k, j = i + (k + 1) + 1 ∧ PartsAt (left :: mid :: right :: rest) (k + 1) := by
          rw [ih]
          simp only [Nat.add_assoc, Nat.add_comm 1]
          rfl
        have hHere : PartsAt (left :: mid :: right :: rest) 0 ↔
            (mid = ' ' && isBorder left right) = true := by
          simp [PartsAt]
        rw [borderSpaces_cons, ← Nat.or_exists_add_one, ← hLater, hHere]
        split <;> simp [*]

theorem mem_borderPlaces_iff {j : Nat} {t : Text} :
    j ∈ borderSpaces 0 t ↔ ∃ i, j = i + 1 ∧ PartsAt t i := by
  simp only [mem_borderSpaces_iff, Nat.zero_add]

theorem pairwise_missingPlaces (i : Nat) (t : Text) :
    ((missingSpaces i t).map Prod.fst).Pairwise (· < ·) := by
  induction t generalizing i with
  | nil => exact .nil
  | cons left rest ih =>
      cases rest with
      | nil => exact .nil
      | cons right rest =>
          rw [map_missingSpaces_cons]
          split
          · refine .cons (fun j hMem => ?_) (ih (i + 1))
            rw [mem_missingPlaces] at hMem
            obtain ⟨k, rfl, _⟩ := hMem
            omega
          · exact ih (i + 1)

theorem pairwise_borderSpaces (i : Nat) (t : Text) : (borderSpaces i t).Pairwise (· < ·) := by
  induction t generalizing i with
  | nil => exact .nil
  | cons left rest ih =>
      rcases rest with _ | ⟨mid, _ | ⟨right, rest⟩⟩
      · exact .nil
      · exact .nil
      · rw [borderSpaces_cons]
        split
        · refine .cons (fun j hMem => ?_) (ih (i + 1))
          rw [mem_borderSpaces_iff] at hMem
          obtain ⟨k, rfl, _⟩ := hMem
          omega
        · exact ih (i + 1)

/-! ## A space more -/

/-- The places of the characters behind which a space is missing. -/
def missingPlaces (t : Text) : List Nat := (missingSpaces 0 t).map Prod.fst

variable {t : Text}

theorem mem_missingPlaces_iff {i : Nat} : i ∈ missingPlaces t ↔ MeetsAt t i := by
  rw [missingPlaces, mem_missingPlaces]
  simp

/-- No space is missing at a space. -/
theorem not_meetsAt_of_space {i : Nat} (h : t[i]? = some ' ' ∨ t[i + 1]? = some ' ') :
    ¬ MeetsAt t i := by
  rintro ⟨left, right, hLeft, hRight, hBorder⟩
  rcases h with h | h
  · obtain rfl : ' ' = left := Option.some_inj.mp (h.symm.trans hLeft)
    rw [isBorder_space_left] at hBorder
    cases hBorder
  · obtain rfl : ' ' = right := Option.some_inj.mp (h.symm.trans hRight)
    rw [isBorder_space_right] at hBorder
    cases hBorder

/-- Behind a character that is followed by no new space stands what stood behind it before. -/
theorem getElem?_spaced_next {places : List Nat} {i : Nat} (h : i ∉ places) :
    (t.spaced places)[Text.moved places i + 1]? = t[i + 1]? := by
  rw [← Text.getElem?_spaced_moved places t (i + 1), Text.moved_succ, if_neg h]

theorem missingSpaces_spaced (t : Text) : missingSpaces 0 (t.spaced (missingPlaces t)) = [] := by
  rw [← List.map_eq_nil_iff (f := Prod.fst), List.eq_nil_iff_forall_not_mem]
  intro m hMem
  rw [mem_missingPlaces] at hMem
  obtain ⟨m, -, left, right, hLeft, hRight, hBorder⟩ := hMem
  obtain ⟨k, hLt, rfl | ⟨hIn, rfl⟩⟩ := Text.exists_moved (List.getElem?_eq_some_iff.mp hLeft).1
  · by_cases hIn : k ∈ missingPlaces t
    · exact not_meetsAt_of_space (Or.inr (Text.getElem?_spaced_succ hLt hIn))
        ⟨left, right, hLeft, hRight, hBorder⟩
    · rw [Text.getElem?_spaced_moved] at hLeft
      rw [getElem?_spaced_next hIn] at hRight
      exact hIn (mem_missingPlaces_iff.mpr ⟨left, right, hLeft, hRight, hBorder⟩)
  · exact not_meetsAt_of_space (Or.inl (Text.getElem?_spaced_succ hLt hIn))
      ⟨left, right, hLeft, hRight, hBorder⟩

/-- A space that has been put in parts what meets there. -/
theorem partsAt_spaced {i : Nat} (hIn : i ∈ missingPlaces t) :
    PartsAt (t.spaced (missingPlaces t)) (Text.moved (missingPlaces t) i) := by
  obtain ⟨left, right, hLeft, hRight, hBorder⟩ := mem_missingPlaces_iff.mp hIn
  have hLt := (List.getElem?_eq_some_iff.mp hLeft).1
  rw [← Text.getElem?_spaced_moved (missingPlaces t)] at hLeft hRight
  rw [Text.moved_succ, if_pos hIn] at hRight
  exact ⟨left, right, hLeft, Text.getElem?_spaced_succ hLt hIn, hRight, hBorder⟩

/-- No space is put in next to a space, so what is around it stays. -/
theorem partsAt_spaced_iff {i : Nat} (hSpace : t[i + 1]? = some ' ') :
    Text.moved (missingPlaces t) (i + 1) = Text.moved (missingPlaces t) i + 1 ∧
      (PartsAt (t.spaced (missingPlaces t)) (Text.moved (missingPlaces t) i) ↔ PartsAt t i) := by
  have hBefore : i ∉ missingPlaces t :=
    mt mem_missingPlaces_iff.mp (not_meetsAt_of_space (Or.inr hSpace))
  have hAfter : i + 1 ∉ missingPlaces t :=
    mt mem_missingPlaces_iff.mp (not_meetsAt_of_space (Or.inl hSpace))
  have hMoved : Text.moved (missingPlaces t) (i + 1) = Text.moved (missingPlaces t) i + 1 := by
    rw [Text.moved_succ, if_neg hBefore]
  have hNext := getElem?_spaced_next (t := t) hAfter
  rw [hMoved] at hNext
  refine ⟨hMoved, ?_⟩
  simp only [PartsAt, Text.getElem?_spaced_moved, getElem?_spaced_next hBefore, hNext]

/-- With the missing spaces put in, the spaces that are there to report are these and those that
were there before. -/
theorem mem_borderSpaces_spaced_iff {j : Nat} :
    j ∈ borderSpaces 0 (t.spaced (missingPlaces t)) ↔
      (∃ i ∈ missingPlaces t, j = Text.moved (missingPlaces t) i + 1) ∨
        ∃ i ∈ borderSpaces 0 t, j = Text.moved (missingPlaces t) i := by
  simp only [mem_borderPlaces_iff]
  constructor
  · rintro ⟨m, rfl, hParts⟩
    obtain ⟨left, right, hLeft, hSpace, hRight, hBorder⟩ := id hParts
    obtain ⟨k, hLt, hMoved | ⟨hIn, hBehind⟩⟩ :=
      Text.exists_moved (List.getElem?_eq_some_iff.mp hSpace).1
    · rw [hMoved, Text.getElem?_spaced_moved] at hSpace
      cases k with
      | zero => cases hMoved
      | succ i =>
          obtain ⟨hSucc, hAlso⟩ := partsAt_spaced_iff hSpace
          obtain rfl := Nat.succ_inj.mp (hMoved.trans hSucc)
          exact Or.inr ⟨i + 1, ⟨i, rfl, hAlso.mp hParts⟩, hSucc.symm⟩
    · exact Or.inl ⟨k, hIn, hBehind⟩
  · rintro (⟨i, hIn, rfl⟩ | ⟨_, ⟨i, rfl, hParts⟩, rfl⟩)
    · exact ⟨_, rfl, partsAt_spaced hIn⟩
    · obtain ⟨_, _, _, hSpace, _⟩ := id hParts
      obtain ⟨hSucc, hAlso⟩ := partsAt_spaced_iff hSpace
      exact ⟨_, hSucc, hAlso.mpr hParts⟩

/-! ## A space less -/

/-- The text with the single spaces around Latin words closed up. -/
def closedUp : Text → Text
  | [] => []
  | [left] => [left]
  | [left, mid] => [left, mid]
  | left :: mid :: right :: rest =>
      if mid = ' ' && isBorder left right then left :: closedUp (right :: rest)
      else left :: closedUp (mid :: right :: rest)

theorem closedUp_cons (left mid right : Char) (rest : Text) :
    closedUp (left :: mid :: right :: rest) =
      if mid = ' ' && isBorder left right then left :: closedUp (right :: rest)
      else left :: closedUp (mid :: right :: rest) := rfl

theorem borderSpaces_space (i : Nat) (t : Text) :
    borderSpaces i (' ' :: t) = borderSpaces (i + 1) t := by
  rcases t with _ | ⟨mid, _ | ⟨right, rest⟩⟩
  · rfl
  · rfl
  · rw [borderSpaces_cons, isBorder_space_left, Bool.and_false]
    rfl

theorem not_mem_borderSpaces {i j : Nat} (hLe : j ≤ i) (t : Text) : j ∉ borderSpaces i t := by
  intro hMem
  rw [mem_borderSpaces_iff] at hMem
  obtain ⟨k, rfl, _⟩ := hMem
  omega

theorem withoutFrom_borderSpaces (i : Nat) (t : Text) :
    Text.withoutFrom (borderSpaces i t) i t = closedUp t := by
  induction t using closedUp.induct generalizing i with
  | case1 | case2 | case3 => rfl
  | case4 left mid right rest hSpace ih =>
      have hHere := not_mem_borderSpaces (Nat.le_refl i) (left :: mid :: right :: rest)
      rw [Text.withoutFrom, if_neg hHere, borderSpaces_cons, if_pos hSpace, Text.withoutFrom,
        if_pos List.mem_cons_self, Text.withoutFrom_cons_of_lt (Nat.lt_succ_self _), closedUp_cons,
        if_pos hSpace]
      rw [Bool.and_eq_true, decide_eq_true_eq] at hSpace
      rw [hSpace.1, borderSpaces_space, ih]
  | case5 left mid right rest hOther ih =>
      have hHere := not_mem_borderSpaces (Nat.le_refl i) (left :: mid :: right :: rest)
      rw [Text.withoutFrom, if_neg hHere, borderSpaces_cons, if_neg hOther, ih, closedUp_cons,
        if_neg hOther]

theorem exists_closedUp_cons (left : Char) (rest : Text) :
    ∃ more, closedUp (left :: rest) = left :: more := by
  rcases rest with _ | ⟨mid, _ | ⟨right, rest⟩⟩
  · exact ⟨_, rfl⟩
  · exact ⟨_, rfl⟩
  · rw [closedUp_cons]
    split <;> exact ⟨_, rfl⟩

theorem closedUp_space (t : Text) : closedUp (' ' :: t) = ' ' :: closedUp t := by
  rcases t with _ | ⟨mid, _ | ⟨right, rest⟩⟩
  · rfl
  · rfl
  · rw [closedUp_cons, isBorder_space_left, Bool.and_false]
    rfl

theorem borderSpaces_cons_of_not_space {i : Nat} {left mid : Char} {rest : Text} (h : mid ≠ ' ') :
    borderSpaces i (left :: mid :: rest) = borderSpaces (i + 1) (mid :: rest) := by
  cases rest with
  | nil => rfl
  | cons right rest =>
      rw [borderSpaces_cons, decide_eq_false h, Bool.false_and]
      rfl

theorem borderSpaces_closedUp (i : Nat) (t : Text) : borderSpaces i (closedUp t) = [] := by
  induction t using closedUp.induct generalizing i with
  | case1 | case2 | case3 => rfl
  | case4 left mid right rest hSpace ih =>
      rw [closedUp_cons, if_pos hSpace]
      have hRight : right ≠ ' ' := by
        rintro rfl
        rw [isBorder_space_right, Bool.and_false] at hSpace
        cases hSpace
      obtain ⟨more, hMore⟩ := exists_closedUp_cons right rest
      have hLater := ih (i + 1)
      rw [hMore] at hLater ⊢
      rw [borderSpaces_cons_of_not_space hRight, hLater]
  | case5 left mid right rest hOther ih =>
      rw [closedUp_cons, if_neg hOther]
      -- What is closed up later keeps its first character, so only a space here is next to it.
      have hLater := ih (i + 1)
      by_cases hMid : mid = ' '
      · obtain ⟨more, hMore⟩ := exists_closedUp_cons right rest
        rw [hMid] at hLater hOther ⊢
        rw [closedUp_space, hMore] at hLater ⊢
        rw [borderSpaces_cons, if_neg hOther, hLater]
      · obtain ⟨more, hMore⟩ := exists_closedUp_cons mid (right :: rest)
        rw [hMore] at hLater ⊢
        rw [borderSpaces_cons_of_not_space hMid, hLater]

theorem borderSpaces_without (t : Text) : borderSpaces 0 (t.without (borderSpaces 0 t)) = [] := by
  rw [Text.without, withoutFrom_borderSpaces, borderSpaces_closedUp]

/-! ## Repairs -/

variable {s s' : ValidatorSetup}

theorem spaceBetweenAlphabeticalWord_check_needed (h : s.flag "no_space" = false) :
    spaceBetweenAlphabeticalWord.check s = .ok (.onSentence fun site => some
      ((missingSpaces 0 site.sentence.content).map fun p =>
        s.problemAt p.2.message.toList site p.1 (p.1 + 2))) := by
  unfold spaceBetweenAlphabeticalWord
  simp only [h, Bool.false_eq_true, if_false]

theorem spaceBetweenAlphabeticalWord_check_forbidden (h : s.flag "no_space" = true) :
    spaceBetweenAlphabeticalWord.check s = .ok (.onSentence fun site => some
      ((borderSpaces 0 site.sentence.content).map fun i =>
        s.problemAt SpacingFault.forbidden.message.toList site i (i + 1))) := by
  unfold spaceBetweenAlphabeticalWord
  simp only [h, if_true]

/-- Every place where a Latin word and the text around it meet is reported if spaces are needed, and
every single space between them if spaces are forbidden, each once and in order. With a space put in
at each report of the first kind nothing is left to report, and neither is it with each space of the
second kind taken out. If spaces are forbidden behind all, those that have been put in are reported
together with those that were reported before, and no others. -/
theorem spaceBetweenAlphabeticalWord_repair (hNeeds : s.flag "no_space" = false)
    (hForbids : s'.flag "no_space" = true) :
    ∃ needed forbidden : Site → Option (List Problem),
      spaceBetweenAlphabeticalWord.check s = .ok (.onSentence needed) ∧
      spaceBetweenAlphabeticalWord.check s' = .ok (.onSentence forbidden) ∧
      (∀ site : Site, forbidden site = some ((borderSpaces 0 site.sentence.content).map fun j =>
        s'.problemAt SpacingFault.forbidden.message.toList site j (j + 1))) ∧
      ∀ site : Site,
        let t := site.sentence.content
        let places := missingPlaces t
        let spaces := borderSpaces 0 t
        needed site = some ((missingSpaces 0 t).map fun p =>
          s.problemAt p.2.message.toList site p.1 (p.1 + 2)) ∧
        places.Pairwise (· < ·) ∧ (∀ i, i ∈ places ↔ MeetsAt t i) ∧
        spaces.Pairwise (· < ·) ∧ (∀ j, j ∈ spaces ↔ ∃ i, j = i + 1 ∧ PartsAt t i) ∧
        (∀ other : Site, other.sentence.content = t.spaced places → needed other = some []) ∧
        (∀ other : Site, other.sentence.content = t.without spaces → forbidden other = some []) ∧
        ∀ other : Site, other.sentence.content = t.spaced places →
          (borderSpaces 0 other.sentence.content).Pairwise (· < ·) ∧
          ∀ j, j ∈ borderSpaces 0 other.sentence.content ↔
            (∃ i ∈ places, j = Text.moved places i + 1) ∨
              ∃ i ∈ spaces, j = Text.moved places i := by
  refine ⟨_, _, spaceBetweenAlphabeticalWord_check_needed hNeeds,
    spaceBetweenAlphabeticalWord_check_forbidden hForbids, fun _ => rfl, fun site => ?_⟩
  intro t places spaces
  refine ⟨rfl, pairwise_missingPlaces 0 t, fun _ => mem_missingPlaces_iff,
    pairwise_borderSpaces 0 t, fun _ => mem_borderPlaces_iff, ?_, ?_, ?_⟩
  · intro other hContent
    simp only [hContent]
    rw [missingSpaces_spaced]
    rfl
  · intro other hContent
    simp only [hContent]
    rw [borderSpaces_without]
    rfl
  · intro other hContent
    refine ⟨pairwise_borderSpaces 0 _, fun j => ?_⟩
    rw [hContent]
    exact mem_borderSpaces_spaced_iff

/-- A letter alone between ideographs is part of two reports and gets a space on both sides. The
second letter has one in front already. -/
theorem spaceBetweenAlphabeticalWord_repair_letters :
    let setup := fun noSpace : Bool => (⟨"SpaceBetweenAlphabeticalWord".toList,
      [("no_space", .bool noSpace)], .standard, .error⟩ : ValidatorSetup)
    (setup false).flag "no_space" = false ∧ (setup true).flag "no_space" = true ∧
    ∃ needed forbidden : Site → Option (List Problem),
      spaceBetweenAlphabeticalWord.check (setup false) = .ok (.onSentence needed) ∧
      spaceBetweenAlphabeticalWord.check (setup true) = .ok (.onSentence forbidden) ∧
      ∀ other : Site, other.sentence.content = "中 a 文 b 字".toList → needed other = some [] ∧
        ∀ j, j ∈ borderSpaces 0 other.sentence.content ↔ j = 1 ∨ j = 3 ∨ j = 7 ∨ j = 5 := by
  intro setup
  have hNeeds : (setup false).flag "no_space" = false := rfl
  have hForbids : (setup true).flag "no_space" = true := rfl
  refine ⟨hNeeds, hForbids, ?_⟩
  obtain ⟨needed, forbidden, hNeeded, hForbidden, _, hSites⟩ :=
    spaceBetweenAlphabeticalWord_repair hNeeds hForbids
  refine ⟨needed, forbidden, hNeeded, hForbidden, fun other hContent => ?_⟩
  let site : Site := ⟨0, Sentence.atPlace "中a文 b字".toList 1 0 true [] [] []⟩
  obtain ⟨_, _, _, _, _, hNone, _, hAll⟩ := hSites site
  have hSpaced : "中 a 文 b 字".toList =
      site.sentence.content.spaced (missingPlaces site.sentence.content) := by decide
  rw [hSpaced] at hContent
  refine ⟨hNone other hContent, fun j => ((hAll other hContent).2 j).trans ?_⟩
  have hPlaces : missingPlaces site.sentence.content = [0, 1, 4] := by decide
  have hSpaces : borderSpaces 0 site.sentence.content = [3] := by decide
  have hMoved : Text.moved [0, 1, 4] 0 = 0 ∧ Text.moved [0, 1, 4] 1 = 2 ∧
    Text.moved [0, 1, 4] 4 = 6 ∧ Text.moved [0, 1, 4] 3 = 5 := by decide
  simp [hPlaces, hSpaces, hMoved, or_assoc]

end Rule

end ProseLint
