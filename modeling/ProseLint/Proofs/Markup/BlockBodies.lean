import ProseLint.Markup.Reading
import ProseLint.Proofs.Layout.Groups
import ProseLint.Proofs.Markup.Changes
import ProseLint.Proofs.Source.Escapes

/-! Blocks of book manuscripts and the lines in their bodies. Nothing of a body is seen, and no
line in it opens, closes or marks anything, whatever it looks like. Two texts that differ only
there are read as the same document. -/

namespace ProseLint

namespace Suppress

/-- Whether a line of source is a suppress comment. -/
def isComment (raw : Text) : Bool := marker.isPrefixOf raw

theorem rule?_isSome (l : Line) : (rule? l).isSome = isComment l.raw := by
  rw [rule?, Option.isSome_map, List.isSome_isPrefixOf?_eq_isPrefixOf, isComment]

theorem isPrefix_text_of_isComment {raw : Text} (h : isComment raw = true) (n : Nat) :
    marker <+: (Line.ofText n true raw).text := by
  obtain ⟨rest, rfl⟩ := List.isPrefixOf_iff_prefix.mp h
  have hEnds : marker.EndsVisibly := ⟨"//@Suppress".toList, '@', rfl, by decide⟩
  exact Line.isPrefix_text_ofText (by decide) hEnds n rest

end Suppress

namespace Review

/-! ## Where bodies are -/

/-- Whether a line opens a block that has a body. -/
def opensBody (raw : Text) : Bool := (blockOf (Line.ofText 1 true raw).text).isOpen

/-- Whether a line ends the body of a block. -/
def endsBody (raw : Text) : Bool := (Line.ofText 1 true raw).text.strip == blockEnd

/-- Whether a body is open below a line, given whether one is open above it. Inside a body no
other one opens. -/
def bodyBelow (opened : Bool) (raw : Text) : Bool :=
  if opened then !endsBody raw else opensBody raw

/-- Whether a body is open below some lines, given whether one is open above them. -/
def bodyAfter (opened : Bool) (raws : List Text) : Bool := raws.foldl bodyBelow opened

/-- The line at an index is in the body of a block, below the line that opens it and above the
line that ends it. A body that is not ended goes on to the last line. -/
def IsInBody (raws : List Text) (i : Nat) : Prop :=
  bodyAfter false (raws.take i) = true ∧ ∀ raw ∈ raws[i]?, endsBody raw = false

/-- A suppress comment neither opens nor ends a body. -/
theorem bodyBelow_of_isComment {raw : Text} (h : Suppress.isComment raw = true) (opened : Bool) :
    bodyBelow opened raw = opened := by
  obtain ⟨rest, hText⟩ := Suppress.isPrefix_text_of_isComment h 1
  have hMarker : Suppress.marker = '/' :: '/' :: '@' :: "Suppress@".toList := rfl
  cases opened with
  | true =>
      have hEnds : Suppress.marker.EndsVisibly := ⟨"//@Suppress".toList, '@', rfl, by decide⟩
      have hStrip : Text.strip (Suppress.marker ++ rest) =
          Suppress.marker ++ Text.stripRight rest := by
        have hSlash : ¬isBlank '/' = true := by decide
        rw [Text.strip, Text.stripRight_append hEnds, hMarker]
        exact List.dropWhile_cons_of_neg hSlash
      have hOther : endsBody raw = false := by
        rw [endsBody, ← hText, hStrip, hMarker, blockEnd, beq_eq_false_iff_ne]
        intro hSame
        injection hSame with _ hSame
        injection hSame with _ hSame
        injection hSame with hSign
        exact absurd hSign (by decide)
      rw [bodyBelow, if_pos rfl, hOther]
      rfl
  | false =>
      have hName : List.takeWhile isWordChar ('@' :: ("Suppress@".toList ++ rest)) = [] :=
        List.takeWhile_cons_of_neg (by decide)
      rw [bodyBelow, if_neg Bool.false_ne_true, opensBody, ← hText, hMarker]
      simp only [List.cons_append, blockOf, hName, List.isEmpty_nil, if_true]

/-! ## What a line does to an open body -/

theorem classifyBody_block (s : State) (l : Line) : (classifyBody s l).1.block = s.block := by
  unfold classifyBody list?
  split
  · next found hFound =>
      split at hFound
      · cases hFound
        rfl
      · split at hFound
        · cases hFound
          rfl
        · split at hFound
          · cases hFound
            rfl
          · cases hFound
  · split <;> rfl

theorem isPrefixOf_of_isOpen {t : Text} (h : (blockOf t).isOpen = true) :
    ['/', '/'].isPrefixOf t = true := by
  unfold blockOf at h
  split at h
  · rfl
  · cases h

/-- A body is opened and ended by what stands on the line, and by nothing that is open besides. -/
theorem classifyLine_block (s : State) (n : Nat) (raw : Text) :
    (classifyLine s (.ofText n true raw)).1.block.isSome = bodyBelow s.block.isSome raw := by
  have hText : (Line.ofText n true raw).text = (Line.ofText 1 true raw).text := rfl
  unfold classifyLine bodyBelow opensBody endsBody
  simp only [hText]
  generalize (Line.ofText 1 true raw).text = t
  by_cases hOpen : s.block.isSome = true
  · rw [if_pos hOpen, if_pos hOpen]
    by_cases hEnd : t.strip = blockEnd
    · simp [hEnd]
    · simp [hEnd, hOpen]
  · rw [if_neg hOpen, if_neg hOpen]
    by_cases hMark : ['/', '/'].isPrefixOf t = true
    · rw [if_pos hMark]
      cases hBlock : (blockOf t).isOpen <;> simp [hOpen]
    · have hPlain : (blockOf t).isOpen = false :=
        Bool.eq_false_iff.mpr fun hBlock => hMark (isPrefixOf_of_isOpen hBlock)
      rw [if_neg hMark, hPlain, ← Bool.not_eq_true]
      split
      · exact hOpen
      · split
        · split
          · exact hOpen
          · exact hOpen
        · rwa [classifyBody_block]

/-- In a body a line that does not end it is erased, and nothing else happens. -/
theorem classifyLine_body {s : State} (hOpen : s.block.isSome = true) {raw : Text}
    (hInner : endsBody raw = false) (n : Nat) :
    classifyLine s (.ofText n true raw) = (s, (Line.ofText n true raw).eraseAll) := by
  have hText : ¬(Line.ofText n true raw).text.strip = blockEnd := beq_eq_false_iff_ne.mp hInner
  unfold classifyLine
  rw [if_pos hOpen, if_neg hText]

/-! ## Texts that differ in bodies only -/

/-- A line that may stand in a body: it does not end it and is no suppress comment. -/
structure IsBodyLine (raw : Text) : Prop where
  inner : endsBody raw = false
  plain : Suppress.isComment raw = false

theorem IsBodyLine.rule?_eq_none {raw : Text} (h : IsBodyLine raw) (n : Nat) :
    Suppress.rule? (Line.ofText n true raw) = none := by
  have hNone := Suppress.rule?_isSome (Line.ofText n true raw)
  exact Option.not_isSome_iff_eq_none.mp (by rw [hNone]; exact Bool.eq_false_iff.mp h.plain)

/-- The lines of two texts are the same but for lines in bodies, given whether a body is open
above them. -/
inductive SameOutside : Bool → List Text → List Text → Prop where
  | nil (opened : Bool) : SameOutside opened [] []
  | same {opened : Bool} {raw : Text} {raws others : List Text}
      (hRest : SameOutside (bodyBelow opened raw) raws others) :
      SameOutside opened (raw :: raws) (raw :: others)
  | body {raw other : Text} {raws others : List Text} (hLeft : IsBodyLine raw)
      (hRight : IsBodyLine other) (hRest : SameOutside true raws others) :
      SameOutside true (raw :: raws) (other :: others)

/-- Lines that differ stand in bodies. It is enough to ask this of one of the two texts, since the
bodies of the other then are the same. -/
theorem SameOutside.of_bodyAfter {raws others : List Text} (hLength : raws.length = others.length)
    {opened : Bool}
    (h : ∀ (i : Nat) (raw other : Text), raws[i]? = some raw → others[i]? = some other →
      raw ≠ other → bodyAfter opened (raws.take i) = true ∧ IsBodyLine raw ∧ IsBodyLine other) :
    SameOutside opened raws others := by
  induction raws generalizing opened others with
  | nil =>
      rw [List.length_nil, eq_comm, List.length_eq_zero_iff] at hLength
      rw [hLength]
      exact .nil opened
  | cons raw raws ih =>
      obtain ⟨other, others, rfl⟩ := List.exists_cons_of_length_pos
        (Nat.lt_of_lt_of_eq (Nat.succ_pos raws.length) hLength)
      have hRest : SameOutside (bodyBelow opened raw) raws others :=
        ih (Nat.succ_inj.mp hLength) fun i a b ha hb hNe => h (i + 1) a b ha hb hNe
      by_cases hSame : raw = other
      · subst hSame
        exact .same hRest
      · obtain ⟨hOpen, hLeft, hRight⟩ := h 0 raw other rfl rfl hSame
        obtain rfl : opened = true := hOpen
        rw [bodyBelow, if_pos rfl, hLeft.inner] at hRest
        exact .body hLeft hRight hRest

theorem SameOutside.rules_eq {opened : Bool} {raws others : List Text}
    (h : SameOutside opened raws others) (number : Nat → Nat) :
    Suppress.rules (raws.mapIdx fun i raw => Line.ofText (number i) true raw) =
      Suppress.rules (others.mapIdx fun i raw => Line.ofText (number i) true raw) := by
  induction h generalizing number with
  | nil => rfl
  | same _ ih =>
      have hRest := ih fun i => number (i + 1)
      rw [Suppress.rules] at hRest
      simp only [List.mapIdx_cons, Suppress.rules, List.filterMap_cons, hRest]
  | body hLeft hRight _ ih =>
      have hRest := ih fun i => number (i + 1)
      rw [Suppress.rules] at hRest
      simp only [List.mapIdx_cons, Suppress.rules, List.filterMap_cons,
        hLeft.rule?_eq_none (number 0), hRight.rule?_eq_none (number 0), hRest]

/-- A line as the classification comes to it, and what is open and what the line is behind it. -/
def pass (s : State) (n : Nat) (raw : Text) : State × Line :=
  if Suppress.isComment raw then (s, (Line.ofText n true raw).eraseAll)
  else classifyLine s (.ofText n true raw)

theorem pass_block (s : State) (n : Nat) (raw : Text) :
    (pass s n raw).1.block.isSome = bodyBelow s.block.isSome raw := by
  unfold pass
  split
  · next hComment => rw [bodyBelow_of_isComment hComment]
  · exact classifyLine_block s n raw

theorem IsBodyLine.pass_eq {raw : Text} (h : IsBodyLine raw) {s : State}
    (hOpen : s.block.isSome = true) (n : Nat) :
    pass s n raw = (s, (Line.ofText n true raw).eraseAll) := by
  rw [pass, if_neg (Bool.eq_false_iff.mp h.plain), classifyLine_body hOpen h.inner]

/-- The lines of a text as they are classified, numbered in some way. -/
def passLines (s : State) (number : Nat → Nat) (raws : List Text) : State × List Line :=
  classifyLines s (Suppress.eraseComments (raws.mapIdx fun i raw => .ofText (number i) true raw))

theorem passLines_cons (s : State) (number : Nat → Nat) (raw : Text) (raws : List Text) :
    passLines s number (raw :: raws) =
      let (s, l) := pass s (number 0) raw
      (passLines s (fun i => number (i + 1)) raws).map id (l :: ·) := by
  let l := Line.ofText (number 0) true raw
  let entered := if (Suppress.rule? l).isSome then l.eraseAll else l
  have hPass : (if entered.erased then (s, entered) else classifyLine s entered) =
      pass s (number 0) raw := by
    have hComment : (Suppress.rule? l).isSome = Suppress.isComment raw := Suppress.rule?_isSome l
    simp only [entered, pass, hComment]
    cases Suppress.isComment raw <;> rfl
  rw [← hPass, passLines, List.mapIdx_cons, Suppress.eraseComments, List.map_cons, classifyLines]
  rfl

/-- The classification of two such texts goes through the same states, and where their lines
differ nothing is seen of either. -/
theorem SameOutside.passLines_alike {opened : Bool} {raws others : List Text}
    (h : SameOutside opened raws others) (number : Nat → Nat) {s : State}
    (hOpen : s.block.isSome = opened) :
    (passLines s number raws).1 = (passLines s number others).1 ∧
      List.Forall₂ Layout.SeenAlike (passLines s number raws).2 (passLines s number others).2 := by
  induction h generalizing number s with
  | nil => exact ⟨rfl, .nil⟩
  | @same opened raw _ _ _ ih =>
      have hBelow : (pass s (number 0) raw).1.block.isSome = bodyBelow opened raw := by
        rw [pass_block, hOpen]
      obtain ⟨hState, hLines⟩ := ih (fun i => number (i + 1)) hBelow
      rw [passLines_cons, passLines_cons]
      exact ⟨hState, .cons (.inl rfl) hLines⟩
  | @body raw other _ _ hLeft hRight _ ih =>
      obtain ⟨hState, hLines⟩ := ih (fun i => number (i + 1)) hOpen
      rw [passLines_cons, passLines_cons, hLeft.pass_eq hOpen, hRight.pass_eq hOpen]
      exact ⟨hState, .cons (.inr ⟨Line.isEmpty_eraseAll _, Line.isEmpty_eraseAll _⟩) hLines⟩

end Review

namespace Format

open Review

/-- Nothing of a manuscript depends on what stands in the bodies of its blocks. Two texts with as
many lines, which differ only in lines that stand in bodies and neither end them nor are suppress
comments, are read as the same document, with the same warnings. -/
theorem review_bodies_unseen {t u : Text} (hLength : t.lines.length = u.lines.length)
    (hBodies : ∀ (i : Nat) (raw other : Text), t.lines[i]? = some raw → u.lines[i]? = some other →
      raw ≠ other → IsInBody t.lines i ∧ endsBody other = false ∧
        Suppress.isComment raw = false ∧ Suppress.isComment other = false) (o : ReadOptions) :
    review.read o t = review.read o u := by
  have hSame : SameOutside false t.lines u.lines := by
    refine .of_bodyAfter hLength fun i raw other hRaw hOther hNe => ?_
    obtain ⟨⟨hOpen, hInner⟩, hOtherInner, hPlain, hOtherPlain⟩ := hBodies i raw other hRaw hOther hNe
    exact ⟨hOpen, ⟨hInner raw hRaw, hPlain⟩, ⟨hOtherInner, hOtherPlain⟩⟩
  have hRules : (review.classify t).rules = (review.classify u).rules := hSame.rules_eq (· + 1)
  obtain ⟨hState, hLines⟩ := hSame.passLines_alike (· + 1) (s := ⟨none, false⟩) rfl
  have hWarnings : (review.classify t).warnings = (review.classify u).warnings := by
    have hEnd : (classifyLines ⟨none, false⟩ (Suppress.eraseComments (Line.readAll true t))).1 =
        (classifyLines ⟨none, false⟩ (Suppress.eraseComments (Line.readAll true u))).1 := hState
    simp only [classify, Review.classify, hEnd]
  have hBuild := Layout.build_seenAlike hLines o.extractor (review.classify t).rules o.fileName
  have hLeft : (review.classify t).lines = (passLines ⟨none, false⟩ (· + 1) t.lines).2 := rfl
  have hRight : (review.classify u).lines = (passLines ⟨none, false⟩ (· + 1) u.lines).2 := rfl
  rw [← hLeft, ← hRight, hRules] at hBuild
  simp only [read, Classified.read, hBuild, hRules, hWarnings]

/-- A header, a block command and a term in the body of a block that is not ended, for an empty
line, a list element and a comment. -/
theorem review_bodies_unseen_open :
    let t : Text := "= A\n//list[x]\x7b\n== B\n//note\x7b\n : c".toList
    let u : Text := "= A\n//list[x]\x7b\n\n * d\n#@e".toList
    t.lines.length = u.lines.length ∧
      (∀ (i : Nat) (raw other : Text), t.lines[i]? = some raw → u.lines[i]? = some other →
        raw ≠ other → IsInBody t.lines i ∧ endsBody other = false ∧
          Suppress.isComment raw = false ∧ Suppress.isComment other = false) ∧
      t ≠ u ∧ ∀ o, review.read o t = review.read o u := by
  intro t u
  have hLength : t.lines.length = u.lines.length := by decide +kernel
  have hAll : ∀ i < t.lines.length, ∀ raw ∈ t.lines[i]?, ∀ other ∈ u.lines[i]?, raw ≠ other →
      IsInBody t.lines i ∧ endsBody other = false ∧
        Suppress.isComment raw = false ∧ Suppress.isComment other = false := by
    unfold IsInBody
    decide +kernel
  have hBodies : ∀ (i : Nat) (raw other : Text), t.lines[i]? = some raw → u.lines[i]? = some other →
      raw ≠ other → IsInBody t.lines i ∧ endsBody other = false ∧
        Suppress.isComment raw = false ∧ Suppress.isComment other = false := by
    intro i raw other hRaw hOther
    exact hAll i (List.getElem?_eq_some_iff.mp hRaw).1 raw hRaw other hOther
  exact ⟨hLength, hBodies, by decide, review_bodies_unseen hLength hBodies⟩

end Format

end ProseLint
