import ProseLint.Proofs.Text.Tokens
import ProseLint.Proofs.Validation.Expressions
import ProseLint.Validation.Rule.Wording
import Mathlib.Data.Finset.Card
import Mathlib.Data.Finset.Dedup

/-! Words that are used again. A word counts unless it is skipped or a number, and it is reported
when the same word, but for case, has counted before. So of all uses of a word only the first one is
not reported. -/

namespace ProseLint

namespace Rule

variable {skipped seen : List Text} {before rest tokens : List Token} {t : Token}

/-! ## Tokens that count -/

/-- The token is no symbol, and its word, without case, is neither skipped nor a number. -/
def IsEligible (skipped : List Text) (t : Token) : Prop :=
  t.kind ≠ .symbol ∧ t.surface.lower ∉ skipped ∧ isNumber t.surface.lower = false

instance : Decidable (IsEligible skipped t) := inferInstanceAs (Decidable (_ ∧ _ ∧ _))

theorem isCounted_iff : isCounted skipped t = true ↔ IsEligible skipped t := by
  cases hKind : t.kind <;> simp [isCounted, IsEligible, hKind]

/-- The word, without case, is one of an eligible token. -/
def IsUsedIn (skipped : List Text) (tokens : List Token) (word : Text) : Prop :=
  ∃ u ∈ tokens, IsEligible skipped u ∧ u.surface.lower = word

instance {word : Text} : Decidable (IsUsedIn skipped tokens word) :=
  inferInstanceAs (Decidable (∃ u ∈ tokens, _ ∧ _))

theorem isUsedIn_concat {word : Text} : IsUsedIn skipped (before ++ [t]) word ↔
    IsUsedIn skipped before word ∨ IsEligible skipped t ∧ t.surface.lower = word := by
  simp only [IsUsedIn, List.mem_append, List.mem_singleton, or_and_right, exists_or,
    exists_eq_left]

/-- The token at an index is eligible, and one before it is eligible as well and has the same word,
without case. -/
def IsRepeat (skipped : List Text) (tokens : List Token) (j : Nat) (t : Token) : Prop :=
  tokens[j]? = some t ∧ IsEligible skipped t ∧ IsUsedIn skipped (tokens.take j) t.surface.lower

instance {j : Nat} : Decidable (IsRepeat skipped tokens j t) :=
  inferInstanceAs (Decidable (_ ∧ _ ∧ _))

/-! ## Going through the tokens -/

/-- What has been seen are the words of the eligible tokens so far. -/
def HasSeen (skipped seen : List Text) (before : List Token) : Prop :=
  ∀ word, word ∈ seen ↔ IsUsedIn skipped before word

namespace HasSeen

theorem nil : HasSeen skipped [] [] := by simp [HasSeen, IsUsedIn]

/-- A token adds nothing to what has been seen if it is not eligible, or if its word has been
seen. -/
theorem skip (h : HasSeen skipped seen before)
    (hOld : IsEligible skipped t → t.surface.lower ∈ seen) :
    HasSeen skipped seen (before ++ [t]) := by
  intro word
  rw [isUsedIn_concat, ← h word]
  constructor
  · exact Or.inl
  · rintro (hSeen | ⟨hEligible, rfl⟩)
    · exact hSeen
    · exact hOld hEligible

theorem add (h : HasSeen skipped seen before) (hEligible : IsEligible skipped t) :
    HasSeen skipped (t.surface.lower :: seen) (before ++ [t]) := by
  intro word
  rw [isUsedIn_concat, ← h word, List.mem_cons, eq_comm, or_comm, and_iff_right hEligible]

theorem isRepeat_iff (h : HasSeen skipped seen before) :
    IsRepeat skipped (before ++ t :: rest) before.length t ↔
      IsEligible skipped t ∧ t.surface.lower ∈ seen := by
  rw [IsRepeat, List.take_left, ← h t.surface.lower, List.getElem?_append_right (Nat.le_refl _),
    Nat.sub_self, List.getElem?_cons_zero, and_iff_right rfl]

end HasSeen

/-- The tokens that repeat an earlier one, with their indices. -/
def repeats (skipped : List Text) (tokens : List Token) : List (Token × Nat) :=
  tokens.zipIdx.filter fun r => IsRepeat skipped tokens r.2 r.1

/-- Going on behind some tokens with what has been seen in them, the rule finds the tokens that
repeat one of all tokens before. -/
theorem repeated_from (h : HasSeen skipped seen before) (after : List Token) :
    repeated seen (after.filter (isCounted skipped)) =
      ((after.zipIdx before.length).filter fun r =>
        IsRepeat skipped (before ++ after) r.2 r.1).map Prod.fst := by
  induction after generalizing seen before with
  | nil => rfl
  | cons t rest ih =>
      -- The token goes to those before, and what has been seen in them decides about it.
      have hAll : before ++ t :: rest = before ++ [t] ++ rest := List.append_cons before t rest
      have hNext : before.length + 1 = (before ++ [t]).length := by simp
      have hHere : IsRepeat skipped (before ++ t :: rest) before.length t ↔
          IsEligible skipped t ∧ t.surface.lower ∈ seen := h.isRepeat_iff
      rw [List.zipIdx_cons, hNext]
      by_cases hEligible : IsEligible skipped t
      · rw [List.filter_cons_of_pos (isCounted_iff.mpr hEligible), repeated]
        by_cases hSeen : t.surface.lower ∈ seen
        · have hRepeat := hHere.mpr ⟨hEligible, hSeen⟩
          rw [List.filter_cons_of_pos (by simpa using hRepeat), List.map_cons, hAll]
          rw [if_pos (List.contains_iff_mem.mpr hSeen), ih (h.skip fun _ => hSeen)]
        · have hFirst := fun hRepeat => hSeen (hHere.mp hRepeat).2
          rw [List.filter_cons_of_neg (by simpa using hFirst), hAll]
          rw [if_neg (by simpa using hSeen), ih (h.add hEligible)]
      · have hOther := fun hRepeat => hEligible (hHere.mp hRepeat).1
        rw [List.filter_cons_of_neg (fun hCounts => hEligible (isCounted_iff.mp hCounts)),
          List.filter_cons_of_neg (by simpa using hOther), hAll]
        exact ih (h.skip fun hCounts => (hEligible hCounts).elim)

/-- The rule finds the tokens that repeat an earlier one, in the order of the sentence. -/
theorem repeated_eq (skipped : List Text) (tokens : List Token) :
    repeated [] (tokens.filter (isCounted skipped)) = (repeats skipped tokens).map Prod.fst :=
  repeated_from .nil tokens

theorem mem_repeats {j : Nat} :
    (t, j) ∈ repeats skipped tokens ↔ IsRepeat skipped tokens j t := by
  simp only [repeats, List.mem_filter, List.mem_zipIdx_iff_getElem?, decide_eq_true_eq,
    and_iff_right_iff_imp]
  exact And.left

theorem repeats_rising (skipped : List Text) (tokens : List Token) :
    (repeats skipped tokens).Pairwise (·.2 < ·.2) := by
  have hAll : tokens.zipIdx.Pairwise (·.2 < ·.2) := by
    rw [← List.pairwise_map (f := Prod.snd) (R := (· < ·)), List.zipIdx_map_snd]
    exact List.pairwise_lt_range' ..
  exact hAll.filter _

/-! ## How many there are -/

/-- Each word that has not been seen is left out once. -/
theorem length_repeated_add (seen : List Text) (tokens : List Token) :
    (repeated seen tokens).length +
        ((tokens.map (·.surface.lower)).toFinset \ seen.toFinset).card = tokens.length := by
  induction tokens generalizing seen with
  | nil => simp [repeated]
  | cons t rest ih =>
      rw [repeated, List.map_cons, List.toFinset_cons, List.length_cons]
      by_cases hSeen : t.surface.lower ∈ seen
      · rw [if_pos (List.contains_iff_mem.mpr hSeen),
          Finset.insert_sdiff_of_mem _ (List.mem_toFinset.mpr hSeen), List.length_cons, ← ih seen]
        omega
      · have hNew : t.surface.lower ∉ seen.toFinset := by rwa [List.mem_toFinset]
        have hLater := ih (t.surface.lower :: seen)
        rw [List.toFinset_cons, Finset.sdiff_insert] at hLater
        rw [if_neg (by simpa using hSeen), Finset.insert_sdiff_of_notMem _ hNew,
          ← Finset.card_erase_add_one (Finset.mem_insert_self _ _), Finset.erase_insert_eq_erase,
          ← Nat.add_assoc, hLater]

/-! ## The rule -/

/-- What is found among some tokens: each one that repeats an earlier one, in order and once. -/
structure RepeatReports (skipped : List Text) (tokens : List Token)
    (found : List (Token × Nat)) : Prop where
  rising : found.Pairwise (·.2 < ·.2)
  mem_iff : ∀ t j, (t, j) ∈ found ↔ IsRepeat skipped tokens j t
  length_add :
    let words := (tokens.filter (IsEligible skipped ·)).map (·.surface.lower)
    found.length + words.toFinset.card = words.length

theorem repeatReports (skipped : List Text) (tokens : List Token) :
    RepeatReports skipped tokens (repeats skipped tokens) where
  rising := repeats_rising skipped tokens
  mem_iff _ _ := mem_repeats
  length_add := by
    have hCounted : isCounted skipped = fun t => decide (IsEligible skipped t) :=
      funext fun t => Bool.eq_iff_iff.mpr (isCounted_iff.trans decide_eq_true_iff.symm)
    have hLength := length_repeated_add [] (tokens.filter (isCounted skipped))
    rwa [repeated_eq, List.toFinset_nil, Finset.sdiff_empty, hCounted, List.length_map,
      ← List.length_map (f := fun t : Token => t.surface.lower)] at hLength

variable {s : ValidatorSetup}

/-- The problem with a repeated word. -/
def repeatProblem (s : ValidatorSetup) (site : Site) (t : Token) : Problem :=
  s.problemAt (about "Found repeated word " t.surface ".") site t.offset
    (t.offset + t.surface.length)

theorem doubledWord_check_eq {extra : List Text} (h : s.texts "list" = .ok extra) :
    doubledWord.check s = .ok (.onSentence fun site => some
      ((repeats (commonWords ++ extra.map Text.lower) site.sentence.tokensOrCut).map fun r =>
        repeatProblem s site r.1)) := by
  unfold doubledWord
  dsimp only
  rw [h]
  simp only [repeated_eq, List.map_map]
  rfl

end Rule

/-- The sentence with its tokens taken away. -/
def Site.untokenized (site : Site) : Site :=
  { site with sentence := { site.sentence with tokens := [] } }

namespace Rule

variable {s : ValidatorSetup}

/-- Repeated words are reported exactly. A token is reported when it and an earlier one are eligible
and have the same word, without case, so all uses of a word but the first one are reported. It makes
no difference whether the sentence has its tokens or is cut into them by the rule. -/
theorem doubledWord_exact {items : List Text}
    (hItems : ValidatorSetup.itemsOf? (s.value "list") = some items) :
    ∃ (skipped : List Text) (find : Site → Option (List Problem)),
      doubledWord.check s = .ok (.onSentence find) ∧
      (∀ word, word ∈ skipped ↔ word ∈ commonWords ∨
        ∃ item ∈ items, Text.strip item ≠ [] ∧ (Text.strip item).lower = word) ∧
      ∀ site : Site, site.sentence.tokens = [] ∨
          site.sentence.tokens = Tokenizer.whitespace.tokens site.sentence.content →
        ∃ found : List (Token × Nat),
          RepeatReports skipped (Tokenizer.whitespace.tokens site.sentence.content) found ∧
          find site = some (found.map fun r => repeatProblem s site r.1) ∧
          find site.untokenized =
            (find site).map (·.map ({ · with site := some site.untokenized })) := by
  obtain ⟨extra, hTexts, _, hMem⟩ := texts_eq_ok hItems
  let skipped := commonWords ++ extra.map Text.lower
  have hSkipped : ∀ word, word ∈ skipped ↔ word ∈ commonWords ∨
      ∃ item ∈ items, Text.strip item ≠ [] ∧ (Text.strip item).lower = word := by
    intro word
    rw [List.mem_append, List.mem_map]
    apply or_congr_right
    constructor
    · rintro ⟨w, hExtra, rfl⟩
      obtain ⟨hSome, item, hItem, rfl⟩ := (hMem w).mp hExtra
      exact ⟨item, hItem, hSome, rfl⟩
    · rintro ⟨item, hItem, hSome, rfl⟩
      exact ⟨Text.strip item, (hMem _).mpr ⟨hSome, item, hItem, rfl⟩, rfl⟩
  refine ⟨skipped, _, doubledWord_check_eq hTexts, hSkipped, fun site hTokens => ?_⟩
  have hCut := Sentence.tokensOrCut_of_tokens hTokens
  have hUncut : site.untokenized.sentence.tokensOrCut =
      Tokenizer.whitespace.tokens site.sentence.content := rfl
  refine ⟨repeats skipped _, repeatReports skipped _, ?_, ?_⟩
  · rw [hCut]
  · simp only [hCut, hUncut, Option.map_some, List.map_map]
    rfl

/-- The third `cat` is the second one to be reported, and `saw` is skipped. -/
theorem doubledWord_exact_cat :
    let s : ValidatorSetup := ⟨"DoubledWord".toList, [("list", .str " SAW,")], .standard, .error⟩
    let content := "The cat saw, saw the Cat 12 12 CAT".toList
    let site : Site := ⟨0, Sentence.atPlace content 1 0 true [] [] []⟩
    ValidatorSetup.itemsOf? (s.value "list") = some [" SAW".toList, []] ∧
      site.sentence.tokens = [] ∧
      ∃ (find : Site → Option (List Problem)) (found : List (Token × Nat)),
        doubledWord.check s = .ok (.onSentence find) ∧
        find site = some (found.map fun r => repeatProblem s site r.1) ∧
        (⟨"CAT".toList, .word, 31⟩, 9) ∈ found ∧ (⟨"saw".toList, .word, 13⟩, 4) ∉ found := by
  intro s content site
  have hItems : ValidatorSetup.itemsOf? (s.value "list") = some [" SAW".toList, []] := rfl
  obtain ⟨skipped, find, hCheck, hSkipped, hFind⟩ := doubledWord_exact hItems
  obtain ⟨found, hReports, hProblems, _⟩ := hFind site (.inl rfl)
  have hCat : "cat".toList ∉ skipped := by
    rw [hSkipped]
    decide
  have hSaw : "saw".toList ∈ skipped := by
    rw [hSkipped]
    decide
  refine ⟨hItems, rfl, find, found, hCheck, hProblems, ?_, ?_⟩
  · apply (hReports.mem_iff _ _).mpr
    have hFirst : (⟨"cat".toList, .word, 4⟩ : Token) ∈
        (Tokenizer.whitespace.tokens content).take 9 := by decide
    exact ⟨by decide, ⟨nofun, hCat, by decide⟩, _, hFirst, ⟨nofun, hCat, by decide⟩, by decide⟩
  · rw [hReports.mem_iff]
    exact fun hRepeat => hRepeat.2.1.2.1 hSaw

end Rule

end ProseLint
