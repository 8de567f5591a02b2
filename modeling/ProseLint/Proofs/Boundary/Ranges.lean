import ProseLint.Proofs.Boundary.Search
import ProseLint.Proofs.Text.Pieces

/-! What is cut off a text. Cutting stops at every text, the ranges lie end to end and give the
text back together with the rest, each of them stops with an end token where a sentence may stop,
and no sentence ends in the rest. Only an extractor with a first end symbol of one character can
be made, since that symbol decides how lines are joined. -/

namespace ProseLint

namespace EndRule

/-- Whether a piece of a text stops with an end token. -/
def StopsWithToken (tokens : List Text) (t : Text) (i stop : Nat) : Prop :=
  ∃ w ∈ tokens, w <:+ t.slice i stop

theorem StopsWithToken.mono {tokens : List Text} {t : Text} {i j stop : Nat} (hLe : i ≤ j)
    (h : StopsWithToken tokens t j stop) : StopsWithToken tokens t i stop := by
  obtain ⟨w, hMem, hSuffix⟩ := h
  exact ⟨w, hMem, hSuffix.trans (Text.slice_isSuffix hLe t stop)⟩

theorem stopsWithToken_of_tokenAt? {tokens : List Text} (hTokens : [] ∉ tokens) {t : Text}
    {i n k : Nat} (hLe : k ≤ i) (hToken : tokenAt? tokens (t.drop i) = some n) :
    StopsWithToken tokens t k (i + n) := by
  have hBounds := tokenAt?_bounds hTokens hToken
  obtain ⟨w, hMem, rfl, hPrefix⟩ := exists_of_tokenAt? hToken
  have hAt : t.StandsAt i w := Text.StandsAt.iff_prefix_drop.mpr ⟨by omega, hPrefix⟩
  exact ⟨w, hMem, hAt.isSuffix_slice hLe⟩

theorem Absorbs.stopsWithToken {tokens : List Text} (hTokens : [] ∉ tokens) {t : Text}
    {i stop k : Nat} (h : Absorbs tokens t i stop) (hLe : k ≤ i)
    (hBefore : StopsWithToken tokens t k i) : StopsWithToken tokens t k stop := by
  induction h with
  | done => exact hBefore
  | token hToken _ ih =>
      exact ih (Nat.le_trans hLe (Nat.le_add_right _ _))
        (stopsWithToken_of_tokenAt? hTokens hLe hToken)

/-- What is found lies behind the place from which it is looked for. -/
structure IsEndFrom (r : EndRule) (t : Text) (i last : Nat) : Prop where
  le_last : i ≤ last
  last_lt : last < t.length
  token : StopsWithToken r.tokens t i (last + 1)
  stops : StopsAt t (last + 1)

theorem IsEndFrom.mono {r : EndRule} {t : Text} {i j last : Nat} (hLe : i ≤ j)
    (h : r.IsEndFrom t j last) : r.IsEndFrom t i last :=
  ⟨Nat.le_trans hLe h.le_last, h.last_lt, h.token.mono hLe, h.stops⟩

theorem Finds.isEndFrom {r : EndRule} (hTokens : [] ∉ r.tokens) {t : Text} {i last : Nat}
    (h : Finds r t i (some last)) : r.IsEndFrom t i last := by
  generalize hFound : some last = found at h
  induction h with
  | absent => cases hFound
  | shielded hSearch _ _ ih =>
      have hFirst := firstToken_of_search hTokens hSearch
      exact (ih hFound).mono (Nat.le_trans hFirst.le_start (Nat.le_of_lt hFirst.start_lt))
  | @closing i start stop last hRun hStops =>
      cases hFound
      obtain ⟨hFrom, hLt, hStop, hToken, -⟩ := firstToken_of_search hTokens hRun.search
      have hLe := hRun.absorbs.le
      have hLast := hRun.absorbs.le_length hTokens hStop
      have hFirst := stopsWithToken_of_tokenAt? hTokens hFrom hToken
      rw [Nat.add_sub_cancel' (Nat.le_of_lt hLt)] at hFirst
      have hWhole := hRun.absorbs.stopsWithToken hTokens (by omega) hFirst
      exact ⟨by omega, by omega, hWhole, hStops⟩
  | refused hRun _ _ ih =>
      obtain ⟨hFrom, hLt, -, -, -⟩ := firstToken_of_search hTokens hRun.search
      have hLe := hRun.absorbs.le
      exact (ih hFound).mono (by omega)

theorem isEndFrom_of_sentenceEnd? {r : EndRule} (hTokens : [] ∉ r.tokens) {t : Text} {i last : Nat}
    (h : r.sentenceEnd? t i = some last) : r.IsEndFrom t i last :=
  Finds.isEndFrom hTokens (h ▸ sentenceEnd?_finds hTokens t i)

end EndRule

namespace Extractor

open EndRule (StopsWithToken StopsAt)

/-- Sentences are cut off a text one after the other, up to where no sentence end follows. -/
inductive Splits (r : EndRule) (t : Text) : Nat → List (Nat × Nat) → Nat → Prop where
  | rest {i : Nat} (hNone : r.sentenceEnd? t i = none) : Splits r t i [] i
  | sentence {i last remainder : Nat} {ranges : List (Nat × Nat)}
      (hEnd : r.sentenceEnd? t i = some last) (hLater : Splits r t (last + 1) ranges remainder) :
      Splits r t i ((i, last + 1) :: ranges) remainder

theorem rangesFrom_splits {r : EndRule} (hTokens : [] ∉ r.tokens) (t : Text) (i : Nat) :
    Splits r t i (rangesFrom r (r.shields t) i (t.drop i)).1
      (rangesFrom r (r.shields t) i (t.drop i)).2 := by
  generalize hDrop : t.drop i = rest
  have hHere : r.sentenceEnd? t i = r.endFrom? (r.shields t) i rest := by
    rw [EndRule.sentenceEnd?, hDrop]
  induction i, rest using rangesFrom.induct r (r.shields t) with
  | case1 i =>
      rw [rangesFrom]
      exact .rest (by rw [hHere, EndRule.endFrom?])
  | case2 i c rest hNone =>
      rw [rangesFrom, hNone]
      exact .rest (hHere.trans hNone)
  | case3 i c rest last hEnd hLess =>
      have hLe := (EndRule.isEndFrom_of_sentenceEnd? hTokens (hHere.trans hEnd)).le_last
      exact absurd hLess (Nat.not_lt.mpr hLe)
  | case4 i c rest last hEnd hLess _ _ _ ih =>
      rw [rangesFrom, hEnd]
      simp only [hLess, if_false]
      have hLater : t.drop (last + 1) = (c :: rest).drop (last + 1 - i) := by
        rw [← hDrop, List.drop_drop, show i + (last + 1 - i) = last + 1 by omega]
      exact .sentence (hHere.trans hEnd) (ih hLater (by rw [EndRule.sentenceEnd?, hLater]))

theorem Splits.none_left {r : EndRule} {t : Text} {i remainder : Nat} {ranges : List (Nat × Nat)}
    (h : Splits r t i ranges remainder) : r.sentenceEnd? t remainder = none := by
  induction h with
  | rest hNone => exact hNone
  | sentence _ _ ih => exact ih

theorem Splits.isEndFrom {r : EndRule} (hTokens : [] ∉ r.tokens) {t : Text} {i remainder : Nat}
    {ranges : List (Nat × Nat)} (h : Splits r t i ranges remainder) {range : Nat × Nat}
    (hMem : range ∈ ranges) : ∃ last, range.2 = last + 1 ∧ r.IsEndFrom t range.1 last := by
  induction h with
  | rest => cases hMem
  | sentence hEnd _ ih =>
      rcases List.mem_cons.mp hMem with rfl | hLater
      · exact ⟨_, rfl, EndRule.isEndFrom_of_sentenceEnd? hTokens hEnd⟩
      · exact ih hLater

/-- A text is cut into ranges and a rest. The ranges are not empty, lie end to end from the start
of the text to the rest, and each of them stops behind an end symbol or behind an end symbol with a
closing quotation. -/
structure IsCutInto (symbols quotations : List Text) (t : Text) (ranges : List (Nat × Nat))
    (remainder : Nat) : Prop where
  endToEnd : EndToEnd 0 ranges remainder
  whole : (ranges.flatMap fun range => t.slice range.1 range.2) ++ t.drop remainder = t
  symbol : ∀ range ∈ ranges, ∃ s ∈ symbols, s <:+ t.slice range.1 range.2 ∨
    ∃ q ∈ quotations, s ++ q <:+ t.slice range.1 range.2
  stops : ∀ range ∈ ranges, range.2 ≤ t.length ∧ StopsAt t range.2

theorem make_nil_not_mem_tokens {symbols quotations words : List Text} {e : Extractor}
    (h : make symbols quotations words = .ok e) (hSymbols : [] ∉ symbols) : [] ∉ e.rule.tokens := by
  rw [make_rule h]
  exact EndRule.nil_not_mem_tokens hSymbols _ _

theorem extract_isCutInto {symbols quotations words : List Text} {e : Extractor}
    (hMake : make symbols quotations words = .ok e) (hSymbols : [] ∉ symbols) (t : Text) :
    IsCutInto symbols quotations t (e.extract t).1 (e.extract t).2 := by
  have hTokens := make_nil_not_mem_tokens hMake hSymbols
  have hSplits := rangesFrom_splits hTokens t 0
  have hRanges : EndToEnd 0 (e.extract t).1 (e.extract t).2 := rangesFrom_endToEnd _ _ 0 t
  refine ⟨hRanges, hRanges.flatMap_slice t, fun range hMem => ?_, fun range hMem => ?_⟩
  · obtain ⟨last, hLast, hEnd⟩ := hSplits.isEndFrom hTokens hMem
    obtain ⟨w, hToken, hSuffix⟩ := hEnd.token
    rw [← hLast] at hSuffix
    rw [make_rule hMake] at hToken
    obtain ⟨s, hSymbol, rfl | ⟨q, hQuote, rfl⟩⟩ := EndRule.exists_symbol_of_mem_tokens hToken
    · exact ⟨w, hSymbol, .inl hSuffix⟩
    · exact ⟨s, hSymbol, .inr ⟨q, (List.mem_filter.mp hQuote).1, hSuffix⟩⟩
  · obtain ⟨last, hLast, hEnd⟩ := hSplits.isEndFrom hTokens hMem
    rw [hLast]
    exact ⟨hEnd.last_lt, hEnd.stops⟩

/-- With a first end symbol of one character and any further ones that are not empty, every search
and the cutting itself come to an end, and every text is cut into sentences and a rest in which
none ends. -/
theorem make_cuts (c : Char) {symbols : List Text} (hSymbols : [] ∉ symbols)
    (quotations words : List Text) :
    ∃ e, make ([c] :: symbols) quotations words = .ok e ∧ ∀ t : Text,
      (∀ i, e.rule.Finds t i (e.rule.sentenceEnd? t i)) ∧
      Splits e.rule t 0 (e.extract t).1 (e.extract t).2 ∧
      IsCutInto ([c] :: symbols) quotations t (e.extract t).1 (e.extract t).2 ∧
      e.rule.sentenceEnd? t (e.extract t).2 = none := by
  have hAll : [] ∉ [c] :: symbols := by simp [hSymbols]
  obtain ⟨e, hMake⟩ : ∃ e, make ([c] :: symbols) quotations words = .ok e := ⟨_, rfl⟩
  have hTokens := make_nil_not_mem_tokens hMake hAll
  refine ⟨e, hMake, fun t => ?_⟩
  have hSplits : Splits e.rule t 0 (e.extract t).1 (e.extract t).2 := rangesFrom_splits hTokens t 0
  exact ⟨EndRule.sentenceEnd?_finds hTokens t, hSplits, extract_isCutInto hMake hAll t,
    hSplits.none_left⟩

/-- End symbols of which one is the start of another, and a text of two sentences and a rest. -/
theorem make_cuts_mixed :
    let symbols := ["--".toList, "-".toList]
    let quotations := ["»".toList]
    let t := "«One.» Two-- and 3.5 rest".toList
    [] ∉ symbols ∧ ∃ e, make (".".toList :: symbols) quotations [] = .ok e ∧
      e.extract t = ([(0, 6), (6, 12)], 12) ∧
      IsCutInto (".".toList :: symbols) quotations t [(0, 6), (6, 12)] 12 := by
  intro symbols quotations t
  have hSymbols : [] ∉ symbols := by decide
  obtain ⟨e, hMake, hCuts⟩ := make_cuts '.' hSymbols quotations []
  have hExtract : e.extract t = ([(0, 6), (6, 12)], 12) := by
    cases hMake
    decide +kernel
  refine ⟨hSymbols, e, hMake, hExtract, ?_⟩
  have hCut := (hCuts t).2.2.1
  rwa [hExtract] at hCut

/-- No extractor is made for a first end symbol of several characters, although a text can be
searched for it. -/
theorem not_forall_make_cuts :
    ¬ ∀ symbols quotations words : List Text, symbols ≠ [] → [] ∉ symbols → ∀ t : Text,
      ∃ e, make symbols quotations words = .ok e ∧
        IsCutInto symbols quotations t (e.extract t).1 (e.extract t).2 := by
  intro hAll
  have hNone : make ["END".toList] [] [] = .error .wideEndSymbol := rfl
  obtain ⟨e, hMake, -⟩ :=
    hAll ["END".toList] [] [] (by decide) (by decide) "xEND yEND".toList
  rw [hNone] at hMake
  cases hMake

end Extractor

end ProseLint
