import ProseLint.Proofs.Boundary.Search
import ProseLint.Proofs.Text.Pieces
import Mathlib.Order.Bounds.Basic

/-! Runs of end tokens, described without a search. A sentence ends at the first run in which
some token lies in no protected word, and behind which a sentence may stop. The search finds this
run: a protected token only shortens a run, and a run that is refused is not looked into again. -/

namespace ProseLint

/-- Characters that end sentences, closing quotations, and words in which no sentence ends. -/
structure EndMarks where
  ends : List Char
  quotes : List Char
  words : List Text
  deriving DecidableEq, Repr

namespace EndMarks

def rule (m : EndMarks) : EndRule := .ofSymbols (m.ends.map ([·])) (m.quotes.map ([·])) m.words

/-! ## Tokens and runs -/

/-- An end token: an end symbol, with the closing quotation directly behind it if there is one. -/
inductive IsToken (m : EndMarks) (t : Text) : Nat → Nat → Prop where
  | quoted {i : Nat} {c q : Char} (hEnd : t[i]? = some c) (hMem : c ∈ m.ends)
      (hQuote : t[i + 1]? = some q) (hQuoteMem : q ∈ m.quotes) : IsToken m t i (i + 2)
  | bare {i : Nat} {c : Char} (hEnd : t[i]? = some c) (hMem : c ∈ m.ends)
      (hNone : ∀ q, t[i + 1]? = some q → q ∉ m.quotes) : IsToken m t i (i + 1)

/-- Adjacent end tokens from one place to another. -/
inductive Chain (m : EndMarks) (t : Text) : Nat → List (Nat × Nat) → Nat → Prop where
  | nil (i : Nat) : Chain m t i [] i
  | cons {i j stop : Nat} {spans : List (Nat × Nat)} (hToken : m.IsToken t i j)
      (hRest : Chain m t j spans stop) : Chain m t i ((i, j) :: spans) stop

/-- A longest row of adjacent end tokens in a text that is read from `start` on. -/
structure IsRun (m : EndMarks) (t : Text) (start i : Nat) (spans : List (Nat × Nat))
    (stop : Nat) : Prop where
  start_le : start ≤ i
  chain : m.Chain t i spans stop
  ne_nil : spans ≠ []
  none_before : ∀ k, start ≤ k → ¬ m.IsToken t k i
  none_behind : ∀ k, ¬ m.IsToken t stop k

/-- Whether a span lies inside an occurrence of a protected word, anywhere in the text. -/
def IsProtected (m : EndMarks) (t : Text) (span : Nat × Nat) : Prop :=
  ∃ w ∈ m.words, ∃ i, t.StandsAt i w ∧ i ≤ span.1 ∧ span.2 ≤ i + w.length

/-- Whether a run of end tokens that stops at a place ends a sentence. -/
def EndsSentence (m : EndMarks) (t : Text) (start stop : Nat) : Prop :=
  EndRule.StopsAt t stop ∧
    ∃ i spans, m.IsRun t start i spans stop ∧ ∃ span ∈ spans, ¬ m.IsProtected t span

section

variable {m : EndMarks} {t : Text} {i j k l : Nat}

theorem IsToken.lt (h : m.IsToken t i j) : i < j := by
  cases h with
  | quoted => omega
  | bare => omega

theorem IsToken.exists_end (h : m.IsToken t i j) : ∃ c, t[i]? = some c ∧ c ∈ m.ends := by
  cases h with
  | quoted hEnd hMem => exact ⟨_, hEnd, hMem⟩
  | bare hEnd hMem => exact ⟨_, hEnd, hMem⟩

theorem IsToken.unique (h : m.IsToken t i j) (h' : m.IsToken t i k) : j = k := by
  cases h with
  | quoted _ _ hQuote hQuoteMem =>
      cases h' with
      | quoted => rfl
      | bare _ _ hNone => exact absurd hQuoteMem (hNone _ hQuote)
  | bare _ _ hNone =>
      cases h' with
      | quoted _ _ hQuote hQuoteMem => exact absurd hQuoteMem (hNone _ hQuote)
      | bare => rfl

/-- No token starts inside another one, since a closing quotation is no end symbol. -/
theorem IsToken.le_of_lt (hQuotes : ∀ q ∈ m.quotes, q ∉ m.ends) (h : m.IsToken t i j)
    (h' : m.IsToken t k l) (hLt : i < k) : j ≤ k := by
  cases h with
  | bare => exact hLt
  | @quoted _ q _ _ hQuote hQuoteMem =>
      by_cases hBehind : k = i + 1
      · obtain ⟨c, hEnd, hMem⟩ := h'.exists_end
        rw [hBehind, hQuote] at hEnd
        cases hEnd
        exact absurd hMem (hQuotes q hQuoteMem)
      · omega

theorem Chain.le {spans : List (Nat × Nat)} (h : m.Chain t i spans j) : i ≤ j := by
  induction h with
  | nil => exact Nat.le_refl _
  | cons hToken _ ih => exact Nat.le_trans (Nat.le_of_lt hToken.lt) ih

/-- A token that starts between the ends of a chain is one of the chain. Unless it is the first
one it has another one directly before it. -/
theorem Chain.token_between (hQuotes : ∀ q ∈ m.quotes, q ∉ m.ends) {spans : List (Nat × Nat)}
    (h : m.Chain t i spans j) (hToken : m.IsToken t k l) (hFrom : i ≤ k) (hTo : k < j) :
    l ≤ j ∧ (k = i ∨ ∃ n, i ≤ n ∧ m.IsToken t n k) := by
  induction h with
  | nil => omega
  | @cons i n stop spans hFirst hRest ih =>
      rcases Nat.eq_or_lt_of_le hFrom with rfl | hLt
      · exact ⟨hToken.unique hFirst ▸ hRest.le, .inl rfl⟩
      · obtain ⟨hLe, hBefore⟩ := ih (hFirst.le_of_lt hQuotes hToken hLt) hTo
        refine ⟨hLe, .inr ?_⟩
        rcases hBefore with rfl | ⟨p, hp, hPrevious⟩
        · exact ⟨i, Nat.le_refl i, hFirst⟩
        · exact ⟨p, Nat.le_trans (Nat.le_of_lt hFirst.lt) hp, hPrevious⟩

/-- Where a longest chain starts it is determined. -/
theorem Chain.unique {spans spans' : List (Nat × Nat)} (h : m.Chain t i spans j)
    (h' : m.Chain t i spans' k) (hStop : ∀ n, ¬ m.IsToken t j n)
    (hStop' : ∀ n, ¬ m.IsToken t k n) : spans = spans' ∧ j = k := by
  induction h generalizing spans' with
  | nil i =>
      cases h' with
      | nil => exact ⟨rfl, rfl⟩
      | cons hToken => exact absurd hToken (hStop _)
  | cons hToken hRest ih =>
      cases h' with
      | nil => exact absurd hToken (hStop' _)
      | cons hToken' hRest' =>
          obtain rfl := hToken.unique hToken'
          obtain ⟨rfl, rfl⟩ := ih hRest' hStop
          exact ⟨rfl, rfl⟩

theorem IsRun.exists_token {spans : List (Nat × Nat)} (h : m.IsRun t k i spans j) :
    ∃ n, m.IsToken t i n := by
  cases h.chain with
  | nil => exact absurd rfl h.ne_nil
  | cons hToken => exact ⟨_, hToken⟩

/-! ## Reading on from a later place -/

/-- Behind a protected first token the text may as well be read on from there. -/
theorem endsSentence_iff_of_protected (hQuotes : ∀ q ∈ m.quotes, q ∉ m.ends) {start stop : Nat}
    (hFrom : i ≤ start) (hFirst : ∀ n, i ≤ n → n < start → ∀ p, ¬ m.IsToken t n p)
    (hToken : m.IsToken t start stop) (hProtected : m.IsProtected t (start, stop)) :
    m.EndsSentence t i k ↔ m.EndsSentence t stop k := by
  have hLt := hToken.lt
  refine and_congr_right fun _ => ⟨?_, ?_⟩
  · rintro ⟨a, spans, hRun, span, hMem, hOpen⟩
    obtain ⟨n, hHere⟩ := hRun.exists_token
    have hLe : start ≤ a := by
      by_contra hBefore
      exact hFirst a hRun.start_le (by omega) n hHere
    rcases Nat.eq_or_lt_of_le hLe with rfl | hBehind
    · -- The run starts with the protected token. What is left of it is a run from there on.
      cases hRun.chain with
      | nil => cases hMem
      | @cons _ n _ rest hFirstToken hRest =>
          obtain rfl := hToken.unique hFirstToken
          rcases List.mem_cons.mp hMem with rfl | hLater
          · exact absurd hProtected hOpen
          · refine ⟨stop, rest, ⟨Nat.le_refl _, hRest, List.ne_nil_of_mem hLater, ?_,
              hRun.none_behind⟩, span, hLater, hOpen⟩
            intro k hLe hBack
            exact absurd hBack.lt (Nat.not_lt.mpr hLe)
    · refine ⟨a, spans, { hRun with
        start_le := hToken.le_of_lt hQuotes hHere hBehind
        none_before := fun k hLe => hRun.none_before k (by omega) }, span, hMem, hOpen⟩
  · rintro ⟨a, spans, hRun, span, hMem, hOpen⟩
    have hBefore : ∀ n, i ≤ n → m.IsToken t n a → n = start ∨ stop ≤ n := by
      intro n hLe hBack
      by_cases hEarly : n < start
      · exact absurd hBack (hFirst n hLe hEarly a)
      · rcases Nat.eq_or_lt_of_le (Nat.not_lt.mp hEarly) with rfl | hBehind
        · exact .inl rfl
        · exact .inr (hToken.le_of_lt hQuotes hBack hBehind)
    rcases Nat.eq_or_lt_of_le hRun.start_le with rfl | hBehind
    · refine ⟨start, (start, stop) :: spans, ⟨hFrom, .cons hToken hRun.chain, by simp, ?_,
        hRun.none_behind⟩, span, List.mem_cons_of_mem _ hMem, hOpen⟩
      intro n hLe hBack
      exact hFirst n hLe hBack.lt start hBack
    · refine ⟨a, spans, { hRun with start_le := by omega, none_before := ?_ }, span, hMem, hOpen⟩
      intro n hLe hBack
      rcases hBefore n hLe hBack with rfl | hLater
      · exact absurd (hToken.unique hBack) (by omega)
      · exact hRun.none_before n hLater hBack

/-- A run is the first one, or stands behind the first one. -/
theorem IsRun.eq_or_behind (hQuotes : ∀ q ∈ m.quotes, q ∉ m.ends) {start stop : Nat}
    {spans spans' : List (Nat × Nat)} (h : m.IsRun t i start spans stop)
    (hFirst : ∀ n, i ≤ n → n < start → ∀ p, ¬ m.IsToken t n p) (h' : m.IsRun t i j spans' k) :
    stop = k ∨ stop ≤ j := by
  obtain ⟨n, hHere⟩ := h'.exists_token
  by_cases hEarly : j < start
  · exact absurd hHere (hFirst j h'.start_le hEarly n)
  · by_cases hInside : j < stop
    · obtain ⟨_, rfl | ⟨n, hLe, hBack⟩⟩ :=
        h.chain.token_between hQuotes hHere (Nat.not_lt.mp hEarly) hInside
      · exact .inl (h.chain.unique h'.chain h.none_behind h'.none_behind).2
      · exact absurd hBack (h'.none_before n (Nat.le_trans h.start_le hLe))
    · exact .inr (Nat.not_lt.mp hInside)

/-- Behind a run at which no sentence stops the text may as well be read on from there. -/
theorem endsSentence_iff_of_refused (hQuotes : ∀ q ∈ m.quotes, q ∉ m.ends) {start stop : Nat}
    {spans : List (Nat × Nat)} (h : m.IsRun t i start spans stop)
    (hFirst : ∀ n, i ≤ n → n < start → ∀ p, ¬ m.IsToken t n p)
    (hStops : ¬ EndRule.StopsAt t stop) :
    m.EndsSentence t i k ↔ m.EndsSentence t stop k := by
  have hFrom : i ≤ stop := Nat.le_trans h.start_le h.chain.le
  refine and_congr_right fun hHere => ⟨?_, ?_⟩
  · rintro ⟨a, spans', hRun, hOpen⟩
    rcases h.eq_or_behind hQuotes hFirst hRun with rfl | hBehind
    · exact absurd hHere hStops
    · exact ⟨a, spans', { hRun with
        start_le := hBehind
        none_before := fun n hLe => hRun.none_before n (Nat.le_trans hFrom hLe) }, hOpen⟩
  · rintro ⟨a, spans', hRun, hOpen⟩
    obtain ⟨n, hToken⟩ := hRun.exists_token
    have hBehind : stop < a := Nat.lt_of_le_of_ne hRun.start_le fun hSame =>
      h.none_behind n (hSame ▸ hToken)
    refine ⟨a, spans', { hRun with start_le := by omega, none_before := ?_ }, hOpen⟩
    intro p hLe hBack
    by_cases hEarly : p < stop
    · by_cases hBefore : p < start
      · exact hFirst p hLe hBefore a hBack
      · have hInside := h.chain.token_between hQuotes hBack (Nat.not_lt.mp hBefore) hEarly
        exact absurd hInside.1 (Nat.not_le.mpr hBehind)
    · exact hRun.none_before p (Nat.not_lt.mp hEarly) hBack

end

/-! ## What the search sees -/

section

variable {m : EndMarks} {t : Text} {i : Nat}

theorem cons_prefix_drop {c : Char} {w : Text} :
    c :: w <+: t.drop i ↔ t[i]? = some c ∧ w <+: t.drop (i + 1) := by
  rw [← List.head?_drop, ← List.drop_drop]
  cases t.drop i with
  | nil => simp
  | cons d rest => simp [List.cons_prefix_cons, eq_comm]

theorem singleton_prefix_drop {c : Char} : [c] <+: t.drop i ↔ t[i]? = some c := by
  simp [cons_prefix_drop]

theorem pair_prefix_drop {c q : Char} :
    [c, q] <+: t.drop i ↔ t[i]? = some c ∧ t[i + 1]? = some q := by
  rw [cons_prefix_drop, singleton_prefix_drop]

/-- The tokens with a closing quotation. They are tried before those without. -/
def quotedTokens (m : EndMarks) : List Text :=
  m.quotes.flatMap fun q => m.ends.map fun c => [c, q]

theorem mem_quotedTokens {w : Text} :
    w ∈ m.quotedTokens ↔ ∃ q ∈ m.quotes, ∃ c ∈ m.ends, w = [c, q] := by
  simp [quotedTokens, eq_comm]

theorem rule_tokens : m.rule.tokens = m.quotedTokens ++ m.ends.map ([·]) := by
  simp [rule, EndRule.ofSymbols, EndRule.tokensOf, quotedTokens, List.flatMap_map,
    Function.comp_def]

theorem nil_not_mem_tokens : [] ∉ m.rule.tokens := by
  simp [rule_tokens, mem_quotedTokens]

/-- A token is what the rule takes at its place. -/
theorem IsToken.tokenAt? {j : Nat} (h : m.IsToken t i j) :
    EndRule.tokenAt? m.rule.tokens (t.drop i) = some (j - i) := by
  rw [EndRule.tokenAt?, rule_tokens, List.find?_append]
  cases h with
  | @quoted c q hEnd hMem hQuote hQuoteMem =>
      have hPrefix : [c, q] <+: t.drop i := pair_prefix_drop.mpr ⟨hEnd, hQuote⟩
      have hFound : (m.quotedTokens.find? (·.isPrefixOf (t.drop i))).isSome = true :=
        List.find?_isSome.mpr ⟨[c, q], mem_quotedTokens.mpr ⟨q, hQuoteMem, c, hMem, rfl⟩,
          List.isPrefixOf_iff_prefix.mpr hPrefix⟩
      obtain ⟨w, hw⟩ := Option.isSome_iff_exists.mp hFound
      obtain ⟨_, _, _, _, rfl⟩ := mem_quotedTokens.mp (List.mem_of_find?_eq_some hw)
      simp [hw]
  | @bare c hEnd hMem hNone =>
      have hAbsent : m.quotedTokens.find? (·.isPrefixOf (t.drop i)) = none := by
        refine List.find?_eq_none.mpr fun w hw hPrefix => ?_
        obtain ⟨q, hQuoteMem, d, _, rfl⟩ := mem_quotedTokens.mp hw
        have hBoth := pair_prefix_drop.mp (List.isPrefixOf_iff_prefix.mp hPrefix)
        exact hNone q hBoth.2 hQuoteMem
      have hFound : ((m.ends.map ([·])).find? (·.isPrefixOf (t.drop i))).isSome = true :=
        List.find?_isSome.mpr ⟨[c], List.mem_map_of_mem hMem,
          List.isPrefixOf_iff_prefix.mpr (singleton_prefix_drop.mpr hEnd)⟩
      obtain ⟨w, hw⟩ := Option.isSome_iff_exists.mp hFound
      obtain ⟨_, _, rfl⟩ := List.mem_map.mp (List.mem_of_find?_eq_some hw)
      simp [hAbsent, hw]

theorem exists_isToken {c : Char} (hEnd : t[i]? = some c) (hMem : c ∈ m.ends) :
    ∃ j, m.IsToken t i j := by
  by_cases hQuote : ∃ q, t[i + 1]? = some q ∧ q ∈ m.quotes
  · obtain ⟨q, hHere, hQuoteMem⟩ := hQuote
    exact ⟨_, .quoted hEnd hMem hHere hQuoteMem⟩
  · exact ⟨_, .bare hEnd hMem fun q hHere hQuoteMem => hQuote ⟨q, hHere, hQuoteMem⟩⟩

theorem isToken_of_tokenAt? {n : Nat}
    (h : EndRule.tokenAt? m.rule.tokens (t.drop i) = some n) : m.IsToken t i (i + n) := by
  have hStart : ∃ c, t[i]? = some c ∧ c ∈ m.ends := by
    obtain ⟨w, hw, -, hPrefix⟩ := EndRule.exists_of_tokenAt? h
    rw [rule_tokens] at hw
    rcases List.mem_append.mp hw with hQuoted | hBare
    · obtain ⟨q, _, c, hMem, rfl⟩ := mem_quotedTokens.mp hQuoted
      exact ⟨c, (pair_prefix_drop.mp hPrefix).1, hMem⟩
    · obtain ⟨c, hMem, rfl⟩ := List.mem_map.mp hBare
      exact ⟨c, singleton_prefix_drop.mp hPrefix, hMem⟩
  obtain ⟨c, hEnd, hMem⟩ := hStart
  obtain ⟨j, hToken⟩ := exists_isToken hEnd hMem
  have hLt := hToken.lt
  have hSame := hToken.tokenAt?.symm.trans h
  rw [Option.some.injEq] at hSame
  rwa [show i + n = j by omega]

theorem not_isToken_of_tokenAt? {j : Nat}
    (h : EndRule.tokenAt? m.rule.tokens (t.drop i) = none) : ¬ m.IsToken t i j := by
  intro hToken
  rw [hToken.tokenAt?] at h
  cases h

/-- The protected words that the rule keeps are those that are not empty. No token lies inside an
empty one. -/
theorem isShielded_iff {start stop : Nat} (hLt : start < stop) :
    EndRule.isShielded (m.rule.shields t) start stop = true ↔ m.IsProtected t (start, stop) := by
  simp only [EndRule.isShielded, EndRule.shields, rule, EndRule.ofSymbols, List.any_eq_true,
    List.mem_flatMap, List.mem_map, List.mem_filter, Bool.and_eq_true, decide_eq_true_eq]
  constructor
  · rintro ⟨_, ⟨w, ⟨hMem, hSome⟩, p, hAt, rfl⟩, hFrom, hTo⟩
    exact ⟨w, hMem, p, (Text.mem_occurrences_iff (by simpa using hSome)).mp hAt, hFrom, hTo⟩
  · rintro ⟨w, hMem, p, hAt, hFrom, hTo⟩
    have hSome : w ≠ [] := by
      rintro rfl
      simp only [List.length_nil] at hFrom hTo
      omega
    exact ⟨_, ⟨w, ⟨hMem, by simpa using hSome⟩, p, (Text.mem_occurrences_iff hSome).mpr hAt, rfl⟩,
      hFrom, hTo⟩

theorem chain_of_absorbs {stop : Nat} (h : EndRule.Absorbs m.rule.tokens t i stop) :
    (∃ spans, m.Chain t i spans stop) ∧ ∀ k, ¬ m.IsToken t stop k := by
  induction h with
  | done hNone => exact ⟨⟨[], .nil _⟩, fun _ => not_isToken_of_tokenAt? hNone⟩
  | token hToken _ ih =>
      obtain ⟨⟨spans, hChain⟩, hStop⟩ := ih
      exact ⟨⟨_, .cons (isToken_of_tokenAt? hToken) hChain⟩, hStop⟩

/-- A search stops at the first token from a place on. -/
theorem firstToken_of_search {start stop : Nat}
    (h : EndRule.search m.rule.tokens i (t.drop i) = some (start, stop)) :
    i ≤ start ∧ m.IsToken t start stop ∧
      ∀ n, i ≤ n → n < start → ∀ p, ¬ m.IsToken t n p := by
  have hFirst := EndRule.firstToken_of_search nil_not_mem_tokens h
  have hToken := isToken_of_tokenAt? hFirst.token
  rw [Nat.add_sub_cancel' (Nat.le_of_lt hFirst.start_lt)] at hToken
  exact ⟨hFirst.le_start, hToken, fun n hFrom hTo p =>
    not_isToken_of_tokenAt? (hFirst.before n hFrom hTo)⟩

/-- The run in which a search has come to an unprotected token starts with that token. -/
theorem isRun_of_openRun {start stop last : Nat}
    (h : EndRule.OpenRun m.rule t i start stop last) :
    (∃ spans, m.IsRun t i start ((start, stop) :: spans) (last + 1)) ∧
      ¬ m.IsProtected t (start, stop) ∧
      ∀ n, i ≤ n → n < start → ∀ p, ¬ m.IsToken t n p := by
  obtain ⟨hFrom, hToken, hFirst⟩ := firstToken_of_search h.search
  obtain ⟨⟨spans, hChain⟩, hStop⟩ := chain_of_absorbs h.absorbs
  refine ⟨⟨spans, hFrom, .cons hToken hChain, by simp, fun n hLe hBack => ?_, hStop⟩, ?_, hFirst⟩
  · exact hFirst n hLe hBack.lt start hBack
  · intro hProtected
    have hShield := (isShielded_iff hToken.lt).mpr hProtected
    rw [h.isOpen] at hShield
    cases hShield

end

/-! ## The first run that ends a sentence -/

/-- What a search finds is the first place at which a run ends a sentence. -/
def IsFirstEnd (m : EndMarks) (t : Text) (start : Nat) : Option Nat → Prop
  | none => ∀ stop, ¬ m.EndsSentence t start stop
  | some last => IsLeast {stop | m.EndsSentence t start stop} (last + 1)

theorem IsFirstEnd.congr {m : EndMarks} {t : Text} {i j : Nat} {found : Option Nat}
    (h : ∀ stop, m.EndsSentence t i stop ↔ m.EndsSentence t j stop)
    (hLater : m.IsFirstEnd t j found) : m.IsFirstEnd t i found := by
  have hSame : {stop | m.EndsSentence t i stop} = {stop | m.EndsSentence t j stop} := Set.ext h
  cases found with
  | none => exact fun stop hEnd => hLater stop ((h stop).mp hEnd)
  | some last =>
      unfold IsFirstEnd
      rwa [hSame]

theorem isFirstEnd_of_finds {m : EndMarks} (hQuotes : ∀ q ∈ m.quotes, q ∉ m.ends) {t : Text}
    {i : Nat} {found : Option Nat} (h : EndRule.Finds m.rule t i found) :
    m.IsFirstEnd t i found := by
  induction h with
  | @absent i hSearch =>
      rintro stop ⟨-, a, spans, hRun, -⟩
      obtain ⟨n, hToken⟩ := hRun.exists_token
      have hNone := EndRule.search_eq_none nil_not_mem_tokens hSearch (a - i)
      rw [List.drop_drop, Nat.add_sub_cancel' hRun.start_le] at hNone
      exact not_isToken_of_tokenAt? hNone hToken
  | shielded hSearch hShield _ ih =>
      obtain ⟨hFrom, hToken, hFirst⟩ := firstToken_of_search hSearch
      have hProtected := (isShielded_iff hToken.lt).mp hShield
      apply ih.congr
      exact fun stop => endsSentence_iff_of_protected hQuotes hFrom hFirst hToken hProtected
  | closing hRun hStops =>
      obtain ⟨⟨spans, hFirstRun⟩, hOpen, hFirst⟩ := isRun_of_openRun hRun
      refine ⟨⟨hStops, _, _, hFirstRun, _, List.mem_cons_self, hOpen⟩, ?_⟩
      rintro stop ⟨-, a, spans', hLater, -⟩
      rcases hFirstRun.eq_or_behind hQuotes hFirst hLater with rfl | hBehind
      · exact Nat.le_refl _
      · exact Nat.le_trans hBehind hLater.chain.le
  | refused hRun hStops _ ih =>
      obtain ⟨⟨spans, hFirstRun⟩, -, hFirst⟩ := isRun_of_openRun hRun
      exact ih.congr fun stop => endsSentence_iff_of_refused hQuotes hFirstRun hFirst hStops

/-- For single characters the search gives back the last character of the first run that holds an
unprotected token and behind which a sentence may stop, and nothing exactly when there is no such
run. Tokens and runs are those of the text from `start` on, protected words those of all of it. -/
theorem sentenceEnd?_isFirst (m : EndMarks) (hQuotes : ∀ q ∈ m.quotes, q ∉ m.ends) (t : Text)
    (start : Nat) :
    (∀ last, m.rule.sentenceEnd? t start = some last ↔
      IsLeast {stop | m.EndsSentence t start stop} (last + 1)) ∧
    (m.rule.sentenceEnd? t start = none ↔ ∀ stop, ¬ m.EndsSentence t start stop) := by
  have hFound := isFirstEnd_of_finds hQuotes
    (EndRule.sentenceEnd?_finds nil_not_mem_tokens t start)
  cases hEnd : m.rule.sentenceEnd? t start with
  | none =>
      rw [hEnd] at hFound
      refine ⟨fun last => ⟨nofun, fun hLeast => ?_⟩, iff_of_true rfl hFound⟩
      exact absurd hLeast.1 (hFound (last + 1))
  | some found =>
      rw [hEnd] at hFound
      refine ⟨fun last => ⟨?_, fun hLeast => ?_⟩, iff_of_false (by simp) fun hNone => ?_⟩
      · rintro ⟨⟩
        exact hFound
      · have hSame := IsLeast.unique hFound hLeast
        rw [Nat.add_right_cancel hSame]
      · exact hNone _ hFound.1

/-- The full stop of a title is protected, that of a number is refused, and the one that counts has
a closing quotation behind it. -/
theorem sentenceEnd?_isFirst_quoted :
    let m : EndMarks := ⟨['.', '?'], ['"'], ["Mr.".toList]⟩
    let t := "Mr. A \"owns 3.5 of it..\" He does.".toList
    (∀ q ∈ m.quotes, q ∉ m.ends) ∧ m.rule.sentenceEnd? t 0 = some 23 ∧
      IsLeast {stop | m.EndsSentence t 0 stop} 24 := by
  intro m t
  have hQuotes : ∀ q ∈ m.quotes, q ∉ m.ends := by simp [m]
  have hEnd : m.rule.sentenceEnd? t 0 = some 23 := by decide +kernel
  exact ⟨hQuotes, hEnd, ((sentenceEnd?_isFirst m hQuotes t 0).1 23).mp hEnd⟩

end EndMarks

end ProseLint
