import ProseLint.Proofs.Boundary.Partition

/-! The search for sentence ends as it goes from end token to end token. No bound is set on it.
As long as no end token is empty every turn takes it further on, so it stops by itself, and
where it stops is what the functions give back. -/

namespace ProseLint

namespace EndRule

/-! ## Single end tokens -/

theorem exists_symbol_of_mem_tokens {symbols quotations words : List Text} {w : Text}
    (h : w ∈ (ofSymbols symbols quotations words).tokens) :
    ∃ s ∈ symbols, w = s ∨ ∃ q ∈ quotations, w = s ++ q := by
  rcases List.mem_append.mp h with hQuoted | hBare
  · obtain ⟨q, hQuote, hIn⟩ := List.mem_flatMap.mp hQuoted
    obtain ⟨s, hSymbol, rfl⟩ := List.mem_map.mp hIn
    exact ⟨s, hSymbol, .inr ⟨q, hQuote, rfl⟩⟩
  · exact ⟨w, hBare, .inl rfl⟩

theorem nil_not_mem_tokens {symbols : List Text} (h : [] ∉ symbols) (quotations words : List Text) :
    [] ∉ (ofSymbols symbols quotations words).tokens := by
  intro hMem
  obtain ⟨s, hSymbol, hBare | ⟨q, _, hQuoted⟩⟩ := exists_symbol_of_mem_tokens hMem
  · exact h (hBare ▸ hSymbol)
  · exact h ((List.append_eq_nil_iff.mp hQuoted.symm).1 ▸ hSymbol)

theorem tokenAt?_eq_none_iff {tokens : List Text} {t : Text} :
    tokenAt? tokens t = none ↔ ∀ w ∈ tokens, ¬ w <+: t := by
  simp [tokenAt?]

theorem tokenAt?_nil {tokens : List Text} (hTokens : [] ∉ tokens) : tokenAt? tokens [] = none := by
  refine tokenAt?_eq_none_iff.mpr fun w hMem hPrefix => hTokens ?_
  rwa [List.prefix_nil.mp hPrefix] at hMem

/-- An end token stands in the text and is not empty. -/
theorem tokenAt?_bounds {tokens : List Text} (hTokens : [] ∉ tokens) {t : Text} {i n : Nat}
    (h : tokenAt? tokens (t.drop i) = some n) : 0 < n ∧ i + n ≤ t.length := by
  obtain ⟨w, hMem, rfl, hPrefix⟩ := exists_of_tokenAt? h
  have hPos : 0 < w.length := List.length_pos_iff.mpr fun hNil => hTokens (hNil ▸ hMem)
  have hLe := hPrefix.length_le
  rw [List.length_drop] at hLe
  omega

/-- The end token that a search finds is the first one. -/
theorem search_eq_some {tokens : List Text} {i start stop : Nat} {t : Text}
    (h : search tokens i t = some (start, stop)) :
    ∃ n k, start = i + n ∧ stop = start + k ∧ tokenAt? tokens (t.drop n) = some k ∧
      ∀ m < n, tokenAt? tokens (t.drop m) = none := by
  induction t generalizing i with
  | nil => cases h
  | cons c rest ih =>
      simp only [search] at h
      split at h
      · next k hToken =>
          cases h
          exact ⟨0, k, rfl, rfl, hToken, fun m hLt => absurd hLt (Nat.not_lt_zero m)⟩
      · next hNone =>
          obtain ⟨n, k, rfl, rfl, hToken, hBefore⟩ := ih h
          refine ⟨n + 1, k, by omega, rfl, hToken, fun m hLt => ?_⟩
          cases m with
          | zero => exact hNone
          | succ m => exact hBefore m (by omega)

theorem search_eq_none {tokens : List Text} (hTokens : [] ∉ tokens) {i : Nat} {t : Text}
    (h : search tokens i t = none) (n : Nat) : tokenAt? tokens (t.drop n) = none := by
  induction t generalizing i n with
  | nil => rw [List.drop_nil, tokenAt?_nil hTokens]
  | cons c rest ih =>
      simp only [search] at h
      split at h
      · cases h
      · next hNone =>
          cases n with
          | zero => exact hNone
          | succ n => exact ih h n

/-- A search goes on from a place to the first end token behind it. -/
structure FirstToken (tokens : List Text) (t : Text) (i start stop : Nat) : Prop where
  le_start : i ≤ start
  start_lt : start < stop
  stop_le : stop ≤ t.length
  token : tokenAt? tokens (t.drop start) = some (stop - start)
  before : ∀ j, i ≤ j → j < start → tokenAt? tokens (t.drop j) = none

theorem firstToken_of_search {tokens : List Text} (hTokens : [] ∉ tokens) {t : Text}
    {i start stop : Nat} (h : search tokens i (t.drop i) = some (start, stop)) :
    FirstToken tokens t i start stop := by
  obtain ⟨n, k, rfl, rfl, hToken, hBefore⟩ := search_eq_some h
  rw [List.drop_drop] at hToken
  obtain ⟨hPos, hLe⟩ := tokenAt?_bounds hTokens hToken
  refine ⟨by omega, by omega, hLe, by rwa [Nat.add_sub_cancel_left], fun j hFrom hTo => ?_⟩
  have hNone := hBefore (j - i) (by omega)
  rwa [List.drop_drop, show i + (j - i) = j by omega] at hNone

/-! ## Whole searches -/

/-- A sentence may stop at a place: the text stops there, or white space follows, or the last
character is no Latin one. -/
def StopsAt (t : Text) (stop : Nat) : Prop :=
  t[stop]? = none ∨ (∃ c, t[stop]? = some c ∧ isBlank c = true) ∨
    ∃ c, t[stop - 1]? = some c ∧ isBasicLatin c = false

theorem closes_iff {t : Text} {last : Nat} {c : Char} (hLast : t[last]? = some c) :
    closes c (t.drop (last + 1)) = true ↔ StopsAt t (last + 1) := by
  rw [StopsAt, Nat.add_sub_cancel, hLast, ← List.head?_drop]
  cases t.drop (last + 1) with
  | nil => simp [closes]
  | cons next rest => simp [closes, or_comm]

/-- End tokens are taken one after the other from a place on, up to where none stands. -/
inductive Absorbs (tokens : List Text) (t : Text) : Nat → Nat → Prop where
  | done {i : Nat} (hNone : tokenAt? tokens (t.drop i) = none) : Absorbs tokens t i i
  | token {i n stop : Nat} (hToken : tokenAt? tokens (t.drop i) = some n)
      (hRest : Absorbs tokens t (i + n) stop) : Absorbs tokens t i stop

theorem runEnd_absorbs {tokens : List Text} (hTokens : [] ∉ tokens) (t : Text) (i : Nat) :
    Absorbs tokens t i (runEnd tokens i (t.drop i)) := by
  generalize hRest : t.drop i = rest
  induction i, rest using runEnd.induct tokens with
  | case1 i =>
      rw [runEnd]
      exact .done (by rw [hRest, tokenAt?_nil hTokens])
  | case2 i c rest hNone =>
      rw [runEnd, hNone]
      exact .done (by rw [hRest, hNone])
  | case3 i c rest hEmpty =>
      rw [← hRest] at hEmpty
      exact absurd (tokenAt?_bounds hTokens hEmpty).1 (Nat.lt_irrefl 0)
  | case4 i c rest n hToken ih =>
      rw [runEnd, hToken]
      exact .token (by rw [hRest, hToken])
        (ih (by rw [← hRest, List.drop_drop, Nat.add_assoc]))

theorem Absorbs.le {tokens : List Text} {t : Text} {i stop : Nat} (h : Absorbs tokens t i stop) :
    i ≤ stop := by
  induction h with
  | done => exact Nat.le_refl _
  | token _ _ ih => omega

/-- A run of end tokens does not reach past the text. -/
theorem Absorbs.le_length {tokens : List Text} (hTokens : [] ∉ tokens) {t : Text} {i stop : Nat}
    (h : Absorbs tokens t i stop) (hLe : i ≤ t.length) : stop ≤ t.length := by
  induction h with
  | done => exact hLe
  | token hToken _ ih => exact ih (tokenAt?_bounds hTokens hToken).2

/-- A run of end tokens in which a search has come to an unprotected token. -/
structure OpenRun (r : EndRule) (t : Text) (i start stop last : Nat) : Prop where
  search : search r.tokens i (t.drop i) = some (start, stop)
  isOpen : isShielded (r.shields t) start stop = false
  absorbs : Absorbs r.tokens t stop (last + 1)

/-- The search for a sentence end from a place on. It passes over a protected end token, and over
a whole run that ends no sentence. -/
inductive Finds (r : EndRule) (t : Text) : Nat → Option Nat → Prop where
  | absent {i : Nat} (hSearch : search r.tokens i (t.drop i) = none) : Finds r t i none
  | shielded {i start stop : Nat} {found : Option Nat}
      (hSearch : search r.tokens i (t.drop i) = some (start, stop))
      (hShield : isShielded (r.shields t) start stop = true)
      (hLater : Finds r t stop found) : Finds r t i found
  | closing {i start stop last : Nat} (hRun : OpenRun r t i start stop last)
      (hStops : StopsAt t (last + 1)) : Finds r t i (some last)
  | refused {i start stop last : Nat} {found : Option Nat} (hRun : OpenRun r t i start stop last)
      (hStops : ¬ StopsAt t (last + 1)) (hLater : Finds r t (last + 1) found) : Finds r t i found

/-- The search stops at every text, and gives back what is found. -/
theorem endFrom?_finds {r : EndRule} (hTokens : [] ∉ r.tokens) (t : Text) (i : Nat) :
    Finds r t i (r.endFrom? (r.shields t) i (t.drop i)) := by
  -- On what is left of the text, since a turn may pass over any number of end tokens.
  induction hLeft : t.length - i using Nat.strongRecOn generalizing i with
  | ind left ih =>
      cases hDrop : t.drop i with
      | nil =>
          rw [endFrom?]
          exact .absent (by rw [hDrop]; rfl)
      | cons c rest =>
          rw [endFrom?, ← hDrop]
          cases hSearch : search r.tokens i (t.drop i) with
          | none => exact .absent hSearch
          | some span =>
              obtain ⟨start, stop⟩ := span
              have hFirst := firstToken_of_search hTokens hSearch
              obtain ⟨hFrom, hLt, hStop, -, -⟩ := hFirst
              have hAfter : ∀ next, stop ≤ next →
                  (t.drop i).drop (next - i) = t.drop next := fun next hNext => by
                rw [List.drop_drop, show i + (next - i) = next by omega]
              have hLater : ∀ next, stop ≤ next → next ≤ t.length →
                  Finds r t next (r.endFrom? (r.shields t) next (t.drop next)) :=
                fun next hNext hLe => ih (t.length - next) (by omega) next rfl
              simp only
              cases hShield : isShielded (r.shields t) start stop with
              | true =>
                  simp only [if_true, hAfter stop (Nat.le_refl _)]
                  rw [if_neg (by omega)]
                  exact .shielded hSearch hShield (hLater stop (Nat.le_refl _) hStop)
              | false =>
                  have hRun := runEnd_absorbs hTokens t stop
                  simp only [Bool.false_eq_true, if_false, hAfter stop (Nat.le_refl _)]
                  generalize runEnd r.tokens stop (t.drop stop) = next at hRun
                  have hNext := hRun.le
                  have hLe := hRun.le_length hTokens hStop
                  rw [if_neg (by omega), hAfter next hNext]
                  obtain ⟨last, rfl⟩ : ∃ last, next = last + 1 := ⟨next - 1, by omega⟩
                  have hLast : t[last]? = some ((t.drop i).getD (last + 1 - 1 - i) c) := by
                    rw [List.getD_eq_getElem?_getD, List.getElem?_drop,
                      show i + (last + 1 - 1 - i) = last by omega,
                      List.getElem?_eq_getElem (by omega), Option.getD_some]
                  split
                  · next hCloses =>
                      exact .closing ⟨hSearch, hShield, hRun⟩ ((closes_iff hLast).mp hCloses)
                  · next hCloses =>
                      exact .refused ⟨hSearch, hShield, hRun⟩ (mt (closes_iff hLast).mpr hCloses)
                        (hLater _ hNext hLe)

theorem sentenceEnd?_finds {r : EndRule} (hTokens : [] ∉ r.tokens) (t : Text) (start : Nat) :
    Finds r t start (r.sentenceEnd? t start) :=
  endFrom?_finds hTokens t start

end EndRule

end ProseLint
