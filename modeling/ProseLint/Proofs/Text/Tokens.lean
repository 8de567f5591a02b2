import ProseLint.Document.Sentence
import ProseLint.Proofs.Text.Pieces
import Mathlib.Data.List.Pairwise
import Mathlib.Logic.ExistsUnique

/-! Cutting a text into tokens. A token begins at every visible character behind the token before
it. A word ends only where neither a word character nor a joiner in front of one follows, and a
symbol is a single character. So the tokens hold all that is seen of a text, each character once
and in order. -/

namespace ProseLint

/-! ## Word characters -/

namespace CharSet

theorem exists_range_of_within {n : Nat} {ranges : List (Nat × Nat)}
    (h : within n ranges = true) : ∃ r ∈ ranges, r.1 ≤ n ∧ n ≤ r.2 := by
  induction ranges with
  | nil => cases h
  | cons first rest ih =>
      obtain ⟨low, high⟩ := first
      simp only [within] at h
      split at h
      · cases h
      · split at h
        · exact ⟨(low, high), List.mem_cons_self, by simp only; omega⟩
        · obtain ⟨r, hMem, hIn⟩ := ih h
          exact ⟨r, List.mem_cons_of_mem _ hMem, hIn⟩

/-- Sets of which no two ranges meet have no character in common. -/
theorem contains_eq_false_of_apart {s u : CharSet}
    (hApart : ∀ r ∈ s.ranges, ∀ q ∈ u.ranges, r.2 < q.1 ∨ q.2 < r.1) {c : Char}
    (h : s.contains c = true) : u.contains c = false := by
  obtain ⟨r, hr, hIn⟩ := exists_range_of_within h
  cases hBoth : u.contains c with
  | false => rfl
  | true =>
      obtain ⟨q, hq, hOther⟩ := exists_range_of_within hBoth
      have hNone := hApart r hr q hq
      omega

end CharSet

theorem alphanumericSet_apart : ∀ r ∈ alphanumericSet.ranges, ∀ q ∈ blankSet.ranges,
    r.2 < q.1 ∨ q.2 < r.1 := by
  decide +kernel

/-- A word character is never white space. -/
theorem isBlank_of_isWordChar {c : Char} (h : isWordChar c = true) : isBlank c = false := by
  rcases Bool.or_eq_true_iff.mp h with hLetter | hLow
  · exact CharSet.contains_eq_false_of_apart alphanumericSet_apart hLetter
  · rw [beq_iff_eq.mp hLow]
    decide

namespace Token

theorem isBlank_of_isJoiner {c : Char} (h : isJoiner c = true) : isBlank c = false := by
  simp only [isJoiner, Bool.or_eq_true, beq_iff_eq] at h
  obtain (rfl | rfl) | rfl := h <;> decide

/-! ## Words -/

/-- Whether a word goes on with a text: with a word character, or with a joiner in front of one. -/
def goesOn : Text → Bool
  | [] => false
  | c :: rest => isWordChar c || (isJoiner c && startsWord rest)

theorem goesOn_eq_false {t : Text} (h : goesOn t = false) :
    (∀ c, t[0]? = some c → isWordChar c = false) ∧
      ∀ j c, t[0]? = some j → isJoiner j = true → t[1]? = some c → isWordChar c = false := by
  cases t with
  | nil => simp
  | cons first rest =>
      rw [goesOn, Bool.or_eq_false_iff] at h
      obtain ⟨hFirst, hNext⟩ := h
      refine ⟨fun c hAt => ?_, fun j c hAt hJoiner hBehind => ?_⟩
      · rwa [← Option.some_inj.mp hAt]
      · rw [Option.some_inj.mp hAt, hJoiner, Bool.true_and] at hNext
        cases rest with
        | nil => cases hBehind
        | cons d more => rwa [← Option.some_inj.mp hBehind]

/-- A word, from its first character on. A joiner is in it only between two word characters. -/
inductive IsWord : Text → Prop where
  | single {c : Char} (hChar : isWordChar c = true) : IsWord [c]
  | char {w : Text} {c : Char} (hWord : IsWord w) (hChar : isWordChar c = true) : IsWord (w ++ [c])
  | joined {w : Text} {j c : Char} (hWord : IsWord w) (hJoiner : isJoiner j = true)
      (hChar : isWordChar c = true) : IsWord (w ++ [j, c])

namespace IsWord

theorem exists_cons {w : Text} (h : IsWord w) : ∃ c rest, w = c :: rest ∧ isWordChar c = true := by
  induction h with
  | @single c hChar => exact ⟨c, [], rfl, hChar⟩
  | char _ _ ih | joined _ _ _ ih =>
      obtain ⟨first, rest, rfl, hFirst⟩ := ih
      exact ⟨first, _, rfl, hFirst⟩

theorem ne_nil {w : Text} (h : IsWord w) : w ≠ [] := by
  obtain ⟨c, rest, rfl, _⟩ := h.exists_cons
  exact List.cons_ne_nil c rest

theorem isBlank {w : Text} (h : IsWord w) : ∀ c ∈ w, isBlank c = false := by
  induction h with
  | single hChar => exact List.forall_mem_singleton.mpr (isBlank_of_isWordChar hChar)
  | char _ hChar ih =>
      exact List.forall_mem_append.mpr
        ⟨ih, List.forall_mem_singleton.mpr (isBlank_of_isWordChar hChar)⟩
  | joined _ hJoiner hChar ih =>
      exact List.forall_mem_append.mpr ⟨ih, List.forall_mem_cons.mpr
        ⟨isBlank_of_isJoiner hJoiner, List.forall_mem_singleton.mpr (isBlank_of_isWordChar hChar)⟩⟩

end IsWord

/-! ## The scan -/

/-- The tokens into which a text is cut that starts at a position. -/
inductive Cuts : Nat → Text → List Token → Prop where
  | nil {i : Nat} : Cuts i [] []
  | blank {i : Nat} {c : Char} {rest : Text} {tokens : List Token} (hBlank : isBlank c = true)
      (hRest : Cuts (i + 1) rest tokens) : Cuts i (c :: rest) tokens
  | symbol {i : Nat} {c : Char} {rest : Text} {tokens : List Token} (hSeen : isBlank c = false)
      (hOther : isWordChar c = false) (hRest : Cuts (i + 1) rest tokens) :
      Cuts i (c :: rest) (⟨[c], .symbol, i⟩ :: tokens)
  | word {i : Nat} {w rest : Text} {tokens : List Token} (hWord : IsWord w)
      (hStop : goesOn rest = false) (hRest : Cuts (i + w.length) rest tokens) :
      Cuts i (w ++ rest) (⟨w, .word, i⟩ :: tokens)

/-- The word read so far, backwards, in front of a text: none, a word, or a word with a joiner that
the text goes on from. -/
inductive Pending : Text → Text → Prop where
  | none {t : Text} : Pending [] t
  | word {current t : Text} (hWord : IsWord current.reverse) : Pending current t
  | joiner {current t : Text} {j : Char} (hWord : IsWord current.reverse)
      (hJoiner : isJoiner j = true) (hNext : startsWord t = true) : Pending (j :: current) t

theorem Pending.char {current rest : Text} {c : Char} (h : Pending current (c :: rest))
    (hChar : isWordChar c = true) : Pending (c :: current) rest := by
  refine .word ?_
  rw [List.reverse_cons]
  cases h with
  | none => exact .single hChar
  | word hWord => exact .char hWord hChar
  | joiner hWord hJoiner =>
      rw [List.reverse_cons, List.append_assoc]
      exact .joined hWord hJoiner hChar

/-- Where the word read so far does not go on it is a token, if it is there at all. -/
theorem cuts_finish {current t : Text} {i : Nat} {tokens : List Token} (h : Pending current t)
    (hLe : current.length ≤ i) (hStop : current ≠ [] → goesOn t = false) (hRest : Cuts i t tokens) :
    Cuts (i - current.length) (current.reverse ++ t) (finish current i ++ tokens) := by
  have hWhole : ∀ hWord : IsWord current.reverse,
      Cuts (i - current.length) (current.reverse ++ t) (finish current i ++ tokens) := by
    intro hWord
    have hSome : current ≠ [] := fun hNil => hWord.ne_nil (by rw [hNil]; rfl)
    rw [finish, List.isEmpty_eq_false_iff.mpr hSome]
    refine .word hWord (hStop hSome) ?_
    rwa [List.length_reverse, Nat.sub_add_cancel hLe]
  cases h with
  | none => exact hRest
  | word hWord => exact hWhole hWord
  | joiner hWord hJoiner hNext =>
      -- A joiner is read only in front of a word character, so the word cannot end here.
      cases t with
      | nil => cases hNext
      | cons c rest =>
          have hOn : isWordChar c = true := hNext
          have hEnd := hStop (List.cons_ne_nil _ _)
          rw [goesOn, hOn, Bool.true_or] at hEnd
          cases hEnd

theorem scan_cuts {current t : Text} {i : Nat} (h : Pending current t) (hLe : current.length ≤ i) :
    Cuts (i - current.length) (current.reverse ++ t) (scan current i t) := by
  induction t generalizing current i with
  | nil =>
      rw [scan, ← List.append_nil (finish current i)]
      exact cuts_finish h hLe (fun _ => rfl) .nil
  | cons c rest ih =>
      have hOn : Pending (c :: current) rest → Cuts (i - current.length)
          (current.reverse ++ c :: rest) (scan (c :: current) (i + 1) rest) := by
        intro hNext
        have hCuts := ih (i := i + 1) hNext (Nat.succ_le_succ hLe)
        rwa [List.length_cons, Nat.add_sub_add_right, List.reverse_cons, List.append_assoc] at hCuts
      have hBehind : Cuts (i + 1) rest (scan [] (i + 1) rest) := ih .none (Nat.zero_le _)
      simp only [scan]
      split
      · next hChar => exact hOn (h.char hChar)
      · next hOther =>
          have hOther : isWordChar c = false := by simpa using hOther
          split
          · next hJoin =>
              simp only [Bool.and_eq_true, Bool.not_eq_true', List.isEmpty_eq_false_iff] at hJoin
              obtain ⟨⟨hSome, hJoiner⟩, hNext⟩ := hJoin
              cases h with
              | none => exact absurd rfl hSome
              | word hWord => exact hOn (.joiner hWord hJoiner hNext)
              | joiner _ _ hChar =>
                  rw [startsWord, hOther] at hChar
                  cases hChar
          · next hNoJoin =>
              have hStop : current ≠ [] → goesOn (c :: rest) = false := by
                intro hSome
                rw [goesOn, hOther, Bool.false_or]
                simpa [hSome] using hNoJoin
              split
              · next hBlank => exact cuts_finish h hLe hStop (.blank hBlank hBehind)
              · next hSeen =>
                  have hSeen : isBlank c = false := by simpa using hSeen
                  exact cuts_finish h hLe hStop (.symbol hSeen hOther hBehind)

theorem ofText_cuts (t : Text) : Cuts 0 t (ofText t) := scan_cuts .none (Nat.zero_le 0)

/-! ## What is cut -/

/-- The position behind a token. -/
def stop (token : Token) : Nat := token.offset + token.surface.length

namespace Cuts

variable {i : Nat} {t : Text} {tokens : List Token}

theorem le_offset (h : Cuts i t tokens) : ∀ token ∈ tokens, i ≤ token.offset := by
  induction h with
  | nil => simp
  | blank _ _ ih => exact fun token hMem => Nat.le_of_succ_le (ih token hMem)
  | symbol _ _ _ ih =>
      exact List.forall_mem_cons.mpr
        ⟨Nat.le_refl _, fun token hMem => Nat.le_of_succ_le (ih token hMem)⟩
  | word _ _ _ ih =>
      exact List.forall_mem_cons.mpr
        ⟨Nat.le_refl _, fun token hMem => Nat.le_of_add_right_le (ih token hMem)⟩

/-- A token begins at the end of the one before it or further on. -/
theorem apart (h : Cuts i t tokens) : tokens.Pairwise fun a b => a.stop ≤ b.offset := by
  induction h with
  | nil => exact .nil
  | blank _ _ ih => exact ih
  | symbol _ _ hRest ih | word _ _ hRest ih => exact .cons hRest.le_offset ih

/-- A token is a word, or a symbol of one character that is seen and in no word. -/
theorem kinds (h : Cuts i t tokens) : ∀ token ∈ tokens,
    (token.kind = .word ∧ IsWord token.surface) ∨
      token.kind = .symbol ∧
        ∃ c, token.surface = [c] ∧ isBlank c = false ∧ isWordChar c = false := by
  induction h with
  | nil => simp
  | blank _ _ ih => exact ih
  | @symbol i c _ _ hSeen hOther _ ih =>
      exact List.forall_mem_cons.mpr ⟨Or.inr ⟨rfl, c, rfl, hSeen, hOther⟩, ih⟩
  | word hWord _ _ ih => exact List.forall_mem_cons.mpr ⟨Or.inl ⟨rfl, hWord⟩, ih⟩

/-- A word ends where it does not go on. -/
theorem stops (h : Cuts i t tokens) : ∀ token ∈ tokens, token.kind = .word →
    ∃ before rest, t = before ++ rest ∧ token.stop = i + before.length ∧ goesOn rest = false := by
  have hLater : ∀ {i : Nat} {w rest : Text} {token : Token},
      (∃ before behind, rest = before ++ behind ∧ token.stop = i + w.length + before.length ∧
        goesOn behind = false) →
      ∃ before behind, w ++ rest = before ++ behind ∧ token.stop = i + before.length ∧
        goesOn behind = false := by
    rintro i w rest token ⟨before, behind, rfl, hAt, hStop⟩
    exact ⟨w ++ before, behind, (List.append_assoc _ _ _).symm,
      by rw [hAt, List.length_append, Nat.add_assoc], hStop⟩
  induction h with
  | nil => simp
  | @blank i c _ _ _ _ ih => exact fun token hMem hKind => hLater (w := [c]) (ih token hMem hKind)
  | @symbol i c _ _ _ _ _ ih =>
      refine List.forall_mem_cons.mpr ⟨fun hKind => ?_, fun token hMem hKind => ?_⟩
      · cases hKind
      · exact hLater (w := [c]) (ih token hMem hKind)
  | @word i w rest _ _ hStop _ ih =>
      exact List.forall_mem_cons.mpr
        ⟨fun _ => ⟨w, rest, rfl, rfl, hStop⟩, fun token hMem hKind => hLater (ih token hMem hKind)⟩

/-- What is seen is in a token. -/
theorem covers (h : Cuts i t tokens) {k : Nat} {c : Char} (hAt : t[k]? = some c)
    (hSeen : isBlank c = false) : ∃ token ∈ tokens, token.offset ≤ i + k ∧ i + k < token.stop := by
  induction h generalizing k with
  | nil => simp at hAt
  | blank hBlank _ ih =>
      cases k with
      | zero =>
          rw [List.getElem?_cons_zero, Option.some_inj] at hAt
          rw [hAt, hSeen] at hBlank
          cases hBlank
      | succ k =>
          obtain ⟨token, hMem, hFrom, hTo⟩ := ih (by simpa using hAt)
          exact ⟨token, hMem, by omega, by omega⟩
  | symbol _ _ _ ih =>
      cases k with
      | zero => exact ⟨_, List.mem_cons_self, Nat.le_refl _, Nat.lt_succ_self _⟩
      | succ k =>
          obtain ⟨token, hMem, hFrom, hTo⟩ := ih (by simpa using hAt)
          exact ⟨token, List.mem_cons_of_mem _ hMem, by omega, by omega⟩
  | @word i w rest _ _ _ _ ih =>
      rcases Nat.lt_or_ge k w.length with hLt | hGe
      · exact ⟨_, List.mem_cons_self, Nat.le_add_right i k, Nat.add_lt_add_left hLt i⟩
      · rw [List.getElem?_append_right hGe] at hAt
        obtain ⟨token, hMem, hFrom, hTo⟩ := ih hAt
        exact ⟨token, List.mem_cons_of_mem _ hMem, by omega, by omega⟩

end Cuts

/-- Two tokens have no character in common. -/
def Apart (a b : Token) : Prop := a.stop ≤ b.offset ∨ b.stop ≤ a.offset

instance : Std.Symm Apart := ⟨fun _ _ => Or.symm⟩

theorem eq_of_mem_ofText {t : Text} {a b : Token} {i : Nat} (ha : a ∈ ofText t) (hb : b ∈ ofText t)
    (hInA : a.offset ≤ i ∧ i < a.stop) (hInB : b.offset ≤ i ∧ i < b.stop) : a = b := by
  have hApart : (ofText t).Pairwise Apart := (ofText_cuts t).apart.imp Or.inl
  by_contra hOther
  have hNone := hApart.forall ha hb hOther
  unfold Apart at hNone
  omega

/-- Behind a word of a text there is no word character, and no joiner with one behind it. -/
theorem goesOn_behind {t : Text} {token : Token} (hMem : token ∈ ofText t)
    (hKind : token.kind = .word) : goesOn (t.drop token.stop) = false := by
  obtain ⟨before, rest, rfl, hAt, hStop⟩ := (ofText_cuts t).stops token hMem hKind
  rwa [hAt, Nat.zero_add, List.drop_left]

end Token

/-- The tokens of a text stand in it one behind the other and hold all that is seen of it, each
character in one token, and no white space. A token is a word if it begins with a word character,
and else a symbol of one character. A word is not followed by a word character, and not by a
joiner with a word character behind it either. -/
theorem Tokenizer.tokens_partition (t : Text) :
    let tokens := Tokenizer.whitespace.tokens t
    (tokens.Pairwise fun a b => a.offset < b.offset ∧ a.stop ≤ b.offset) ∧
    (∀ token ∈ tokens, token.stop ≤ t.length ∧ t.slice token.offset token.stop = token.surface ∧
      ∀ c ∈ token.surface, isBlank c = false) ∧
    (∀ i c, t[i]? = some c → isBlank c = false →
      ∃! token, token ∈ tokens ∧ token.offset ≤ i ∧ i < token.stop) ∧
    (∀ token ∈ tokens,
      (token.kind = .word ↔ ∃ c, token.surface.head? = some c ∧ isWordChar c = true) ∧
      (token.kind ≠ .word → token.kind = .symbol ∧ token.surface.length = 1)) ∧
    ∀ token ∈ tokens, token.kind = .word → Token.IsWord token.surface ∧
      (∀ c, t[token.stop]? = some c → isWordChar c = false) ∧
      ∀ j c, t[token.stop]? = some j → Token.isJoiner j = true → t[token.stop + 1]? = some c →
        isWordChar c = false := by
  intro tokens
  have hCuts : Token.Cuts 0 t tokens := Token.ofText_cuts t
  have hStands : ∀ token ∈ tokens, token.surface ≠ [] ∧ t.StandsAt token.offset token.surface :=
    fun token hMem => Token.isIn_of_mem_ofText hMem
  refine ⟨?_, fun token hMem => ?_, fun i c hAt hSeen => ?_, fun token hMem => ?_,
    fun token hMem hKind => ?_⟩
  · refine hCuts.apart.imp_of_mem fun {a b} hMem _ hLe => ⟨Nat.lt_of_lt_of_le ?_ hLe, hLe⟩
    exact Nat.lt_add_of_pos_right (List.length_pos_iff.mpr (hStands a hMem).1)
  · refine ⟨(hStands token hMem).2.le_length, (hStands token hMem).2.slice_eq, ?_⟩
    rcases hCuts.kinds token hMem with ⟨_, hWord⟩ | ⟨_, c, hSurface, hSeen, _⟩
    · exact hWord.isBlank
    · rw [hSurface]
      exact List.forall_mem_singleton.mpr hSeen
  · obtain ⟨token, hMem, hIn⟩ := hCuts.covers hAt hSeen
    rw [Nat.zero_add] at hIn
    exact ⟨token, ⟨hMem, hIn⟩, fun other ⟨hOther, hAlso⟩ =>
      Token.eq_of_mem_ofText hOther hMem hAlso hIn⟩
  · rcases hCuts.kinds token hMem with ⟨hKind, hWord⟩ | ⟨hKind, c, hSurface, _, hOther⟩
    · obtain ⟨c, rest, hSurface, hChar⟩ := hWord.exists_cons
      exact ⟨iff_of_true hKind ⟨c, by rw [hSurface]; rfl, hChar⟩, fun hNot => absurd hKind hNot⟩
    · rw [hSurface, hKind]
      refine ⟨iff_of_false (by decide) ?_, fun _ => ⟨rfl, rfl⟩⟩
      rintro ⟨d, hHead, hChar⟩
      cases hHead
      rw [hOther] at hChar
      cases hChar
  · have hWord : Token.IsWord token.surface := by
      rcases hCuts.kinds token hMem with ⟨_, hWord⟩ | ⟨hSymbol, _⟩
      · exact hWord
      · rw [hKind] at hSymbol
        cases hSymbol
    have hEnd := Token.goesOn_eq_false (Token.goesOn_behind hMem hKind)
    simp only [List.getElem?_drop, Nat.add_zero] at hEnd
    exact ⟨hWord, hEnd⟩

/-- An apostrophe at the edge of a word is a symbol, and so is each of two hyphens in a row. -/
example : (Tokenizer.whitespace.tokens "'It's' ab--c_1".toList).map (fun t => (t.offset, t.stop)) =
    [(0, 1), (1, 5), (5, 6), (7, 9), (9, 10), (10, 11), (11, 14)] := by
  decide +kernel

/-- Cutting a sentence anew gives the tokens that it has, or would have. -/
theorem Sentence.tokensOrCut_of_tokens {s : Sentence} (h : s.tokens = [] ∨
    s.tokens = Tokenizer.whitespace.tokens s.content) :
    s.tokensOrCut = Tokenizer.whitespace.tokens s.content := by
  unfold tokensOrCut
  rcases h with h | h
  · rw [h]
    rfl
  · rw [h]
    split <;> rfl

end ProseLint
