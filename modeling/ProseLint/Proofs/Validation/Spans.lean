import ProseLint.Proofs.Markup.Documents
import ProseLint.Proofs.Text.Pieces
import ProseLint.Proofs.Validation.Numbering
import ProseLint.Validation.Rule.Spacing
import ProseLint.Validation.Rule.Start

/-! Problems with a stretch of a sentence. Each rule of this kind reports a piece of the content
that is not empty, so the problem has the places of the first and the last character of the
piece, and they are in order. -/

namespace ProseLint

/-- The rules that report a stretch of a sentence. -/
inductive SpanRule where
  | symbol
  | expression
  | word
  | capital
  | spacing
  deriving DecidableEq, Repr

namespace SpanRule

def kind : SpanRule → ValidatorKind
  | .symbol => Rule.invalidSymbol
  | .expression => Rule.invalidExpression
  | .word => Rule.doubledWord
  | .capital => Rule.startWithCapitalLetter
  | .spacing => Rule.spaceBetweenAlphabeticalWord

/-- What a rule says about a piece of a sentence that stands between two others. -/
inductive Reports (symbols : SymbolTable) : SpanRule → Text → Text → Text → Text → Prop where
  | wrongForm {before after : Text} {s : Symbol} {c : Char} (hSymbol : s ∈ symbols.symbols)
      (hForm : c ∈ s.invalid) (hOther : [c] ≠ s.value) :
      Reports symbols .symbol before [c] after (Rule.wrongSymbolMessage c s.value)
  | expression {before after e : Text} :
      Reports symbols .expression before e after (Rule.about "Found invalid expression " e ".")
  | word {before after w : Text} :
      Reports symbols .word before w after (Rule.about "Found repeated word " w ".")
  | letter {before after : Text} {c : Char} (hBlank : before.isAllBlank = true)
      (hSmall : Rule.isSmallLatin c = true) :
      Reports symbols .capital before [c] after
        (Rule.about "Sentence starts with a lowercase character " [c] ".")
  | missingBefore {before after : Text} {left right : Char} (hLeft : Rule.isCjk left = true)
      (hRight : Rule.isLatinLetter right = true) :
      Reports symbols .spacing before [left, right] after
        Rule.SpacingFault.missingBefore.message.toList
  | missingAfter {before after : Text} {left right : Char}
      (hLeft : Rule.isLatinLetter left = true) (hRight : Rule.isCjk right = true) :
      Reports symbols .spacing before [left, right] after
        Rule.SpacingFault.missingAfter.message.toList
  | forbidden {before after : Text} {left right : Char} (hBefore : before.getLast? = some left)
      (hAfter : after.head? = some right) (hBorder : Rule.isBorder left right = true) :
      Reports symbols .spacing before [' '] after Rule.SpacingFault.forbidden.message.toList

/-- The problem is with a piece of the sentence, and has the places where that piece starts and
ends. -/
def Marks (symbols : SymbolTable) (rule : SpanRule) (site : Site) (p : Problem) : Prop :=
  ∃ (s : ValidatorSetup) (before piece after message : Text),
    piece ≠ [] ∧ site.sentence.content = before ++ (piece ++ after) ∧
    rule.Reports symbols before piece after message ∧
    p = s.problemAt message site before.length (before.length + piece.length)

/-- The check looks at sentences, and marks every problem that it finds there. A sentence may
have tokens only if they are those of its content. -/
def IsMarking (symbols : SymbolTable) (rule : SpanRule) (c : Check) : Prop :=
  ∃ find, c = .onSentence find ∧ ∀ site problems, find site = some problems →
    site.sentence.tokensOrCut = Token.ofText site.sentence.content →
      ∀ p ∈ problems, rule.Marks symbols site p

end SpanRule

namespace Rule

variable {s : ValidatorSetup} {c : Check}

/-! ## Symbols -/

theorem mem_wrongForms {symbols : List Symbol} {form : Char × Text}
    (h : form ∈ wrongForms symbols) : ∃ s ∈ symbols, form.1 ∈ s.invalid ∧ [form.1] ≠ s.value ∧ form.2 = s.value := by
  obtain ⟨s, hSymbol, hIn⟩ := List.mem_flatMap.mp h
  obtain ⟨c, hForm, rfl⟩ := List.mem_map.mp hIn
  obtain ⟨hInvalid, hOther⟩ := List.mem_filter.mp hForm
  exact ⟨s, hSymbol, hInvalid, by simpa using hOther, rfl⟩

theorem mem_wrongSymbols {reported : List Char} {t : Text} {forms : List (Char × Text)}
    {found : Nat × Char × Text} (h : found ∈ wrongSymbols reported t forms) :
    found.2 ∈ forms ∧ t.StandsAt found.1 [found.2.1] := by
  induction forms generalizing reported with
  | nil => cases h
  | cons form rest ih =>
      obtain ⟨c, value⟩ := form
      have hLater : ∀ seen, found ∈ wrongSymbols seen t rest →
          found.2 ∈ (c, value) :: rest ∧ t.StandsAt found.1 [found.2.1] := fun seen hMem =>
        ⟨List.mem_cons_of_mem _ (ih hMem).1, (ih hMem).2⟩
      simp only [wrongSymbols] at h
      split at h
      · exact hLater _ h
      · split at h
        · next i hFind =>
            rcases List.mem_cons.mp h with rfl | hMem
            · exact ⟨List.mem_cons_self, Text.standsAt_of_find? hFind⟩
            · exact hLater _ hMem
        · exact hLater _ h

theorem invalidSymbol_isMarking (h : invalidSymbol.check s = .ok c) :
    SpanRule.symbol.IsMarking s.symbols c := by
  cases h
  refine ⟨_, rfl, fun site problems hFind _ p hMem => ?_⟩
  cases hFind
  obtain ⟨⟨i, c, value⟩, hFound, rfl⟩ := List.mem_map.mp hMem
  obtain ⟨hForm, before, after, rfl, hContent⟩ := mem_wrongSymbols hFound
  obtain ⟨symbol, hSymbol, hInvalid, hOther, rfl⟩ := mem_wrongForms hForm
  exact ⟨s, before, [c], after, _, by simp, hContent, .wrongForm hSymbol hInvalid hOther, rfl⟩

/-! ## Expressions and words -/

theorem ne_nil_of_mem_texts {key : String} {texts : List Text} (h : s.texts key = .ok texts)
    {t : Text} (hMem : t ∈ texts) : t ≠ [] := by
  unfold ValidatorSetup.texts at h
  split at h
  · cases h
    rw [List.mem_eraseDups, List.mem_mergeSort] at hMem
    simpa using (List.mem_filter.mp hMem).2
  · cases h

theorem exists_of_bind_eq_ok {α β : Type} {x : Except ConfigurationFault α}
    {f : α → Except ConfigurationFault β} {b : β} (h : x >>= f = .ok b) :
    ∃ a, x = .ok a ∧ f a = .ok b := by
  cases x with
  | error fault => cases h
  | ok a => exact ⟨a, rfl, h⟩

theorem invalidExpression_isMarking (h : invalidExpression.check s = .ok c) :
    SpanRule.expression.IsMarking s.symbols c := by
  obtain ⟨expressions, hTexts, hCheck⟩ := exists_of_bind_eq_ok h
  cases hCheck
  refine ⟨_, rfl, fun site problems hFind _ p hMem => ?_⟩
  cases hFind
  obtain ⟨⟨i, e⟩, hPlace, rfl⟩ := List.mem_map.mp hMem
  obtain ⟨e', hExpression, hIn⟩ := List.mem_flatMap.mp hPlace
  obtain ⟨j, hGreedy, hSame⟩ := List.mem_map.mp hIn
  cases hSame
  obtain ⟨before, after, rfl, hContent⟩ := Text.standsAt_of_mem_greedy hGreedy
  exact ⟨s, before, e, after, _, ne_nil_of_mem_texts hTexts hExpression, hContent, .expression, rfl⟩

theorem mem_of_mem_repeated {seen : List Text} {tokens : List Token} {t : Token}
    (h : t ∈ repeated seen tokens) : t ∈ tokens := by
  induction tokens generalizing seen with
  | nil => cases h
  | cons first rest ih =>
      simp only [repeated] at h
      split at h
      · rcases List.mem_cons.mp h with rfl | hMem
        · exact List.mem_cons_self
        · exact List.mem_cons_of_mem _ (ih hMem)
      · exact List.mem_cons_of_mem _ (ih h)

theorem doubledWord_isMarking (h : doubledWord.check s = .ok c) :
    SpanRule.word.IsMarking s.symbols c := by
  obtain ⟨skipped, _, hCheck⟩ := exists_of_bind_eq_ok h
  cases hCheck
  refine ⟨_, rfl, fun site problems hFind hTokens p hMem => ?_⟩
  cases hFind
  obtain ⟨t, hRepeated, rfl⟩ := List.mem_map.mp hMem
  have hToken : t ∈ Token.ofText site.sentence.content := by
    rw [← hTokens]
    exact (List.mem_filter.mp (mem_of_mem_repeated hRepeated)).1
  obtain ⟨hSome, before, after, hLength, hContent⟩ := Token.isIn_of_mem_ofText hToken
  exact ⟨s, before, t.surface, after, _, hSome, hContent, .word, by rw [hLength]⟩

/-! ## Capital letters -/

theorem smallStart?_eq_some {allowed : List Text} {t : Text} {i : Nat} {c : Char}
    (h : smallStart? allowed t = some (i, c)) :
    isSmallLatin c = true ∧ ∃ before after, Text.isAllBlank before = true ∧
      before.length = i ∧ t = before ++ ([c] ++ after) := by
  have hAll : t.takeWhile isBlank ++ t.stripLeft = t := List.takeWhile_append_dropWhile
  unfold smallStart? at h
  split at h
  · cases h
  · next d rest hStart =>
      split at h
      · next hSmall =>
          cases h
          rw [hStart] at hAll
          refine ⟨(Bool.and_eq_true_iff.mp hSmall).1, t.takeWhile isBlank, rest, ?_, ?_, hAll.symm⟩
          · exact List.all_eq_true.mpr fun a hMem => List.mem_takeWhile_imp hMem
          · have hLength := congrArg List.length hAll
            simp only [List.length_append, List.length_cons] at hLength
            omega
      · cases h

theorem startWithCapitalLetter_isMarking (h : startWithCapitalLetter.check s = .ok c) :
    SpanRule.capital.IsMarking s.symbols c := by
  obtain ⟨allowed, _, hCheck⟩ := exists_of_bind_eq_ok h
  cases hCheck
  refine ⟨_, rfl, fun site problems hFind _ p hMem => ?_⟩
  cases hFind
  obtain ⟨⟨i, c⟩, hStart, rfl⟩ := List.mem_map.mp hMem
  obtain ⟨hSmall, before, after, hBlank, rfl, hContent⟩ :=
    smallStart?_eq_some (Option.mem_toList.mp hStart)
  exact ⟨s, before, [c], after, _, by simp, hContent, .letter hBlank hSmall, rfl⟩

/-! ## Spaces -/

theorem mem_missingSpaces {i : Nat} {t : Text} {found : Nat × SpacingFault}
    (h : found ∈ missingSpaces i t) : ∃ k left right, found.1 = i + k ∧ t.StandsAt k [left, right] ∧
      ((found.2 = .missingBefore ∧ isCjk left = true ∧ isLatinLetter right = true) ∨
        (found.2 = .missingAfter ∧ isLatinLetter left = true ∧ isCjk right = true)) := by
  induction t generalizing i with
  | nil => cases h
  | cons left rest ih =>
      cases rest with
      | nil => cases h
      | cons right rest =>
          have hHere : Text.StandsAt (left :: right :: rest) 0 [left, right] := .zero ⟨rest, rfl⟩
          by_cases hMem : found ∈ missingSpaces (i + 1) (right :: rest)
          · obtain ⟨k, l, r, hAt, hStands, hFault⟩ := ih hMem
            exact ⟨k + 1, l, r, by omega, hStands.cons left, hFault⟩
          · simp only [missingSpaces, Bool.and_eq_true] at h
            split at h
            · next hPair =>
                rw [(List.mem_cons.mp h).resolve_right hMem]
                exact ⟨0, left, right, rfl, hHere, Or.inl ⟨rfl, hPair⟩⟩
            · split at h
              · next hPair =>
                  rw [(List.mem_cons.mp h).resolve_right hMem]
                  exact ⟨0, left, right, rfl, hHere, Or.inr ⟨rfl, hPair⟩⟩
              · exact (hMem h).elim

theorem mem_borderSpaces {i j : Nat} {t : Text} (h : j ∈ borderSpaces i t) :
    ∃ k left right, j = i + k + 1 ∧ t.StandsAt k [left, ' ', right] ∧
      isBorder left right = true := by
  induction t generalizing i with
  | nil => cases h
  | cons left rest ih =>
      rcases rest with _ | ⟨mid, _ | ⟨right, rest⟩⟩
      · cases h
      · cases h
      · by_cases hMem : j ∈ borderSpaces (i + 1) (mid :: right :: rest)
        · obtain ⟨k, l, r, hAt, hStands, hBorder⟩ := ih hMem
          exact ⟨k + 1, l, r, by omega, hStands.cons left, hBorder⟩
        · simp only [borderSpaces, Bool.and_eq_true, decide_eq_true_eq] at h
          split at h
          · next hSpace =>
              obtain ⟨rfl, hBorder⟩ := hSpace
              rw [(List.mem_cons.mp h).resolve_right hMem]
              exact ⟨0, left, right, rfl, .zero ⟨rest, rfl⟩, hBorder⟩
          · exact (hMem h).elim

theorem spaceBetweenAlphabeticalWord_isMarking (h : spaceBetweenAlphabeticalWord.check s = .ok c) :
    SpanRule.spacing.IsMarking s.symbols c := by
  cases h
  refine ⟨_, rfl, fun site problems hFind _ p hMem => ?_⟩
  cases hFind
  simp only at hMem
  split at hMem
  · obtain ⟨j, hSpace, rfl⟩ := List.mem_map.mp hMem
    obtain ⟨_, left, right, rfl, ⟨before, after, rfl, hContent⟩, hBorder⟩ := mem_borderSpaces hSpace
    have hReports : SpanRule.spacing.Reports s.symbols (before ++ [left]) [' '] (right :: after)
        SpacingFault.forbidden.message.toList := .forbidden (by simp) rfl hBorder
    exact ⟨s, before ++ [left], [' '], right :: after, _, by simp, by simpa using hContent,
      hReports, by simp⟩
  · obtain ⟨⟨i, fault⟩, hSpace, rfl⟩ := List.mem_map.mp hMem
    obtain ⟨_, left, right, rfl, ⟨before, after, rfl, hContent⟩, hFault⟩ := mem_missingSpaces hSpace
    refine ⟨s, before, [left, right], after, fault.message.toList, by simp, hContent, ?_, by simp⟩
    rcases hFault with ⟨rfl, hLeft, hRight⟩ | ⟨rfl, hLeft, hRight⟩
    · exact .missingBefore hLeft hRight
    · exact .missingAfter hLeft hRight

end Rule

namespace SpanRule

theorem check_isMarking {rule : SpanRule} {s : ValidatorSetup} {c : Check}
    (h : rule.kind.check s = .ok c) : rule.IsMarking s.symbols c := by
  cases rule with
  | symbol => exact Rule.invalidSymbol_isMarking h
  | expression => exact Rule.invalidExpression_isMarking h
  | word => exact Rule.doubledWord_isMarking h
  | capital => exact Rule.startWithCapitalLetter_isMarking h
  | spacing => exact Rule.spaceBetweenAlphabeticalWord_isMarking h

theorem make_isMarking {rule : SpanRule} {configured : Json.Fields} {symbols : SymbolTable}
    {v : Validator} (h : rule.kind.make configured symbols = .ok v) :
    rule.IsMarking symbols v.check := by
  unfold ValidatorKind.make at h
  simp only at h
  split at h
  · cases h
  · next severity _ =>
      cases hCheck : rule.kind.check
        ⟨rule.kind.name, rule.kind.attributes configured, symbols, severity⟩ with
      | error fault =>
          rw [hCheck] at h
          cases h
      | ok c =>
          rw [hCheck] at h
          cases h
          exact check_isMarking hCheck

end SpanRule

namespace ValidatorSetup

variable (s : ValidatorSetup) (message : Text) (site : Site)

theorem problemAt_start (start stop : Nat) :
    (s.problemAt message site start stop).start = site.sentence.positions[start]? := by
  simp [problemAt, Sentence.positionAt?]

theorem problemAt_stop (start : Nat) {stop : Nat} (h : 0 < stop) :
    (s.problemAt message site start stop).stop = site.sentence.positions[stop - 1]? := by
  have hLast : (stop : Int) - 1 = ((stop - 1 : Nat) : Int) := by omega
  simp only [problemAt, hLast]
  simp [Sentence.positionAt?]

end ValidatorSetup

/-- Whatever is reported about a stretch of a sentence points at it. In a document that is read,
the problem has the places of the first and of the last character of what it reports, and the
first is not behind the last. This holds for all symbols and for all attributes with which the
validator can be made. -/
theorem Document.problems_point {o : ReadOptions} {t : Text} {d : Document Sentence}
    (hRead : d.IsReadFrom o t) (rule : SpanRule) {configured : Json.Fields} {symbols : SymbolTable}
    {v : Validator} (hMake : rule.kind.make configured symbols = .ok v) {problems : List Problem}
    (hAnswer : some problems ∈ v.check.answers d.numbered) {p : Problem} (hMem : p ∈ problems) :
    ∃ (site : Site) (start stop : Nat) (first last : Position),
      p.site = some site ∧ site.sentence ∈ d.sentences ∧
      start < stop ∧ stop ≤ site.sentence.content.length ∧
      rule.Reports symbols (site.sentence.content.take start)
        (site.sentence.content.slice start stop) (site.sentence.content.drop stop) p.message ∧
      p.start = some first ∧ p.stop = some last ∧
      site.sentence.positions[start]? = some first ∧
      site.sentence.positions[stop - 1]? = some last ∧ first.le last = true := by
  obtain ⟨find, hCheck, hMarks⟩ := SpanRule.make_isMarking hMake
  rw [hCheck, Check.answers] at hAnswer
  obtain ⟨site, hSite, hFind⟩ := List.mem_map.mp hAnswer
  have hSentence := sentence_mem_of_mem_numbered hSite
  obtain ⟨s, before, piece, after, message, hSome, hContent, hReports, rfl⟩ :=
    hMarks site problems hFind (hRead.tokensOrCut_eq hSentence) p hMem
  have hStands : site.sentence.content.StandsAt before.length piece :=
    ⟨before, after, rfl, hContent⟩
  have hPiece : 0 < piece.length := List.length_pos_iff.mpr hSome
  have hLength := hStands.le_length
  have hPlaces : site.sentence.positions.length = site.sentence.content.length :=
    (hRead.isAnchored hSentence).length_eq
  obtain ⟨first, hFirst⟩ : ∃ first, site.sentence.positions[before.length]? = some first :=
    ⟨_, List.getElem?_eq_getElem (by omega)⟩
  obtain ⟨last, hLast⟩ : ∃ last,
      site.sentence.positions[before.length + piece.length - 1]? = some last :=
    ⟨_, List.getElem?_eq_getElem (by omega)⟩
  refine ⟨site, before.length, before.length + piece.length, first, last, rfl, hSentence,
    by omega, hLength, ?_, ?_, ?_, hFirst, hLast, ?_⟩
  · rw [hStands.slice_eq, hContent, List.take_left, ← List.append_assoc, ← List.length_append,
      List.drop_left]
    exact hReports
  · rw [s.problemAt_start, hFirst]
  · rw [s.problemAt_stop message site _ (by omega), hLast]
  · exact (hRead.positions_rising hSentence).le (by omega) hFirst hLast

/-- A word that comes again on the next line is reported there. -/
theorem Document.problems_point_word :
    let text := "Say the word\nor the word.".toList
    let d := (Format.plain.read ⟨.standard, none, none⟩ text).document
    ∃ v problems p, SpanRule.word.kind.make [] .standard = .ok v ∧
      some problems ∈ v.check.answers d.numbered ∧ p ∈ problems ∧
      p.start = some ⟨2, 7⟩ ∧ p.stop = some ⟨2, 10⟩ ∧
      ∃ site start stop, p.site = some site ∧ start < stop ∧
        stop ≤ site.sentence.content.length ∧
        SpanRule.word.Reports .standard (site.sentence.content.take start)
          (site.sentence.content.slice start stop) (site.sentence.content.drop stop) p.message := by
  intro text d
  have hMake : ∃ v, SpanRule.word.kind.make [] .standard = .ok v ∧
      (v.check.answers d.numbered).map (·.map (·.map fun p => (p.start, p.stop))) =
        [some [(some ⟨2, 7⟩, some ⟨2, 10⟩)]] := ⟨_, rfl, by decide +kernel⟩
  obtain ⟨v, hMake, hAnswers⟩ := hMake
  obtain ⟨answer, rest, hList, hAnswer, _⟩ := List.map_eq_cons_iff.mp hAnswers
  obtain ⟨problems, rfl, hProblems⟩ := Option.map_eq_some_iff.mp hAnswer
  obtain ⟨p, others, rfl, hPlaces, _⟩ := List.map_eq_cons_iff.mp hProblems
  obtain ⟨hStart, hStop⟩ := Prod.mk.inj hPlaces
  have hIn : some (p :: others) ∈ v.check.answers d.numbered := by simp [hList]
  obtain ⟨site, start, stop, _, _, hSite, _, hLt, hLe, hReports, _⟩ :=
    Document.problems_point (.format .plain) .word hMake hIn List.mem_cons_self
  exact ⟨v, _, p, hMake, hIn, List.mem_cons_self, hStart, hStop, site, start, stop, hSite, hLt, hLe,
    hReports⟩

end ProseLint
