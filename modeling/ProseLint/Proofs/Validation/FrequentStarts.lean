import ProseLint.Proofs.Number.Rounding
import ProseLint.Proofs.Validation.StartCounts

/-! Frequent sentence starts. What a sentence begins with it also begins with a shorter part of, so
shorter sequences of words are no less frequent, and rounding the shares keeps that order. -/

namespace ProseLint

namespace Rule

/-! ## Reports -/

/-- A sequence of words that is reported, the number of sentences that begin with it and the first
of them. -/
structure FrequentStart where
  words : List Text
  count : Nat
  first : Site

/-- What is reported of some sentences. -/
structure StartReports (limit least : Int) (threshold : Binary64) (sites : List Site)
    (reports : List FrequentStart) : Prop where
  nodup : (reports.map (·.words)).Nodup
  mem_iff : ∀ words, words ∈ reports.map (·.words) ↔ least ≤ sites.length ∧
    words ≠ [] ∧ (words.length : Int) ≤ limit ∧ 0 < sites.countP (beginsWith words) ∧
    threshold.lt (percentage (sites.countP (beginsWith words)) sites.length) = true
  count_eq : ∀ r ∈ reports, r.count = sites.countP (beginsWith r.words)
  percentage_le : ∀ r ∈ reports,
    Binary64.lt (.ofRatio false 100 1) (percentage r.count sites.length) = false
  find?_eq : ∀ r ∈ reports, sites.find? (beginsWith r.words) = some r.first
  shorter : ∀ before r after, reports = before ++ r :: after →
    ∀ words, words ≠ [] → words <+: r.words → words ≠ r.words →
      ∃ earlier ∈ before, earlier.words = words ∧ r.count ≤ earlier.count ∧
        (percentage earlier.count sites.length).lt (percentage r.count sites.length) = false

/-- The report of a count. -/
def FrequentStart.ofCount (c : StartCount) : FrequentStart :=
  ⟨Text.splitOn ' ' c.start, c.count, c.first⟩

section Reports

variable {limit least : Int} {threshold : Binary64} {sites : List Site}

theorem StartReports.of_few (h : (sites.length : Int) < least) :
    StartReports limit least threshold sites [] where
  nodup := .nil
  mem_iff words := by simp [Int.not_le.mpr h]
  count_eq := by simp
  percentage_le := by simp
  find?_eq := by simp
  shorter := by simp

/-- A start that more sentences have has no smaller share of them. -/
theorem percentage_mono {total count more : Nat} (hTotal : 0 < total) (hLe : count ≤ more) :
    (percentage count total).AtMost (percentage more total) :=
  Binary64.ofRatio_mono hTotal hTotal (by gcongr)

theorem percentage_le_hundred {total count : Nat} (hTotal : 0 < total) (hLe : count ≤ total) :
    (percentage count total).AtMost (.ofRatio false 100 1) :=
  Binary64.ofRatio_mono hTotal Nat.one_pos (by omega)

theorem countP_beginsWith_mono {words shorter : List Text} (hPrefix : shorter <+: words)
    (sites : List Site) : sites.countP (beginsWith words) ≤ sites.countP (beginsWith shorter) :=
  List.countP_mono_left fun _ _ => beginsWith_of_prefix hPrefix

theorem mem_frequentStarts_iff {c : StartCount} : c ∈ frequentStarts limit threshold sites ↔
    c ∈ startCounts limit sites ∧ threshold.lt (percentage c.count sites.length) = true :=
  List.mem_filter

/-- The shorter sequences are frequent too, and stand in front. -/
theorem exists_shorter_frequent (hSites : ∀ site ∈ sites, HasPlainWords site)
    {words : List Text} (hWords : IsSequence limit words) {before after : List StartCount}
    {c : StartCount} (hStarts : frequentStarts limit threshold sites = before ++ c :: after)
    (hJoin : Text.join [' '] words = c.start) {shorter : List Text} (hSome : shorter ≠ [])
    (hPrefix : shorter <+: words) (hOther : shorter ≠ words) :
    ∃ earlier ∈ before, earlier.start = Text.join [' '] shorter ∧ c.count ≤ earlier.count ∧
      (percentage earlier.count sites.length).lt (percentage c.count sites.length) = false := by
  have hFrequent : c ∈ frequentStarts limit threshold sites := by
    rw [hStarts]
    exact List.mem_append_right _ List.mem_cons_self
  obtain ⟨hMem, hShare⟩ := mem_frequentStarts_iff.mp hFrequent
  obtain ⟨kept, rest, hCounts, hBefore, hBehind⟩ := List.filter_eq_append_iff.mp hStarts
  obtain ⟨skipped, later, rfl, hSkipped, _, _⟩ := List.filter_eq_cons_iff.mp hBehind
  rw [← List.append_assoc] at hCounts
  obtain ⟨earlier, hEarlier, hStart⟩ :=
    exists_shorter hSites hWords hCounts hJoin hSome hPrefix hOther
  have hIn : earlier ∈ startCounts limit sites := by
    rw [hCounts]
    exact List.mem_append_left _ hEarlier
  have hCount : c.count ≤ earlier.count := by
    rw [count_eq hSites hWords hMem hJoin,
      count_eq hSites (hWords.shorter hSome hPrefix) hIn hStart.symm]
    exact countP_beginsWith_mono hPrefix sites
  have hTotal : 0 < sites.length := List.length_pos_iff.mpr fun hNil => by
    have hFirst := find?_eq hSites hWords hMem hJoin
    rw [hNil] at hFirst
    cases hFirst
  obtain ⟨hNotLess, hAbove⟩ := percentage_mono hTotal hCount
  have hAlso := hAbove threshold hShare
  refine ⟨earlier, ?_, hStart, hCount, hNotLess⟩
  rw [← hBefore]
  refine List.mem_filter.mpr ⟨(List.mem_append.mp hEarlier).resolve_right fun hGone => ?_, hAlso⟩
  exact hSkipped earlier hGone hAlso

/-- What is known of a report. -/
theorem ofCount_spec (hSites : ∀ site ∈ sites, HasPlainWords site) {c : StartCount}
    (h : c ∈ frequentStarts limit threshold sites) :
    let r := FrequentStart.ofCount c
    IsSequence limit r.words ∧ Text.join [' '] r.words = c.start ∧
      r.count = sites.countP (beginsWith r.words) ∧
      sites.find? (beginsWith r.words) = some r.first ∧
      threshold.lt (percentage r.count sites.length) = true := by
  obtain ⟨hMem, hShare⟩ := mem_frequentStarts_iff.mp h
  obtain ⟨hWords, hJoin⟩ := isSequence_splitOn hSites hMem
  exact ⟨hWords, hJoin, count_eq hSites hWords hMem hJoin, find?_eq hSites hWords hMem hJoin,
    hShare⟩

theorem startReports_ofCount (hSites : ∀ site ∈ sites, HasPlainWords site)
    (hEnough : least ≤ sites.length) :
    StartReports limit least threshold sites
      ((frequentStarts limit threshold sites).map FrequentStart.ofCount) where
  nodup := by
    have hStarts : ((frequentStarts limit threshold sites).map (·.start)).Nodup :=
      (startCounts_tallies limit sites).nodup.sublist (List.filter_sublist.map _)
    have hSame : (frequentStarts limit threshold sites).map (·.start) =
        (((frequentStarts limit threshold sites).map FrequentStart.ofCount).map (·.words)).map
          (Text.join [' ']) := by
      rw [List.map_map, List.map_map]
      exact List.map_congr_left fun c hFrequent => (ofCount_spec hSites hFrequent).2.1.symm
    rw [hSame] at hStarts
    exact hStarts.of_map
  mem_iff words := by
    rw [List.map_map]
    constructor
    · intro hMem
      obtain ⟨c, hFrequent, rfl⟩ := List.mem_map.mp hMem
      obtain ⟨hWords, _, hCount, hFirst, hShare⟩ := ofCount_spec hSites hFrequent
      rw [hCount] at hShare
      exact ⟨hEnough, hWords.ne_nil, hWords.length_le, List.countP_pos_iff.mpr
        ⟨_, List.mem_of_find?_eq_some hFirst, List.find?_some hFirst⟩, hShare⟩
    · rintro ⟨_, hSome, hLength, hUsed, hShare⟩
      obtain ⟨site, hSite, hBegins⟩ := List.countP_pos_iff.mp hUsed
      have hWords : IsSequence limit words := ⟨hSome, hLength, fun w hMem =>
        hSites site hSite w ((List.isPrefixOf_iff_prefix.mp hBegins).subset hMem)⟩
      obtain ⟨c, hMem, hStart⟩ := exists_count hSites hWords hUsed
      rw [← count_eq hSites hWords hMem hStart.symm] at hShare
      refine List.mem_map.mpr ⟨c, mem_frequentStarts_iff.mpr ⟨hMem, hShare⟩, ?_⟩
      simp only [Function.comp_apply, FrequentStart.ofCount, hStart]
      exact Text.splitOn_join hSome hWords.plain
  count_eq := List.forall_mem_map.mpr fun c hFrequent => (ofCount_spec hSites hFrequent).2.2.1
  percentage_le := by
    refine List.forall_mem_map.mpr fun c hFrequent => ?_
    obtain ⟨_, _, hCount, hFirst, _⟩ := ofCount_spec hSites hFrequent
    have hTotal := List.length_pos_of_mem (List.mem_of_find?_eq_some hFirst)
    rw [hCount]
    exact (percentage_le_hundred hTotal List.countP_le_length).1
  find?_eq := List.forall_mem_map.mpr fun c hFrequent => (ofCount_spec hSites hFrequent).2.2.2.1
  shorter before r after hReports words hSome hPrefix hOther := by
    obtain ⟨kept, rest, hStarts, rfl, hRest⟩ := List.map_eq_append_iff.mp hReports
    obtain ⟨c, later, rfl, rfl, rfl⟩ := List.map_eq_cons_iff.mp hRest
    have hFrequent : c ∈ frequentStarts limit threshold sites := by
      rw [hStarts]
      exact List.mem_append_right kept List.mem_cons_self
    obtain ⟨hWords, hJoin, _⟩ := ofCount_spec hSites hFrequent
    obtain ⟨earlier, hMem, hStart, hCount, hShare⟩ :=
      exists_shorter_frequent hSites hWords hStarts hJoin hSome hPrefix hOther
    refine ⟨.ofCount earlier, List.mem_map_of_mem hMem, ?_, hCount, hShare⟩
    simp only [FrequentStart.ofCount, hStart]
    exact Text.splitOn_join hSome (hWords.shorter hSome hPrefix).plain

end Reports

/-! ## Sentences of a document -/

theorem hasPlainWords_of_tokens {site : Site} (h : site.sentence.tokens = [] ∨
    site.sentence.tokens = Tokenizer.whitespace.tokens site.sentence.content) :
    HasPlainWords site := by
  have hTokens : site.sentence.tokensOrCut = Token.ofText site.sentence.content :=
    Sentence.tokensOrCut_of_tokens h
  intro w hMem hSpace
  obtain ⟨token, hToken, rfl⟩ := List.mem_map.mp hMem
  obtain ⟨hIn, hKind⟩ := List.mem_filter.mp hToken
  rw [hTokens] at hIn
  rcases (Token.ofText_cuts site.sentence.content).kinds token hIn with ⟨_, hWord⟩ | ⟨hSymbol, _⟩
  · have hSeen := hWord.isBlank ' ' hSpace
    cases hSeen
  · rw [hSymbol] at hKind
    cases hKind

variable {s : ValidatorSetup} {limit least : Int} {threshold : Binary64}

theorem frequentSentenceStart_check (hLimit : s.int "leading_word_limit" = .ok limit)
    (hThreshold : s.float "percentage_threshold" = .ok threshold)
    (hLeast : s.int "min_sentence_count" = .ok least) :
    frequentSentenceStart.check s = .ok (.onDocument fun target =>
      let sites := target.sentences.filter fun site => !Text.isAllBlank site.sentence.content
      if (sites.length : Int) < least then some []
      else some ((frequentStarts limit threshold sites).map fun c =>
        s.problem (frequentMessage threshold sites.length c) (some c.first))) := by
  unfold frequentSentenceStart
  dsimp only
  rw [hLimit, hThreshold, hLeast]
  rfl

/-- Among the frequent starts of a document are all shorter ones of each. A sequence of words is
reported once, if so many sentences that are not blank begin with it, together with the first of
them. No share is greater than all sentences. What the words of a sequence begin with is reported in
front of it, with a share that is no smaller. -/
theorem frequentSentenceStart_prefixes (hLimit : s.int "leading_word_limit" = .ok limit)
    (hThreshold : s.float "percentage_threshold" = .ok threshold)
    (hLeast : s.int "min_sentence_count" = .ok least) :
    ∃ find : Document Site → Option (List Problem),
      frequentSentenceStart.check s = .ok (.onDocument find) ∧
      ∀ target : Document Site,
        (∀ site ∈ target.sentences, site.sentence.tokens = [] ∨
          site.sentence.tokens = Tokenizer.whitespace.tokens site.sentence.content) →
        let sites := target.sentences.filter fun site => !Text.isAllBlank site.sentence.content
        ∃ reports : List FrequentStart,
          find target = some (reports.map fun r => s.problem
            (frequentMessage threshold sites.length ⟨Text.join [' '] r.words, r.count, r.first⟩)
            (some r.first)) ∧
          StartReports limit least threshold sites reports := by
  refine ⟨_, frequentSentenceStart_check hLimit hThreshold hLeast, fun target hTokens => ?_⟩
  intro sites
  have hSites : ∀ site ∈ sites, HasPlainWords site := fun site hMem =>
    hasPlainWords_of_tokens (hTokens site (List.mem_filter.mp hMem).1)
  by_cases hFew : (sites.length : Int) < least
  · exact ⟨[], if_pos hFew, .of_few hFew⟩
  · refine ⟨_, ?_, startReports_ofCount hSites (Int.not_lt.mp hFew)⟩
    simp only [List.map_map]
    refine (if_neg hFew).trans (congrArg some (List.map_congr_left fun c hFrequent => ?_))
    simp only [Function.comp_apply, (ofCount_spec hSites hFrequent).2.1]
    rfl

/-- Three of five sentences begin with the same two words, and so they begin with the first of
them. -/
theorem frequentSentenceStart_prefixes_two :
    let s : ValidatorSetup :=
      ⟨"FrequentSentenceStart".toList, frequentSentenceStart.defaults, .standard, .error⟩
    let site := fun (i : Nat) (content : String) =>
      (⟨i, Sentence.atPlace content.toList 1 0 false [] [] []⟩ : Site)
    let sentences := [site 0 "We run.", site 1 "You go.", site 2 "We run!", site 3 " ",
      site 4 "They stay.", site 5 "We run home."]
    let target : Document Site := ⟨[⟨0, [], [sentences], [], none, []⟩], none, []⟩
    s.int "leading_word_limit" = .ok 3 ∧
    s.float "percentage_threshold" = .ok (.ofRatio false 25 1) ∧
    s.int "min_sentence_count" = .ok 5 ∧
    ∃ (find : Document Site → Option (List Problem)) (before after : List FrequentStart)
      (r : FrequentStart),
      frequentSentenceStart.check s = .ok (.onDocument find) ∧
      find target = some ((before ++ r :: after).map fun r => s.problem
        (frequentMessage (.ofRatio false 25 1) 5 ⟨Text.join [' '] r.words, r.count, r.first⟩)
        (some r.first)) ∧
      r.words = ["We".toList, "run".toList] ∧ r.count = 3 ∧ r.first = site 0 "We run." ∧
      ∃ earlier ∈ before, earlier.words = ["We".toList] ∧ 3 ≤ earlier.count := by
  intro s site sentences target
  have hLimit : s.int "leading_word_limit" = .ok 3 := rfl
  have hThreshold : s.float "percentage_threshold" = .ok (.ofRatio false 25 1) := rfl
  have hLeast : s.int "min_sentence_count" = .ok 5 := rfl
  refine ⟨hLimit, hThreshold, hLeast, ?_⟩
  obtain ⟨find, hCheck, hFind⟩ := frequentSentenceStart_prefixes hLimit hThreshold hLeast
  have hTokens : ∀ site ∈ target.sentences, site.sentence.tokens = [] ∨
      site.sentence.tokens = Tokenizer.whitespace.tokens site.sentence.content := by
    have hNone : ∀ site ∈ target.sentences, site.sentence.tokens = [] := by decide
    exact fun site hMem => Or.inl (hNone site hMem)
  obtain ⟨reports, hProblems, hReports⟩ := hFind target hTokens
  have hSites : (target.sentences.filter fun site => !Text.isAllBlank site.sentence.content) =
      sentences.eraseIdx 3 := by decide +kernel
  have hUsed : (sentences.eraseIdx 3).countP (beginsWith ["We".toList, "run".toList]) = 3 ∧
      (sentences.eraseIdx 3).find? (beginsWith ["We".toList, "run".toList]) =
        some (site 0 "We run.") := by decide +kernel
  rw [hSites] at hReports hProblems
  have hShare : (Binary64.ofRatio false 25 1).lt (percentage 3 5) = true := by decide +kernel
  have hMem := (hReports.mem_iff ["We".toList, "run".toList]).mpr
    ⟨by decide, by decide, by decide, by rw [hUsed.1]; decide, by rw [hUsed.1]; exact hShare⟩
  obtain ⟨r, hIn, hWords⟩ := List.mem_map.mp hMem
  obtain ⟨before, after, rfl⟩ := List.append_of_mem hIn
  have hCount := hReports.count_eq r hIn
  have hFirst := hReports.find?_eq r hIn
  rw [hWords] at hCount hFirst
  obtain ⟨earlier, hEarlier, hOne, hMore, _⟩ := hReports.shorter before r after rfl ["We".toList]
    (by decide) (by rw [hWords]; exact ⟨["run".toList], rfl⟩) (by rw [hWords]; decide)
  rw [hUsed.1] at hCount
  rw [hUsed.2] at hFirst
  rw [hCount] at hMore
  exact ⟨find, before, after, r, hCheck, hProblems, hWords, hCount,
    (Option.some_inj.mp hFirst).symm, earlier, hEarlier, hOne, hMore⟩

end Rule

end ProseLint
