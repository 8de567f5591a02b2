import Mathlib.Data.List.Nodup
import ProseLint.Proofs.List.Map
import ProseLint.Proofs.Text.Tokens
import ProseLint.Validation.Rule.Start

/-! Counts of sentence starts. The starts of all sentences are used one after the other, and the
counts hold each start once, in the order of the first uses. Words have no spaces in them, so a
start that is joined by spaces stands for one sequence of words, and a sentence uses it once if it
begins with it. The shorter starts of a sentence come first, so they are counted first. -/

namespace ProseLint

namespace Rule

/-! ## Counting -/

/-- The start and the sentence in which it was first used. -/
def StartCount.head (c : StartCount) : Text × Site := (c.start, c.first)

/-- The starts of all sentences, one after the other, each with its sentence. -/
def usesOf (limit : Int) (sites : List Site) : List (Text × Site) :=
  sites.flatMap fun site => (startsOf limit site.sentence).map (·, site)

/-- One more use raises the count of its start, or puts a new start behind all others. -/
theorem countStart_cases (site : Site) (start : Text) (counts : List StartCount) :
    (∃ before c after, counts = before ++ c :: after ∧ c.start = start ∧
      countStart site start counts = before ++ { c with count := c.count + 1 } :: after) ∨
    (∀ c ∈ counts, c.start ≠ start) ∧
      countStart site start counts = counts ++ [⟨start, 1, site⟩] := by
  induction counts with
  | nil => exact Or.inr ⟨by simp, rfl⟩
  | cons first rest ih =>
      rw [countStart]
      split
      · next hSame => exact Or.inl ⟨[], first, rest, rfl, hSame, rfl⟩
      · next hOther =>
          rcases ih with ⟨before, c, after, rfl, hSame, hCount⟩ | ⟨hNone, hCount⟩
          · exact Or.inl ⟨first :: before, c, after, rfl, hSame, by rw [hCount]; rfl⟩
          · exact Or.inr ⟨List.forall_mem_cons.mpr ⟨hOther, hNone⟩, by rw [hCount]; rfl⟩

/-- What is known of the counts after some uses. The starts stand in the order of their first
uses. -/
structure Tallies (uses : List (Text × Site)) (counts : List StartCount) : Prop where
  nodup : (counts.map (·.start)).Nodup
  count : ∀ c ∈ counts, c.count = uses.countP (·.1 = c.start)
  mem_iff : ∀ start, start ∈ counts.map (·.start) ↔ start ∈ uses.map Prod.fst
  order : ∀ before h after, counts.map StartCount.head = before ++ h :: after →
    ∃ earlier later, uses = earlier ++ h :: later ∧
      ∀ start, start ∈ before.map Prod.fst ↔ start ∈ earlier.map Prod.fst

namespace Tallies

variable {uses : List (Text × Site)} {counts : List StartCount}

theorem nil : Tallies [] [] := ⟨by simp, by simp, by simp, by simp⟩

theorem map_fst_head (counts : List StartCount) :
    (counts.map StartCount.head).map Prod.fst = counts.map (·.start) := by
  rw [List.map_map]
  rfl

/-- A use of a start that has been counted before. -/
theorem again {before after : List StartCount} {c : StartCount}
    (h : Tallies uses (before ++ c :: after)) (site : Site) :
    Tallies (uses ++ [(c.start, site)])
      (before ++ { c with count := c.count + 1 } :: after) := by
  refine ⟨by simpa using h.nodup, forall_mem_middle ⟨?_, fun other hMem => ?_⟩, fun start => ?_,
    fun first use last hHeads => ?_⟩
  · have hMiddle := h.count c (List.mem_append_right before List.mem_cons_self)
    simp [List.countP_append, hMiddle]
  · have hOther : other.start ≠ c.start := ne_of_nodup_map_middle h.nodup hMem
    have hIn : other ∈ before ++ c :: after :=
      List.mem_append.mpr ((List.mem_append.mp hMem).imp_right (List.mem_cons_of_mem c))
    rw [List.countP_append, ← h.count other hIn]
    simp [hOther.symm]
  · have hStart := h.mem_iff start
    have hOld := h.mem_iff c.start
    simp only [List.map_append, List.map_cons, List.mem_append, List.mem_cons] at hStart hOld ⊢
    grind
  · -- A higher count changes no start and no first use, so the order is the one from before.
    rw [List.map_append, List.map_cons] at hHeads
    have hSame : (before ++ c :: after).map StartCount.head = first ++ use :: last := by
      rw [← hHeads, List.map_append, List.map_cons]
      rfl
    obtain ⟨earlier, later, rfl, hBefore⟩ := h.order first use last hSame
    exact ⟨earlier, later ++ [(c.start, site)], by simp, hBefore⟩

/-- The first use of a start. -/
theorem fresh (h : Tallies uses counts) {start : Text} (hNone : ∀ c ∈ counts, c.start ≠ start)
    (site : Site) : Tallies (uses ++ [(start, site)]) (counts ++ [⟨start, 1, site⟩]) := by
  have hNew : start ∉ counts.map (·.start) := by
    intro hMem
    obtain ⟨c, hIn, hSame⟩ := List.mem_map.mp hMem
    exact hNone c hIn hSame
  have hUnused : uses.countP (·.1 = start) = 0 := by
    refine List.countP_eq_zero.mpr fun use hMem hSame => hNew ((h.mem_iff start).mpr ?_)
    exact List.mem_map.mpr ⟨use, hMem, of_decide_eq_true hSame⟩
  refine ⟨?_, ?_, fun other => ?_, fun before use after hHeads => ?_⟩
  · rw [List.map_append, List.map_singleton, List.nodup_append_comm]
    exact List.nodup_cons.mpr ⟨hNew, h.nodup⟩
  · refine List.forall_mem_append.mpr ⟨fun c hMem => ?_, List.forall_mem_singleton.mpr ?_⟩
    · rw [List.countP_append, ← h.count c hMem]
      simp [(hNone c hMem).symm]
    · simp [List.countP_append, hUnused]
  · have hOther := h.mem_iff other
    simp only [List.map_append, List.mem_append, hOther]
    rfl
  · rw [List.map_append, List.map_singleton] at hHeads
    -- The last start is the new one, and all uses were before it. The others are as before.
    rcases List.eq_nil_or_concat after with rfl | ⟨after, last, rfl⟩
    · obtain ⟨rfl, hUse⟩ := List.append_inj' hHeads rfl
      obtain rfl := List.singleton_inj.mp hUse
      exact ⟨uses, [], rfl, by rw [map_fst_head]; exact h.mem_iff⟩
    · rw [List.concat_eq_append, ← List.cons_append, ← List.append_assoc] at hHeads
      obtain ⟨hOld, -⟩ := List.append_inj' hHeads rfl
      obtain ⟨earlier, later, rfl, hBefore⟩ := h.order before use after hOld
      exact ⟨earlier, later ++ [(start, site)], by simp, hBefore⟩

theorem add (h : Tallies uses counts) (use : Text × Site) :
    Tallies (uses ++ [use]) (countStart use.2 use.1 counts) := by
  obtain ⟨start, site⟩ := use
  rcases countStart_cases site start counts with
    ⟨before, c, after, rfl, rfl, hCount⟩ | ⟨hNone, hCount⟩
  · rw [hCount]
    exact h.again site
  · rw [hCount]
    exact h.fresh hNone site

theorem foldl (h : Tallies uses counts) (more : List (Text × Site)) :
    Tallies (uses ++ more)
      (more.foldl (fun counts use => countStart use.2 use.1 counts) counts) := by
  induction more generalizing uses counts with
  | nil => rwa [List.append_nil]
  | cons use more ih =>
      rw [List.foldl_cons, List.append_cons]
      exact ih (h.add use)

/-- The sentence of a start is the first one that uses it. -/
theorem find?_eq {before after : List StartCount} {c : StartCount}
    (h : Tallies uses (before ++ c :: after)) :
    uses.find? (·.1 = c.start) = some (c.start, c.first) := by
  obtain ⟨earlier, later, rfl, hBefore⟩ := h.order (before.map StartCount.head) c.head
    (after.map StartCount.head) (by rw [List.map_append, List.map_cons])
  have hFirst : c.start ∉ earlier.map Prod.fst := by
    rw [← hBefore, map_fst_head]
    have hNodup := h.nodup
    rw [List.map_append, List.map_cons] at hNodup
    exact fun hMem => (List.nodup_append.mp hNodup).2.2 _ hMem _ List.mem_cons_self rfl
  have hNone : earlier.find? (·.1 = c.start) = none := by
    refine List.find?_eq_none.mpr fun use hMem hSame => hFirst ?_
    exact List.mem_map.mpr ⟨use, hMem, of_decide_eq_true hSame⟩
  rw [List.find?_append, hNone, List.find?_cons_of_pos (by simp [StartCount.head])]
  rfl

end Tallies

theorem startCounts_tallies (limit : Int) (sites : List Site) :
    Tallies (usesOf limit sites) (startCounts limit sites) := by
  have hUses : startCounts limit sites =
      (usesOf limit sites).foldl (fun counts use => countStart use.2 use.1 counts) [] := by
    rw [usesOf, List.foldl_flatMap]
    simp only [List.foldl_map]
    rfl
  rw [hUses]
  exact Tallies.nil.foldl _

/-! ## Words -/

/-- The words of the sentence begin with these. -/
def beginsWith (words : List Text) (site : Site) : Bool := words.isPrefixOf (wordsOf site.sentence)

theorem beginsWith_of_prefix {words shorter : List Text} (hPrefix : shorter <+: words)
    {site : Site} (h : beginsWith words site = true) : beginsWith shorter site = true := by
  rw [beginsWith, List.isPrefixOf_iff_prefix] at *
  exact hPrefix.trans h

/-- A sequence of words without spaces in them, of one word up to the limit. -/
structure IsSequence (limit : Int) (words : List Text) : Prop where
  ne_nil : words ≠ []
  length_le : (words.length : Int) ≤ limit
  plain : ∀ w ∈ words, ' ' ∉ w

theorem IsSequence.shorter {limit : Int} {words shorter : List Text} (h : IsSequence limit words)
    (hSome : shorter ≠ []) (hPrefix : shorter <+: words) : IsSequence limit shorter where
  ne_nil := hSome
  length_le := (Int.ofNat_le.mpr hPrefix.length_le).trans h.length_le
  plain w hMem := h.plain w (hPrefix.subset hMem)

/-- No word of the sentence has a space in it. -/
def HasPlainWords (site : Site) : Prop := ∀ w ∈ wordsOf site.sentence, ' ' ∉ w

/-- The words that are joined in a start can be told from it. -/
theorem join_inj {words others : List Text} (hSome : words ≠ []) (hSome' : others ≠ [])
    (hPlain : ∀ w ∈ words, ' ' ∉ w) (hPlain' : ∀ w ∈ others, ' ' ∉ w) :
    Text.join [' '] words = Text.join [' '] others ↔ words = others := by
  refine ⟨fun hSame => ?_, congrArg _⟩
  rw [← Text.splitOn_join hSome hPlain, hSame, Text.splitOn_join hSome' hPlain']

section Sentence

variable {limit : Int} {site : Site} {words : List Text}

theorem getElem?_startsOf {k : Nat} {start : Text} :
    (startsOf limit site.sentence)[k]? = some start ↔
      ((k + 1 : Nat) : Int) ≤ limit ∧ k < (wordsOf site.sentence).length ∧
        Text.join [' '] ((wordsOf site.sentence).take (k + 1)) = start := by
  have hBound : k < min limit.toNat (wordsOf site.sentence).length ↔
      ((k + 1 : Nat) : Int) ≤ limit ∧ k < (wordsOf site.sentence).length := by
    omega
  rw [← and_assoc, ← hBound]
  simp [startsOf, List.getElem?_eq_some_iff]

/-- Every start of a sentence is a sequence of words with which it begins. -/
theorem exists_sequence (hSite : HasPlainWords site) {start : Text}
    (h : start ∈ startsOf limit site.sentence) :
    ∃ words, IsSequence limit words ∧ beginsWith words site = true ∧
      Text.join [' '] words = start := by
  obtain ⟨k, hAt⟩ := List.mem_iff_getElem?.mp h
  obtain ⟨hLimit, hLt, hJoin⟩ := getElem?_startsOf.mp hAt
  have hLength := List.length_take_of_le (show k + 1 ≤ (wordsOf site.sentence).length from hLt)
  refine ⟨(wordsOf site.sentence).take (k + 1), ⟨?_, ?_, ?_⟩, ?_, hJoin⟩
  · exact List.ne_nil_of_length_pos (by omega)
  · rwa [hLength]
  · exact fun w hMem => hSite w (List.mem_of_mem_take hMem)
  · exact List.isPrefixOf_iff_prefix.mpr (List.take_prefix _ _)

/-- The starts of a sentence stand in the order of their lengths. -/
theorem getElem?_startsOf_join (hSite : HasPlainWords site) (hWords : IsSequence limit words)
    {k : Nat} : (startsOf limit site.sentence)[k]? = some (Text.join [' '] words) ↔
      k + 1 = words.length ∧ beginsWith words site = true := by
  rw [getElem?_startsOf, beginsWith, List.isPrefixOf_iff_prefix]
  constructor
  · rintro ⟨_, hLt, hJoin⟩
    have hLength := List.length_take_of_le (show k + 1 ≤ (wordsOf site.sentence).length from hLt)
    have hTaken : (wordsOf site.sentence).take (k + 1) ≠ [] :=
      List.ne_nil_of_length_pos (by omega)
    rw [join_inj hTaken hWords.ne_nil (fun w hMem => hSite w (List.mem_of_mem_take hMem))
      hWords.plain] at hJoin
    rw [← hJoin]
    exact ⟨hLength.symm, List.take_prefix _ _⟩
  · rintro ⟨hLength, hPrefix⟩
    have hLe := hPrefix.length_le
    refine ⟨by rw [hLength]; exact hWords.length_le, by omega, ?_⟩
    rw [hLength, ← List.prefix_iff_eq_take.mp hPrefix]

theorem join_mem_startsOf_iff (hSite : HasPlainWords site) (hWords : IsSequence limit words) :
    Text.join [' '] words ∈ startsOf limit site.sentence ↔ beginsWith words site = true := by
  simp only [List.mem_iff_getElem?, getElem?_startsOf_join hSite hWords]
  have hLength := List.length_pos_iff.mpr hWords.ne_nil
  exact ⟨fun ⟨_, _, h⟩ => h, fun h => ⟨words.length - 1, by omega, h⟩⟩

/-- A sentence uses a start only once. -/
theorem startsOf_nodup (limit : Int) (hSite : HasPlainWords site) :
    (startsOf limit site.sentence).Nodup := by
  refine List.nodup_iff_getElem?_ne_getElem?.mpr fun i j hLess hLt hSame => ?_
  obtain ⟨start, hAt⟩ : ∃ start, (startsOf limit site.sentence)[j]? = some start :=
    ⟨_, List.getElem?_eq_getElem hLt⟩
  obtain ⟨words, hWords, _, rfl⟩ := exists_sequence hSite (List.mem_of_getElem? hAt)
  obtain ⟨hFirst, _⟩ := (getElem?_startsOf_join hSite hWords).mp (hSame.trans hAt)
  obtain ⟨hSecond, _⟩ := (getElem?_startsOf_join hSite hWords).mp hAt
  omega

/-- In front of the use of a start are the uses of its shorter ones. -/
theorem mem_of_startsOf_eq (hSite : HasPlainWords site) (hWords : IsSequence limit words)
    {shorter : List Text} (hSome : shorter ≠ []) (hPrefix : shorter <+: words)
    (hOther : shorter ≠ words) {before after : List Text}
    (hStarts : startsOf limit site.sentence = before ++ Text.join [' '] words :: after) :
    Text.join [' '] shorter ∈ before := by
  have hAt : (startsOf limit site.sentence)[before.length]? = some (Text.join [' '] words) := by
    rw [hStarts]
    simp
  obtain ⟨hLength, hBegins⟩ := (getElem?_startsOf_join hSite hWords).mp hAt
  have hLess : shorter.length < words.length := Nat.lt_of_le_of_ne hPrefix.length_le
    fun hSame => hOther (hPrefix.eq_of_length hSame)
  have hPos := List.length_pos_iff.mpr hSome
  have hEarlier : (startsOf limit site.sentence)[shorter.length - 1]? =
      some (Text.join [' '] shorter) :=
    (getElem?_startsOf_join hSite (hWords.shorter hSome hPrefix)).mpr
      ⟨by omega, beginsWith_of_prefix hPrefix hBegins⟩
  rw [hStarts, List.getElem?_append_left (by omega)] at hEarlier
  exact List.mem_of_getElem? hEarlier

end Sentence

/-! ## Sentences -/

section Sentences

variable {limit : Int} {sites : List Site} {words : List Text}

theorem usesOf_cons (limit : Int) (site : Site) (rest : List Site) :
    usesOf limit (site :: rest) =
      (startsOf limit site.sentence).map (·, site) ++ usesOf limit rest := by
  rw [usesOf, List.flatMap_cons]
  rfl

theorem mem_usesOf_iff {use : Text × Site} :
    use ∈ usesOf limit sites ↔ use.2 ∈ sites ∧ use.1 ∈ startsOf limit use.2.sentence := by
  obtain ⟨start, site⟩ := use
  simp only [usesOf, List.mem_flatMap, List.mem_map, Prod.mk.injEq]
  constructor
  · rintro ⟨_, hSite, _, hStart, rfl, rfl⟩
    exact ⟨hSite, hStart⟩
  · rintro ⟨hSite, hStart⟩
    exact ⟨site, hSite, start, hStart, rfl, rfl⟩

/-- A sequence of words is used as often as sentences begin with it. -/
theorem countP_usesOf (hSites : ∀ site ∈ sites, HasPlainWords site)
    (hWords : IsSequence limit words) :
    (usesOf limit sites).countP (·.1 = Text.join [' '] words) =
      sites.countP (beginsWith words) := by
  induction sites with
  | nil => rfl
  | cons site rest ih =>
      obtain ⟨hSite, hRest⟩ := List.forall_mem_cons.mp hSites
      have hOne : ((startsOf limit site.sentence).map (·, site)).countP
          (·.1 = Text.join [' '] words) = if beginsWith words site then 1 else 0 := by
        simp only [← join_mem_startsOf_iff hSite hWords]
        rw [← (startsOf_nodup limit hSite).count, List.countP_map, List.count]
        exact List.countP_congr fun start _ => by simp
      rw [usesOf_cons, List.countP_append, List.countP_cons, hOne, ih hRest, Nat.add_comm]

theorem find?_same (starts : List Text) (start : Text) :
    starts.find? (fun other => decide (other = start)) =
      if start ∈ starts then some start else none := by
  induction starts with
  | nil => rfl
  | cons first rest ih =>
      rw [List.find?_cons, ih]
      by_cases hSame : first = start
      · simp [hSame]
      · simp [hSame, Ne.symm hSame]

/-- The first use of a sequence of words is in the first sentence that begins with it. -/
theorem find?_usesOf (hSites : ∀ site ∈ sites, HasPlainWords site)
    (hWords : IsSequence limit words) :
    (usesOf limit sites).find? (·.1 = Text.join [' '] words) =
      (sites.find? (beginsWith words)).map (Text.join [' '] words, ·) := by
  induction sites with
  | nil => rfl
  | cons site rest ih =>
      obtain ⟨hSite, hRest⟩ := List.forall_mem_cons.mp hSites
      have hOne : ((startsOf limit site.sentence).map (·, site)).find?
          (·.1 = Text.join [' '] words) =
            if beginsWith words site then some (Text.join [' '] words, site) else none := by
        simp only [List.find?_map, ← join_mem_startsOf_iff hSite hWords, Function.comp_def,
          find?_same]
        split <;> rfl
      rw [usesOf_cons, List.find?_append, hOne, ih hRest, List.find?_cons]
      cases beginsWith words site <;> rfl

/-- In front of the first use of a sequence are the uses of its shorter ones. -/
theorem mem_of_usesOf_eq (hSites : ∀ site ∈ sites, HasPlainWords site)
    (hWords : IsSequence limit words) {shorter : List Text} (hSome : shorter ≠ [])
    (hPrefix : shorter <+: words) (hOther : shorter ≠ words) {site : Site}
    {before after : List (Text × Site)}
    (hUses : usesOf limit sites = before ++ (Text.join [' '] words, site) :: after) :
    Text.join [' '] shorter ∈ before.map Prod.fst := by
  induction sites generalizing before with
  | nil => simp [usesOf] at hUses
  | cons first rest ih =>
      obtain ⟨hFirst, hRest⟩ := List.forall_mem_cons.mp hSites
      rw [usesOf_cons] at hUses
      -- The use is one of a later sentence, or of this one, where the shorter starts are first.
      rcases List.append_eq_append_iff.mp hUses with ⟨more, rfl, hMore⟩ | ⟨more, hBlock, hMore⟩
      · rw [List.map_append]
        exact List.mem_append_right _ (ih hRest hMore)
      · cases more with
        | nil =>
            -- A later sentence cannot use it first of all, as its shorter starts come before it.
            have hStart : usesOf limit rest = [] ++ (Text.join [' '] words, site) :: after :=
              hMore.symm
            cases ih hRest hStart
        | cons use more =>
            obtain ⟨rfl, -⟩ := List.cons.inj hMore
            have hStarts : startsOf limit first.sentence =
                before.map Prod.fst ++ Text.join [' '] words :: more.map Prod.fst := by
              simpa [Function.comp_def] using congrArg (List.map Prod.fst) hBlock
            exact mem_of_startsOf_eq hFirst hWords hSome hPrefix hOther hStarts

/-! ## Counts -/

/-- What is counted is a sequence of words. -/
theorem isSequence_splitOn (hSites : ∀ site ∈ sites, HasPlainWords site) {c : StartCount}
    (hMem : c ∈ startCounts limit sites) : IsSequence limit (Text.splitOn ' ' c.start) ∧
      Text.join [' '] (Text.splitOn ' ' c.start) = c.start := by
  have hStart := ((startCounts_tallies limit sites).mem_iff c.start).mp (List.mem_map_of_mem hMem)
  obtain ⟨use, hUse, hSame⟩ := List.mem_map.mp hStart
  obtain ⟨hSite, hIn⟩ := mem_usesOf_iff.mp hUse
  obtain ⟨words, hWords, _, hJoin⟩ := exists_sequence (hSites use.2 hSite) hIn
  rw [← hSame, ← hJoin, Text.splitOn_join hWords.ne_nil hWords.plain]
  exact ⟨hWords, rfl⟩

/-- Every sequence of words with which a sentence begins is counted. -/
theorem exists_count (hSites : ∀ site ∈ sites, HasPlainWords site) (hWords : IsSequence limit words)
    (hUsed : 0 < sites.countP (beginsWith words)) :
    ∃ c ∈ startCounts limit sites, c.start = Text.join [' '] words := by
  obtain ⟨site, hSite, hBegins⟩ := List.countP_pos_iff.mp hUsed
  have hUse : (Text.join [' '] words, site) ∈ usesOf limit sites :=
    mem_usesOf_iff.mpr ⟨hSite, (join_mem_startsOf_iff (hSites site hSite) hWords).mpr hBegins⟩
  have hStart := ((startCounts_tallies limit sites).mem_iff _).mpr (List.mem_map_of_mem hUse)
  exact List.mem_map.mp hStart

theorem count_eq (hSites : ∀ site ∈ sites, HasPlainWords site) (hWords : IsSequence limit words)
    {c : StartCount} (hMem : c ∈ startCounts limit sites)
    (hJoin : Text.join [' '] words = c.start) : c.count = sites.countP (beginsWith words) := by
  rw [(startCounts_tallies limit sites).count c hMem, ← hJoin, countP_usesOf hSites hWords]

theorem find?_eq (hSites : ∀ site ∈ sites, HasPlainWords site) (hWords : IsSequence limit words)
    {c : StartCount} (hMem : c ∈ startCounts limit sites)
    (hJoin : Text.join [' '] words = c.start) : sites.find? (beginsWith words) = some c.first := by
  obtain ⟨before, after, hCounts⟩ := List.append_of_mem hMem
  have hTallies := startCounts_tallies limit sites
  rw [hCounts] at hTallies
  have hFind := hTallies.find?_eq
  rw [← hJoin, find?_usesOf hSites hWords] at hFind
  obtain ⟨site, hSite, hSame⟩ := Option.map_eq_some_iff.mp hFind
  rw [hSite, (Prod.mk.inj hSame).2]

/-- The shorter sequences stand in front of a sequence. -/
theorem exists_shorter (hSites : ∀ site ∈ sites, HasPlainWords site)
    (hWords : IsSequence limit words) {before after : List StartCount} {c : StartCount}
    (hCounts : startCounts limit sites = before ++ c :: after)
    (hJoin : Text.join [' '] words = c.start) {shorter : List Text} (hSome : shorter ≠ [])
    (hPrefix : shorter <+: words) (hOther : shorter ≠ words) :
    ∃ earlier ∈ before, earlier.start = Text.join [' '] shorter := by
  have hTallies := startCounts_tallies limit sites
  rw [hCounts] at hTallies
  obtain ⟨uses, later, hUses, hBefore⟩ := hTallies.order (before.map StartCount.head) c.head
    (after.map StartCount.head) (by rw [List.map_append, List.map_cons])
  rw [StartCount.head, ← hJoin] at hUses
  have hIn := (hBefore _).mpr (mem_of_usesOf_eq hSites hWords hSome hPrefix hOther hUses)
  rw [Tallies.map_fst_head] at hIn
  exact List.mem_map.mp hIn

end Sentences

end Rule

end ProseLint
