import ProseLint.Report.Group
import ProseLint.Proofs.List.Map
import Mathlib.Data.Char
import Mathlib.Data.List.Lex
import Mathlib.Data.List.Nodup
import Mathlib.Data.List.Permutation
import Mathlib.Data.Prod.Lex

/-! Problems in groups. Sorting looks at what a sentence says and where it stands, and grouping at
which sentence it is. So problems of sentences that look alike may stand mixed when they are
grouped, and still each group has all the problems of one sentence, in the order in which they were
found. -/

namespace ProseLint

/-- Sorting leaves items in their order if they may stand in any order. -/
theorem filter_mergeSort_of_tied {α : Type} {le : α → α → Bool}
    (hTrans : ∀ a b c, le a b = true → le b c = true → le a c = true)
    (hTotal : ∀ a b, (le a b || le b a) = true) (p : α → Bool) (l : List α)
    (hTied : ∀ a ∈ l, ∀ b ∈ l, p a = true → p b = true → le a b = true) :
    (l.mergeSort le).filter p = l.filter p := by
  have hPairs : (l.filter p).Pairwise fun a b => le a b = true := by
    refine List.pairwise_of_forall_mem_list fun a ha b hb => ?_
    obtain ⟨haMem, haIs⟩ := List.mem_filter.mp ha
    obtain ⟨hbMem, hbIs⟩ := List.mem_filter.mp hb
    exact hTied a haMem b hbMem haIs hbIs
  have hSub : ((l.filter p).filter p).Sublist ((l.mergeSort le).filter p) :=
    (List.sublist_mergeSort hTrans hTotal hPairs List.filter_sublist).filter p
  rw [List.filter_filter, funext fun a => Bool.and_self (p a)] at hSub
  exact (hSub.eq_of_length ((List.mergeSort_perm l le).filter p).length_eq.symm).symm

/-! ## The order of the list -/

theorem Text.le_eq_false_iff {t u : Text} : Text.le t u = false ↔ u < t := by
  induction t generalizing u with
  | nil => simp [Text.le]
  | cons a t ih =>
      cases u with
      | nil => simp [Text.le]
      | cons b u =>
          rw [Text.le, List.cons_lt_cons_iff]
          split
          · next hSame => simp [hSame, ih]
          · next hOther =>
              have hNe : a.toNat ≠ b.toNat := fun hNat => hOther (Char.toNat_inj.mp hNat)
              simp only [decide_eq_false_iff_not, Nat.not_lt, Ne.symm hOther, false_and, or_false,
                Char.lt_def, UInt32.lt_iff_toNat_lt]
              exact ⟨fun hLe => Nat.lt_of_le_of_ne hLe (Ne.symm hNe), Nat.le_of_lt⟩

/-- Texts are ordered by their first different character. -/
theorem Text.le_iff {t u : Text} : Text.le t u = true ↔ t ≤ u := by
  rw [← not_lt, ← Bool.not_eq_false, Text.le_eq_false_iff]

namespace Problem

/-- Line, offset and content, by which problems are listed. -/
def listingKey (p : Problem) : Int ×ₗ Int ×ₗ Text :=
  toLex (p.place.line, toLex (p.place.offset, p.content))

theorem listedBefore_iff {p q : Problem} :
    p.listedBefore q = true ↔ p.listingKey ≤ q.listingKey := by
  unfold listedBefore listingKey
  obtain ⟨line, offset⟩ := p.place
  obtain ⟨line', offset'⟩ := q.place
  simp only [Position.lt, Prod.Lex.toLex_le_toLex, Bool.or_eq_true, Bool.and_eq_true,
    decide_eq_true_eq, beq_iff_eq, Position.mk.injEq, Text.le_iff, and_or_left, or_assoc, and_assoc]

theorem listedBefore_trans (p q r : Problem) (hpq : p.listedBefore q = true)
    (hqr : q.listedBefore r = true) : p.listedBefore r = true := by
  rw [listedBefore_iff] at hpq hqr ⊢
  exact hpq.trans hqr

theorem listedBefore_total (p q : Problem) : (p.listedBefore q || q.listedBefore p) = true := by
  rw [Bool.or_eq_true, listedBefore_iff, listedBefore_iff]
  exact le_total _ _

/-! ## What problems are about -/

/-- Two problems are about the same: about one sentence, or about one line and no sentence. -/
def SharesSubject (p q : Problem) : Prop :=
  match p.site, q.site with
  | some a, some b => a.index = b.index
  | none, none => p.line = q.line
  | _, _ => False

theorem groupKey_eq_iff {p q : Problem} : p.groupKey = q.groupKey ↔ p.SharesSubject q := by
  unfold groupKey SharesSubject
  cases p.site <;> cases q.site <;> simp

theorem groupKey_eq_sentence_iff {p : Problem} {i : Nat} :
    p.groupKey = .sentence i ↔ p.site.map (·.index) = some i := by
  unfold groupKey
  cases p.site <;> simp

/-- Problems that name a sentence by one number have the same sentence. -/
def SitesAgree (problems : List Problem) : Prop :=
  ∀ p ∈ problems, ∀ q ∈ problems, ∀ a ∈ p.site, ∀ b ∈ q.site, a.index = b.index → a = b

/-- Problems of one sentence are listed at one place. -/
theorem SitesAgree.listingKey_eq {problems : List Problem} (h : SitesAgree problems)
    {p q : Problem} (hp : p ∈ problems) (hq : q ∈ problems) {i : Nat}
    (hpKey : p.groupKey = .sentence i) (hqKey : q.groupKey = .sentence i) :
    p.listingKey = q.listingKey := by
  obtain ⟨a, ha, haIndex⟩ := Option.map_eq_some_iff.mp (groupKey_eq_sentence_iff.mp hpKey)
  obtain ⟨b, hb, hbIndex⟩ := Option.map_eq_some_iff.mp (groupKey_eq_sentence_iff.mp hqKey)
  obtain rfl := h p hp q hq a ha b hb (haIndex.trans hbIndex.symm)
  simp only [listingKey, place, content, ha, hb]

end Problem

/-! ## Groups -/

namespace ProblemGroup

/-- A problem goes behind those of its group, or makes a new group behind all others. -/
theorem insert_cases (p : Problem) (groups : List ProblemGroup) :
    (∃ before g after, groups = before ++ g :: after ∧ g.key = p.groupKey ∧
      insert p groups = before ++ { g with problems := g.problems ++ [p] } :: after) ∨
    (∀ g ∈ groups, g.key ≠ p.groupKey) ∧ insert p groups = groups ++ [single p] := by
  induction groups with
  | nil => exact Or.inr ⟨by simp, rfl⟩
  | cons first rest ih =>
      rw [insert]
      split
      · next hKey => exact Or.inl ⟨[], first, rest, rfl, hKey, rfl⟩
      · next hOther =>
          rcases ih with ⟨before, g, after, rfl, hKey, hInsert⟩ | ⟨hNone, hInsert⟩
          · exact Or.inl ⟨first :: before, g, after, rfl, hKey, by rw [hInsert]; rfl⟩
          · exact Or.inr ⟨List.forall_mem_cons.mpr ⟨hOther, hNone⟩, by rw [hInsert]; rfl⟩

/-- Groups made of some problems, taken in their order. -/
structure Gathers (problems : List Problem) (groups : List ProblemGroup) : Prop where
  perm : (groups.flatMap (·.problems)).Perm problems
  nodup : (groups.map key).Nodup
  filter : ∀ g ∈ groups, g.problems = problems.filter fun p => decide (p.groupKey = g.key)
  start : ∀ g ∈ groups, ∃ p rest, g = { single p with problems := p :: rest }
  first : (groups.filterMap (·.problems.head?)).Sublist problems

namespace Gathers

variable {problems : List Problem} {groups : List ProblemGroup}

theorem nil : Gathers [] [] := ⟨by simp, by simp, by simp, by simp, by simp⟩

theorem mem_problems (h : Gathers problems groups) {g : ProblemGroup} (hMem : g ∈ groups)
    {p : Problem} : p ∈ g.problems ↔ p ∈ problems ∧ p.groupKey = g.key := by
  rw [h.filter g hMem, List.mem_filter, decide_eq_true_eq]

theorem exists_group (h : Gathers problems groups) {p : Problem} (hMem : p ∈ problems) :
    ∃ g ∈ groups, g.key = p.groupKey := by
  obtain ⟨g, hGroup, hIn⟩ := List.mem_flatMap.mp (h.perm.mem_iff.mpr hMem)
  exact ⟨g, hGroup, ((h.mem_problems hGroup).mp hIn).2.symm⟩

theorem single_key (p : Problem) : (single p).key = p.groupKey := by
  unfold key Problem.groupKey single Problem.place
  cases p.site <;> rfl

/-- One more problem leaves the groups of all other keys as they are. -/
theorem add (h : Gathers problems groups) (p : Problem) :
    Gathers (problems ++ [p]) (insert p groups) := by
  have hKeep : ∀ g ∈ groups, g.key ≠ p.groupKey →
      g.problems = (problems ++ [p]).filter fun q => decide (q.groupKey = g.key) := by
    intro g hMem hOther
    rw [List.filter_append, ← h.filter g hMem]
    simp [Ne.symm hOther]
  rcases insert_cases p groups with ⟨before, g, after, rfl, hKey, hInsert⟩ | ⟨hNone, hInsert⟩
  · rw [hInsert]
    have hOthers : ∀ other ∈ before ++ after, other.key ≠ p.groupKey := fun other hOther hSame =>
      ne_of_nodup_map_middle h.nodup hOther (hSame.trans hKey.symm)
    have hBeside : ∀ other ∈ before ++ after, other ∈ before ++ g :: after := fun other hMem =>
      (List.mem_append.mp hMem).elim (List.mem_append_left _) fun hAfter =>
        List.mem_append_right _ (List.mem_cons_of_mem g hAfter)
    have hMem : g ∈ before ++ g :: after := List.mem_append_right _ List.mem_cons_self
    obtain ⟨q, rest, hStart⟩ := h.start g hMem
    have hProblems : g.problems = q :: rest := by rw [hStart]
    refine ⟨?_, ?_, ?_, ?_, ?_⟩
    · have hPerm := h.perm
      simp only [List.flatMap_append, List.flatMap_cons, List.append_assoc] at hPerm ⊢
      refine (((@List.perm_append_comm _ [p] _).append_left _).append_left _).trans ?_
      rw [← List.append_assoc, ← List.append_assoc, List.append_assoc _ g.problems]
      exact hPerm.append_right [p]
    · simpa [key] using h.nodup
    · refine forall_mem_middle ⟨?_, fun other hOther =>
        hKeep other (hBeside other hOther) (hOthers other hOther)⟩
      have hSame : ({ g with problems := g.problems ++ [p] } : ProblemGroup).key = g.key := rfl
      rw [hSame, List.filter_append, ← h.filter g hMem]
      simp [hKey]
    · refine forall_mem_middle ⟨⟨q, rest ++ [p], ?_⟩, fun other hOther =>
        h.start other (hBeside other hOther)⟩
      rw [hProblems, hStart]
      rfl
    · have hFirst := h.first
      simp only [List.filterMap_append, List.filterMap_cons, hProblems, List.cons_append,
        List.head?_cons] at hFirst ⊢
      exact hFirst.trans (List.sublist_append_left _ _)
  · rw [hInsert]
    refine ⟨?_, ?_, ?_, ?_, ?_⟩
    · rw [List.flatMap_append, List.flatMap_singleton]
      exact h.perm.append_right [p]
    · rw [List.map_append, List.map_singleton, single_key]
      refine List.nodup_append.mpr ⟨h.nodup, List.nodup_singleton _, ?_⟩
      rintro _ hMem _ hSame rfl
      obtain ⟨g, hGroup, hKey⟩ := List.mem_map.mp hMem
      exact hNone g hGroup (hKey.trans (List.mem_singleton.mp hSame))
    · refine List.forall_mem_append.mpr ⟨fun g hMem => hKeep g hMem (hNone g hMem), ?_⟩
      rw [List.forall_mem_singleton, single_key, List.filter_append]
      have hBefore : problems.filter (fun q => decide (q.groupKey = p.groupKey)) = [] := by
        refine List.filter_eq_nil_iff.mpr fun q hMem hSame => ?_
        obtain ⟨g, hGroup, hKey⟩ := h.exists_group hMem
        exact hNone g hGroup (hKey.trans (of_decide_eq_true hSame))
      rw [hBefore]
      simp [single]
    · exact List.forall_mem_append.mpr ⟨h.start, List.forall_mem_singleton.mpr ⟨p, [], rfl⟩⟩
    · rw [List.filterMap_append]
      exact h.first.append (List.Sublist.refl [p])

theorem foldl (h : Gathers problems groups) (more : List Problem) :
    Gathers (problems ++ more) (more.foldl (fun groups p => insert p groups) groups) := by
  induction more generalizing problems groups with
  | nil => rwa [List.append_nil]
  | cons p more ih =>
      rw [List.foldl_cons, List.append_cons]
      exact ih (h.add p)

/-- The place of a key among the groups is that of its only group. -/
theorem eq_iff_key_eq (h : Gathers problems groups) {i j : Nat} {g other : ProblemGroup}
    (hi : groups[i]? = some g) (hj : groups[j]? = some other) : i = j ↔ g.key = other.key := by
  have hKeys : ∀ {k : Nat} {group : ProblemGroup}, groups[k]? = some group →
      (groups.map key)[k]? = some group.key := fun hAt => by rw [List.getElem?_map, hAt]; rfl
  constructor
  · rintro rfl
    rw [Option.some_inj.mp (hi.symm.trans hj)]
  · intro hSame
    obtain ⟨hLt, hAt⟩ := List.getElem?_eq_some_iff.mp (hKeys hi)
    refine (List.getElem?_inj hLt h.nodup).mp ?_
    rw [hKeys hi, hKeys hj, hSame]

end Gathers

theorem ofProblems_gathers (problems : List Problem) :
    Gathers (problems.mergeSort Problem.listedBefore) (ofProblems problems) :=
  Gathers.nil.foldl _

/-- Every problem goes into one group, and two problems go into the same group exactly if they are
about the same: about one sentence, or about one line and no sentence. A group is listed under the
place of its first problem, and the groups stand in the order of their first problems by line,
offset and content. The problems of a sentence stand in its group as they were found, also if other
sentences look like it. -/
theorem ofProblems_partition {problems : List Problem} (hSites : Problem.SitesAgree problems) :
    let groups := ofProblems problems
    (groups.flatMap (·.problems)).Perm problems ∧
    (∀ (i j : Nat) (g other : ProblemGroup), groups[i]? = some g → groups[j]? = some other →
      ∀ p ∈ g.problems, ∀ q ∈ other.problems, i = j ↔ p.SharesSubject q) ∧
    (∀ g ∈ groups, ∃ p rest, g.problems = p :: rest ∧
      g.site = p.site ∧ g.line = p.place.line ∧ g.offset = p.place.offset) ∧
    groups.Pairwise (fun g other => ∀ p, g.problems.head? = some p →
      ∀ q, other.problems.head? = some q → p.listingKey ≤ q.listingKey) ∧
    ∀ g ∈ groups, ∀ site, g.site = some site →
      g.problems = problems.filter fun p => decide (p.site.map (·.index) = some site.index) := by
  intro groups
  have hGroups : Gathers (problems.mergeSort Problem.listedBefore) groups :=
    ofProblems_gathers problems
  have hKey : ∀ {g : ProblemGroup} {p : Problem}, g ∈ groups → p ∈ g.problems →
      p.groupKey = g.key := fun hMem hIn => ((hGroups.mem_problems hMem).mp hIn).2
  refine ⟨hGroups.perm.trans (List.mergeSort_perm _ _), ?_, ?_, ?_, ?_⟩
  · intro i j g other hi hj p hp q hq
    rw [hGroups.eq_iff_key_eq hi hj, ← hKey (List.mem_of_getElem? hi) hp,
      ← hKey (List.mem_of_getElem? hj) hq, Problem.groupKey_eq_iff]
  · intro g hMem
    obtain ⟨p, rest, hStart⟩ := hGroups.start g hMem
    rw [hStart]
    exact ⟨p, rest, rfl, rfl, rfl, rfl⟩
  · have hSorted := (List.pairwise_mergeSort Problem.listedBefore_trans
      Problem.listedBefore_total problems).sublist hGroups.first
    refine (List.pairwise_filterMap.mp hSorted).imp fun hBefore p hp q hq => ?_
    exact Problem.listedBefore_iff.mp (hBefore p hp q hq)
  · intro g hMem site hSite
    have hGroupKey : g.key = .sentence site.index := by rw [key, hSite]
    have hSame := hGroups.filter g hMem
    rw [hGroupKey, filter_mergeSort_of_tied Problem.listedBefore_trans Problem.listedBefore_total]
      at hSame
    · simpa only [Problem.groupKey_eq_sentence_iff] using hSame
    · intro p hp q hq hpKey hqKey
      rw [decide_eq_true_eq] at hpKey hqKey
      rw [Problem.listedBefore_iff, hSites.listingKey_eq hp hq hpKey hqKey]

/-- Two sentences that look alike, whose problems were found in turns, and two problems of a line
above that are in no sentence. -/
theorem ofProblems_partition_lookalikes :
    let s := Sentence.atPlace "Ok.".toList 3 0 true [] [] []
    let problemOf (validator : String) (line : Int) (site : Option Site) : Problem :=
      ⟨validator.toList, [], line, site, none, .error, none, none⟩
    let problems := [problemOf "A" 3 (some ⟨1, s⟩), problemOf "B" 3 (some ⟨0, s⟩),
      problemOf "C" 2 none, problemOf "D" 3 (some ⟨1, s⟩), problemOf "E" 3 (some ⟨0, s⟩),
      problemOf "F" 2 none]
    Problem.SitesAgree problems ∧
      (ofProblems problems).map (·.problems.map (·.validator)) =
        [["C".toList, "F".toList], ["A".toList, "D".toList], ["B".toList, "E".toList]] ∧
      ((ofProblems problems).flatMap (·.problems)).Perm problems := by
  intro s problemOf problems
  have hSites : Problem.SitesAgree problems := by
    unfold Problem.SitesAgree
    decide +kernel
  refine ⟨hSites, ?_, (ofProblems_partition hSites).1⟩
  cbv

end ProblemGroup

end ProseLint
