import ProseLint.Proofs.Layout.Order
import Mathlib.Data.List.Flatten

/-! Headers, paragraphs and list elements. Each of them holds the sentences of some groups of lines,
in the order of the lines, whole groups only. So places that rise along the lines also rise from a
sentence to the one behind it. -/

namespace ProseLint

/-- Something holds of the header, of every paragraph and of every list element. -/
structure Section.EachUnit {σ : Type} (P : List σ → Prop) (s : Section σ) : Prop where
  header : P s.header
  paragraphs : ∀ paragraph ∈ s.paragraphs, P paragraph
  elements : ∀ block ∈ s.listBlocks, ∀ element ∈ block, P element.sentences

namespace Section.EachUnit

variable {σ τ : Type} {P Q : List σ → Prop}

theorem mono {s : Section σ} (h : s.EachUnit P) (hSame : ∀ unit, P unit → Q unit) :
    s.EachUnit Q where
  header := hSame _ h.header
  paragraphs paragraph hMem := hSame _ (h.paragraphs paragraph hMem)
  elements block hBlock element hMem := hSame _ (h.elements block hBlock element hMem)

theorem ofHeader (level : Int) {header : List σ} (h : P header) (parent : Option Nat) :
    (Section.ofHeader level header parent).EachUnit P :=
  ⟨h, by simp [Section.ofHeader], by simp [Section.ofHeader]⟩

theorem attach {sections : List (Section σ)} {s : Section σ} (hAll : ∀ r ∈ sections, r.EachUnit P)
    (h : s.EachUnit P) : ∀ r ∈ Section.attach sections s, r.EachUnit P := by
  unfold Section.attach
  split
  · next p hParent =>
      refine forall_mem_concat ?_ h
      exact forall_mem_modify p hAll fun r hr => ⟨hr.header, hr.paragraphs, hr.elements⟩
  · exact forall_mem_concat hAll h

theorem map {P : List τ → Prop} {s : Section σ} {f : σ → τ}
    (h : s.EachUnit fun unit => P (unit.map f)) : (s.map f).EachUnit P where
  header := h.header
  paragraphs := by
    intro paragraph hMem
    obtain ⟨old, hOld, rfl⟩ := List.mem_map.mp hMem
    exact h.paragraphs old hOld
  elements := by
    intro block hBlock element hMem
    obtain ⟨old, hOld, rfl⟩ := List.mem_map.mp hBlock
    obtain ⟨e, he, rfl⟩ := List.mem_map.mp hMem
    exact h.elements old hOld e he

end Section.EachUnit

namespace Builder

/-- Something holds of every unit of the document built so far. -/
def EachUnit (P : List Sentence → Prop) (b : Builder) : Prop := ∀ s ∈ b.sections, s.EachUnit P

variable {P Q : List Sentence → Prop} {b : Builder}

theorem EachUnit.mono (h : b.EachUnit P) (hSame : ∀ unit, P unit → Q unit) : b.EachUnit Q :=
  fun s hMem => (h s hMem).mono hSame

theorem EachUnit.addSection (h : b.EachUnit P) (level : Int) {header : List Sentence}
    (hHeader : P header) : (b.addSection level header).EachUnit P :=
  Section.EachUnit.attach h (.ofHeader level hHeader _)

theorem EachUnit.requireSection (h : b.EachUnit P) (hNone : P []) :
    b.requireSection.EachUnit P := by
  unfold Builder.requireSection
  split
  · exact h.addSection 0 hNone
  · exact h

theorem EachUnit.changeLast (h : b.EachUnit P) {f : Section Sentence → Section Sentence}
    (hSame : ∀ unit, P unit → Q unit) (hf : ∀ s, s.EachUnit P → (f s).EachUnit Q) :
    (b.changeLast f).EachUnit Q :=
  forall_mem_modify_imp _ h (fun _ hs => hs.mono hSame) hf

section

variable (hNone : P [])
include hNone

theorem EachUnit.addListElement (h : b.EachUnit P) (level : Int) {sentences : List Sentence}
    (hNew : P sentences) : (b.addListElement level sentences).EachUnit P := by
  have hOpened : ∀ c : Builder, c.EachUnit P → c.addListBlock.EachUnit P := by
    intro c hc
    have hClosed : ({ c with inList := true } : Builder).EachUnit P := hc
    refine (hClosed.requireSection hNone).changeLast (fun _ => id) fun s hs => ?_
    exact ⟨hs.header, hs.paragraphs, forall_mem_concat hs.elements (by simp)⟩
  unfold Builder.addListElement
  simp only
  have hSection := h.requireSection hNone
  refine EachUnit.changeLast (P := P) ?_ (fun _ => id) fun s hs => ⟨hs.header, hs.paragraphs, ?_⟩
  · split
    · exact hSection
    · exact hOpened _ hSection
  · exact forall_mem_modify _ hs.elements fun block hBlock => forall_mem_concat hBlock hNew

/-- An element that goes on takes the new sentences behind those that it has. -/
theorem EachUnit.extendListElement (h : b.EachUnit P) (level : Int) {sentences : List Sentence}
    (hSame : ∀ unit, P unit → Q unit) (hMore : ∀ unit, P unit → Q (unit ++ sentences)) :
    (b.extendListElement level sentences).EachUnit Q := by
  have hSection := h.requireSection hNone
  unfold Builder.extendListElement
  simp only
  split
  · exact (hSection.mono hSame).addListElement (hSame [] hNone) level (hMore [] hNone)
  · refine hSection.changeLast hSame fun s hs =>
      ⟨hSame _ hs.header, fun p hMem => hSame _ (hs.paragraphs p hMem), ?_⟩
    have hBlock : ∀ block : List (ListElement Sentence), (∀ x ∈ block, P x.sentences) →
        ∀ x ∈ block, Q x.sentences := fun block hAll x hMem => hSame _ (hAll x hMem)
    refine forall_mem_modify_imp _ hs.elements hBlock fun block hAll => ?_
    exact forall_mem_modify_imp _ hAll (fun x => hSame x.sentences) fun x => hMore x.sentences

end

end Builder

namespace Layout

variable {e : Extractor}

/-- The list holds the sentences of some of the groups, in their order. -/
def Gathers (e : Extractor) (gs : List Group) (unit : List Sentence) : Prop :=
  ∃ taken : List Group, taken.Sublist gs ∧ unit = taken.flatMap fun g => Line.sentences e g.lines

theorem Gathers.nil (gs : List Group) : Gathers e gs [] := ⟨[], List.nil_sublist gs, rfl⟩

theorem Gathers.mono {gs : List Group} {unit : List Sentence} (h : Gathers e gs unit)
    (more : List Group) : Gathers e (gs ++ more) unit := by
  obtain ⟨taken, hSub, hUnit⟩ := h
  exact ⟨taken, hSub.trans (List.sublist_append_left gs more), hUnit⟩

theorem Gathers.concat {gs : List Group} {unit : List Sentence} (h : Gathers e gs unit)
    (g : Group) : Gathers e (gs ++ [g]) (unit ++ Line.sentences e g.lines) := by
  obtain ⟨taken, hSub, rfl⟩ := h
  exact ⟨taken ++ [g], hSub.append (.refl [g]), by
    rw [List.flatMap_append, List.flatMap_singleton]⟩

/-- A group goes whole to one unit, behind all that is there. -/
theorem Group.add_gathers {b : Builder} {done : List Group} (h : b.EachUnit (Gathers e done))
    (g : Group) : (g.add e b).EachUnit (Gathers e (done ++ [g])) := by
  have hNone : Gathers e done [] := .nil done
  have hSame : ∀ unit, Gathers e done unit → Gathers e (done ++ [g]) unit :=
    fun _ hUnit => hUnit.mono [g]
  have hNew : Gathers e (done ++ [g]) (Line.sentences e g.lines) := hNone.concat g
  obtain ⟨role, lines⟩ := g
  cases role with
  | header level => exact (h.mono hSame).addSection level hNew
  | element level => exact (h.mono hSame).addListElement (.nil _) level hNew
  | continuation level =>
      exact h.extendListElement hNone level hSame fun _ hUnit => hUnit.concat _
  | paragraph =>
      rw [Group.add_paragraph, addParagraphOf_eq]
      have hClosed : ({ b with inList := false } : Builder).EachUnit (Gathers e done) := h
      refine (hClosed.requireSection hNone).changeLast hSame fun s hs => ?_
      have hKept := hs.mono hSame
      exact ⟨hKept.header, forall_mem_concat hKept.paragraphs hNew, hKept.elements⟩

theorem foldl_add_gathers {b : Builder} {done : List Group} (h : b.EachUnit (Gathers e done))
    (gs : List Group) : (gs.foldl (Group.add e) b).EachUnit (Gathers e (done ++ gs)) := by
  induction gs generalizing b done with
  | nil => rwa [List.append_nil]
  | cons g rest ih =>
      rw [List.foldl_cons, List.append_cons]
      exact ih (Group.add_gathers h g)

theorem build_gathers (e : Extractor) (lines : List Line) (rules : List SuppressRule)
    (fileName : Option Text) :
    (build e lines rules fileName).EachUnit (Gathers e (groups false lines)) := by
  have hStart : (startOf lines rules fileName).EachUnit (Gathers e []) := by
    intro s hMem
    rw [startOf_sections] at hMem
    split at hMem
    · rw [List.mem_singleton.mp hMem]
      exact .ofHeader 0 (.nil []) none
    · cases hMem
  rw [build_eq_foldl]
  exact foldl_add_gathers hStart _

end Layout

/-! ## Places along a unit -/

/-- The places of the sentences of a passage, one sentence after the other, are places of the
passage in order. Those of stretches of white space may be missing. -/
theorem Passage.sentences_positions_sublist (e : Extractor) (p : Passage) :
    ((p.sentences e).flatMap (·.positions)).Sublist (p.glyphs.map (·.position)) := by
  have hSpans : (p.sentences e).flatMap (·.positions) =
      (spans e p.content).flatMap fun span => (p.within span).map (·.position) := by
    rw [List.flatMap_def, List.flatMap_def, sentences,
      map_mapIdx_eq _ _ fun span => (p.within span).map (·.position)]
    intro i span
    exact sentenceOf_positions p [] span
  have hCuts := e.flatMap_cuts p.content (p.glyphs.map (·.position)) (by simp [content])
  simp only [← List.map_take, ← List.map_drop] at hCuts
  rw [hSpans, spans_eq_filter, ← hCuts]
  exact List.Sublist.flatMap List.filter_sublist _

namespace Layout

variable {e : Extractor}

theorem Group.sentences_rising {inList : Bool} {lines : List Line} (hRead : Line.AreRead lines)
    {g : Group} (hGroup : g ∈ groups inList lines) :
    Rising ((Line.sentences e g.lines).flatMap (·.positions)) := by
  have hSub : g.lines <:+: lines := (mem_groups hGroup).1
  have hJoined : Rising ((Passage.joined e.separator g.lines).map (·.position)) :=
    Passage.joined_rising (fun l hMem => hRead.isRead l (hSub.subset hMem))
      (hRead.numbers.sublist hSub.sublist)
  rw [← Group.glyphs_eq_joined hGroup] at hJoined
  exact List.Pairwise.sublist (Passage.sentences_positions_sublist e _) hJoined

theorem Gathers.rising {lines : List Line} (hRead : Line.AreRead lines) {unit : List Sentence}
    (h : Gathers e (groups false lines) unit) : Rising (unit.flatMap (·.positions)) := by
  obtain ⟨taken, hSub, rfl⟩ := h
  rw [List.flatMap_assoc]
  refine List.pairwise_flatMap.mpr ⟨fun g hTaken => ?_, ?_⟩
  · exact Group.sentences_rising hRead (hSub.subset hTaken)
  · have hAboveAll := (groups_pairwise_above (e := e) hRead).sublist hSub
    refine hAboveAll.imp fun {g k} hAbove p hp q hq => ?_
    obtain ⟨s, hUpper, hAt⟩ := List.mem_flatMap.mp hp
    obtain ⟨r, hLower, hPlace⟩ := List.mem_flatMap.mp hq
    exact Position.lt_of_line_lt (hAbove s hUpper r hLower p hAt q hPlace)

/-- In a header, in a paragraph and in a list element the places rise from the first character of
the first sentence to the last one of the last sentence. -/
theorem build_units_rising {lines : List Line} (hRead : Line.AreRead lines)
    (rules : List SuppressRule) (fileName : Option Text) (tokenizer : Option Tokenizer) :
    ∀ s ∈ ((build e lines rules fileName).build tokenizer).sections,
      s.EachUnit fun unit => Rising (unit.flatMap (·.positions)) := by
  intro s hMem
  rw [Builder.build_sections] at hMem
  obtain ⟨built, hBuilt, rfl⟩ := List.mem_map.mp hMem
  refine .map ((build_gathers e lines rules fileName built hBuilt).mono fun unit hUnit => ?_)
  rw [List.flatMap_map]
  simp only [Sentence.finish_positions]
  exact hUnit.rising hRead

end Layout

end ProseLint
