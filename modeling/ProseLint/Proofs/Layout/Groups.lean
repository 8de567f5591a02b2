import ProseLint.Layout.Grouping
import ProseLint.Proofs.Document.Building
import ProseLint.Proofs.Layout.Passage
import Mathlib.Data.List.Forall2
import Mathlib.Data.List.TakeWhile

/-! Layout as a run of the builder. The lines with text on them fall into groups, each group
has a role, and what is laid out is one run of steps, group by group. -/

namespace ProseLint

namespace Sentence

@[simp] theorem finish_placed (tokenizer : Option Tokenizer) (s : Sentence) :
    (s.finish tokenizer).placed = s.placed := by
  simp [placed]

@[simp] theorem finish_visible (tokenizer : Option Tokenizer) (s : Sentence) :
    (s.finish tokenizer).visible = s.visible := by
  simp [visible]

/-- Tokens say nothing about places. -/
theorem IsAnchored.finish {s : Sentence} (h : s.IsAnchored)
    (tokenizer : Option Tokenizer) : (s.finish tokenizer).IsAnchored where
  length_eq := by simpa using h.length_eq
  head_eq := by simpa using h.head_eq

end Sentence

namespace Layout

/-- What lines that belong together become. -/
inductive Role where
  | header (level : Int)
  | element (level : Int)
  | continuation (level : Int)
  | paragraph
  deriving DecidableEq, Repr

namespace Role

/-- The role of the lines that start with a line. The text of a list item goes on only while
a list is open. -/
def of (inList : Bool) (l : Line) : Role :=
  if 0 < l.sectionLevel then .header l.sectionLevel
  else if l.listStart then .element (max l.listLevel 1)
  else if 0 < l.listLevel ∧ inList then .continuation l.listLevel
  else .paragraph

/-- Whether a line goes on with what a role stands for. -/
def takes : Role → Line → Bool
  | .header _, _ => false
  | .element level, l => continuesList level l
  | .continuation level, l => continuesList level l
  | .paragraph, l => continuesParagraph l

/-- Whether a list is open after lines of a role. -/
def opensList : Role → Bool
  | .element _ | .continuation _ => true
  | .header _ | .paragraph => false

theorem takes_isEmpty {role : Role} {l : Line} (h : role.takes l = true) : l.isEmpty = false := by
  cases role with
  | header level => cases h
  | element level | continuation level =>
      simp only [takes, continuesList, Bool.and_eq_true, Bool.not_eq_true'] at h
      exact h.1.1.1
  | paragraph =>
      simp only [takes, continuesParagraph, Bool.and_eq_true, Bool.not_eq_true'] at h
      exact h.1.1

theorem takes_eq_false {role : Role} {l : Line} (h : l.isEmpty = true) : role.takes l = false := by
  by_contra hTakes
  rw [takes_isEmpty (Bool.not_eq_false _ ▸ hTakes)] at h
  cases h

theorem takes_sectionLevel {role : Role} {l : Line} (h : role.takes l = true) :
    l.sectionLevel = 0 := by
  cases role with
  | header level => cases h
  | element level | continuation level =>
      simp only [takes, continuesList, Bool.and_eq_true, beq_iff_eq] at h
      exact h.1.2
  | paragraph =>
      simp only [takes, continuesParagraph, Bool.and_eq_true, beq_iff_eq] at h
      exact h.1.2

theorem takes_listStart {role : Role} {l : Line} (h : role.takes l = true) :
    l.listStart = false := by
  cases role with
  | header level => cases h
  | element level | continuation level =>
      simp only [takes, continuesList, Bool.and_eq_true, Bool.not_eq_true'] at h
      exact h.1.1.2
  | paragraph =>
      simp only [takes, continuesParagraph, Bool.and_eq_true, Bool.not_eq_true'] at h
      exact h.2

/-- Headers stand alone. -/
theorem of_takes {inList : Bool} {l m : Line} (h : (of inList l).takes m = true) :
    l.sectionLevel = 0 := by
  by_contra hHeader
  rw [of, if_pos (Nat.pos_of_ne_zero hHeader)] at h
  cases h

end Role

/-- Some consecutive lines with the role that they have together. -/
structure Group where
  role : Role
  lines : List Line
  deriving DecidableEq, Repr

/-- The groups that lines fall into. Lines without text on them belong to none and end every
group. -/
def groups (inList : Bool) (lines : List Line) : List Group :=
  match lines with
  | [] => []
  | l :: rest =>
      if l.isEmpty then groups inList rest
      else
        let role := Role.of inList l
        ⟨role, l :: rest.takeWhile role.takes⟩ ::
          groups role.opensList (rest.dropWhile role.takes)
termination_by lines.length
decreasing_by
  · simp
  · exact Nat.lt_succ_of_le (List.dropWhile_sublist _).length_le

theorem groups_lines (inList : Bool) (lines : List Line) :
    (groups inList lines).flatMap (·.lines) = lines.filter (!·.isEmpty) := by
  induction inList, lines using groups.induct with
  | case1 inList => simp [groups]
  | case2 inList l rest hEmpty ih => simp [groups, hEmpty, ih]
  | case3 inList l rest hText role ih =>
      have hTaken : (rest.takeWhile role.takes).filter (!·.isEmpty) =
          rest.takeWhile role.takes := by
        refine List.filter_eq_self.mpr fun m hMem => ?_
        simp [Role.takes_isEmpty (List.mem_takeWhile_imp hMem)]
      calc
        (groups inList (l :: rest)).flatMap (·.lines) =
            l :: (rest.takeWhile role.takes ++
              (rest.dropWhile role.takes).filter (!·.isEmpty)) := by
          rw [groups, if_neg hText, List.flatMap_cons, ih]
          rfl
        _ = l :: rest.filter (!·.isEmpty) := by
          rw [← hTaken, ← List.filter_append, List.takeWhile_append_dropWhile]
        _ = (l :: rest).filter (!·.isEmpty) := by
          rw [List.filter_cons_of_pos (by simpa using hText)]

/-- The lines of a group follow each other, and all of them have text on them. -/
theorem mem_groups {inList : Bool} {lines : List Line} {g : Group} (h : g ∈ groups inList lines) :
    g.lines <:+: lines ∧ g.lines ≠ [] ∧ ∀ l ∈ g.lines, l.isEmpty = false := by
  induction inList, lines using groups.induct with
  | case1 inList => simp [groups] at h
  | case2 inList l rest hEmpty ih =>
      rw [groups, if_pos hEmpty] at h
      obtain ⟨hInfix, hText⟩ := ih h
      exact ⟨hInfix.trans (List.suffix_cons _ _).isInfix, hText⟩
  | case3 inList l rest hText role ih =>
      rw [groups, if_neg hText, List.mem_cons] at h
      rcases h with rfl | hLater
      · refine ⟨?_, List.cons_ne_nil _ _, ?_⟩
        · exact ((List.prefix_cons_inj l).mpr (List.takeWhile_prefix _)).isInfix
        · intro m hMem
          rcases List.mem_cons.mp hMem with rfl | hTaken
          · simpa using hText
          · exact Role.takes_isEmpty (List.mem_takeWhile_imp hTaken)
      · obtain ⟨hInfix, hAll⟩ := ih hLater
        refine ⟨hInfix.trans ?_, hAll⟩
        exact ((List.dropWhile_suffix _).trans (List.suffix_cons _ _)).isInfix

/-- A group has the role of its first line, and the role takes all others. -/
theorem groups_takes {inList : Bool} {lines : List Line} {g : Group} (h : g ∈ groups inList lines) :
    ∃ afterList l rest, g.role = Role.of afterList l ∧ g.lines = l :: rest ∧
      ∀ m ∈ rest, g.role.takes m = true := by
  induction inList, lines using groups.induct with
  | case1 inList => simp [groups] at h
  | case2 inList l rest hEmpty ih =>
      rw [groups, if_pos hEmpty] at h
      exact ih h
  | case3 inList l rest hText role ih =>
      rw [groups, if_neg hText, List.mem_cons] at h
      rcases h with rfl | hLater
      · exact ⟨inList, l, _, rfl, rfl, fun m hMem => List.mem_takeWhile_imp hMem⟩
      · exact ih hLater

/-- Lines of a group are joined with a separator between any two neighbours. -/
theorem Group.glyphs_eq_joined {inList : Bool} {lines : List Line} {g : Group}
    (h : g ∈ groups inList lines) (separator : Option Char) :
    (Passage.ofLines separator g.lines).glyphs = Passage.joined separator g.lines := by
  obtain ⟨_, hSome, hText⟩ := mem_groups h
  obtain ⟨l, rest, hLines⟩ := List.exists_cons_of_ne_nil hSome
  rw [hLines, Passage.ofLines_glyphs separator l rest
    (Line.glyphsOf_ne_nil (hText l (by simp [hLines])))]

theorem addParagraphOf_inList (b : Builder) (sentences : List Sentence) :
    (addParagraphOf b sentences).inList = false := by
  suffices hAll : ∀ b : Builder, b.inList = false →
      (sentences.foldl Builder.addSentence b).inList = false from
    hAll _ (Builder.addParagraph_inList b)
  induction sentences with
  | nil => exact fun b h => h
  | cons s rest ih => exact fun b h => ih _ (Builder.addSentence_inList h s)

/-- A paragraph comes in whole, behind the paragraphs that the section has. -/
theorem addParagraphOf_eq (b : Builder) (sentences : List Sentence) :
    addParagraphOf b sentences =
      ({ b with inList := false } : Builder).requireSection.changeLast fun s =>
        { s with paragraphs := s.paragraphs ++ [sentences] } := by
  let opened := ({ b with inList := false } : Builder).requireSection
  let ended (taken : List Sentence) : Builder :=
    opened.changeLast fun s => { s with paragraphs := s.paragraphs ++ [taken] }
  have hSome : opened.sections ≠ [] := Builder.requireSection_ne_nil _
  have hStep : ∀ taken s, (ended taken).addSentence s = ended (taken ++ [s]) := by
    intro taken s
    have hClosed : (ended taken).inList = false :=
      Builder.requireSection_inList (b := { b with inList := false }) rfl
    rw [Builder.addSentence_eq (Builder.changeLast_ne_nil hSome _) hClosed]
    · simp only [ended, Builder.changeLast_changeLast, Function.comp_def,
        Builder.appendToLast_concat]
    · intro last hLast
      rw [Builder.changeLast_current?] at hLast
      obtain ⟨_, _, rfl⟩ := Option.map_eq_some_iff.mp hLast
      simp
  have hAll : ∀ taken, sentences.foldl Builder.addSentence (ended taken) =
      ended (taken ++ sentences) := by
    induction sentences with
    | nil => simp
    | cons s rest ih => simp [hStep, ih]
  exact hAll []

namespace Group

/-- The steps that lay out a group. -/
def operations (e : Extractor) (g : Group) : List Builder.Operation :=
  let sentences := Line.sentences e g.lines
  match g.role with
  | .header level => [.addSection level sentences]
  | .element level => [.addListElement level sentences]
  | .continuation level => [.extendListElement level sentences]
  | .paragraph => .addParagraph :: sentences.map .addSentence

theorem operations_sentences (e : Extractor) (g : Group) :
    (g.operations e).flatMap Builder.Operation.sentences = Line.sentences e g.lines := by
  unfold operations
  cases g.role with
  | header level | element level | continuation level =>
      simp [Builder.Operation.sentences]
  | paragraph =>
      simp [Builder.Operation.sentences, List.flatMap_map]

/-- Takes the steps that lay out a group. -/
def add (e : Extractor) (b : Builder) (g : Group) : Builder :=
  (g.operations e).foldl Builder.apply b

theorem add_paragraph (e : Extractor) (b : Builder) (lines : List Line) :
    add e b ⟨.paragraph, lines⟩ = addParagraphOf b (Line.sentences e lines) := by
  simp only [add, operations, addParagraphOf, List.foldl_cons, List.foldl_map, Builder.apply]

theorem add_inList (e : Extractor) (b : Builder) (g : Group) :
    (g.add e b).inList = g.role.opensList := by
  obtain ⟨role, lines⟩ := g
  cases role with
  | header level => rfl
  | element level => exact Builder.addListElement_inList b level _
  | continuation level => exact Builder.extendListElement_inList b level _
  | paragraph =>
      rw [add_paragraph]
      exact addParagraphOf_inList b _

end Group

theorem foldl_groups_cons (e : Extractor) (b : Builder) {l : Line} (rest : List Line) {role : Role}
    (hText : ¬ l.isEmpty = true) (hRole : Role.of b.inList l = role) :
    (groups b.inList (l :: rest)).foldl (Group.add e) b =
      let added := Group.add e b ⟨role, l :: rest.takeWhile role.takes⟩
      (groups added.inList (rest.dropWhile role.takes)).foldl (Group.add e) added := by
  subst hRole
  rw [groups, if_neg hText]
  simp only [List.foldl_cons, Group.add_inList]

/-- Laying out lines is laying out their groups. Whether a list is open is all that the groups
need to know of what is there already. -/
theorem addLines_eq (e : Extractor) (b : Builder) (lines : List Line) :
    addLines e b lines = (groups b.inList lines).foldl (Group.add e) b := by
  induction b, lines using addLines.induct e with
  | case1 b => simp [addLines, groups]
  | case2 b l rest hEmpty ih => rw [addLines, groups, if_pos hEmpty, if_pos hEmpty, ih]
  | case3 b l rest hText hHeader ih =>
      have hRole : Role.of b.inList l = .header l.sectionLevel := by simp [Role.of, hHeader]
      have hAlone : rest.takeWhile (Role.header l.sectionLevel).takes = [] ∧
          rest.dropWhile (Role.header l.sectionLevel).takes = rest := by
        cases rest <;> simp [Role.takes]
      rw [addLines, if_neg hText, if_pos hHeader, ih, foldl_groups_cons e b rest hText hRole,
        hAlone.1, hAlone.2]
      rfl
  | case4 b l rest hText hHeader hStart level group ih =>
      have hRole : Role.of b.inList l = .element level := by simp [Role.of, hHeader, hStart, level]
      rw [addLines, if_neg hText, if_neg hHeader, if_pos hStart, ih,
        foldl_groups_cons e b rest hText hRole]
      rfl
  | case5 b l rest hText hHeader hStart hList group ih =>
      have hRole : Role.of b.inList l = .continuation l.listLevel := by
        simp [Role.of, hHeader, hStart, hList]
      rw [addLines, if_neg hText, if_neg hHeader, if_neg hStart, if_pos hList, ih,
        foldl_groups_cons e b rest hText hRole]
      rfl
  | case6 b l rest hText hHeader hStart hList group ih =>
      have hRole : Role.of b.inList l = .paragraph := by
        rw [Role.of, if_neg hHeader, if_neg hStart, if_neg hList]
      rw [addLines, if_neg hText, if_neg hHeader, if_neg hStart, if_neg hList, ih,
        foldl_groups_cons e b rest hText hRole, Group.add_paragraph]
      rfl

/-- The steps that lay out classified lines: the file name, the rules, the untitled section
if one is needed, and then the groups of lines. -/
def operations (e : Extractor) (lines : List Line) (rules : List SuppressRule)
    (fileName : Option Text) : List Builder.Operation :=
  .setFileName fileName :: (rules.map .addRule ++
    ((if needsRoot lines then [.addSection 0 []] else []) ++
      (groups false lines).flatMap (Group.operations e)))

theorem foldl_addRule_inList (rules : List SuppressRule) (b : Builder) :
    (rules.foldl Builder.addRule b).inList = b.inList := by
  induction rules generalizing b with
  | nil => rfl
  | cons rule rest ih => exact ih _

/-- What is there before the first line: the file name, the rules, and the untitled section
if one is needed. -/
def startOf (lines : List Line) (rules : List SuppressRule) (fileName : Option Text) : Builder :=
  let b := rules.foldl Builder.addRule (Builder.empty.setFileName fileName)
  if needsRoot lines then b.addSection 0 [] else b

theorem startOf_sections (lines : List Line) (rules : List SuppressRule)
    (fileName : Option Text) :
    (startOf lines rules fileName).sections =
      if needsRoot lines then [Section.ofHeader 0 [] none] else [] := by
  have hRules : ∀ b : Builder, (rules.foldl Builder.addRule b).sections = b.sections := by
    induction rules with
    | nil => exact fun _ => rfl
    | cons rule rest ih => exact fun b => ih (b.addRule rule)
  have hNone : (rules.foldl Builder.addRule (Builder.empty.setFileName fileName)).sections = [] :=
    hRules _
  simp only [startOf]
  split
  · rw [Builder.addSection, Builder.parentFor, hNone, Builder.enclosing]
    rfl
  · exact hNone

theorem build_eq_foldl (e : Extractor) (lines : List Line) (rules : List SuppressRule)
    (fileName : Option Text) :
    build e lines rules fileName =
      (groups false lines).foldl (Group.add e) (startOf lines rules fileName) := by
  have hClosed : (startOf lines rules fileName).inList = false := by
    simp only [startOf]
    split
    · rfl
    · exact foldl_addRule_inList rules _
  have hLines := addLines_eq e (startOf lines rules fileName) lines
  rwa [hClosed] at hLines

/-- What is laid out is a run of the builder, so all that holds of every run holds of it. -/
theorem build_eq_run (e : Extractor) (lines : List Line) (rules : List SuppressRule)
    (fileName : Option Text) :
    build e lines rules fileName = Builder.run (operations e lines rules fileName) := by
  simp only [build_eq_foldl, startOf, Builder.run, operations, List.foldl_cons,
    List.foldl_append, List.foldl_map, List.foldl_flatMap]
  split <;> rfl

/-- A document holds the sentences of the groups, each once. -/
theorem build_sentences_perm (e : Extractor) (lines : List Line) (rules : List SuppressRule)
    (fileName : Option Text) :
    (build e lines rules fileName).sentences.Perm
      ((groups false lines).flatMap fun g => Line.sentences e g.lines) := by
  rw [build_eq_run]
  refine (Builder.run_sentences_perm _).trans (.of_eq ?_)
  have hRules : (rules.map Builder.Operation.addRule).flatMap Builder.Operation.sentences = [] := by
    simp [Builder.Operation.sentences]
  have hRoot : (if needsRoot lines then [Builder.Operation.addSection 0 []] else []).flatMap
      Builder.Operation.sentences = [] := by
    split <;> rfl
  rw [operations, List.flatMap_cons, List.flatMap_append, List.flatMap_append, hRules, hRoot,
    List.flatMap_assoc]
  simp only [Group.operations_sentences]
  rfl

/-- Every sentence of a finished document is one of a group. -/
theorem mem_build_sentences {e : Extractor} {lines : List Line} {rules : List SuppressRule}
    {fileName : Option Text} {tokenizer : Option Tokenizer} {s : Sentence}
    (h : s ∈ ((build e lines rules fileName).build tokenizer).sentences) :
    ∃ g ∈ groups false lines, ∃ cut ∈ Line.sentences e g.lines, s = cut.finish tokenizer := by
  rw [Builder.build_sentences] at h
  obtain ⟨cut, hBuilt, rfl⟩ := List.mem_map.mp h
  have hIn := (build_sentences_perm e lines rules fileName).mem_iff.mp hBuilt
  obtain ⟨g, hGroup, hFrom⟩ := List.mem_flatMap.mp hIn
  exact ⟨g, hGroup, cut, hFrom, rfl⟩

/-! ## Lines of which nothing is seen -/

/-- Two lines are laid out alike when they are the same or nothing is seen of either. -/
def SeenAlike (l m : Line) : Prop := l = m ∨ l.isEmpty = true ∧ m.isEmpty = true

theorem SeenAlike.isEmpty_eq {l m : Line} (h : SeenAlike l m) : l.isEmpty = m.isEmpty := by
  rcases h with rfl | ⟨hLeft, hRight⟩
  · rfl
  · rw [hLeft, hRight]

/-- A line of which something is seen is like itself only. -/
theorem SeenAlike.eq_of_seen {l m : Line} (h : SeenAlike l m) (hSeen : l.isEmpty = false) :
    l = m := by
  rcases h with hSame | ⟨hEmpty, _⟩
  · exact hSame
  · rw [hSeen] at hEmpty
    cases hEmpty

theorem takeWhile_seenAlike {p : Line → Bool} (hp : ∀ l, p l = true → l.isEmpty = false)
    {lines others : List Line} (h : List.Forall₂ SeenAlike lines others) :
    lines.takeWhile p = others.takeWhile p ∧
      List.Forall₂ SeenAlike (lines.dropWhile p) (others.dropWhile p) := by
  induction h with
  | nil => exact ⟨rfl, .nil⟩
  | @cons l m rest more hFirst hRest ih =>
      rcases hFirst with rfl | ⟨hLeft, hRight⟩
      · cases hTaken : p l with
        | true => simp only [List.takeWhile_cons, List.dropWhile_cons, hTaken, if_true, ih, true_and]
        | false =>
            simp only [List.takeWhile_cons, List.dropWhile_cons, hTaken, Bool.false_eq_true,
              if_false, true_and]
            exact .cons (.inl rfl) hRest
      · have hNot : ∀ l : Line, l.isEmpty = true → p l = false := fun l hEmpty => by
          cases hTaken : p l with
          | false => rfl
          | true => rw [hp l hTaken] at hEmpty; cases hEmpty
        simp only [List.takeWhile_cons, List.dropWhile_cons, hNot l hLeft, hNot m hRight,
          Bool.false_eq_true, if_false, true_and]
        exact .cons (.inr ⟨hLeft, hRight⟩) hRest

theorem groups_seenAlike (inList : Bool) (lines : List Line) :
    ∀ others, List.Forall₂ SeenAlike lines others → groups inList lines = groups inList others := by
  induction inList, lines using groups.induct with
  | case1 inList =>
      intro others h
      cases h
      rfl
  | case2 inList l rest hEmpty ih =>
      intro others h
      obtain _ | ⟨hFirst, hRest⟩ := h
      rw [groups, groups, ← hFirst.isEmpty_eq, if_pos hEmpty, if_pos hEmpty, ih _ hRest]
  | case3 inList l rest hText role ih =>
      intro others h
      obtain _ | ⟨hFirst, hRest⟩ := h
      obtain rfl := hFirst.eq_of_seen (by simpa using hText)
      have hTakes : ∀ m, role.takes m = true → m.isEmpty = false := fun m => Role.takes_isEmpty
      obtain ⟨hTaken, hLeft⟩ := takeWhile_seenAlike hTakes hRest
      rw [groups, groups, if_neg hText, if_neg hText]
      exact congrArg₂ (fun taken left => ⟨role, l :: taken⟩ :: left) hTaken (ih _ hLeft)

theorem needsRoot_seenAlike {lines others : List Line} (h : List.Forall₂ SeenAlike lines others) :
    needsRoot lines = needsRoot others := by
  have hFound : lines.find? (!·.isEmpty) = others.find? (!·.isEmpty) := by
    induction h with
    | nil => rfl
    | @cons l m rest more hFirst _ ih =>
        rw [List.find?_cons, List.find?_cons, ← hFirst.isEmpty_eq, ih]
        cases hEmpty : l.isEmpty with
        | true => rfl
        | false => rw [hFirst.eq_of_seen hEmpty]
  unfold needsRoot
  rw [hFound]

/-- Nothing of a document depends on a line of which nothing is seen, but for its being there. -/
theorem build_seenAlike {lines others : List Line} (h : List.Forall₂ SeenAlike lines others)
    (e : Extractor) (rules : List SuppressRule) (fileName : Option Text) :
    build e lines rules fileName = build e others rules fileName := by
  rw [build_eq_run, build_eq_run, operations, operations, groups_seenAlike false lines others h,
    needsRoot_seenAlike h]

end Layout

end ProseLint
