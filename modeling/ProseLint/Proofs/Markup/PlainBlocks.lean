import ProseLint.Proofs.Layout.Lowering
import ProseLint.Proofs.Layout.Order
import ProseLint.Proofs.Markup.LineBreaks
import ProseLint.Proofs.Markup.Plain

/-! Blocks of plain text. A blank line ends every paragraph and nothing else crosses it, so what
stands above it and what stands below it are read as they are alone, but for the line numbers
below. -/

namespace ProseLint

open Layout

/-! ## Sentences further down -/

/-- The place as it is `k` lines further down. -/
def Position.moved (k : Nat) (p : Position) : Position := ⟨p.line + k, p.offset⟩

/-- The sentence as it is `k` lines further down. -/
def Sentence.moved (k : Nat) (s : Sentence) : Sentence :=
  { s with line := s.line + k, positions := s.positions.map (.moved k) }

/-- The sentence and all its characters stand on lines, which are numbered from 1. -/
def Sentence.IsNumbered (s : Sentence) : Prop := 0 < s.line ∧ ∀ p ∈ s.positions, 0 < p.line

theorem loweredNumber_add {line : Int} (h : 0 < line) (k : Nat) :
    loweredNumber k (line + k) = line + (k + 1 : Nat) := by
  have hBelow : ¬ line + k ≤ k := by omega
  rw [loweredNumber, if_neg hBelow, Int.natCast_succ, Int.add_assoc]

theorem Sentence.moved_zero (s : Sentence) : s.moved 0 = s := by
  have hSame : Position.moved 0 = id := funext fun p => by simp [Position.moved]
  simp [moved, hSame]

theorem Sentence.IsNumbered.lowered_moved {s : Sentence} (h : s.IsNumbered) (k : Nat) :
    (s.moved k).lowered k = s.moved (k + 1) := by
  have hPlaces : (s.positions.map (.moved k)).map (Position.lowered k) =
      s.positions.map (.moved (k + 1)) := by
    rw [List.map_map]
    apply List.map_congr_left
    intro p hMem
    simp only [Function.comp_apply, Position.moved, Position.lowered,
      loweredNumber_add (h.2 p hMem)]
  simp only [moved, lowered, hPlaces, loweredNumber_add h.1]

namespace Document

/-- The paragraphs, section by section. -/
def paragraphs (d : Document Sentence) : List (List Sentence) := d.sections.flatMap (·.paragraphs)

/-- A document that has paragraphs in one untitled section and nothing else. -/
def ofParagraphs (fileName : Option Text) (paragraphs : List (List Sentence)) :
    Document Sentence :=
  ⟨[⟨0, [], paragraphs, [], none, []⟩], fileName, []⟩

theorem ofParagraphs_paragraphs (fileName : Option Text) (paragraphs : List (List Sentence)) :
    (ofParagraphs fileName paragraphs).paragraphs = paragraphs := List.flatMap_singleton _ _

theorem lowered_paragraphs (n : Nat) (d : Document Sentence) :
    (d.lowered n).paragraphs = d.paragraphs.map (·.map (.lowered n)) := by
  rw [paragraphs, paragraphs, List.map_flatMap, lowered, map, List.flatMap_map]
  rfl

theorem mem_sentences_of_mem_paragraphs {d : Document Sentence} {paragraph : List Sentence}
    (hParagraph : paragraph ∈ d.paragraphs) {s : Sentence} (h : s ∈ paragraph) :
    s ∈ d.sentences := by
  obtain ⟨r, hSection, hIn⟩ := List.mem_flatMap.mp hParagraph
  exact List.mem_flatMap.mpr ⟨r, hSection, Section.mem_sentences.mpr (.inr (.inl ⟨_, hIn, h⟩))⟩

end Document

theorem Builder.build_eq (b : Builder) (tokenizer : Option Tokenizer) :
    b.build tokenizer =
      ⟨b.sections.map (·.map (Sentence.finish tokenizer)), b.fileName, b.rules⟩ := by
  rw [← build_sections]
  cases tokenizer <;> rfl

namespace Layout

variable {e : Extractor} {lines : List Line}

/-- Sentences stand on the lines that they were read from. -/
theorem build_isNumbered (hLines : ∀ l ∈ lines, 0 < l.number) {rules : List SuppressRule}
    {fileName : Option Text} {tokenizer : Option Tokenizer} {s : Sentence}
    (h : s ∈ ((build e lines rules fileName).build tokenizer).sentences) : s.IsNumbered := by
  have hPlaces : ∀ p ∈ s.positions, 0 < p.line := by
    intro p hMem
    obtain ⟨g, hGroup, cut, hFrom, rfl⟩ := mem_build_sentences h
    rw [Sentence.finish_positions] at hMem
    obtain ⟨l, hLine, hNumber⟩ := Group.exists_line_of_mem hGroup hFrom hMem
    rw [hNumber]
    exact Int.ofNat_lt.mpr (hLines l ((mem_groups hGroup).1.subset hLine))
  exact ⟨hPlaces s.position (List.mem_of_head? (build_isAnchored h).head_eq), hPlaces⟩

/-- Lines further down make the same paragraphs further down. -/
theorem build_moved_paragraphs (hLines : ∀ l ∈ lines, 0 < l.number) (fileName : Option Text)
    (tokenizer : Option Tokenizer) (k : Nat) :
    ((build e (lines.map (.moved k)) [] fileName).build tokenizer).paragraphs =
      ((build e lines [] fileName).build tokenizer).paragraphs.map (·.map (.moved k)) := by
  induction k with
  | zero =>
      have hLine : Line.moved 0 = id := rfl
      have hSentence : Sentence.moved 0 = id := funext Sentence.moved_zero
      simp [hLine, hSentence]
  | succ k ih =>
      have hLower : lines.map (Line.moved (k + 1)) =
          (lines.map (Line.moved k)).map (Line.lowered k) := by
        rw [List.map_map]
        exact List.map_congr_left fun l hMem => (Line.lowered_moved (hLines l hMem)).symm
      have hBuild := build_lowered k e (lines.map (.moved k)) [] fileName
      rw [List.map_nil] at hBuild
      rw [hLower, hBuild, Builder.build_lowered, Document.lowered_paragraphs, ih, List.map_map]
      apply List.map_congr_left
      intro paragraph hParagraph
      rw [Function.comp_apply, List.map_map]
      apply List.map_congr_left
      intro s hMem
      exact (build_isNumbered hLines
        (Document.mem_sentences_of_mem_paragraphs hParagraph hMem)).lowered_moved k

/-! ## Paragraphs between blank lines -/

/-- A line without text on it ends a paragraph, and no list is open behind one. -/
theorem groups_append_empty {inList : Bool} (hClosed : inList = false)
    (hAbove : ∀ l ∈ lines, l.IsUnmarked) {blank : Line} (hBlank : blank.isEmpty = true)
    (below : List Line) :
    groups inList (lines ++ blank :: below) = groups inList lines ++ groups inList below := by
  induction inList, lines using groups.induct with
  | case1 inList =>
      have hNone : groups inList [] = [] := by rw [groups]
      rw [hNone, List.nil_append, List.nil_append, groups, if_pos hBlank]
  | case2 inList l rest hEmpty ih =>
      rw [List.cons_append, groups, groups, if_pos hEmpty, if_pos hEmpty]
      exact ih hClosed fun m hMem => hAbove m (List.mem_cons_of_mem l hMem)
  | case3 inList l rest hText role ih =>
      have hOf : Role.of inList l = role := rfl
      have hOpens : role.opensList = inList := by
        rw [← hOf, role_of_isUnmarked (hAbove l List.mem_cons_self), hClosed]
        rfl
      have hStop : role.takes blank = false := Role.takes_eq_false hBlank
      have hLater := ih (hOpens.trans hClosed) fun m hMem => hAbove m
        (List.mem_cons_of_mem l ((List.dropWhile_suffix _).subset hMem))
      rw [hOpens] at hLater
      rw [List.cons_append, groups, groups, if_neg hText, if_neg hText]
      simp only [hOf, hOpens, takeWhile_append_cons hStop, dropWhile_append_cons hStop, hLater,
        List.cons_append]

/-- Paragraphs change neither the file name nor the rules. -/
theorem foldl_add_paragraph_about {gs : List Group} (h : ∀ g ∈ gs, g.role = .paragraph)
    {b : Builder} (hSome : b.sections ≠ []) :
    (gs.foldl (Group.add e) b).fileName = b.fileName ∧
      (gs.foldl (Group.add e) b).rules = b.rules := by
  induction gs generalizing b with
  | nil => exact ⟨rfl, rfl⟩
  | cons g rest ih =>
      obtain ⟨hFirst, hRest⟩ := List.forall_mem_cons.mp h
      obtain ⟨role, lines⟩ := g
      obtain rfl : role = .paragraph := hFirst
      have hAdd : Group.add e b ⟨.paragraph, lines⟩ =
          ({ b with inList := false } : Builder).changeLast fun s =>
            { s with paragraphs := s.paragraphs ++ [Line.sentences e lines] } := by
        rw [Group.add_paragraph, addParagraphOf_eq, Builder.requireSection_eq]
        exact hSome
      rw [List.foldl_cons, hAdd]
      exact ih hRest (Builder.changeLast_ne_nil hSome _)

/-- The paragraphs that lines without marks make. -/
def paragraphsOf (e : Extractor) (tokenizer : Option Tokenizer) (lines : List Line) :
    List (List Sentence) :=
  (groups false lines).map fun g => (Line.sentences e g.lines).map (Sentence.finish tokenizer)

/-- Lines without marks are laid out as paragraphs in one untitled section. -/
theorem build_ofParagraphs (hLines : ∀ l ∈ lines, l.IsUnmarked) (fileName : Option Text)
    (tokenizer : Option Tokenizer) :
    (build e lines [] fileName).build tokenizer =
      .ofParagraphs fileName (paragraphsOf e tokenizer lines) := by
  have hRoles : ∀ g ∈ groups false lines, g.role = .paragraph :=
    fun g hMem => groups_paragraph hLines hMem
  have hRoot : needsRoot lines = true := needsRoot_of_isUnmarked hLines
  have hStart : (startOf lines [] fileName).sections = [Section.ofHeader 0 [] none] := by
    rw [startOf_sections, if_pos hRoot]
  have hSections := foldl_add_paragraph e hRoles hStart
  obtain ⟨hName, hRules⟩ :=
    foldl_add_paragraph_about (e := e) hRoles (b := startOf lines [] fileName) (by simp [hStart])
  have hNameStart : (startOf lines [] fileName).fileName = fileName := by
    rw [startOf, if_pos hRoot]
    rfl
  have hRulesStart : (startOf lines [] fileName).rules = [] := by
    rw [startOf, if_pos hRoot]
    rfl
  rw [build_eq_foldl, Builder.build_eq, hSections, hName, hRules, hNameStart, hRulesStart]
  simp only [Document.ofParagraphs, paragraphsOf, Section.ofHeader, Section.map, List.map_cons,
    List.map_nil, List.nil_append, List.map_map]
  rfl

theorem paragraphsOf_append_empty (tokenizer : Option Tokenizer)
    (hAbove : ∀ l ∈ lines, l.IsUnmarked) {blank : Line} (hBlank : blank.isEmpty = true)
    (below : List Line) :
    paragraphsOf e tokenizer (lines ++ blank :: below) =
      paragraphsOf e tokenizer lines ++ paragraphsOf e tokenizer below := by
  rw [paragraphsOf, groups_append_empty rfl hAbove hBlank, List.map_append]
  rfl

theorem paragraphsOf_moved (tokenizer : Option Tokenizer) (hLines : ∀ l ∈ lines, l.IsUnmarked)
    (hNumbers : ∀ l ∈ lines, 0 < l.number) (k : Nat) :
    paragraphsOf e tokenizer (lines.map (.moved k)) =
      (paragraphsOf e tokenizer lines).map (·.map (.moved k)) := by
  have hMoved : ∀ l ∈ lines.map (Line.moved k), l.IsUnmarked :=
    List.forall_mem_map.mpr fun l hMem => ⟨(hLines l hMem).1, (hLines l hMem).2, (hLines l hMem).3⟩
  have hParagraphs := build_moved_paragraphs (e := e) hNumbers none tokenizer k
  rwa [build_ofParagraphs hMoved, build_ofParagraphs hLines, Document.ofParagraphs_paragraphs,
    Document.ofParagraphs_paragraphs] at hParagraphs

end Layout

/-! ## Documents -/

namespace Line

variable {escapes : Bool} {raws : List Text} {l : Line}

theorem number_of_mem_ofTexts (h : l ∈ ofTexts escapes raws) : 0 < l.number := by
  obtain ⟨i, hLt, rfl⟩ := List.mem_mapIdx.mp h
  exact Nat.succ_pos i

theorem isUnmarked_of_mem_ofTexts (h : l ∈ ofTexts escapes raws) : l.IsUnmarked := by
  obtain ⟨i, hLt, rfl⟩ := List.mem_mapIdx.mp h
  exact ⟨rfl, rfl, rfl⟩

end Line

/-- An empty line that no line break ends makes no paragraph. -/
theorem Layout.paragraphsOf_splitLines (e : Extractor) (tokenizer : Option Tokenizer) (t : Text) :
    paragraphsOf e tokenizer (Line.ofTexts false t.splitLines) =
      paragraphsOf e tokenizer (Line.readAll false t) := by
  rcases Text.splitLines_eq_lines t with hSame | hEmpty
  · rw [hSame]
    rfl
  · have hNone : paragraphsOf e tokenizer [] = [] := by simp [paragraphsOf, groups]
    have hLast : Line.ofTexts false (t.lines ++ [[]]) =
        Line.readAll false t ++ [(Line.ofText 1 false []).moved t.lines.length] :=
      Line.ofTexts_append false t.lines [[]]
    rw [hEmpty, hLast, paragraphsOf_append_empty tokenizer
      (fun _ hMem => Line.isUnmarked_of_mem_readAll hMem) rfl, hNone, List.append_nil]

namespace Format

theorem plain_document (o : ReadOptions) (t : Text) :
    (Format.plain.read o t).document =
      .ofParagraphs o.fileName (paragraphsOf o.extractor o.tokenizer (Line.readAll false t)) :=
  build_ofParagraphs (fun _ hMem => Line.isUnmarked_of_mem_readAll hMem) o.fileName o.tokenizer

/-- Plain text is read block by block. Two texts with a blank line between them have the paragraphs
of the one and then those of the other, further down by the number of line breaks above, and nothing
else. The upper text must not end in a carriage return, to which the first line feed would
belong. -/
theorem plain_append_blankLine (o : ReadOptions) {s : Text} (h : s.getLast? ≠ some '\r')
    (t : Text) :
    let d (t : Text) := (Format.plain.read o t).document
    d (s ++ Text.blankLine ++ t) = .ofParagraphs o.fileName ((d s).paragraphs ++
      (d t).paragraphs.map (·.map (.moved (s ++ Text.blankLine).lineBreaks))) := by
  intro d
  let n := s.splitLines.length
  let blank := (Line.ofText 1 false []).moved n
  let below := (Line.readAll false t).map (Line.moved (n + 1))
  have hLines : Line.readAll false (s ++ Text.blankLine ++ t) =
      Line.ofTexts false s.splitLines ++ blank :: below := by
    have hBlank : Line.ofTexts false (s.splitLines ++ [[]]) =
        Line.ofTexts false s.splitLines ++ [blank] := Line.ofTexts_append false s.splitLines [[]]
    have hBelow := Line.ofTexts_append false (s.splitLines ++ [[]]) t.lines
    rw [hBlank, List.append_assoc, List.append_assoc, List.length_append] at hBelow
    rw [Line.readAll, Text.lines_append_blankLine h]
    exact hBelow
  have hMoved : paragraphsOf o.extractor o.tokenizer below =
      (paragraphsOf o.extractor o.tokenizer (Line.readAll false t)).map (·.map (.moved (n + 1))) :=
    paragraphsOf_moved o.tokenizer (fun _ hMem => Line.isUnmarked_of_mem_readAll hMem)
      (fun _ hMem => Line.number_of_mem_ofTexts hMem) (n + 1)
  simp only [d, plain_document, Document.ofParagraphs_paragraphs]
  rw [hLines, paragraphsOf_append_empty o.tokenizer
    (fun _ hMem => Line.isUnmarked_of_mem_ofTexts hMem) rfl, paragraphsOf_splitLines, hMoved,
    Text.lineBreaks_append_blankLine h]

/-- Two paragraphs below three line breaks of different forms. -/
theorem plain_append_blankLine_two :
    let o : ReadOptions := ⟨.standard, none, none⟩
    let s : Text := "One.\r\ntwo".toList
    let d (t : Text) := (Format.plain.read o t).document
    s.getLast? ≠ some '\r' ∧ (s ++ Text.blankLine).lineBreaks = 3 ∧
      d (s ++ Text.blankLine ++ "Three.\n".toList) = .ofParagraphs none
        ((d s).paragraphs ++ (d "Three.\n".toList).paragraphs.map (·.map (.moved 3))) ∧
      (d (s ++ Text.blankLine ++ "Three.\n".toList)).paragraphs.map
        (·.map fun x => (x.content, x.line)) =
          [[("One.".toList, 1), (" two".toList, 1)], [("Three.".toList, 4)]] := by
  intro o s d
  have hLast : s.getLast? ≠ some '\r' := by decide
  exact ⟨hLast, by decide, plain_append_blankLine o hLast _, by with_unfolding_all decide⟩

end Format

end ProseLint
