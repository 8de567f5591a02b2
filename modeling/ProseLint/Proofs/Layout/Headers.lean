import ProseLint.Proofs.Layout.Conservation

/-! The headers of a document. Each line that is marked as a header and has text on it opens one
section, with its level, and nothing of another line comes into that header. -/

namespace ProseLint

namespace Section

variable {σ : Type}

/-- The level of a section with its header. -/
def title (s : Section σ) : Int × List σ := (s.level, s.header)

end Section

namespace Builder

/-- The headers of the sections built so far, with their levels. -/
def titles (b : Builder) : List (Int × List Sentence) := b.sections.map Section.title

theorem sections_ne_nil_of_titles {b : Builder} (h : b.titles ≠ []) : b.sections ≠ [] :=
  fun hNone => h (by rw [titles, hNone, List.map_nil])

theorem addSection_titles (b : Builder) (level : Int) (header : List Sentence) :
    (b.addSection level header).titles = b.titles ++ [(level, header)] :=
  Section.attach_map (fun _ _ => rfl) b.sections _

theorem changeLast_titles (b : Builder) {f : Section Sentence → Section Sentence}
    (hf : ∀ s, (f s).title = s.title) : (b.changeLast f).titles = b.titles :=
  map_modify_of_eq hf b.sections _

theorem addListElement_titles {b : Builder} (hSome : b.sections ≠ []) (level : Int)
    (sentences : List Sentence) : (b.addListElement level sentences).titles = b.titles := by
  have hOpened : b.addListBlock.titles = b.titles := by
    rw [addListBlock, requireSection_eq (b := { b with inList := true }) hSome]
    exact changeLast_titles { b with inList := true } fun _ => rfl
  unfold addListElement
  simp only [requireSection_eq hSome]
  refine (changeLast_titles _ ?_).trans ?_
  · exact fun _ => rfl
  · split
    · rfl
    · exact hOpened

theorem extendListElement_titles {b : Builder} (hSome : b.sections ≠ []) (level : Int)
    (sentences : List Sentence) : (b.extendListElement level sentences).titles = b.titles := by
  unfold extendListElement
  simp only [requireSection_eq hSome]
  split
  · exact addListElement_titles hSome level sentences
  · exact changeLast_titles b fun _ => rfl

end Builder

/-- Something is written on the line, and it is a header. -/
def Line.isTitle (l : Line) : Bool := !l.isEmpty && decide (0 < l.sectionLevel)

theorem Line.isEmpty_of_isTitle {l : Line} (h : l.isTitle = true) : l.isEmpty = false := by
  simp only [isTitle, Bool.and_eq_true, Bool.not_eq_true'] at h
  exact h.1

namespace Layout

variable {e : Extractor}

/-- The header that a line makes, with its level. -/
def titleOf (e : Extractor) (l : Line) : Int × List Sentence :=
  (l.sectionLevel, Line.sentences e [l])

theorem addParagraphOf_titles {b : Builder} (hSome : b.sections ≠ []) (sentences : List Sentence) :
    (addParagraphOf b sentences).titles = b.titles := by
  rw [addParagraphOf_eq, Builder.requireSection_eq (b := { b with inList := false }) hSome]
  exact Builder.changeLast_titles { b with inList := false } fun _ => rfl

namespace Group

/-- The header that a group makes, if it is one. -/
def titles (e : Extractor) (g : Group) : List (Int × List Sentence) :=
  match g.role with
  | .header level => [(level, Line.sentences e g.lines)]
  | _ => []

theorem titles_of (e : Extractor) (inList : Bool) (l : Line) (lines : List Line) :
    titles e ⟨.of inList l, lines⟩ =
      if 0 < l.sectionLevel then [((l.sectionLevel : Int), Line.sentences e lines)] else [] := by
  unfold titles Role.of
  split_ifs <;> rfl

theorem add_titles {b : Builder} {g : Group} (h : b.titles ≠ [] ∨ g.titles e ≠ []) :
    (g.add e b).titles = b.titles ++ g.titles e := by
  obtain ⟨role, lines⟩ := g
  cases role with
  | header level => exact b.addSection_titles level _
  | element level =>
      have hSome := Builder.sections_ne_nil_of_titles (h.resolve_right (· rfl))
      exact (Builder.addListElement_titles hSome level _).trans (List.append_nil _).symm
  | continuation level =>
      have hSome := Builder.sections_ne_nil_of_titles (h.resolve_right (· rfl))
      exact (Builder.extendListElement_titles hSome level _).trans (List.append_nil _).symm
  | paragraph =>
      have hSome := Builder.sections_ne_nil_of_titles (h.resolve_right (· rfl))
      rw [add_paragraph, addParagraphOf_titles hSome]
      exact (List.append_nil _).symm

theorem foldl_add_titles {gs : List Group} {b : Builder}
    (h : b.titles ≠ [] ∨ ∀ g ∈ gs.head?, g.titles e ≠ []) :
    (gs.foldl (Group.add e) b).titles = b.titles ++ gs.flatMap (titles e) := by
  induction gs generalizing b with
  | nil => exact (List.append_nil _).symm
  | cons g rest ih =>
      have hFirst : b.titles ≠ [] ∨ g.titles e ≠ [] := h.imp_right fun hHead => hHead g rfl
      have hAdded := add_titles hFirst
      have hSome : (g.add e b).titles ≠ [] := by
        rw [hAdded, Ne, List.append_eq_nil_iff]
        exact not_and_or.mpr hFirst
      rw [List.foldl_cons, ih (.inl hSome), hAdded, List.flatMap_cons, List.append_assoc]

end Group

/-- A line that a group takes in behind its first one is no header. -/
theorem groups_titles (e : Extractor) (inList : Bool) (lines : List Line) :
    (groups inList lines).flatMap (Group.titles e) =
      (lines.filter Line.isTitle).map (titleOf e) := by
  induction inList, lines using groups.induct with
  | case1 inList => simp [groups]
  | case2 inList l rest hEmpty ih => simp [groups, hEmpty, ih, Line.isTitle]
  | case3 inList l rest hText role ih =>
      have hTaken : (rest.takeWhile role.takes).filter Line.isTitle = [] := by
        apply List.filter_eq_nil_iff.mpr
        intro m hMem
        simp [Line.isTitle, Role.takes_sectionLevel (List.mem_takeWhile_imp hMem)]
      have hRest : (rest.dropWhile role.takes).filter Line.isTitle = rest.filter Line.isTitle := by
        conv_rhs => rw [← List.takeWhile_append_dropWhile (p := role.takes) (l := rest)]
        rw [List.filter_append, hTaken, List.nil_append]
      have hFirst : Group.titles e ⟨role, l :: rest.takeWhile role.takes⟩ =
          ([l].filter Line.isTitle).map (titleOf e) := by
        rw [Group.titles_of]
        by_cases hHeader : 0 < l.sectionLevel
        · have hAlone : rest.takeWhile role.takes = [] := by
            simp only [role, Role.of, if_pos hHeader]
            cases rest <;> rfl
          simp [hHeader, hAlone, hText, Line.isTitle, titleOf]
        · simp [hHeader, Line.isTitle]
      rw [groups, if_neg hText, List.flatMap_cons, ih, hRest, hFirst, ← List.map_append,
        ← List.filter_append, List.singleton_append]

theorem head?_groups {inList : Bool} {lines : List Line} {g : Group}
    (h : g ∈ (groups inList lines).head?) :
    ∃ l, lines.find? (!·.isEmpty) = some l ∧ ∃ afterList, g.role = Role.of afterList l := by
  induction inList, lines using groups.induct with
  | case1 inList => simp [groups] at h
  | case2 inList l rest hEmpty ih =>
      rw [groups, if_pos hEmpty] at h
      obtain ⟨m, hFind, hRole⟩ := ih h
      exact ⟨m, by simpa [hEmpty] using hFind, hRole⟩
  | case3 inList l rest hText role ih =>
      rw [groups, if_neg hText, List.head?_cons, Option.mem_some_iff] at h
      subst h
      exact ⟨l, by simp [hText], inList, rfl⟩

/-- The sections are opened by the headers, in order. Before the first one comes a section without
a header, if there is text or if there is nothing at all. -/
theorem build_titles (e : Extractor) (lines : List Line) (rules : List SuppressRule)
    (fileName : Option Text) :
    (build e lines rules fileName).titles =
      (if needsRoot lines then [(0, [])] else []) ++
        (lines.filter Line.isTitle).map (titleOf e) := by
  have hStart : (startOf lines rules fileName).titles =
      if needsRoot lines then [(0, [])] else [] := by
    rw [Builder.titles, startOf_sections]
    split <;> rfl
  rw [build_eq_foldl, Group.foldl_add_titles, hStart, groups_titles]
  by_cases hRoot : needsRoot lines = true
  · left
    simp [hStart, hRoot]
  · right
    intro g hHead
    obtain ⟨l, hFind, afterList, hRole⟩ := head?_groups hHead
    have hLevel : 0 < l.sectionLevel := by
      simp only [needsRoot, hFind, beq_iff_eq] at hRoot
      omega
    obtain ⟨role, taken⟩ := g
    obtain rfl : role = Role.of afterList l := hRole
    rw [Group.titles_of, if_pos hLevel]
    exact List.cons_ne_nil _ _

/-! ## What is seen of headers -/

section Visible

variable (hBlank : ∀ c ∈ e.separator, isBlank c = true)

include hBlank

theorem sentences_singleton_visible {l : Line} (hText : l.isEmpty = false) :
    (Line.sentences e [l]).flatMap Sentence.visible = l.visible := by
  have hGlyphs := Passage.ofLines_glyphs e.separator l [] (Line.glyphsOf_ne_nil hText)
  rw [Line.sentences, Passage.sentences_visible, hGlyphs, Passage.joined_visible hBlank]
  simp

variable {lines : List Line} {rules : List SuppressRule} {fileName : Option Text}
  {tokenizer : Option Tokenizer}

/-- What is seen of a header is seen of one line, which has the level of the section. -/
theorem exists_line_of_header {s : Section Sentence}
    (h : s ∈ ((build e lines rules fileName).build tokenizer).sections) {p : Char × Position}
    (hSeen : p ∈ s.header.flatMap Sentence.visible) :
    ∃ l ∈ lines, l.isTitle = true ∧ s.level = l.sectionLevel ∧ p ∈ l.visible := by
  rw [Builder.build_sections] at h
  obtain ⟨built, hBuilt, rfl⟩ := List.mem_map.mp h
  have hTitle : built.title ∈ (build e lines rules fileName).titles := List.mem_map_of_mem hBuilt
  have hHeader : p ∈ built.header.flatMap Sentence.visible := by
    simpa [Section.map, List.flatMap_map] using hSeen
  rw [build_titles] at hTitle
  rcases List.mem_append.mp hTitle with hRoot | hLines
  · have hNone : built.header = [] := by
      split at hRoot
      · exact congrArg Prod.snd (List.mem_singleton.mp hRoot)
      · cases hRoot
    rw [hNone] at hHeader
    cases hHeader
  · obtain ⟨l, hMem, hSame⟩ := List.mem_map.mp hLines
    obtain ⟨hLine, hIs⟩ := List.mem_filter.mp hMem
    obtain ⟨hLevel, hSentences⟩ := Prod.mk.inj hSame
    refine ⟨l, hLine, hIs, hLevel.symm, ?_⟩
    rwa [← hSentences, sentences_singleton_visible hBlank (Line.isEmpty_of_isTitle hIs)] at hHeader

/-- Every header has a section, in which all is seen that is seen of the line. -/
theorem exists_section_of_isTitle {l : Line} (hLine : l ∈ lines) (hTitle : l.isTitle = true)
    (rules : List SuppressRule) (fileName : Option Text) (tokenizer : Option Tokenizer) :
    ∃ s ∈ ((build e lines rules fileName).build tokenizer).sections,
      s.level = l.sectionLevel ∧ s.header.flatMap Sentence.visible = l.visible := by
  have hIn : titleOf e l ∈ (build e lines rules fileName).titles := by
    rw [build_titles]
    exact List.mem_append_right _ (List.mem_map_of_mem (List.mem_filter.mpr ⟨hLine, hTitle⟩))
  obtain ⟨built, hBuilt, hSame⟩ := List.mem_map.mp hIn
  obtain ⟨hLevel, hHeader⟩ := Prod.mk.inj hSame
  refine ⟨built.map (Sentence.finish tokenizer), ?_, hLevel, ?_⟩
  · rw [Builder.build_sections]
    exact List.mem_map_of_mem hBuilt
  · calc
      _ = built.header.flatMap Sentence.visible := by simp [Section.map, List.flatMap_map]
      _ = l.visible := by
        rw [hHeader]
        exact sentences_singleton_visible hBlank (Line.isEmpty_of_isTitle hTitle)

end Visible

end Layout

/-! ## What is seen in headers alone -/

/-- The characters are in the header of one section, which has the level, and none of them is in a
paragraph or a list. -/
def Document.IsHeader (d : Document Sentence) (level : Nat) (seen : List (Char × Position)) :
    Prop :=
  (∃ s ∈ d.sections, s.level = level ∧ ∀ p ∈ seen, p ∈ s.header.flatMap Sentence.visible) ∧
    ∀ s ∈ d.sections, ∀ p ∈ seen,
      p ∉ (s.paragraphSentences ++ s.listSentences).flatMap Sentence.visible

instance (d : Document Sentence) (level : Nat) (seen : List (Char × Position)) :
    Decidable (d.IsHeader level seen) := inferInstanceAs (Decidable (_ ∧ _))

/-- What is seen of headers is seen nowhere else, since a document shows nothing twice. -/
theorem Document.not_mem_body {d : Document Sentence}
    (hNodup : (d.sentences.flatMap Sentence.visible).Nodup) {s r : Section Sentence}
    (hSection : s ∈ d.sections) (hOther : r ∈ d.sections) {p : Char × Position}
    (hHeader : p ∈ s.header.flatMap Sentence.visible) :
    p ∉ (r.paragraphSentences ++ r.listSentences).flatMap Sentence.visible := by
  have hParts : (d.sentences.flatMap Sentence.visible).Perm
      (d.sections.flatMap (fun s => s.header.flatMap Sentence.visible) ++
        d.sections.flatMap fun s =>
          (s.paragraphSentences ++ s.listSentences).flatMap Sentence.visible) := by
    rw [Document.sentences, List.flatMap_assoc]
    refine List.Perm.symm ((List.flatMap_append_perm _ _ _).trans (.of_eq ?_))
    simp [Section.sentences, List.append_assoc]
  intro hBody
  have hApart := (List.nodup_append.mp (hParts.nodup_iff.mp hNodup)).2.2
  exact hApart p (List.mem_flatMap.mpr ⟨s, hSection, hHeader⟩) p
    (List.mem_flatMap.mpr ⟨r, hOther, hBody⟩) rfl

end ProseLint
