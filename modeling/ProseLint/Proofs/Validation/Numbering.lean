import ProseLint.Validation.Site
import ProseLint.Proofs.List.Map

/-! Numbering the sentences of a document gives each one its index in reading order and
changes nothing else. -/

namespace ProseLint

namespace Site

theorem number_cons (n : Nat) (s : Sentence) (rest : List Sentence) :
    number n (s :: rest) = ⟨n, s⟩ :: number (n + 1) rest := rfl

theorem number_eq_mapIdx (n : Nat) (sentences : List Sentence) :
    number n sentences = sentences.mapIdx fun i s => ⟨n + i, s⟩ := by
  induction sentences generalizing n with
  | nil => rfl
  | cons s rest ih =>
      rw [number_cons, ih, List.mapIdx_cons]
      congr 1
      refine congrArg (rest.mapIdx ·) (funext fun i => funext fun t => ?_)
      rw [Nat.add_right_comm, Nat.add_assoc]

theorem number_append (n : Nat) (before after : List Sentence) :
    number n (before ++ after) = number n before ++ number (n + before.length) after := by
  induction before generalizing n with
  | nil => rfl
  | cons s rest ih =>
      rw [List.cons_append, number_cons, number_cons, ih, List.cons_append, List.length_cons,
        Nat.add_right_comm, Nat.add_assoc]

theorem map_number (n : Nat) (sentences : List Sentence) :
    (number n sentences).map (·.sentence) = sentences := by
  induction sentences generalizing n with
  | nil => rfl
  | cons s rest ih => rw [number_cons, List.map_cons, ih]

/-! ## The parts of a section

Each part is numbered from its first sentence on, and the parts behind it from where it ends. -/

theorem numberAll_cons (n : Nat) (group : List Sentence) (rest : List (List Sentence)) :
    numberAll n (group :: rest) = number n group :: numberAll (n + group.length) rest := rfl

theorem numberElements_cons (n : Nat) (e : ListElement Sentence)
    (rest : List (ListElement Sentence)) :
    numberElements n (e :: rest) =
      ⟨e.level, number n e.sentences⟩ :: numberElements (n + e.sentences.length) rest := rfl

theorem numberBlocks_cons (n : Nat) (block : List (ListElement Sentence))
    (rest : List (List (ListElement Sentence))) :
    numberBlocks n (block :: rest) =
      numberElements n block :: numberBlocks (n + (block.flatMap (·.sentences)).length) rest := rfl

theorem numberAll_flatten (n : Nat) (groups : List (List Sentence)) :
    (numberAll n groups).flatten = number n groups.flatten := by
  induction groups generalizing n with
  | nil => rfl
  | cons group rest ih =>
      rw [numberAll_cons, List.flatten_cons, ih, List.flatten_cons, number_append]

theorem map_numberAll (n : Nat) (groups : List (List Sentence)) :
    (numberAll n groups).map (·.map (·.sentence)) = groups := by
  induction groups generalizing n with
  | nil => rfl
  | cons group rest ih => rw [numberAll_cons, List.map_cons, map_number, ih]

theorem numberElements_flatMap (n : Nat) (block : List (ListElement Sentence)) :
    (numberElements n block).flatMap (·.sentences) = number n (block.flatMap (·.sentences)) := by
  induction block generalizing n with
  | nil => rfl
  | cons e rest ih =>
      rw [numberElements_cons, List.flatMap_cons, ih, List.flatMap_cons, number_append]

theorem map_numberElements (n : Nat) (block : List (ListElement Sentence)) :
    (numberElements n block).map (·.map (·.sentence)) = block := by
  induction block generalizing n with
  | nil => rfl
  | cons e rest ih => rw [numberElements_cons, List.map_cons, ListElement.map, map_number, ih]

theorem numberBlocks_flatMap (n : Nat) (blocks : List (List (ListElement Sentence))) :
    (numberBlocks n blocks).flatten.flatMap (·.sentences) =
      number n (blocks.flatten.flatMap (·.sentences)) := by
  induction blocks generalizing n with
  | nil => rfl
  | cons block rest ih =>
      rw [numberBlocks_cons, List.flatten_cons, List.flatMap_append, numberElements_flatMap, ih,
        List.flatten_cons, List.flatMap_append, number_append]

theorem map_numberBlocks (n : Nat) (blocks : List (List (ListElement Sentence))) :
    (numberBlocks n blocks).map (·.map (·.map (·.sentence))) = blocks := by
  induction blocks generalizing n with
  | nil => rfl
  | cons block rest ih => rw [numberBlocks_cons, List.map_cons, map_numberElements, ih]

/-! ## Sections -/

theorem numberSections_cons (n : Nat) (s : Section Sentence) (rest : List (Section Sentence)) :
    numberSections n (s :: rest) =
      numberSection n s :: numberSections (n + s.sentences.length) rest := rfl

theorem numberSection_sentences (n : Nat) (s : Section Sentence) :
    (numberSection n s).sentences = number n s.sentences := by
  simp only [Section.sentences, Section.paragraphSentences, Section.listSentences, numberSection,
    numberAll_flatten, numberBlocks_flatMap, number_append, List.length_append, Nat.add_assoc]

theorem map_numberSection (n : Nat) (s : Section Sentence) :
    (numberSection n s).map (·.sentence) = s := by
  simp only [Section.map, numberSection, map_number, map_numberAll, map_numberBlocks]

theorem numberSections_flatMap (n : Nat) (sections : List (Section Sentence)) :
    (numberSections n sections).flatMap (·.sentences) =
      number n (sections.flatMap (·.sentences)) := by
  induction sections generalizing n with
  | nil => rfl
  | cons s rest ih =>
      rw [numberSections_cons, List.flatMap_cons, numberSection_sentences, ih, List.flatMap_cons,
        number_append]

theorem map_numberSections (n : Nat) (sections : List (Section Sentence)) :
    (numberSections n sections).map (·.map (·.sentence)) = sections := by
  induction sections generalizing n with
  | nil => rfl
  | cons s rest ih => rw [numberSections_cons, List.map_cons, map_numberSection, ih]

end Site

namespace Document

/-- The sentences of a numbered document are those of the document, each with its index. -/
theorem numbered_sentences (d : Document Sentence) :
    d.numbered.sentences = d.sentences.mapIdx Site.mk := by
  have hIndex := Site.number_eq_mapIdx 0 d.sentences
  simp only [Nat.zero_add] at hIndex
  exact (Site.numberSections_flatMap 0 d.sections).trans hIndex

theorem sentence_mem_of_mem_numbered {d : Document Sentence} {site : Site}
    (h : site ∈ d.numbered.sentences) : site.sentence ∈ d.sentences := by
  rw [numbered_sentences] at h
  obtain ⟨i, hLt, rfl⟩ := List.mem_mapIdx.mp h
  exact List.getElem_mem hLt

/-- Without the numbers a numbered document is what it was. -/
theorem numbered_map (d : Document Sentence) : d.numbered.map (·.sentence) = d := by
  rw [numbered, map, Site.map_numberSections]

end Document

end ProseLint
