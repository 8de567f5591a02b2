import ProseLint.Proofs.List.Map
import ProseLint.Proofs.Text.Tokens
import ProseLint.Text.Entity
import Mathlib.Tactic.SplitIfs

/-! Reading marked-up text. A reader goes from one angle bracket to the next: it comes across tags,
with attributes whose values are in quotes, and the characters between tags, with entities for those
that would mean something else. Escaped text cannot end an attribute, and cannot begin or end a
tag. -/

namespace ProseLint

namespace Text

/-! ## Entities -/

/-- The text with the five entities of `escapeMarkup` read as the characters they stand for. Any
other ampersand is left as it is. -/
def unescapeMarkup : Text → Text
  | '&' :: 'a' :: 'm' :: 'p' :: ';' :: rest => '&' :: unescapeMarkup rest
  | '&' :: 'l' :: 't' :: ';' :: rest => '<' :: unescapeMarkup rest
  | '&' :: 'g' :: 't' :: ';' :: rest => '>' :: unescapeMarkup rest
  | '&' :: '#' :: '3' :: '9' :: ';' :: rest => '\'' :: unescapeMarkup rest
  | '&' :: '#' :: '3' :: '4' :: ';' :: rest => '"' :: unescapeMarkup rest
  | c :: rest => c :: unescapeMarkup rest
  | [] => []

theorem unescapeMarkup_cons {c : Char} (h : c ≠ '&') (rest : Text) :
    unescapeMarkup (c :: rest) = c :: unescapeMarkup rest := by
  conv => lhs; unfold unescapeMarkup
  split <;> simp_all

theorem unescapeMarkup_entityOf (c : Char) (rest : Text) :
    unescapeMarkup (entityOf c ++ rest) = c :: unescapeMarkup rest := by
  unfold entityOf
  split_ifs with hAnd hLess hGreater hSingle hDouble
  · rw [hAnd]; rfl
  · rw [hLess]; rfl
  · rw [hGreater]; rfl
  · rw [hSingle]; rfl
  · rw [hDouble]; rfl
  · exact unescapeMarkup_cons hAnd rest

theorem unescapeMarkup_escapeMarkup (t : Text) : unescapeMarkup (escapeMarkup t) = t := by
  induction t with
  | nil => rfl
  | cons c t ih => rw [escapeMarkup, List.flatMap_cons, unescapeMarkup_entityOf, ← escapeMarkup, ih]

theorem not_mem_entityOf (c : Char) : ∀ mark ∈ ['<', '>', '"'], mark ∉ entityOf c := by
  unfold entityOf
  split_ifs with hAnd hLess hGreater hSingle hDouble
  iterate 5 exact forall_mem_of_all (by decide)
  simpa [eq_comm] using ⟨hLess, hGreater, hDouble⟩

/-- Escaped text has nothing in it that ends an attribute or begins or ends a tag. -/
theorem not_mem_escapeMarkup (t : Text) : ∀ mark ∈ ['<', '>', '"'], mark ∉ escapeMarkup t := by
  intro mark hMark hMem
  obtain ⟨c, _, hIn⟩ := List.mem_flatMap.mp hMem
  exact not_mem_entityOf c mark hMark hIn

end Text

namespace Markup

/-! ## The reader -/

/-- What a reader comes across: the declaration in front, opening and closing tags, and the
characters between tags, which may be none. -/
inductive Event where
  | declaration (name : Text) (attributes : List (Text × Text))
  | opening (name : Text) (attributes : List (Text × Text))
  | closing (name : Text)
  | characters (t : Text)
  deriving DecidableEq, Repr

/-- A tag up to the bracket that ends it, and what is behind. A bracket in quotes ends no tag. -/
def tagEnd? (quoted : Bool) : Text → Option (Text × Text)
  | [] => none
  | c :: rest =>
      if c = '>' && !quoted then some ([], rest)
      else (tagEnd? (quoted ^^ c == '"') rest).map fun p => (c :: p.1, p.2)

/-- Whether a text is a name: word characters and hyphens. -/
def isName (t : Text) : Bool := !t.isEmpty && t.all fun c => isWordChar c || c == '-'

/-- The name of an attribute, with white space before it and an equals sign behind it. -/
def attributeName? (t : Text) : Option Text :=
  let name := t.stripLeft.dropLast
  if t.head?.any isBlank && t.getLast? == some '=' && isName name then some name else none

/-- The attributes of a tag, which is cut at its quotes: each value is between two of them. -/
def attributes? : List Text → Option (List (Text × Text))
  | before :: value :: rest => do
      let name ← attributeName? before
      let later ← attributes? rest
      return (name, Text.unescapeMarkup value) :: later
  | [last] => if last.isAllBlank then some [] else none
  | [] => none

/-- A name with attributes behind it. -/
def named? (t : Text) : Option (Text × List (Text × Text)) :=
  let name := t.takeWhile (!isBlank ·)
  if isName name then
    (attributes? (Text.splitOn '"' (t.dropWhile (!isBlank ·)))).map fun attributes =>
      (name, attributes)
  else none

/-- What a tag says that is given without its brackets. -/
def tag? (inner : Text) : Option Event :=
  match inner with
  | '?' :: rest =>
      if rest.getLast? = some '?' then
        (named? rest.dropLast).map fun p => .declaration p.1 p.2
      else none
  | '/' :: name => if isName name then some (.closing name) else none
  | _ => (named? inner).map fun p => .opening p.1 p.2

/-- A tag without its first bracket, and the characters up to the next tag. -/
def piece? (piece : Text) : Option (List Event) := do
  let (inner, behind) ← tagEnd? false piece
  let tag ← tag? inner
  return [tag, .characters (Text.unescapeMarkup behind)]

/-- Everything in a marked-up text, in order. No answer means that the text is not marked up
properly. -/
def events? (t : Text) : Option (List Event) :=
  match Text.splitOn '<' t with
  | [] => none
  | first :: pieces =>
      (pieces.mapM piece?).map fun read => .characters (Text.unescapeMarkup first) :: read.flatten

/-- Brackets in the value of an attribute end no tag, and entities are read in values and between
tags. -/
example : events? "<a  b=\"1>&gt;\">x&lt;</a>".toList =
    some [.characters [], .opening "a".toList [("b".toList, "1>>".toList)],
      .characters "x<".toList, .closing "a".toList, .characters []] := rfl

/-! ## Names and attributes -/

/-- A name has no white space in it and nothing that is a mark of its own in a tag. -/
theorem not_mem_of_isName {name : Text} (h : isName name = true) :
    (∀ c ∈ name, isBlank c = false) ∧ ∀ mark ∈ ['<', '>', '"', '?', '/'], mark ∉ name := by
  obtain ⟨_, hAll⟩ := Bool.and_eq_true_iff.mp h
  have hChar : ∀ c ∈ name, isWordChar c = true ∨ c = '-' := by simpa using hAll
  refine ⟨fun c hMem => ?_, fun mark hMark hMem => ?_⟩
  · rcases hChar c hMem with hWord | rfl
    · exact isBlank_of_isWordChar hWord
    · decide
  · have hNone : ∀ mark ∈ ['<', '>', '"', '?', '/'], isWordChar mark = false ∧ mark ≠ '-' :=
      forall_mem_of_all (by decide +kernel)
    obtain ⟨hOther, hHyphen⟩ := hNone mark hMark
    rcases hChar mark hMem with hWord | hSame
    · rw [hOther] at hWord
      cases hWord
    · exact hHyphen hSame

theorem exists_cons_of_isName {name : Text} (h : isName name = true) :
    ∃ c rest, name = c :: rest ∧ isBlank c = false ∧ c ≠ '?' ∧ c ≠ '/' := by
  obtain ⟨hBlank, hMarks⟩ := not_mem_of_isName h
  cases name with
  | nil => cases h
  | cons c rest =>
      refine ⟨c, rest, rfl, hBlank c List.mem_cons_self, ?_, ?_⟩
      · rintro rfl
        exact hMarks '?' (by decide) List.mem_cons_self
      · rintro rfl
        exact hMarks '/' (by decide) List.mem_cons_self

/-- Attributes as they are written: white space before each name, and the value escaped and in
quotes. -/
inductive Attributes : List (Text × Text) → Text → Prop where
  | nil : Attributes [] []
  | cons {space name value : Text} {later : List (Text × Text)} {t : Text}
      (hSome : space ≠ []) (hSpace : ∀ c ∈ space, isBlank c = true) (hName : isName name = true)
      (hLater : Attributes later t) :
      Attributes ((name, value) :: later)
        (space ++ name ++ ['='] ++ '"' :: (Text.escapeMarkup value ++ '"' :: t))

namespace Attributes

variable {attributes : List (Text × Text)} {t : Text}

/-- There may be more white space in front. -/
theorem layout {first : Text × Text} {later : List (Text × Text)}
    (h : Attributes (first :: later) t) {layout : Text} (hLayout : layout.isAllBlank = true) :
    Attributes (first :: later) (layout ++ t) := by
  cases h with
  | @cons space name value _ t hSome hSpace hName hLater =>
      have hMore : ∀ c ∈ layout ++ space, isBlank c = true :=
        List.forall_mem_append.mpr ⟨List.all_eq_true.mp hLayout, hSpace⟩
      have hWritten : Attributes ((name, value) :: later) _ :=
        .cons (List.append_ne_nil_of_right_ne_nil layout hSome) hMore hName hLater
      simpa only [List.append_assoc] using hWritten

theorem not_mem_before {space name : Text} (hSpace : ∀ c ∈ space, isBlank c = true)
    (hName : isName name = true) :
    ∀ mark ∈ ['<', '>', '"'], mark ∉ space ++ name ++ ['='] := by
  intro mark hMark hMem
  have hOther : ∀ mark ∈ ['<', '>', '"'], isBlank mark = false ∧ mark ≠ '=' ∧
      mark ∈ ['<', '>', '"', '?', '/'] := forall_mem_of_all (by decide)
  obtain ⟨hSeen, hEquals, hKnown⟩ := hOther mark hMark
  rcases List.mem_append.mp hMem with hFront | hSame
  · rcases List.mem_append.mp hFront with hIn | hIn
    · rw [hSpace mark hIn] at hSeen
      cases hSeen
    · exact (not_mem_of_isName hName).2 mark hKnown hIn
  · exact hEquals (List.mem_singleton.mp hSame)

theorem within (h : Attributes attributes t) : ∀ mark ∈ ['<', '>'], mark ∉ t := by
  intro mark hMark
  have hAlso : mark ∈ ['<', '>', '"'] := List.mem_append_left ['"'] hMark
  have hQuote : mark ≠ '"' := by
    rintro rfl
    simp at hMark
  induction h with
  | nil => exact List.not_mem_nil
  | @cons space name value _ _ _ hSpace hName _ ih =>
      intro hMem
      rcases List.mem_append.mp hMem with hBefore | hMem
      · exact not_mem_before hSpace hName mark hAlso hBefore
      · rcases List.mem_append.mp ((List.mem_cons.mp hMem).resolve_left hQuote) with hValue | hMem
        · exact Text.not_mem_escapeMarkup value mark hAlso hValue
        · exact ih ((List.mem_cons.mp hMem).resolve_left hQuote)

theorem attributeName?_eq {space name : Text} (hSome : space ≠ [])
    (hSpace : ∀ c ∈ space, isBlank c = true) (hName : isName name = true) :
    attributeName? (space ++ name ++ ['=']) = some name := by
  obtain ⟨first, more, rfl⟩ := List.exists_cons_of_ne_nil hSome
  obtain ⟨c, rest, rfl, hSeen, _⟩ := exists_cons_of_isName hName
  have hStrip : Text.stripLeft (first :: more ++ (c :: rest) ++ ['=']) = c :: rest ++ ['='] := by
    rw [List.append_assoc, Text.stripLeft, List.dropWhile_append_of_pos hSpace]
    simp [hSeen]
  unfold attributeName?
  simp only [hStrip, List.dropLast_concat, List.getLast?_concat, hName]
  simp [hSpace first List.mem_cons_self]

theorem reads (h : Attributes attributes t) :
    attributes? (Text.splitOn '"' t) = some attributes := by
  induction h with
  | nil => rfl
  | @cons space name value _ t hSome hSpace hName _ ih =>
      rw [Text.splitOn_append_cons (not_mem_before hSpace hName _ (by decide)),
        Text.splitOn_append_cons (Text.not_mem_escapeMarkup value _ (by decide)), attributes?,
        attributeName?_eq hSome hSpace hName, ih, Text.unescapeMarkup_escapeMarkup]
      rfl

end Attributes

/-! ## Written tags -/

/-- The text is a tag without its brackets that can be read. -/
structure IsTag (inner : Text) (tag : Event) : Prop where
  within : '<' ∉ inner ∧ '>' ∉ inner
  ends : ∀ behind, tagEnd? false (inner ++ '>' :: behind) = some (inner, behind)
  reads : tag? inner = some tag

/-- A stretch of text that ends with a tag, with its tags, each without its first bracket, and with
what a reader comes across in it. -/
structure Writes (t : Text) (tags : List Text) (events : List Event) : Prop where
  reads : ∀ rest, events? (t ++ rest) = (events? rest).map (events ++ ·)
  counts : ∀ start, '>' ∉ start.dropLast → ∀ rest,
    ((t ++ rest).occurrences ('<' :: start)).length =
      tags.countP (start.isPrefixOf ·) + (rest.occurrences ('<' :: start)).length

/-- What stands at the first bracket of a tag is decided within the tag. -/
theorem isPrefixOf_tag {start : Text} (hStart : '>' ∉ start.dropLast) (inner rest : Text) :
    start.isPrefixOf (inner ++ '>' :: rest) = start.isPrefixOf (inner ++ ['>']) := by
  have hWhole : inner ++ ['>'] <+: inner ++ '>' :: rest := ⟨rest, by simp⟩
  rw [Bool.eq_iff_iff, List.isPrefixOf_iff_prefix, List.isPrefixOf_iff_prefix]
  refine ⟨fun hPrefix => ?_, fun hPrefix => hPrefix.trans hWhole⟩
  refine List.prefix_of_prefix_length_le hPrefix hWhole (Nat.le_of_not_lt fun hLt => hStart ?_)
  -- A longer start has the closing bracket of the tag in it, and something behind that.
  obtain ⟨more, rfl⟩ := List.prefix_of_prefix_length_le hWhole hPrefix (Nat.le_of_lt hLt)
  have hMore : more ≠ [] := by
    rintro rfl
    simp at hLt
  rw [List.dropLast_append_of_ne_nil hMore]
  simp

namespace Writes

theorem nil : Writes [] [] [] := ⟨fun rest => by simp, fun _ _ rest => by simp⟩

theorem append {t u : Text} {tags more : List Text} {events later : List Event}
    (h : Writes t tags events) (hNext : Writes u more later) :
    Writes (t ++ u) (tags ++ more) (events ++ later) := by
  refine ⟨fun rest => ?_, fun start hStart rest => ?_⟩
  · rw [List.append_assoc, h.reads, hNext.reads, Option.map_map]
    simp only [Function.comp_def, List.append_assoc]
  · rw [List.append_assoc, h.counts start hStart, hNext.counts start hStart, List.countP_append,
      Nat.add_assoc]

theorem flatMap {α : Type} {write : α → Text} {tags : α → List Text} {events : α → List Event}
    (h : ∀ a, Writes (write a) (tags a) (events a)) (l : List α) :
    Writes (l.flatMap write) (l.flatMap tags) (l.flatMap events) := by
  induction l with
  | nil => exact nil
  | cons a l ih => exact (h a).append ih

/-- Escaped text with a tag behind it. -/
theorem tag (t : Text) {inner : Text} {tag : Event} (hTag : IsTag inner tag) :
    Writes (Text.escapeMarkup t ++ '<' :: (inner ++ ['>'])) [inner ++ ['>']]
      [.characters t, tag] := by
  obtain ⟨⟨hOpening, hClosing⟩, hEnds, hReads⟩ := hTag
  have hText : '<' ∉ Text.escapeMarkup t := Text.not_mem_escapeMarkup t '<' (by decide)
  refine ⟨fun rest => ?_, fun start hStart rest => ?_⟩
  · have hNone : '<' ∉ inner ++ ['>'] := by simp [hOpening]
    obtain ⟨first, pieces, hRest, hSplit⟩ := Text.splitOn_append hNone rest
    have hPiece : piece? (inner ++ '>' :: first) =
        some [tag, .characters (Text.unescapeMarkup first)] := by
      rw [piece?, hEnds]
      simp [hReads]
    rw [List.append_assoc, List.cons_append, events?, events?, Text.splitOn_append_cons hText,
      hSplit, hRest, List.append_assoc, List.singleton_append]
    simp only [List.mapM_cons, hPiece, Text.unescapeMarkup_escapeMarkup]
    cases pieces.mapM piece? <;> rfl
  · rw [List.append_assoc, Text.length_occurrences_append hText, List.cons_append,
      Text.length_occurrences_cons, Text.length_occurrences_append (by simp [hOpening]),
      List.append_assoc, List.isPrefixOf_cons_cons, beq_self_eq_true, Bool.true_and,
      List.singleton_append, isPrefixOf_tag hStart]
    simp

end Writes

end Markup

end ProseLint
