import ProseLint.Proofs.Document.Relabeling
import ProseLint.Proofs.Layout.Groups
import ProseLint.Proofs.List.Map
import ProseLint.Proofs.Source.Moving

/-! Documents with one more line in their source. What stands below the new line is lowered by
one, and when the new line is empty and stands behind another empty line, nothing else is. -/

namespace ProseLint

/-- A line number as it is when one more line stands behind line `n`. -/
def loweredNumber (n : Nat) (line : Int) : Int := if line ≤ n then line else line + 1

theorem loweredNumber_zero (n : Nat) : loweredNumber n 0 = 0 := if_pos (Int.natCast_nonneg n)

/-- The place as it is when one more line stands behind line `n`. -/
def Position.lowered (n : Nat) (p : Position) : Position := ⟨loweredNumber n p.line, p.offset⟩

/-- The character with its place lowered. -/
def Glyph.lowered (n : Nat) (g : Glyph) : Glyph := { g with position := g.position.lowered n }

namespace SuppressRule

/-- The rule with the line lowered from which it counts. -/
def lowered (n : Nat) (r : SuppressRule) : SuppressRule :=
  { r with line := loweredNumber n r.line }

variable {n : Nat} {r : SuppressRule}

theorem lowered_eq_self (h : r.line ≤ n) : r.lowered n = r := by
  simp only [lowered, loweredNumber, if_pos h]

theorem lowered_moved (h : 0 < r.line) : (r.moved n).lowered n = r.moved (n + 1) := by
  have hBelow : ¬ r.line + n ≤ n := by omega
  simp only [lowered, moved, loweredNumber, if_neg hBelow, Int.natCast_add, Int.natCast_one,
    Int.add_assoc]

end SuppressRule

namespace Line

/-- The line as it is when one more line stands behind line `n`. -/
def lowered (n : Nat) (l : Line) : Line :=
  { l with number := if l.number ≤ n then l.number else l.number + 1 }

variable (n : Nat) (l : Line)

theorem lowered_number : ((l.lowered n).number : Int) = loweredNumber n l.number := by
  simp only [lowered, loweredNumber]
  split <;> split <;> omega

@[simp] theorem lowered_isEmpty : (l.lowered n).isEmpty = l.isEmpty := rfl

variable {n l}

theorem lowered_eq_self (h : l.number ≤ n) : l.lowered n = l := by
  simp only [lowered, if_pos h]

theorem lowered_moved (h : 0 < l.number) : (l.moved n).lowered n = l.moved (n + 1) := by
  have hBelow : ¬ l.number + n ≤ n := by omega
  simp only [lowered, moved, if_neg hBelow, Nat.add_assoc]

end Line

namespace Sentence

/-- The sentence with its places lowered. -/
def lowered (n : Nat) (s : Sentence) : Sentence :=
  { s with line := loweredNumber n s.line, positions := s.positions.map (.lowered n) }

theorem ofPositions_lowered (n : Nat) (content : Text) (positions : List Position)
    (links : List Text) (markup : List (Int × Int)) :
    ofPositions content (positions.map (.lowered n)) links markup =
      (ofPositions content positions links markup).lowered n := by
  cases positions with
  | nil =>
      -- Without places the sentence stands on line 0, and no new line is above that.
      simp only [ofPositions, atPlace, lowered, List.map_nil, List.head?_nil, Option.getD_none,
        List.isEmpty_nil, if_true, loweredNumber_zero, positionsFrom, List.map_map]
      congr 1
  | cons p rest => rfl

end Sentence

/-! ## Passages -/

namespace Passage

/-- The passage with its places lowered. -/
def lowered (n : Nat) (p : Passage) : Passage := { p with glyphs := p.glyphs.map (.lowered n) }

variable (n : Nat)

theorem glyphsOf_lowered (l : Line) :
    glyphsOf (l.lowered n) = (glyphsOf l).map (.lowered n) := by
  simp only [glyphsOf, List.map_map]
  apply List.map_congr_left
  intro c hMem
  simp only [Function.comp_apply, Glyph.lowered, Position.lowered, Line.lowered_number]

theorem linksOf_lowered (base : Nat) (l : Line) : linksOf base (l.lowered n) = linksOf base l := by
  have hLength : (glyphsOf (l.lowered n)).length = (glyphsOf l).length := by
    rw [glyphsOf_lowered, List.length_map]
  unfold linksOf
  rw [hLength]
  rfl

theorem separatorAfter_lowered (separator : Option Char) (l : Line) :
    separatorAfter separator (l.lowered n) = (separatorAfter separator l).map (.lowered n) := by
  cases separator with
  | none => rfl
  | some c =>
      simp only [separatorAfter, List.map_cons, List.map_nil, Glyph.lowered, Position.lowered,
        Line.lowered_number]
      rfl

theorem append_lowered (separator : Option Char) (p : Passage) (previous : Option Line)
    (l : Line) :
    (p.lowered n).append separator (previous.map (.lowered n)) (l.lowered n) =
      (p.append separator previous l).lowered n := by
  cases previous with
  | none =>
      simp only [append, lowered, Option.map_none, glyphsOf_lowered, linksOf_lowered,
        List.map_append, List.length_append, List.length_map, List.map_nil]
  | some before =>
      simp only [append, lowered, Option.map_some, glyphsOf_lowered, linksOf_lowered,
        separatorAfter_lowered, List.isEmpty_map]
      split <;> simp

theorem appendAll_lowered (separator : Option Char) (p : Passage) (previous : Option Line)
    (lines : List Line) :
    appendAll separator (p.lowered n) (previous.map (.lowered n)) (lines.map (.lowered n)) =
      (appendAll separator p previous lines).lowered n := by
  induction lines generalizing p previous with
  | nil => rfl
  | cons l rest ih =>
      rw [List.map_cons, appendAll, append_lowered]
      exact ih _ (some l)

theorem sentenceOf_lowered (p : Passage) (links : List Text) (span : Nat × Nat) :
    (p.lowered n).sentenceOf links span = (p.sentenceOf links span).lowered n := by
  simp only [sentenceOf, ← Sentence.ofPositions_lowered, lowered, ← List.map_take,
    ← List.map_drop, List.map_map]
  rfl

theorem sentences_lowered (e : Extractor) (p : Passage) :
    (p.lowered n).sentences e = (p.sentences e).map (.lowered n) := by
  have hContent : (p.lowered n).content = p.content := by
    rw [content, content, lowered, List.map_map]
    rfl
  rw [sentences, sentences, hContent, map_mapIdx]
  simp only [sentenceOf_lowered]
  rfl

end Passage

theorem Line.sentences_lowered (n : Nat) (e : Extractor) (lines : List Line) :
    Line.sentences e (lines.map (.lowered n)) = (Line.sentences e lines).map (.lowered n) := by
  rw [Line.sentences, Line.sentences, ← Passage.sentences_lowered]
  exact congrArg _ (Passage.appendAll_lowered n e.separator ⟨[], []⟩ none lines)

/-! ## Layout -/

namespace Layout

theorem Role.takes_lowered (n : Nat) (role : Role) (l : Line) :
    role.takes (l.lowered n) = role.takes l := by
  cases role <;> rfl

namespace Group

/-- The group with its lines lowered. -/
def lowered (n : Nat) (g : Group) : Group := ⟨g.role, g.lines.map (.lowered n)⟩

theorem operations_lowered (n : Nat) (e : Extractor) (g : Group) :
    (g.lowered n).operations e =
      (g.operations e).map (.relabel (Sentence.lowered n) (SuppressRule.lowered n)) := by
  obtain ⟨role, lines⟩ := g
  unfold operations lowered
  cases role with
  | header level | element level | continuation level =>
      simp only [Line.sentences_lowered]
      rfl
  | paragraph =>
      simp only [Line.sentences_lowered, List.map_cons, List.map_map]
      rfl

end Group

theorem groups_lowered (n : Nat) (inList : Bool) (lines : List Line) :
    groups inList (lines.map (.lowered n)) = (groups inList lines).map (.lowered n) := by
  induction inList, lines using groups.induct with
  | case1 inList => simp [groups]
  | case2 inList l rest hEmpty ih =>
      rw [List.map_cons, groups, groups, Line.lowered_isEmpty, if_pos hEmpty, if_pos hEmpty, ih]
  | case3 inList l rest hText role ih =>
      have hRole : Role.of inList (l.lowered n) = role := rfl
      have hTakes : role.takes ∘ Line.lowered n = role.takes :=
        funext fun m => Role.takes_lowered n role m
      rw [List.map_cons, groups, groups, Line.lowered_isEmpty, if_neg hText, if_neg hText]
      simp only [hRole, List.takeWhile_map, List.dropWhile_map, hTakes, ih]
      rfl

theorem needsRoot_lowered (n : Nat) (lines : List Line) :
    needsRoot (lines.map (.lowered n)) = needsRoot lines := by
  have hEmpty : (fun l : Line => !l.isEmpty) ∘ Line.lowered n = fun l => !l.isEmpty := rfl
  unfold needsRoot
  rw [List.find?_map, hEmpty]
  cases lines.find? fun l => !l.isEmpty with
  | none => rfl
  | some l => rfl

theorem operations_lowered (n : Nat) (e : Extractor) (lines : List Line)
    (rules : List SuppressRule) (fileName : Option Text) :
    operations e (lines.map (.lowered n)) (rules.map (.lowered n)) fileName =
      (operations e lines rules fileName).map
        (.relabel (Sentence.lowered n) (SuppressRule.lowered n)) := by
  have hGroups : (groups false (lines.map (.lowered n))).flatMap (Group.operations e) =
      ((groups false lines).flatMap (Group.operations e)).map
        (.relabel (Sentence.lowered n) (SuppressRule.lowered n)) := by
    rw [groups_lowered, List.flatMap_map, List.map_flatMap]
    simp only [Group.operations_lowered]
  have hRoot : (if needsRoot lines then [Builder.Operation.addSection 0 []] else []).map
        (Builder.Operation.relabel (Sentence.lowered n) (SuppressRule.lowered n)) =
      if needsRoot lines then [Builder.Operation.addSection 0 []] else [] := by
    split <;> rfl
  simp only [operations, needsRoot_lowered, hGroups, List.map_cons, List.map_append, hRoot,
    List.map_map]
  rfl

/-- Lowered lines are laid out as the lowered document. -/
theorem build_lowered (n : Nat) (e : Extractor) (lines : List Line) (rules : List SuppressRule)
    (fileName : Option Text) :
    build e (lines.map (.lowered n)) (rules.map (.lowered n)) fileName =
      (build e lines rules fileName).relabel (.lowered n) (.lowered n) := by
  rw [build_eq_run, build_eq_run, operations_lowered, Builder.run_relabel]

/-! ## One more empty line -/

section Empty

variable {first second : Line} (hFirst : first.isEmpty = true) (hSecond : second.isEmpty = true)

include hFirst hSecond

theorem groups_insert_empty (inList : Bool) (above below : List Line) :
    groups inList (above ++ first :: second :: below) =
      groups inList (above ++ first :: below) := by
  induction inList, above using groups.induct with
  | case1 inList =>
      simp only [List.nil_append, groups, if_pos hFirst, if_pos hSecond]
  | case2 inList l rest hEmpty ih =>
      rw [List.cons_append, List.cons_append, groups, groups, if_pos hEmpty, if_pos hEmpty, ih]
  | case3 inList l rest hText role ih =>
      have hStop : role.takes first = false := Role.takes_eq_false hFirst
      have hRole : Role.of inList l = role := rfl
      rw [List.cons_append, List.cons_append, groups, groups, if_neg hText, if_neg hText]
      simp only [hRole, takeWhile_append_cons hStop, dropWhile_append_cons hStop, ih]

theorem needsRoot_insert_empty (above below : List Line) :
    needsRoot (above ++ first :: second :: below) = needsRoot (above ++ first :: below) := by
  simp only [needsRoot, List.find?_append, List.find?_cons, hFirst, hSecond, Bool.not_true]

/-- Behind an empty line one more empty line makes no difference. -/
theorem build_insert_empty (e : Extractor) (above below : List Line) (rules : List SuppressRule)
    (fileName : Option Text) :
    build e (above ++ first :: second :: below) rules fileName =
      build e (above ++ first :: below) rules fileName := by
  rw [build_eq_run, build_eq_run, operations, operations, groups_insert_empty hFirst hSecond,
    needsRoot_insert_empty hFirst hSecond]

end Empty

end Layout

/-! ## Documents -/

/-- The document with its places and its rules lowered. -/
def Document.lowered (n : Nat) (d : Document Sentence) : Document Sentence :=
  { d.map (Sentence.lowered n) with rules := d.rules.map (.lowered n) }

theorem Document.lowered_sentences (n : Nat) (d : Document Sentence) :
    (d.lowered n).sentences = d.sentences.map (.lowered n) := by
  simp only [sentences, lowered, map, List.flatMap_map, List.map_flatMap, Section.map_sentences]

theorem Builder.build_lowered (n : Nat) (b : Builder) (tokenizer : Option Tokenizer) :
    (b.relabel (.lowered n) (.lowered n)).build tokenizer = (b.build tokenizer).lowered n := by
  cases tokenizer with
  | none => rfl
  | some t =>
      have hTokens : Sentence.tokenize t ∘ Sentence.lowered n =
          Sentence.lowered n ∘ Sentence.tokenize t := rfl
      simp only [build, relabel, Document.lowered, Document.map, List.map_map,
        Section.map_comp_map, hTokens]

end ProseLint
