import ProseLint.Markup.Review
import ProseLint.Proofs.Source.Blocks
import ProseLint.Proofs.Source.Lines
import ProseLint.Proofs.Text.Pieces

/-! Inline commands of book manuscripts. A line is written as pieces, each of them text or a
command, and of each command just what it shows is left. -/

namespace ProseLint.Review

/-! ## Pieces of a line -/

/-- A piece of a line. -/
inductive Piece where
  | text (content : Text)
  | command (name content : Text)
  deriving DecidableEq, Repr

/-- What stands before the content of a command. -/
def opener (name : Text) : Text := '@' :: '<' :: (name ++ ['>', openBrace])

/-- What is before the first `c` of a text, or the whole text. -/
def partBefore (c : Char) (t : Text) : Text := t.takeWhile (· != c)

/-- What is behind the first `c` of a text. -/
def partBehind? (c : Char) (t : Text) : Option Text :=
  if c ∈ t then some (t.dropWhile (· != c)).tail else none

/-- The label of a link with an address and perhaps a label. -/
def label (content : Text) : Text :=
  match partBehind? ',' content with
  | some label => label.dropWhile (· == ' ')
  | none => content

/-- What a command shows of its content. -/
def shown (name content : Text) : Text :=
  if name ∈ ["fn".toList, "comment".toList, "m".toList, "balloon".toList] then []
  else if name = "href".toList then label content
  else if name ∈ ["kw".toList, "ruby".toList] then partBefore ',' content
  else if name = "raw".toList then (partBehind? '|' content).getD content
  else content

/-- The link of a command whose content is at a position. It stands where the text starts that
is shown of the content. -/
def linkOf? (position : Nat) (name content : Text) : Option (Int × Text) :=
  if name = "href".toList then
    some ((position + (content.length - (label content).length) : Nat),
      (partBefore ',' content).strip)
  else none

namespace Piece

/-- How the piece is written. -/
def source : Piece → Text
  | text content => content
  | command name content => opener name ++ (content ++ [closeBrace])

/-- What is shown of the piece. -/
def display : Piece → Text
  | text content => content
  | command name content => shown name content

/-- The links of pieces that start at a position. -/
def linksFrom (position : Nat) : List Piece → List (Int × Text)
  | [] => []
  | text content :: rest => linksFrom (position + content.length) rest
  | command name content :: rest =>
      (linkOf? (position + (opener name).length) name content).toList ++
        linksFrom (position + (command name content).source.length) rest

end Piece

/-- Names are made of word characters. -/
structure IsName (name : Text) : Prop where
  ne_nil : name ≠ []
  word : ∀ c ∈ name, isWordChar c = true

/-- Commands have names and end at the first closing brace, and nothing else on the line opens a
command. -/
structure Legible (pieces : List Piece) : Prop where
  name : ∀ name content, .command name content ∈ pieces → IsName name
  content : ∀ name content, .command name content ∈ pieces → closeBrace ∉ content
  openers : ∀ front name behind, IsName name →
    pieces.flatMap Piece.source = front ++ (opener name ++ behind) →
      ∃ before name content after, pieces = before ++ .command name content :: after ∧
        front = before.flatMap Piece.source

/-! ## Finding the commands -/

theorem isName_of_commandName? {t name : Text} (h : commandName? t = some name) :
    IsName name ∧ ∃ behind, t = opener name ++ behind := by
  unfold commandName? at h
  split at h
  · next rest =>
      simp only at h
      split at h
      · next hOpens =>
          cases h
          rw [Bool.and_eq_true, Bool.not_eq_true', List.isEmpty_eq_false_iff,
            List.isPrefixOf_iff_prefix] at hOpens
          obtain ⟨hSome, behind, hBehind⟩ := hOpens
          refine ⟨⟨hSome, List.all_eq_true.mp List.all_takeWhile⟩, behind, ?_⟩
          have hRest : rest = rest.takeWhile isWordChar ++ (['>', openBrace] ++ behind) := by
            rw [hBehind, List.takeWhile_append_dropWhile]
          simpa [opener] using hRest
      · cases h
  · cases h

theorem commandName?_opener {name : Text} (h : IsName name) (behind : Text) :
    commandName? (opener name ++ behind) = some name := by
  have hStop : ∀ c ∈ ('>' :: openBrace :: behind).head?, isWordChar c = false := by
    intro c hFirst
    cases hFirst
    decide
  obtain ⟨hTake, hDrop⟩ := span_append h.word hStop
  have hOpener : opener name ++ behind = '@' :: '<' :: (name ++ '>' :: openBrace :: behind) := by
    simp [opener]
  rw [hOpener, commandName?]
  simp [hTake, hDrop, h.ne_nil]

/-- Where no command opens, none is found. -/
theorem commandsFrom_append {head tail : Text}
    (h : ∀ front c behind, head = front ++ c :: behind →
      commandName? (c :: behind ++ tail) = none) (i : Nat) :
    commandsFrom i (head ++ tail) = commandsFrom (i + head.length) tail := by
  induction head generalizing i with
  | nil => rfl
  | cons c head ih =>
      have hNone := h [] c head rfl
      rw [List.cons_append] at hNone
      rw [List.cons_append, commandsFrom, hNone]
      simp only
      rw [ih (fun front d behind hHead => h (c :: front) d behind (by rw [hHead]; rfl)),
        List.length_cons, Nat.add_assoc, Nat.add_comm 1]

/-- The commands among pieces that start at a position. -/
def commandsOf (position : Nat) : List Piece → List Command
  | [] => []
  | .text content :: rest => commandsOf (position + content.length) rest
  | .command name content :: rest =>
      ⟨position, name, position + (opener name).length⟩ ::
        commandsOf (position + (Piece.command name content).source.length) rest

namespace Legible

variable {p : Piece} {pieces : List Piece}

theorem tail (h : Legible (p :: pieces)) : Legible pieces where
  name name content hMem := h.name name content (List.mem_cons_of_mem p hMem)
  content name content hMem := h.content name content (List.mem_cons_of_mem p hMem)
  openers front name behind hName hSource := by
    obtain ⟨before, other, content, after, hPieces, hFront⟩ :=
      h.openers (p.source ++ front) name behind hName (by
        rw [List.flatMap_cons, hSource, List.append_assoc])
    cases before with
    | nil =>
        -- The opener would start where the first piece does, which is a command.
        rw [List.nil_append, List.cons.injEq] at hPieces
        rw [hPieces.1] at hFront
        cases hFront
    | cons q before =>
        rw [List.cons_append, List.cons.injEq] at hPieces
        obtain ⟨rfl, rfl⟩ := hPieces
        exact ⟨before, other, content, after, rfl, List.append_cancel_left hFront⟩

/-- Inside of a piece no command opens. -/
theorem commandName?_eq_none (h : Legible (p :: pieces)) {front behind : Text} {c : Char}
    (hSource : p.source = front ++ c :: behind)
    (hInside : front = [] → ∃ content, p = .text content) :
    commandName? (c :: behind ++ pieces.flatMap Piece.source) = none := by
  refine Option.eq_none_iff_forall_ne_some.mpr fun name hSome => ?_
  obtain ⟨hName, more, hMore⟩ := isName_of_commandName? hSome
  obtain ⟨before, other, content, after, hPieces, hFront⟩ :=
    h.openers front name more hName (by
      rw [List.flatMap_cons, hSource, ← hMore, List.append_assoc])
  cases before with
  | nil =>
      rw [List.nil_append, List.cons.injEq] at hPieces
      obtain ⟨content, hText⟩ := hInside hFront
      rw [hPieces.1] at hText
      cases hText
  | cons q before =>
      rw [List.cons_append, List.cons.injEq] at hPieces
      rw [List.flatMap_cons, ← hPieces.1, hSource] at hFront
      have hLength := congrArg List.length hFront
      simp only [List.length_append, List.length_cons] at hLength
      omega

theorem commandsFrom_eq (h : Legible pieces) (position : Nat) :
    commandsFrom position (pieces.flatMap Piece.source) = commandsOf position pieces := by
  induction pieces generalizing position with
  | nil => rfl
  | cons p pieces ih =>
      rw [List.flatMap_cons]
      cases p with
      | text content =>
          rw [commandsFrom_append fun front c behind hSource =>
            h.commandName?_eq_none hSource fun _ => ⟨content, rfl⟩, ih h.tail]
          rfl
      | command name content =>
          have hName := h.name name content List.mem_cons_self
          have hFirst : (Piece.command name content).source =
              '@' :: ('<' :: (name ++ ['>', openBrace]) ++ (content ++ [closeBrace])) := rfl
          have hOpens : commandName? ('@' :: ('<' :: (name ++ ['>', openBrace]) ++
              (content ++ [closeBrace])) ++ pieces.flatMap Piece.source) = some name := by
            rw [← hFirst, Piece.source, List.append_assoc]
            exact commandName?_opener hName _
          rw [hFirst, List.cons_append, commandsFrom, ← List.cons_append, hOpens]
          simp only
          have hInside : ∀ (front : Text) (c : Char) (behind : Text),
              '<' :: (name ++ ['>', openBrace]) ++ (content ++ [closeBrace]) =
                  front ++ c :: behind →
                commandName? (c :: behind ++ pieces.flatMap Piece.source) = none := by
            intro front c behind hSource
            have hPiece : (Piece.command name content).source = ('@' :: front) ++ c :: behind := by
              rw [hFirst, hSource]
              rfl
            exact h.commandName?_eq_none hPiece fun hNil => nomatch hNil
          rw [commandsFrom_append hInside, ih h.tail, commandsOf]
          have hContent : position + name.length + 4 = position + (opener name).length := by
            simp only [opener, List.length_cons, List.length_append, List.length_nil]
            omega
          rw [hContent, hFirst, List.length_cons, Nat.add_assoc position 1, Nat.add_comm 1]

end Legible

/-! ## The parts of a content -/

theorem findIn?_block {l : Line} {front block behind : List Cell}
    (hCells : l.cells = front ++ (block ++ behind)) {t : Text}
    (hBlock : Reads block t) {start close : Nat} (hStart : start = front.length)
    (hClose : close = start + t.length) (c : Char) :
    findIn? l c start close = (t.findIdx? (· == c)).map (· + start) := by
  rw [findIn?, find?_block hCells hBlock hStart]
  cases hFound : t.findIdx? (· == c) with
  | some i =>
      have hLt := (List.findIdx?_eq_some_iff_getElem.mp hFound).1
      rw [Option.some_or, Option.map_some, Option.filter_some, if_pos (by simpa using by omega)]
  | none =>
      rw [Option.none_or, Option.map_none]
      refine Option.filter_eq_none_iff.mpr fun i hMem => ?_
      obtain ⟨j, hJ, rfl⟩ := Option.map_eq_some_iff.mp hMem
      obtain ⟨k, -, rfl⟩ := Option.map_eq_some_iff.mp hJ
      rw [decide_eq_true_eq]
      omega

section

variable {c : Char} {t first : Text}

theorem bne_of_not_mem (h : c ∉ t) {d : Char} (hMem : d ∈ t) : (d != c) = true :=
  bne_iff_ne.mpr fun hSame => h (hSame ▸ hMem)

theorem partBefore_of_not_mem (h : c ∉ t) : partBefore c t = t := by
  have hAll : (t ++ []).takeWhile (· != c) = t ++ [].takeWhile (· != c) :=
    List.takeWhile_append_of_pos fun _ => bne_of_not_mem h
  rwa [List.append_nil, List.takeWhile_nil, List.append_nil] at hAll

theorem partBefore_first (h : c ∉ first) (rest : Text) :
    partBefore c (first ++ c :: rest) = first := by
  rw [partBefore, List.takeWhile_append_of_pos fun _ => bne_of_not_mem h,
    List.takeWhile_cons_of_neg (by simp), List.append_nil]

theorem partBehind?_of_not_mem (h : c ∉ t) : partBehind? c t = none := if_neg h

theorem partBehind?_first (h : c ∉ first) (rest : Text) :
    partBehind? c (first ++ c :: rest) = some rest := by
  have hDrop : (first ++ c :: rest).dropWhile (· != c) = c :: rest := by
    rw [List.dropWhile_append_of_pos fun _ => bne_of_not_mem h,
      List.dropWhile_cons_of_neg (by simp)]
  rw [partBehind?, if_pos (by simp), hDrop]
  rfl

end

/-! ## Erasing a command -/

/-- What has become of a line: of a block of it a text is left, and some links are new. -/
def Leaves (l : Line) (front behind : List Cell) (size : Nat) (t : Text)
    (links : List (Int × Text)) (m : Line) : Prop :=
  ∃ block : List Cell, block.length = size ∧ keptOf block = t ∧
    m = { l with cells := front ++ (block ++ behind), links := l.links ++ links }

section

variable {l : Line} {front inner behind : List Cell} {content : Text} {start close : Nat}

theorem leaves_everything (hCells : l.cells = front ++ (inner ++ behind))
    (hInner : Reads inner content) : Leaves l front behind content.length content [] l :=
  ⟨inner, hInner.length_eq, hInner.keptOf_eq, by rw [← hCells, List.append_nil]⟩

/-- Of a block that is erased up to some place what is behind that place is left. -/
theorem leaves_behind {gone kept : List Cell} {t : Text}
    (hCells : l.cells = front ++ ((gone ++ kept) ++ behind)) (hKept : Reads kept t)
    {start count : Int} (hStart : start = front.length) (hCount : count = gone.length) :
    Leaves l front behind (gone ++ kept).length t [] (l.erase start count) := by
  have hBlock : l.cells = front ++ (gone ++ (kept ++ behind)) := by
    rw [hCells, List.append_assoc]
  refine ⟨hide gone ++ kept, ?_, ?_, ?_⟩
  · rw [List.length_append, List.length_append, length_hide]
  · rw [keptOf_append, keptOf_hide, hKept.keptOf_eq]
    rfl
  · rw [erase_block hBlock hStart hCount, List.append_nil, List.append_assoc]

theorem Leaves.addLink {m : Line} {size : Nat} {t : Text} (h : Leaves l front behind size t [] m)
    (position : Int) (url : Text) :
    Leaves l front behind size t [(position, url)] (m.addLink position url) := by
  obtain ⟨block, hSize, hKept, rfl⟩ := h
  refine ⟨block, hSize, hKept, ?_⟩
  rw [Line.addLink, List.append_nil]

theorem leaves_nothing (hCells : l.cells = front ++ (inner ++ behind))
    (hInner : Reads inner content) (hStart : start = front.length)
    (hClose : close = start + content.length) :
    Leaves l front behind content.length [] [] (l.erase start ((close : Int) - start)) := by
  have hNothing : Reads [] [] := ⟨rfl, fun _ hMem => nomatch hMem⟩
  have hLine : l.cells = front ++ ((inner ++ []) ++ behind) := by
    rw [hCells, List.append_nil]
  have hSize : (inner ++ []).length = content.length := by
    rw [List.append_nil, hInner.length_eq]
  rw [← hSize]
  exact leaves_behind hLine hNothing (by rw [hStart]) (by rw [hInner.length_eq]; omega)

theorem leaves_firstPart (hCells : l.cells = front ++ (inner ++ behind))
    (hInner : Reads inner content) (hStart : start = front.length)
    (hClose : close = start + content.length) :
    Leaves l front behind content.length (partBefore ',' content) []
      (match findIn? l ',' start close with
        | some comma => l.erase comma ((close : Int) - comma)
        | none => l) := by
  rw [findIn?_block hCells hInner hStart hClose]
  by_cases hMem : ',' ∈ content
  · obtain ⟨first, rest, rfl, hFirst⟩ := List.eq_append_cons_of_mem hMem
    obtain ⟨kept, gone, rfl, hKept, hGone⟩ := hInner.exists_append
    rw [findIdx?_first hFirst, partBefore_first hFirst]
    have hBlock : l.cells = (front ++ kept) ++ (gone ++ behind) := by
      rw [hCells, List.append_assoc, List.append_assoc]
    refine ⟨kept ++ hide gone, ?_, ?_, ?_⟩
    · rw [List.length_append, length_hide, hKept.length_eq, hGone.length_eq, List.length_append]
    · rw [keptOf_append, keptOf_hide, hKept.keptOf_eq, List.append_nil]
    · simp only [Option.map_some]
      rw [erase_block hBlock, List.append_nil, List.append_assoc, List.append_assoc]
      · rw [List.length_append, hKept.length_eq, hStart]
        omega
      · rw [hGone.length_eq]
        rw [List.length_append] at hClose
        omega
  · rw [findIdx?_of_not_mem hMem, partBefore_of_not_mem hMem]
    exact leaves_everything hCells hInner

theorem leaves_rawPart (hCells : l.cells = front ++ (inner ++ behind))
    (hInner : Reads inner content) (hStart : start = front.length)
    (hClose : close = start + content.length) :
    Leaves l front behind content.length ((partBehind? '|' content).getD content) []
      (match findIn? l '|' start close with
        | some bar => l.erase start ((bar : Int) + 1 - start)
        | none => l) := by
  rw [findIn?_block hCells hInner hStart hClose, ← hInner.length_eq]
  by_cases hMem : '|' ∈ content
  · obtain ⟨first, rest, rfl, hFirst⟩ := List.eq_append_cons_of_mem hMem
    rw [List.append_cons] at hInner
    obtain ⟨gone, kept, rfl, hGone, hKept⟩ := hInner.exists_append
    rw [findIdx?_first hFirst, partBehind?_first hFirst]
    refine leaves_behind hCells hKept (by rw [hStart]) ?_
    rw [hGone.length_eq, List.length_append, List.length_singleton]
    simp only
    omega
  · rw [findIdx?_of_not_mem hMem, partBehind?_of_not_mem hMem, hInner.length_eq]
    exact leaves_everything hCells hInner

/-- Spaces are counted up to what is erased. -/
theorem spaces_length {cells : List Cell} {t : Text} (h : Reads cells t) {c : Cell}
    (hErased : c.glyph = none) (behind : List Cell) :
    ((cells ++ c :: behind).takeWhile fun c => c.glyph == some ' ').length =
      (t.takeWhile (· == ' ')).length := by
  have hStop : (c.glyph == some ' ') = false := by
    rw [hErased]
    rfl
  rw [takeWhile_append_cons (p := fun c : Cell => c.glyph == some ' ') hStop]
  induction t generalizing cells with
  | nil =>
      rw [List.map_eq_nil_iff.mp h.char]
      rfl
  | cons d t ih =>
      obtain ⟨cell, rest, rfl, hGlyph, hRest⟩ := h.exists_cons
      rw [List.takeWhile_cons, List.takeWhile_cons, hGlyph, Option.some_beq_some]
      cases d == ' ' with
      | false => rfl
      | true => exact congrArg (· + 1) (ih hRest)

theorem drop_first {first rest : List Cell}
    (hCells : l.cells = front ++ ((first ++ rest) ++ behind))
    (hStart : start = front.length) : l.cells.drop (start + first.length) = rest ++ behind := by
  have hSplit : l.cells = (front ++ first) ++ (rest ++ behind) := by
    rw [hCells, List.append_assoc, List.append_assoc]
  rw [hSplit, hStart, ← List.length_append, List.drop_left]

/-- Of a link with a label the label is left. -/
theorem leaves_label {text first rest : Text} {brace : Cell} (hFirst : ',' ∉ first)
    (hCells : l.cells = front ++ (inner ++ brace :: behind)) (hErased : brace.glyph = none)
    (hInner : Reads inner (first ++ ',' :: rest)) (hStart : start = front.length)
    (hClose : close = start + (first ++ ',' :: rest).length)
    (hText : text.StandsAt start (first ++ ',' :: rest)) :
    Leaves l front (brace :: behind) (first ++ ',' :: rest).length (rest.dropWhile (· == ' '))
      [(((start + ((first ++ ',' :: rest).length - (rest.dropWhile (· == ' ')).length) : Nat) : Int),
        first.strip)]
      (eraseLink l text start close) := by
  have hRest : rest = rest.takeWhile (· == ' ') ++ rest.dropWhile (· == ' ') :=
    List.takeWhile_append_dropWhile.symm
  rw [eraseLink, findIn?_block hCells hInner hStart hClose]
  rw [List.append_cons] at hInner
  obtain ⟨address, tail, rfl, hAddress, hTail⟩ := hInner.exists_append
  have hComma : first.length + start + 1 = start + address.length := by
    rw [hAddress.length_eq, List.length_append, List.length_singleton]
    omega
  have hSize : (first ++ ',' :: rest).length = (address ++ tail).length := by
    rw [hInner.length_eq, ← List.append_cons]
  have hUrl : text.slice start (first.length + start) = first := by
    obtain ⟨before, after, hBefore, rfl⟩ := hText
    rw [Nat.add_comm]
    exact Text.StandsAt.slice_eq ⟨before, ',' :: rest ++ after, hBefore, by simp⟩
  have hSpaces := spaces_length hTail hErased behind
  have hDrop := drop_first hCells hStart
  obtain ⟨gap, kept, rfl, hGap, hKept⟩ := (hRest ▸ hTail).exists_append
  have hPosition : start + address.length + gap.length =
      start + ((first ++ ',' :: rest).length - kept.length) := by
    rw [hSize, List.length_append, List.length_append]
    omega
  rw [findIdx?_first hFirst]
  simp only [Option.map_some]
  rw [hComma, hDrop, hSpaces, hUrl, ← hGap.length_eq, ← hKept.length_eq, ← hPosition, hSize,
    ← List.append_assoc]
  refine (leaves_behind ?_ hKept (by rw [hStart]) ?_).addLink _ _
  · rw [hCells, ← List.append_assoc address]
  · rw [List.length_append]
    omega

theorem leaves_link {text : Text} {brace : Cell}
    (hCells : l.cells = front ++ (inner ++ brace :: behind)) (hErased : brace.glyph = none)
    (hInner : Reads inner content) (hStart : start = front.length)
    (hClose : close = start + content.length) (hText : text.StandsAt start content) :
    Leaves l front (brace :: behind) content.length (label content)
      [(((start + (content.length - (label content).length) : Nat) : Int),
        (partBefore ',' content).strip)]
      (eraseLink l text start close) := by
  by_cases hMem : ',' ∈ content
  · obtain ⟨first, rest, rfl, hFirst⟩ := List.eq_append_cons_of_mem hMem
    have hLabel : label (first ++ ',' :: rest) = rest.dropWhile (· == ' ') := by
      rw [label, partBehind?_first hFirst]
    rw [partBefore_first hFirst, hLabel]
    exact leaves_label hFirst hCells hErased hInner hStart hClose hText
  · have hLabel : label content = content := by
      rw [label, partBehind?_of_not_mem hMem]
    rw [eraseLink, findIn?_block hCells hInner hStart hClose, findIdx?_of_not_mem hMem,
      partBefore_of_not_mem hMem, hLabel, Nat.sub_self, hClose]
    simp only [Option.map_none]
    rw [hText.slice_eq]
    exact (leaves_everything hCells hInner).addLink _ _

end

theorem ofList_beq (name : Text) (s : String) :
    (String.ofList name == s) = decide (name = s.toList) := by
  rw [Bool.eq_iff_iff, beq_iff_eq, decide_eq_true_eq]
  constructor
  · rintro rfl
    exact String.toList_ofList.symm
  · rintro rfl
    exact String.ofList_toList

theorem displayOf_eq (name : Text) : displayOf name =
    if name ∈ ["fn".toList, "comment".toList, "m".toList, "balloon".toList] then .nothing
    else if name = "href".toList then .link
    else if name ∈ ["kw".toList, "ruby".toList] then .firstPart
    else if name = "raw".toList then .rawPart
    else .everything := by
  simp only [displayOf, ofList_beq, Bool.or_eq_true, decide_eq_true_eq, List.mem_cons,
    List.not_mem_nil, or_false, or_assoc]

/-- Of the content of a command just what is shown is left. -/
theorem leaves_shown {l : Line} {front inner behind : List Cell} {text name content : Text}
    {start close : Nat} {brace : Cell} (hCells : l.cells = front ++ (inner ++ brace :: behind))
    (hErased : brace.glyph = none) (hInner : Reads inner content) (hStart : start = front.length)
    (hClose : close = start + content.length) (hText : text.StandsAt start content) :
    Leaves l front (brace :: behind) content.length (shown name content)
      (linkOf? start name content).toList
      (match displayOf name with
        | .nothing => l.erase start ((close : Int) - start)
        | .link => eraseLink l text start close
        | .firstPart =>
            match findIn? l ',' start close with
            | some comma => l.erase comma ((close : Int) - comma)
            | none => l
        | .rawPart =>
            match findIn? l '|' start close with
            | some bar => l.erase start ((bar : Int) + 1 - start)
            | none => l
        | .everything => l) := by
  rw [displayOf_eq, shown, linkOf?]
  by_cases hNothing : name ∈ ["fn".toList, "comment".toList, "m".toList, "balloon".toList]
  · have hLink : name ≠ "href".toList := by
      rintro rfl
      revert hNothing
      decide
    rw [if_pos hNothing, if_pos hNothing, if_neg hLink]
    exact leaves_nothing hCells hInner hStart hClose
  · rw [if_neg hNothing, if_neg hNothing]
    by_cases hLink : name = "href".toList
    · rw [if_pos hLink, if_pos hLink, if_pos hLink]
      exact leaves_link hCells hErased hInner hStart hClose hText
    · rw [if_neg hLink, if_neg hLink, if_neg hLink]
      by_cases hPaired : name ∈ ["kw".toList, "ruby".toList]
      · rw [if_pos hPaired, if_pos hPaired]
        exact leaves_firstPart hCells hInner hStart hClose
      · rw [if_neg hPaired, if_neg hPaired]
        by_cases hRaw : name = "raw".toList
        · rw [if_pos hRaw, if_pos hRaw]
          exact leaves_rawPart hCells hInner hStart hClose
        · rw [if_neg hRaw, if_neg hRaw]
          exact leaves_everything hCells hInner

theorem Leaves.around {l m : Line} {front behind opening closing : List Cell} {size : Nat}
    {t : Text} {links : List (Int × Text)} (inner : List Cell)
    (h : Leaves { l with cells := (front ++ hide opening) ++ (inner ++ (hide closing ++ behind)) }
      (front ++ hide opening) (hide closing ++ behind) size t links m) :
    Leaves l front behind (opening.length + (size + closing.length)) t links m := by
  obtain ⟨block, hSize, hKept, hLine⟩ := h
  refine ⟨hide opening ++ (block ++ hide closing), ?_, ?_, ?_⟩
  · simp only [List.length_append, length_hide, hSize]
  · rw [keptOf_append, keptOf_append, keptOf_hide, keptOf_hide, hKept, List.append_nil]
    rfl
  · rw [hLine]
    simp only [List.append_assoc]

section

variable {l : Line} {front opening inner closing behind : List Cell} {name content : Text}

theorem glyphAt_opening (hCells : l.cells = front ++ (opening ++ behind))
    (hOpening : Reads opening (opener name)) : l.glyphAt front.length = some '@' := by
  obtain ⟨first, rest, rfl, hGlyph, -⟩ := hOpening.exists_cons
  rw [Line.glyphAt, Line.cell?, if_pos (Int.natCast_nonneg _), Int.toNat_natCast, hCells,
    List.getElem?_append_right (Nat.le_refl _), Nat.sub_self]
  exact hGlyph

/-- A command is closed right behind its content. -/
theorem find?_closing (hCells : l.cells = front ++ (opening ++ (inner ++ (closing ++ behind))))
    (hOpening : Reads opening (opener name)) (hInner : Reads inner content)
    (hClosing : Reads closing [closeBrace]) (hContent : closeBrace ∉ content) :
    l.find? [closeBrace] ((front.length + (opener name).length : Nat) : Int) =
      some (front.length + (opener name).length + content.length) := by
  obtain ⟨brace, rest, rfl, hGlyph, -⟩ := hClosing.exists_cons
  have hSplit : l.cells = (front ++ opening) ++ (inner ++ (brace :: rest ++ behind)) := by
    rw [hCells, List.append_assoc]
  have hBrace : (brace :: rest ++ behind).findIdx? (·.glyph == some closeBrace) = some 0 := by
    rw [List.cons_append, List.findIdx?_cons, hGlyph, beq_self_eq_true]
    rfl
  rw [find?_block hSplit hInner (by rw [List.length_append, hOpening.length_eq]),
    findIdx?_of_not_mem hContent, hBrace, Option.none_or, Option.map_some, Option.map_some,
    Nat.zero_add, Nat.add_comm]

end

/-- A command leaves what it shows, and nothing around it changes. -/
theorem eraseCommand_leaves {l : Line} {front cells behind : List Cell} {text name content : Text}
    (hCells : l.cells = front ++ (cells ++ behind))
    (hReads : Reads cells (Piece.command name content).source) (hContent : closeBrace ∉ content)
    (hText : text.StandsAt front.length (Piece.command name content).source) :
    Leaves l front behind (Piece.command name content).source.length (shown name content)
      (linkOf? (front.length + (opener name).length) name content).toList
      (eraseCommand text l ⟨front.length, name, front.length + (opener name).length⟩) := by
  obtain ⟨opening, others, rfl, hOpening, hOthers⟩ := hReads.exists_append
  obtain ⟨inner, closing, rfl, hInner, hClosing⟩ := hOthers.exists_append
  have hSplit : l.cells = front ++ (opening ++ (inner ++ (closing ++ behind))) := by
    rw [hCells, List.append_assoc, List.append_assoc]
  have hStart : front.length + (opener name).length = (front ++ hide opening).length := by
    rw [List.length_append, length_hide, hOpening.length_eq]
  have hSize : (Piece.command name content).source.length =
      opening.length + (content.length + closing.length) := by
    rw [Piece.source, List.length_append, List.length_append, hOpening.length_eq,
      hClosing.length_eq]
  have hContentAt : text.StandsAt (front.length + (opener name).length) content := by
    obtain ⟨before, after, hBefore, rfl⟩ := hText
    exact ⟨before ++ opener name, closeBrace :: after, by rw [List.length_append, hBefore],
      by simp [Piece.source]⟩
  obtain ⟨brace, rfl⟩ := List.length_eq_one_iff.mp hClosing.length_eq
  rw [eraseCommand, if_neg (by rw [glyphAt_opening hSplit hOpening]; simp),
    find?_closing hSplit hOpening hInner hClosing hContent, hSize]
  simp only
  have hOne : (1 : Int) = ([brace].length : Nat) := rfl
  rw [erase_around hSplit rfl (by rw [hOpening.length_eq]; omega)
    (by rw [hOpening.length_eq, hInner.length_eq]; omega) hOne, ← List.append_assoc]
  exact .around inner (leaves_shown rfl rfl hInner hStart rfl hContentAt)

/-! ## Erasing all commands of a line -/

theorem Leaves.trans {l m n : Line} {front rest behind : List Cell} {size more : Nat} {t u : Text}
    {links others : List (Int × Text)} (h : Leaves l front (rest ++ behind) size t links m)
    (hNext : ∀ block : List Cell, block.length = size →
      m.cells = (front ++ block) ++ (rest ++ behind) →
        Leaves m (front ++ block) behind more u others n) :
    Leaves l front behind (size + more) (t ++ u) (links ++ others) n := by
  obtain ⟨block, hSize, hKept, rfl⟩ := h
  obtain ⟨second, hMore, hSecond, rfl⟩ := hNext block hSize (List.append_assoc ..).symm
  refine ⟨block ++ second, ?_, ?_, ?_⟩
  · rw [List.length_append, hSize, hMore]
  · rw [keptOf_append, hKept, hSecond]
  · simp only [List.append_assoc]

/-- All commands leave what they show, and all links are recorded. -/
theorem foldl_eraseCommand_leaves {pieces : List Piece} {text : Text} {l : Line}
    {front cells behind : List Cell} (hCells : l.cells = front ++ (cells ++ behind))
    (hReads : Reads cells (pieces.flatMap Piece.source))
    (hContent : ∀ name content, .command name content ∈ pieces → closeBrace ∉ content)
    (hText : text.StandsAt front.length (pieces.flatMap Piece.source)) :
    Leaves l front behind (pieces.flatMap Piece.source).length (pieces.flatMap Piece.display)
      (Piece.linksFrom front.length pieces)
      ((commandsOf front.length pieces).foldl (eraseCommand text) l) := by
  induction pieces generalizing l front cells with
  | nil => exact leaves_everything hCells hReads
  | cons p pieces ih =>
      obtain ⟨first, rest, rfl, hFirst, hRest⟩ := hReads.exists_append
      obtain ⟨before, after, hBefore, hSource⟩ := hText
      have hTextFirst : text.StandsAt front.length p.source :=
        ⟨before, pieces.flatMap Piece.source ++ after, hBefore, by rw [hSource]; simp⟩
      have hTextRest : ∀ block : List Cell, block.length = p.source.length →
          text.StandsAt (front ++ block).length (pieces.flatMap Piece.source) := fun block hSize =>
        ⟨before ++ p.source, after, by rw [List.length_append, List.length_append, hBefore, hSize],
          by rw [hSource]; simp⟩
      have hLater : ∀ name content, .command name content ∈ pieces → closeBrace ∉ content :=
        fun name content hMem => hContent name content (List.mem_cons_of_mem p hMem)
      have hLine : l.cells = front ++ (first ++ (rest ++ behind)) := by
        rw [hCells, List.append_assoc]
      rw [List.flatMap_cons, List.flatMap_cons, List.length_append]
      have hStep : ∀ m : Line, ∀ block : List Cell, block.length = p.source.length →
          m.cells = (front ++ block) ++ (rest ++ behind) → _ := fun m block hSize hNext =>
        ih hNext hRest hLater (hTextRest block hSize)
      cases p with
      | text content =>
          refine (leaves_everything hLine hFirst).trans fun block hSize hNext => ?_
          have hBlock := hStep l block hSize hNext
          rw [List.length_append, hSize] at hBlock
          exact hBlock
      | command name content =>
          have hHere := eraseCommand_leaves hLine hFirst
            (hContent name content List.mem_cons_self) hTextFirst
          refine hHere.trans fun block hSize hNext => ?_
          have hBlock := hStep _ block hSize hNext
          rw [List.length_append, hSize] at hBlock
          exact hBlock

/-- Inline commands reduce to what they show: the texts between them stay, and the links are
those of the commands, in order. -/
theorem eraseCommands_shows {pieces : List Piece} (hLegible : Legible pieces)
    (hPlain : '\\' ∉ pieces.flatMap Piece.source)
    (hEnds : ∀ c ∈ (pieces.flatMap Piece.source).getLast?, isBlank c = false) (number : Nat) :
    (eraseCommands (.ofText number true (pieces.flatMap Piece.source))).keptText =
        pieces.flatMap Piece.display ∧
      (eraseCommands (.ofText number true (pieces.flatMap Piece.source))).links =
        Piece.linksFrom 0 pieces := by
  let raw := pieces.flatMap Piece.source
  let l := Line.ofText number true raw
  have hReads : Reads l.cells raw := by
    rw [Line.ofText_cells hPlain hEnds number true]
    exact ⟨Line.cellsFrom_char 0 raw, fun c hMem => Line.mem_cellsFrom_fresh hMem⟩
  have hText : l.text = raw := hReads.char
  have hLeaves : Leaves l [] [] raw.length (pieces.flatMap Piece.display)
      (Piece.linksFrom 0 pieces) ((commandsOf 0 pieces).foldl (eraseCommand raw) l) :=
    foldl_eraseCommand_leaves (List.append_nil l.cells).symm hReads hLegible.content
      (.zero (List.prefix_refl raw))
  obtain ⟨block, -, hKept, hLine⟩ := hLeaves
  have hErased : eraseCommands l =
      { l with cells := block ++ [], links := Piece.linksFrom 0 pieces } := by
    rw [eraseCommands, hText, hLegible.commandsFrom_eq, hLine]
    rfl
  rw [hErased]
  refine ⟨?_, rfl⟩
  rw [Line.keptText, List.append_nil]
  exact hKept

/-- A text, a link with a label, and a word in bold. -/
def labelled : List Piece :=
  [.text "see ".toList, .command "href".toList "u , a,b".toList, .command "b".toList "c".toList]

theorem labelled_legible : Legible labelled where
  name name content hMem := by
    simp only [labelled, List.mem_cons, Piece.command.injEq, List.not_mem_nil, or_false,
      reduceCtorEq, false_or] at hMem
    rcases hMem with ⟨rfl, -⟩ | ⟨rfl, -⟩
    · exact ⟨by decide, List.all_eq_true.mp (by decide)⟩
    · exact ⟨by decide, List.all_eq_true.mp (by decide)⟩
  content name content hMem := by
    simp only [labelled, List.mem_cons, Piece.command.injEq, List.not_mem_nil, or_false,
      reduceCtorEq, false_or] at hMem
    rcases hMem with ⟨-, rfl⟩ | ⟨-, rfl⟩ <;> decide
  openers front name behind hName hSource := by
    have hAt : ∀ i < 27, (labelled.flatMap Piece.source)[i]? = some '@' → i = 4 ∨ i = 20 := by
      decide
    have hLength : front.length < 27 := by
      have hSame := congrArg List.length hSource
      have hAll : (labelled.flatMap Piece.source).length = 27 := by decide
      rw [hAll, List.length_append, opener, List.cons_append, List.length_cons] at hSame
      omega
    have hFront : front = (labelled.flatMap Piece.source).take front.length := by
      rw [hSource, List.take_left]
    have hHere : (labelled.flatMap Piece.source)[front.length]? = some '@' := by
      rw [hSource, List.getElem?_append_right (Nat.le_refl _), Nat.sub_self]
      rfl
    rcases hAt _ hLength hHere with h | h
    · rw [h] at hFront
      exact ⟨[.text "see ".toList], _, _, _, rfl, hFront⟩
    · rw [h] at hFront
      exact ⟨[.text "see ".toList, .command "href".toList "u , a,b".toList], _, _, _, rfl, hFront⟩

theorem eraseCommands_shows_labelled :
    (eraseCommands (.ofText 1 true (labelled.flatMap Piece.source))).keptText = "see a,bc".toList ∧
      (eraseCommands (.ofText 1 true (labelled.flatMap Piece.source))).links =
        [(16, "u".toList)] := by
  have hLast : (labelled.flatMap Piece.source).getLast? = some closeBrace := by decide
  have hEnds : ∀ c ∈ (labelled.flatMap Piece.source).getLast?, isBlank c = false := by
    rw [hLast]
    rintro c ⟨⟩
    decide
  exact eraseCommands_shows labelled_legible (by decide) hEnds 1

end ProseLint.Review
