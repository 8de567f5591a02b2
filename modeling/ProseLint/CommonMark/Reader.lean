import ProseLint.CommonMark.Definition
import ProseLint.CommonMark.Inline

/-! The blocks of a text. Quotations and list items contain blocks of their own; where they
are nested too deeply what is inside is left out. All blocks are found before any inline
text is read, because a label may be defined behind its use. -/

namespace ProseLint.CommonMark

/-- What was found on some lines: a block, inline text that is still to be read, or the
definition of a label. -/
inductive Parsed where
  | block (b : Block)
  | inlines (content : Text) (first stop : Nat)
  | definition (label url : Text)

/-- What was found, and the number of the line after it. -/
structure Outcome where
  parsed : List Parsed
  next : Nat

/-- Lines to be read: the blank lines known to follow them, and the number of the line after
them. -/
structure Extent where
  blanks : Nat
  stop : Nat

/-- How the lines inside a container are read. -/
abbrev Inner := Container → Extent → List BlockLine → Outcome

/-- A block on the lines from one up to another. -/
def Parsed.of (kind : BlockKind) (first stop : Nat) : Parsed := .block ⟨kind, some (first, stop)⟩

namespace Container

/-- The line after a code block that goes on behind its first line. Blank lines at its end
do not belong to it. -/
def codeEnd (c : Container) (last : Nat) : List BlockLine → Nat
  | [] => last
  | l :: rest =>
      if l.isBlank then codeEnd c last rest
      else if c.isCode l then codeEnd c (l.number + 1) rest
      else last

/-- Whether a line closes a fence of so many marks. -/
def closesFence (c : Container) (mark : Char) (length : Nat) (l : BlockLine) : Bool :=
  let marks := (l.body.takeWhile (· == mark)).length
  !c.isCode l && decide (length ≤ marks) && decide (0 < marks) &&
    (l.body.drop marks).all isSpacing

/-- The line after a fence that goes on behind its first line. -/
def fenceEnd (c : Container) (mark : Char) (length stop : Nat) : List BlockLine → Nat
  | [] => stop
  | l :: rest =>
      if l.isBlank then if l.isEnded then fenceEnd c mark length stop rest else l.number
      else if l.indent < c.indent then l.number
      else if c.closesFence mark length l then l.number + 1
      else fenceEnd c mark length stop rest

/-- The line after a block of HTML that goes on behind its first line. Blank lines stay in
the block, unless it is one that ends at a blank line. -/
def htmlEnd (c : Container) (endsAt : Text → Bool) (stop : Nat) : List BlockLine → Nat
  | [] => stop
  | l :: rest =>
      if l.indent < c.indent ∧ ¬ l.isBlank then l.number
      else if endsAt l.body then if l.isBlank then l.number else l.number + 1
      else htmlEnd c endsAt stop rest

/-- The line after a table that goes on behind its head. The cells that are missing in its
rows must not grow too many. -/
def tableEnd (c : Container) (columns : Nat) (missing : Int) (stop : Nat) : List BlockLine → Nat
  | [] => stop
  | l :: rest =>
      let row := l.body.trimWhile isWideGap
      if l.indent < c.indent ∨ c.endsQuote l ∨ row.isEmpty ∨ c.isCode l then l.number
      else
        let missing := missing + columns - (rowCells row).length
        if 0x10000 < missing then l.number else tableEnd c columns missing stop rest

/-- The lines with which a paragraph goes on. -/
def paragraphLines (c : Container) : List BlockLine → List BlockLine
  | [] => []
  | l :: rest =>
      if l.isBlank || (!c.isLazy l && c.endsParagraph l rest) then []
      else l :: paragraphLines c rest

/-- The level that a line gives to the text above it. -/
def underline? (c : Container) (l : BlockLine) : Option Nat :=
  match l.body with
  | m :: _ =>
      if (m = '-' ∨ m = '=') ∧ (c.indent : Int) ≤ l.indent ∧
          (l.body.dropWhile (· == m)).all isSpacing then some (if m = '=' then 1 else 2)
      else none
  | [] => none

/-- The lines of a heading above its underline, and its level. -/
def underlined? (c : Container) : List BlockLine → Option (List BlockLine × Nat)
  | [] => none
  | l :: rest =>
      let later := (underlined? c rest).map fun r => (l :: r.1, r.2)
      if l.isBlank then none
      else if c.isCode l then later
      else match c.underline? l with
        | some level => some ([], level)
        | none => if l.indent < 0 then later else if c.endsParagraph l rest then none else later

def headingParsed (level first stop textStop : Nat) (mark content : Text) : List Parsed :=
  [.of (.heading ('h' :: Text.ofNat level) mark) first stop, .inlines content first textStop]

/-- A block without blocks inside it, in front of quotations and lists. -/
def earlyLeaf? (c : Container) (e : Extent) (l : BlockLine) (rest : List BlockLine) :
    Option Outcome :=
  match c.table? l rest with
  | some columns =>
      let next := c.tableEnd columns 0 e.stop (rest.drop 1)
      some ⟨[.of .noProse l.number next], next⟩
  | none =>
      if c.isCode l then
        let next := c.codeEnd (l.number + 1) rest
        some ⟨[.of .noProse l.number next], next⟩
      else (c.fence? l).map fun f =>
        let next := c.fenceEnd f.1 f.2 e.stop rest
        ⟨[.of .noProse l.number next], next⟩

/-- A rule, which comes before lists. -/
def rule? (c : Container) (l : BlockLine) : Option Outcome :=
  if c.isRule l then some ⟨[.of .noProse l.number (l.number + 1)], l.number + 1⟩ else none

def paragraph (c : Container) (l : BlockLine) (rest : List BlockLine) : Outcome :=
  let lines := l :: c.paragraphLines rest
  let next := l.number + lines.length
  ⟨[.inlines ((BlockLine.contentOf c.indent lines).trimWhile isGap) l.number next], next⟩

/-- A block without blocks inside it, behind quotations and lists. -/
def lateLeaf (c : Container) (e : Extent) (l : BlockLine) (rest : List BlockLine) : Outcome :=
  match c.definition? l rest with
  | some (label, url, next) => ⟨[.definition label url], next⟩
  | none =>
      match c.html? l with
      | some o =>
          let next :=
            if o.endsAt l.body then l.number + 1 else c.htmlEnd o.endsAt e.stop rest
          ⟨[.of .noProse l.number next], next⟩
      | none =>
          match c.heading? l with
          | some (level, content) =>
              let next := l.number + 1
              ⟨headingParsed level l.number next next (List.replicate level '#') content, next⟩
          | none =>
              match c.underlined? rest with
              | some (lines, level) =>
                  let content := (BlockLine.contentOf c.indent (l :: lines)).trimWhile isGap
                  let stop := l.number + 1 + lines.length
                  let mark := if level = 1 then ['='] else ['-']
                  ⟨headingParsed level l.number (stop + 1) stop mark content, stop + 1⟩
              | none => c.paragraph l rest

end Container

namespace BlockLine

/-- The line without the mark of a quotation and one space behind it. A tab behind the mark
counts as that space and leaves the rest of its width. -/
def unquoted (l : BlockLine) : BlockLine :=
  let rest := l.body.drop 1
  let first := l.indent.toNat + 1
  let base := fun (spaces : Nat) => l.indent.toNat + 1 + spaces
  let line := fun (text : Text) (from1 shift spaces : Nat) =>
    let (stop, n) := advance (l.base + shift) from1 text
    { l with text := text, start := n, indent := (stop : Int) - from1, base := base spaces }
  match rest with
  | ' ' :: text => line text (first + 1) 0 1
  | '\t' :: text =>
      if (l.base + first) % 4 = 3 then line text (first + 1) 0 1 else line rest first 1 1
  | _ => line rest first 0 0

end BlockLine

/-- The lines of a quotation that go on behind its first line. `afterBlank` says that the
line before has no text. A line without mark goes on with a paragraph. -/
def Container.quotedLines (c : Container) (afterBlank : Bool) : List BlockLine → List BlockLine
  | [] => []
  | l :: rest =>
      if l.isBlank then []
      else if l.body.head? = some '>' ∧ ¬ l.indent < c.indent then
        let inner := l.unquoted
        inner :: quotedLines c inner.isBlank rest
      else if afterBlank || c.endsQuote l then []
      else { l with indent := -1 } :: quotedLines c false rest

/-- What follows some lines, given all lines after them. -/
def Extent.before (e : Extent) (stop : Nat) (rest : List BlockLine) : Extent :=
  let blanks := (rest.takeWhile BlockLine.isBlank).length
  ⟨if blanks = rest.length then blanks + e.blanks else blanks, stop⟩

def Container.quote (c : Container) (inner : Inner) (e : Extent) (l : BlockLine)
    (rest : List BlockLine) : Outcome :=
  let first := l.unquoted
  let lines := first :: c.quotedLines first.isBlank rest
  let stop := l.number + lines.length
  let result := inner { c with indent := 0 } (e.before stop (rest.drop (lines.length - 1))) lines
  ⟨.of .quote l.number result.next :: result.parsed, result.next⟩

/-- The first line of a list item without its mark, and the column at which the text of the
item stands. Text that stands more than four columns behind the mark is code. -/
def BlockLine.item (l : BlockLine) (m : ListMark) : BlockLine × Nat :=
  let initial := l.indent.toNat + m.length
  let after := l.start + m.length
  let (stop, n) := advance l.base initial (l.text.drop after)
  let width := if l.text.length ≤ after + n ∨ 4 < stop - initial then 1 else stop - initial
  ({ l with start := after + n, indent := (stop : Int) }, initial + width)

/-- Whether a line goes on with a list by another item, and with which mark. -/
def Container.nextItem? (c : Container) (previous : ListMark) (l : BlockLine) : Option ListMark :=
  if l.indent < c.indent ∨ c.isCode l ∨ c.endsItem l then none
  else match listMark? l.body with
    | some m =>
        if m.last = previous.last ∧ m.number.isSome = previous.number.isSome then some m else none
    | none => none

/-- The items of a list. An item whose first line is empty ends with the blank line after
it. -/
def Container.items (c : Container) (inner : Inner) (e : Extent) (m : ListMark) (fuel : Nat)
    (lines : List BlockLine) : Outcome :=
  match fuel, lines with
  | fuel + 1, l :: rest =>
      let (first, indent) := l.item m
      let followedByBlank := match rest with
        | next :: _ => next.isBlank
        | [] => decide (0 < e.blanks)
      let result :=
        if first.isBlank && followedByBlank then ⟨[], min (l.number + 2) e.stop⟩
        else inner ⟨indent, c.indent⟩ e (first :: rest)
      let parsed := .of (.item [m.last]) l.number result.next :: result.parsed
      let left := lines.drop (result.next - l.number)
      match left with
      | [] => ⟨parsed, result.next⟩
      | next :: _ =>
          match c.nextItem? m next with
          | none => ⟨parsed, result.next⟩
          | some m =>
              let more := items c inner e m fuel left
              ⟨parsed ++ more.parsed, more.next⟩
  | _, _ => ⟨[], e.stop⟩

def Container.list (c : Container) (inner : Inner) (e : Extent) (m : ListMark) (l : BlockLine)
    (rest : List BlockLine) : Outcome :=
  let result := c.items inner e m (rest.length + 1) (l :: rest)
  ⟨.of .listOpen l.number result.next :: result.parsed ++ [.block ⟨.listClose, none⟩], result.next⟩

/-- The block that starts on a line. -/
def Container.blockAt (c : Container) (quoted listed : Inner) (e : Extent) (l : BlockLine)
    (rest : List BlockLine) : Outcome :=
  match c.earlyLeaf? e l rest with
  | some result => result
  | none =>
      if c.isQuote l then c.quote quoted e l rest
      else match c.rule? l with
        | some result => result
        | none =>
            match c.list? false l with
            | some m => c.list listed e m l rest
            | none => c.lateLeaf e l rest

/-- The blocks on some lines, up to a line that is indented less than the container asks
for. `fuel` is the number of lines at most. -/
def Container.blocks (c : Container) (quoted listed : Inner) (e : Extent) (fuel : Nat)
    (lines : List BlockLine) : Outcome :=
  match fuel, lines with
  | _, [] => ⟨[], e.stop⟩
  | 0, l :: _ => ⟨[], l.number⟩
  | fuel + 1, lines =>
      match lines.dropWhile BlockLine.isBlank with
      | [] => ⟨[], e.stop + e.blanks⟩
      | l :: rest =>
          if l.indent < c.indent then ⟨[], l.number⟩
          else
            let result := c.blockAt quoted listed e l rest
            let left := (l :: rest).drop (max (result.next - l.number) 1)
            match left with
            | [] => result
            | next :: more =>
                let after := c.blocks quoted listed e fuel (if next.isBlank then more else left)
                ⟨result.parsed ++ after.parsed, after.next⟩

/-- The line at which the reading goes on when the blocks on some lines are left out. A line
that is indented less than the container asks for is not left out. -/
def Container.leftOut (c : Container) (e : Extent) (lines : List BlockLine) : Nat :=
  match lines.dropWhile BlockLine.isBlank with
  | [] => e.stop + e.blanks
  | l :: _ => if l.indent < c.indent then l.number else e.stop

/-- Reads the lines inside a container, with containers nested `depth` deep at most. Lists
count twice. -/
def readLines (depth : Nat) : Inner := fun c e lines =>
  match depth with
  | 0 => ⟨[], c.leftOut e lines⟩
  | depth + 1 => c.blocks (readLines depth) (readLines (depth - 1)) e (lines.length + 1) lines
termination_by depth
decreasing_by all_goals omega

/-- The definitions among what was found, in order. -/
def definitionsOf (parsed : List Parsed) : Definitions :=
  parsed.filterMap fun p =>
    match p with
    | .definition label url => some (label, url)
    | _ => none

/-- The blocks of what was found, with inline text read. -/
def blocksOf (parsed : List Parsed) : List Block :=
  let definitions := definitionsOf parsed
  parsed.filterMap fun p =>
    match p with
    | .block b => some b
    | .inlines content first stop =>
        some ⟨.inlines (inlines definitions content), some (first, stop)⟩
    | .definition _ _ => none

def blocks (t : Text) : List Block :=
  let lines := BlockLine.readAll t
  blocksOf (readLines maxNesting ⟨0, -1⟩ ⟨0, lines.length⟩ lines).parsed

end ProseLint.CommonMark
