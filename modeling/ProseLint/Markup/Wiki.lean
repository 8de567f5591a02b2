import ProseLint.Markup.Classified
import ProseLint.Source.Enclosure

/-! Wiki markup: headers such as `h1. Title`, lists with dashes or number signs, comments
between `[!--` and `--]`, links in double brackets, and four pairs of inline delimiters. -/

namespace ProseLint.Wiki

def header? : Text → Option (Nat × Nat)
  | 'h' :: d :: '.' :: rest =>
      let blanks := (rest.takeWhile isBlank).length
      if 49 ≤ d.toNat ∧ d.toNat ≤ 54 ∧ 0 < blanks then some (d.toNat - 48, 3 + blanks) else none
  | _ => none

def isListMark (c : Char) : Bool := c == '-' || c == '#'

def listItem? (t : Text) : Option (Nat × Nat) :=
  let level := (t.takeWhile isListMark).length
  let blanks := ((t.drop level).takeWhile isBlank).length
  if 0 < level ∧ 0 < blanks then some (level, level + blanks) else none

/-- What opens and closes a comment. -/
def commentOpening : Text := "[!--".toList

/-- What closes a comment. -/
def commentClosing : Text := "--]".toList

/-- What follows the opening of a comment with which a line starts, if it does. -/
def commentBody? (t : Text) : Option Text := commentOpening.isPrefixOf? t.stripLeft

def closesComment (t : Text) : Bool := t.stripRight.endsWith commentClosing

/-- A link in double brackets: where it opens, where its address starts if it has a label,
and where it closes. -/
structure Link where
  start : Nat
  bar : Option Nat
  stop : Nat
  deriving DecidableEq, Repr

/-- The links in cells that start at position `i`. A link that is not closed ends the
search. -/
def linksFrom (i : Nat) (cells : List Cell) : List Link :=
  match cells with
  | [] => []
  | c :: rest =>
      match Cell.find? ['[', '['] (c :: rest) with
      | none => []
      | some b =>
          let content := (c :: rest).drop (b + 2)
          match Cell.find? [']', ']'] content with
          | none => []
          | some k =>
              let start := i + b
              let bar := (Cell.find? ['|'] content).filter (· < k)
              ⟨start, bar.map (start + 2 + ·), start + 2 + k⟩ ::
                linksFrom (i + (b + 4 + k)) ((c :: rest).drop (b + 4 + k))
termination_by cells.length
decreasing_by
  simp only [List.length_drop, List.length_cons]
  omega

/-- Keeps the label of a link, or its address when it has no label, and records the
address. -/
def eraseLink (l : Line) (link : Link) : Line :=
  match link.bar with
  | some bar =>
      let url := Text.strip (l.text.slice (bar + 1) link.stop)
      ((l.erase link.start 2).erase bar (link.stop + 2 - bar)).addLink (link.start + 2) url
  | none =>
      let url := Text.strip (l.text.slice (link.start + 2) link.stop)
      ((l.erase link.start 2).erase link.stop 2).addLink (link.start + 2) url

def eraseLinks (l : Line) : Line := (linksFrom 0 l.cells).foldl eraseLink l

/-- Comments that open and close on a line. -/
def comment : Enclosure := ⟨commentOpening, commentClosing, .all, false⟩

/-- Bold, italic, underlined and struck text. -/
def inlineMarkup : List Enclosure :=
  ["**", "//", "__", "--"].map fun d => ⟨d.toList, d.toList, .markers, false⟩

/-- Erases what introduces a header or a list element and marks the line as one. -/
def markStart (l : Line) (text : Text) : Line :=
  match header? text with
  | some (level, length) => { l.erase 0 length with sectionLevel := level }
  | none =>
      match listItem? text with
      | some (level, length) =>
          if l.isEscaped 0 then l
          else { l.erase 0 length with listLevel := level, listStart := true }
      | none => l

def classifyProse (l : Line) : Line :=
  let marked := markStart (l.eraseEnclosure comment).1 l.text
  inlineMarkup.foldl (fun l e => (l.eraseEnclosure e).1) (eraseLinks marked)

/-- Classifies a line, given whether a comment is open before it. The answer says whether
one is open after it. -/
def classifyLine (inComment : Bool) (l : Line) : Bool × Line :=
  if inComment then (!closesComment l.text, l.eraseAll)
  else match commentBody? l.text with
    | some body => (!closesComment body, l.eraseAll)
    | none => (false, classifyProse l)

/-- Classifies lines one after the other. The answer says whether a comment is open at the
end. -/
def classifyLines (inComment : Bool) : List Line → Bool × List Line
  | [] => (inComment, [])
  | l :: rest =>
      let (open1, l) := classifyLine inComment l
      let (open2, rest) := classifyLines open1 rest
      (open2, l :: rest)

def classify (lines : List Line) : Classified :=
  let (unclosed, lines) := classifyLines false lines
  ⟨lines, [], if unclosed then [.unclosedComment] else []⟩

end ProseLint.Wiki
