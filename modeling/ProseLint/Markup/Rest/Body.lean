import ProseLint.Markup.Rest.Inline
import ProseLint.Markup.Rest.Title
import ProseLint.Text.Digit

/-! Blocks and lists of structured text. Directives, comments, literal blocks and tables
are no prose and are erased. The nesting of lists is told by their indentation. -/

namespace ProseLint.Rest

/-- The kinds of blocks that are no prose. -/
inductive BlockKind where
  | directive
  | footnote
  | target
  | comment
  | doctest
  | literal
  deriving DecidableEq, Repr

/-- What is open between two lines: the block that is being erased, a list, a table, and
the indentation of the open list levels, innermost first. -/
structure State where
  block : Option BlockKind
  inList : Bool
  inTable : Bool
  indents : List Nat
  deriving DecidableEq, Repr

def State.initial : State := ⟨none, false, false, []⟩

def isGridEdge (t : Text) : Bool :=
  let edge := t.strip
  3 ≤ edge.length && edge.all (fun c => c == '-' || c == '=' || c == '+') &&
    edge.head? == some '+' && edge.getLast? == some '+'

def isColumnEdge (t : Text) : Bool :=
  let edge := t.strip
  edge.all (fun c => c == '=' || c == ' ') && edge.contains ' '

/-- What follows two dots at the start of a text, white space before them aside. -/
def afterDots? (t : Text) : Option Text := ['.', '.'].isPrefixOf? t.stripLeft

def explicitMarkup? (t : Text) : Option Text :=
  match afterDots? t with
  | some (c :: rest) => if isBlank c then some (Text.stripLeft rest) else none
  | _ => none

def isDirective (t : Text) : Bool :=
  Text.has ((t.takeWhile fun c => isWordChar c || c == ':' || c == '+' || c == '-').drop 1)
    [':', ':']

def isFootnote : Text → Bool
  | '[' :: rest =>
      let inside := rest.takeWhile (· != ']')
      !inside.isEmpty && inside.length < rest.length
  | _ => false

/-- The block that a line opens by how it starts. -/
def blockKind? (t : Text) : Option BlockKind :=
  let explicit (p : Text → Bool) : Bool := ((explicitMarkup? t).map p).getD false
  let bare := t.stripLeft
  if explicit isDirective then some .directive
  else if explicit isFootnote then some .footnote
  else if explicit (·.head? == some '_') then some .target
  else if ['_', '_'].isPrefixOf bare && ((bare[2]?).map isBlank).getD false then some .target
  else if ((afterDots? t).map fun rest => ((rest.head?).map isBlank).getD true).getD false then
    some .comment
  else if ['>', '>', '>'].isPrefixOf bare then some .doctest
  else none

def isLineBlock (t : Text) : Bool :=
  match t.stripLeft with
  | ['|'] => true
  | '|' :: ' ' :: _ => true
  | _ => false

/-- White space or nothing at the start of a text, with the length of the white space. -/
def gap? (t : Text) : Option Nat :=
  match t with
  | [] => some 0
  | c :: _ => if isBlank c then some (t.takeWhile isBlank).length else none

/-- The length of white space, a mark and the white space after it, at the start of a text. -/
def marked? (mark? : Text → Option Nat) (t : Text) : Option Nat :=
  let indent := (t.takeWhile isBlank).length
  match mark? (t.drop indent) with
  | some width => (gap? (t.drop (indent + width))).map (indent + width + ·)
  | none => none

def bullet? : Text → Option Nat
  | c :: _ => if c == '*' || c == '+' || c == '-' then some 1 else none
  | [] => none

def numeral? (t : Text) : Option Nat :=
  match t with
  | '#' :: _ => some 1
  | _ =>
      let digits := (t.takeWhile isDecimal).length
      if 0 < digits then some digits else none

/-- A number, a number sign or a letter with a full stop or a parenthesis after it, or one
of the first two in parentheses. -/
def enumerator? (t : Text) : Option Nat :=
  match t with
  | '(' :: rest =>
      match numeral? rest with
      | some n => if rest[n]? = some ')' then some (n + 2) else none
      | none => none
  | c :: _ =>
      let width := if c.isAlpha then some 1 else numeral? t
      match width with
      | some n =>
          if t[n]? = some '.' ∨ t[n]? = some ')' then some (n + 1) else none
      | none => none
  | [] => none

/-- The length of a field name between colons and of the white space after it. -/
def field? (t : Text) : Option Nat :=
  match t with
  | ':' :: rest =>
      let name := rest.takeWhile fun c => c != ':' && c != '\x60'
      if name.isEmpty ∨ rest[name.length]? ≠ some ':' then none
      else (gap? (rest.drop (name.length + 1))).map (name.length + 2 + ·)
  | _ => none

/-- The open levels at a list marker of some indentation: deeper ones are closed, and a new
one is opened unless one has this indentation. -/
def openLevel (indent : Nat) (indents : List Nat) : List Nat :=
  match indents.dropWhile (indent < ·) with
  | [] => [indent]
  | top :: rest => if top < indent then indent :: top :: rest else top :: rest

/-- Marks a line as the start of a list element. -/
def markItem (l : Line) (level : Int) (length : Nat) : Line :=
  { l.erase 0 length with listStart := true, listLevel := level }

def classifyList (s : State) (previous following : Option Line) (l : Line) : State × Line :=
  let text := l.text
  let indent := l.indentation
  let free := isBlankLine previous || s.inList
  let marker := match marked? bullet? text with
    | some n => some n
    | none => if free then marked? enumerator? text else none
  match marker with
  | some length =>
      let indents := openLevel indent s.indents
      ({ s with indents := indents, inList := true }, markItem l indents.length length)
  | none =>
      match if indent = 0 then field? text else none with
      | some length =>
          ({ s with indents := [0], inList := true }, markItem l 1 length)
      | none =>
          if indent == 0 && isIndented following && !text.endsWith [':'] && free then
            ({ s with indents := [0], inList := true }, l.eraseAll)
          else if 0 < indent then
            let bare := l.erase 0 indent
            if s.inList then
              (s, { bare with
                listLevel := max s.indents.length 1, listStart := isBlankLine previous })
            else (s, bare)
          else ({ s with inList := false, indents := [] }, l)

/-- Whether a line is two colons at the end of something, not escaped. -/
def opensLiteral (l : Line) : Bool :=
  l.text.endsWith [':', ':'] && !l.isEscaped ((l.length : Int) - 1)

/-- A line that opens a literal block keeps one of its two colons, or none when white space
stands before them. -/
def eraseColons (l : Line) : Line :=
  let last : Int := (l.length : Int) - 1
  match l.glyphAt (last - 2) with
  | some c => if Line.isIndent c then l.erase (last - 2) 3 else l.erase last 1
  | none => l.erase last 1

def classifyProse (s : State) (previous following : Option Line) (l : Line) : State × Line :=
  let literal := opensLiteral l
  let s := if literal then { s with block := some .literal } else s
  let (s, l) := classifyList s previous following (if literal then eraseColons l else l)
  (s, eraseInline l)

/-- Classifies a line that is not blank, no title and not in an open block. -/
def classifyOpen (s : State) (previous following : Option Line) (l : Line) : State × Line :=
  let text := l.text
  if s.inTable then (s, l.eraseAll)
  else if isGridEdge text || isColumnEdge text then ({ s with inTable := true }, l.eraseAll)
  else match blockKind? text with
    | some kind => ({ s with block := some kind }, l.eraseAll)
    | none =>
        if isLineBlock text then (s, l.eraseAll)
        else if text.strip = [':', ':'] then ({ s with block := some .literal }, l.eraseAll)
        else classifyProse s previous following l

def classifyLine (s : State) (previous following : Option Line) (l : Line) : State × Line :=
  if 0 < l.sectionLevel then (.initial, eraseInline l)
  else if isBlankLine (some l) then (if isIndented following then s else .initial, l)
  else match s.block with
    | none => classifyOpen s previous following l
    | some kind =>
        if kind = .doctest ∨ 0 < l.indentation then (s, l.eraseAll)
        else classifyOpen { s with block := none } previous following l

/-- Classifies lines one after the other, given the line before them. Lines that are
already erased are passed over. -/
def classifyLines (s : State) (previous : Option Line) : List Line → List Line
  | [] => []
  | l :: rest =>
      let (s, l) := if l.erased then (s, l) else classifyLine s previous rest.head? l
      l :: classifyLines s (some l) rest

def classify (lines : List Line) : Classified :=
  let (titled, warnings) := titles (Suppress.eraseComments lines)
  ⟨classifyLines .initial none titled, Suppress.rules lines, warnings⟩

end ProseLint.Rest
