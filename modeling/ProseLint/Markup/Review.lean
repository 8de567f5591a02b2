import ProseLint.Markup.Classified
import ProseLint.Text.Alphanumeric
import ProseLint.Text.Digit

/-! Book manuscripts: headers with equals signs, indented lists, blocks that open with
`//name` and a brace, and inline commands such as `@<name>` with their content in braces. -/

namespace ProseLint.Review

/-- A block command with the properties given in brackets, and whether a body follows. -/
structure Block where
  name : Text
  properties : List Text
  isOpen : Bool
  deriving DecidableEq, Repr

/-- The properties at the start of a text, each in brackets, and what follows them. The
text inside a bracket is read backwards into `inside`. A bracket that is not closed
belongs to what follows. -/
def propertiesFrom (inside : Option Text) : Text → List Text × Text
  | [] => match inside with
      | some read => ([], '[' :: read.reverse)
      | none => ([], [])
  | c :: rest =>
      match inside with
      | some read =>
          if c = ']' then
            let (more, after) := propertiesFrom none rest
            (read.reverse :: more, after)
          else propertiesFrom (some (c :: read)) rest
      | none => if c = '[' then propertiesFrom (some []) rest else ([], c :: rest)

/-- What opens the body of a block or the content of a command. -/
def openBrace : Char := '\x7b'

/-- What closes the content of a command. -/
def closeBrace : Char := '\x7d'

/-- The block command at the start of a text. Without a name there is no command. -/
def blockOf (t : Text) : Block :=
  match t with
  | '/' :: '/' :: rest =>
      let name := rest.takeWhile isWordChar
      if name.isEmpty then ⟨[], [], false⟩
      else
        let (properties, after) := propertiesFrom none (rest.dropWhile isWordChar)
        ⟨name, properties, after.stripRight.endsWith [openBrace]⟩
  | _ => ⟨[], [], false⟩

/-- What ends the body of a block. -/
def blockEnd : Text := ['/', '/', closeBrace]

/-- The length of text between two delimiters at the start of a text, delimiters included.
Text that does not start with the first one, or never has the second, has none. -/
def groupLength (first last : Char) : Text → Nat
  | [] => 0
  | c :: rest =>
      if c = first then
        match rest.findIdx? (· == last) with
        | some i => i + 2
        | none => 0
      else 0

/-- A header: its level, the length of what introduces it, and whether its tag closes
something. -/
structure Header where
  level : Nat
  length : Nat
  closing : Bool

/-- The header at the start of a text. A tag in brackets and a label in braces may follow
the equals signs, then white space or nothing. -/
def header? (t : Text) : Option Header :=
  let level := (t.takeWhile (· == '=')).length
  let afterLevel := t.drop level
  let tag := groupLength '[' ']' afterLevel
  let afterTag := afterLevel.drop tag
  let label := groupLength openBrace closeBrace afterTag
  let rest := afterTag.drop label
  let blanks := (rest.takeWhile isBlank).length
  if 0 < level ∧ level ≤ 5 ∧ (0 < blanks ∨ rest = []) then
    some ⟨level, level + tag + label + blanks,
      decide (0 < tag) && ['[', '/'].isPrefixOf afterLevel⟩
  else none

/-- What introduces an indented list element: a mark after white space and before white
space. The answer gives the length of the mark and of everything. -/
def marked? (mark : Text → Nat) (t : Text) : Option (Nat × Nat) :=
  let indent := (t.takeWhile isBlank).length
  let body := t.drop indent
  let width := mark body
  let blanks := ((body.drop width).takeWhile isBlank).length
  if 0 < indent ∧ 0 < width ∧ 0 < blanks then some (width, indent + width + blanks) else none

/-- The stars that introduce an item. -/
def stars (t : Text) : Nat := (t.takeWhile (· == '*')).length

/-- Digits with a full stop that introduce an item. -/
def numeral (t : Text) : Nat :=
  let digits := (t.takeWhile isDecimal).length
  if 0 < digits ∧ t[digits]? = some '.' then digits + 1 else 0

/-- The colon that introduces a term. -/
def colon (t : Text) : Nat := if t.head? = some ':' then 1 else 0

/-- What is open between two lines: the block whose body is being skipped, and whether the
next line describes a term. -/
structure State where
  block : Option Text
  inDefinition : Bool
  deriving DecidableEq, Repr

/-- Marks a list element, given what introduces it. -/
def markItem (l : Line) (level : Int) (length : Nat) : Line :=
  { l.erase 0 length with listStart := true, listLevel := level }

/-- Marks the line as a list element or a term. Nothing means that it is neither. -/
def list? (s : State) (l : Line) : Option (State × Line) :=
  match marked? stars l.text with
  | some (width, length) => some (s, markItem l width length)
  | none =>
      match marked? numeral l.text with
      | some (_, length) => some (s, markItem l 1 length)
      | none =>
          match marked? colon l.text with
          | some _ => some ({ s with inDefinition := true }, l.eraseAll)
          | none => none

/-- An inline command: where it starts, its name, and where its content starts. -/
structure Command where
  start : Nat
  name : Text
  content : Nat
  deriving DecidableEq, Repr

/-- The name of the inline command that opens at the start of a text. -/
def commandName? (t : Text) : Option Text :=
  match t with
  | '@' :: '<' :: rest =>
      let name := rest.takeWhile isWordChar
      if !name.isEmpty && ['>', openBrace].isPrefixOf (rest.dropWhile isWordChar) then some name
      else none
  | _ => none

/-- The inline commands that open in a text that starts at position `i`. -/
def commandsFrom (i : Nat) : Text → List Command
  | [] => []
  | c :: rest =>
      match commandName? (c :: rest) with
      | some name => ⟨i, name, i + name.length + 4⟩ :: commandsFrom (i + 1) rest
      | none => commandsFrom (i + 1) rest

/-- What a command shows of its content. -/
inductive Display where
  | nothing
  | firstPart
  | rawPart
  | link
  | everything
  deriving DecidableEq, Repr

def displayOf (name : Text) : Display :=
  let n := String.ofList name
  if n == "fn" || n == "comment" || n == "m" || n == "balloon" then .nothing
  else if n == "href" then .link
  else if n == "kw" || n == "ruby" then .firstPart
  else if n == "raw" then .rawPart
  else .everything

/-- The first position of a character in the content of a command. -/
def findIn? (l : Line) (c : Char) (content close : Nat) : Option Nat :=
  (l.find? [c] content).filter (· < close)

/-- Keeps the label of a link, or its address when it has no label, and records the
address. -/
def eraseLink (l : Line) (text : Text) (content close : Nat) : Line :=
  match findIn? l ',' content close with
  | some comma =>
      let spaces := ((l.cells.drop (comma + 1)).takeWhile fun c => c.glyph == some ' ').length
      let label := comma + 1 + spaces
      (l.erase content (label - content)).addLink label (Text.strip (text.slice content comma))
  | none => l.addLink content (Text.strip (text.slice content close))

/-- Reduces an inline command to what it shows. A command that is erased, escaped or not
closed stays. -/
def eraseCommand (text : Text) (l : Line) (c : Command) : Line :=
  if l.glyphAt c.start ≠ some '@' then l
  else match l.find? [closeBrace] c.content with
    | none => l
    | some close =>
        let bare := (l.erase c.start (c.content - c.start)).erase close 1
        match displayOf c.name with
        | .nothing => bare.erase c.content (close - c.content)
        | .link => eraseLink bare text c.content close
        | .firstPart =>
            match findIn? bare ',' c.content close with
            | some comma => bare.erase comma (close - comma)
            | none => bare
        | .rawPart =>
            match findIn? bare '|' c.content close with
            | some bar => bare.erase c.content (bar + 1 - c.content)
            | none => bare
        | .everything => bare

def eraseCommands (l : Line) : Line := (commandsFrom 0 l.text).foldl (eraseCommand l.text) l

/-- Classifies a line of prose that is not a header. -/
def classifyBody (s : State) (l : Line) : State × Line :=
  match list? s l with
  | some result => result
  | none =>
      if s.inDefinition && !l.isEmpty then
        ({ s with inDefinition := false }, { l with listStart := true, listLevel := 1 })
      else (s, l)

def classifyLine (s : State) (l : Line) : State × Line :=
  let text := l.text
  if s.block.isSome then
    (if text.strip = blockEnd then { s with block := none } else s, l.eraseAll)
  else if ['/', '/'].isPrefixOf text then
    let block := blockOf text
    (if block.isOpen then { s with block := some block.name } else s, l.eraseAll)
  else if ['#', '@'].isPrefixOf text then (s, l.eraseAll)
  else match header? text with
    | some h =>
        if h.closing then (s, l.eraseAll)
        else
          ({ s with inDefinition := false },
            eraseCommands { l.erase 0 h.length with sectionLevel := h.level })
    | none =>
        let (s, l) := classifyBody s l
        (s, eraseCommands l)

/-- Classifies lines one after the other. Lines that are already erased are passed over. -/
def classifyLines (s : State) : List Line → State × List Line
  | [] => (s, [])
  | l :: rest =>
      let (s, l) := if l.erased then (s, l) else classifyLine s l
      let (s, rest) := classifyLines s rest
      (s, l :: rest)

def classify (lines : List Line) : Classified :=
  let (s, classified) := classifyLines ⟨none, false⟩ (Suppress.eraseComments lines)
  ⟨classified, Suppress.rules lines,
    match s.block with
    | some name => [.unclosedBlock name]
    | none => []⟩

end ProseLint.Review
