import ProseLint.Document.Tree

/-! Building documents piece by piece. Sections nest by their levels as they are added.
Paragraphs and list elements go to the section that was added last. -/

namespace ProseLint

/-- A document under construction. `inList` says that list elements go to the list block
that was opened last. `misplaced` holds the levels of the sections that no earlier section
could take in, although there were earlier ones. -/
structure Builder where
  sections : List (Section Sentence)
  fileName : Option Text
  rules : List SuppressRule
  inList : Bool
  misplaced : List Int

namespace Builder

def empty : Builder := ⟨[], none, [], false, []⟩

/-- The nearest section of a lower level among a section and those around it. -/
def enclosing (sections : List (Section Sentence)) (level : Int) (i : Nat) : Option Nat :=
  match sections[i]? with
  | none => none
  | some s =>
      if s.level < level then some i
      else match s.parent with
        | some p => if p < i then enclosing sections level p else none
        | none => none
termination_by i

/-- The section that takes in a new section of a level. -/
def parentFor (b : Builder) (level : Int) : Option Nat :=
  enclosing b.sections level (b.sections.length - 1)

/-- Adds a section below the closest one around the current place with a lower level. -/
def addSection (b : Builder) (level : Int) (header : List Sentence) : Builder :=
  let parent := b.parentFor level
  { b with
    sections := Section.attach b.sections (.ofHeader level header parent)
    inList := false
    misplaced :=
      if parent.isNone && !b.sections.isEmpty then b.misplaced ++ [level] else b.misplaced }

/-- Opens an untitled section when there is none yet. -/
def requireSection (b : Builder) : Builder :=
  if b.sections.isEmpty then b.addSection 0 [] else b

/-- Changes the section that was added last. -/
def changeLast (b : Builder) (f : Section Sentence → Section Sentence) : Builder :=
  { b with sections := b.sections.modify (b.sections.length - 1) f }

/-- The section that was added last. -/
def current? (b : Builder) : Option (Section Sentence) := b.sections.getLast?

def addParagraph (b : Builder) : Builder :=
  ({ b with inList := false }).requireSection.changeLast fun s =>
    { s with paragraphs := s.paragraphs ++ [[]] }

/-- Appends an item to the last list of several. -/
def appendToLast {α : Type} (lists : List (List α)) (a : α) : List (List α) :=
  lists.modify (lists.length - 1) (· ++ [a])

/-- Adds a sentence to the last paragraph, opening one after a list or in a section
without paragraphs. -/
def addSentence (b : Builder) (sentence : Sentence) : Builder :=
  let b := b.requireSection
  let noParagraph := match b.current? with
    | some s => s.paragraphs.isEmpty
    | none => true
  let b := if noParagraph || b.inList then b.addParagraph else b
  b.changeLast fun s => { s with paragraphs := appendToLast s.paragraphs sentence }

/-- Opens a list block. When it has to open a section as well, that section ends the list
at once. -/
def addListBlock (b : Builder) : Builder :=
  ({ b with inList := true }).requireSection.changeLast fun s =>
    { s with listBlocks := s.listBlocks ++ [[]] }

/-- Whether the current section has a list block that is still open. -/
def hasOpenBlock (b : Builder) : Bool :=
  b.inList && match b.current? with
    | some s => !s.listBlocks.isEmpty
    | none => false

/-- Adds a list element, opening a list block unless one is open. -/
def addListElement (b : Builder) (level : Int) (sentences : List Sentence) : Builder :=
  let b := b.requireSection
  let b := if b.hasOpenBlock then b else b.addListBlock
  b.changeLast fun s => { s with listBlocks := appendToLast s.listBlocks ⟨level, sentences⟩ }

/-- The position of the last element of a level. -/
def lastOfLevel? (level : Int) (elements : List (ListElement Sentence)) : Option Nat :=
  (elements.reverse.findIdx? (·.level == level)).map (elements.length - 1 - ·)

/-- Adds sentences to the last element of a level in the open list block, or a new element
when there is none. -/
def extendListElement (b : Builder) (level : Int) (sentences : List Sentence) : Builder :=
  let b := b.requireSection
  let target :=
    if b.hasOpenBlock then
      (b.current?.bind (·.listBlocks.getLast?)).bind (lastOfLevel? level)
    else none
  match target with
  | none => b.addListElement level sentences
  | some i =>
      b.changeLast fun s =>
        { s with
          listBlocks := s.listBlocks.modify (s.listBlocks.length - 1) fun elements =>
            elements.modify i fun e => { e with sentences := e.sentences ++ sentences } }

/-- Names the file that the document comes from. -/
def setFileName (b : Builder) (name : Option Text) : Builder := { b with fileName := name }

def addRule (b : Builder) (rule : SuppressRule) : Builder := { b with rules := b.rules ++ [rule] }

/-- The document built so far, its sentences cut into tokens when there is a tokenizer. -/
def build (b : Builder) (tokenizer : Option Tokenizer) : Document Sentence :=
  let d : Document Sentence := ⟨b.sections, b.fileName, b.rules⟩
  match tokenizer with
  | some t => d.map (Sentence.tokenize t)
  | none => d

end Builder

end ProseLint
