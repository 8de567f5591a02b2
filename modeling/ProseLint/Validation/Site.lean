import ProseLint.Document.Sentence
import ProseLint.Document.Tree

/-! Sentences with their place in the order of a document, so that two sentences with the
same content and the same position can still be told apart. -/

namespace ProseLint

/-- A sentence and its number among the sentences of its document, counted from 0. -/
structure Site where
  index : Nat
  sentence : Sentence
  deriving DecidableEq, Repr

namespace Site

/-- Sentences numbered from `n` on. -/
def number (n : Nat) : List Sentence → List Site
  | [] => []
  | s :: rest => ⟨n, s⟩ :: number (n + 1) rest

/-- Groups of sentences numbered through from `n` on. -/
def numberAll (n : Nat) : List (List Sentence) → List (List Site)
  | [] => []
  | group :: rest => number n group :: numberAll (n + group.length) rest

/-- The elements of a list block numbered from `n` on. -/
def numberElements (n : Nat) : List (ListElement Sentence) → List (ListElement Site)
  | [] => []
  | e :: rest => ⟨e.level, number n e.sentences⟩ :: numberElements (n + e.sentences.length) rest

def blockLength (block : List (ListElement Sentence)) : Nat :=
  (block.flatMap (·.sentences)).length

/-- List blocks numbered through from `n` on. -/
def numberBlocks (n : Nat) :
    List (List (ListElement Sentence)) → List (List (ListElement Site))
  | [] => []
  | block :: rest => numberElements n block :: numberBlocks (n + blockLength block) rest

/-- A section numbered from `n` on: its header, its paragraphs, then its lists. -/
def numberSection (n : Nat) (s : Section Sentence) : Section Site :=
  let body := n + s.header.length
  ⟨s.level, number n s.header, numberAll body s.paragraphs,
    numberBlocks (body + s.paragraphSentences.length) s.listBlocks, s.parent, s.subsections⟩

/-- Sections numbered through from `n` on. -/
def numberSections (n : Nat) : List (Section Sentence) → List (Section Site)
  | [] => []
  | s :: rest => numberSection n s :: numberSections (n + s.sentences.length) rest

end Site

def Document.numbered (d : Document Sentence) : Document Site :=
  ⟨Site.numberSections 0 d.sections, d.fileName, d.rules⟩

end ProseLint
