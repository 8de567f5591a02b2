import ProseLint.Document.Sentence

/-! Documents. The sections of a document are kept in the order in which they stand, and
each one knows the section that encloses it. What the sentences are is left open, so that
a document can also hold sentences together with something about each of them. -/

namespace ProseLint

variable {σ τ : Type}

/-- One item of a list. Items of the outermost list have level 1. -/
structure ListElement (σ : Type) where
  level : Int
  sentences : List σ
  deriving DecidableEq, Repr

/-- A section: its header, its paragraphs and its list blocks, the index of the section
around it, and the indices of the sections directly inside it. -/
structure Section (σ : Type) where
  level : Int
  header : List σ
  paragraphs : List (List σ)
  listBlocks : List (List (ListElement σ))
  parent : Option Nat
  subsections : List Nat
  deriving DecidableEq, Repr

/-- A comment in the source that hides problems. It counts from a line on, for the named
validators or, without names, for all of them. -/
structure SuppressRule where
  line : Int
  names : List Text
  deriving DecidableEq, Repr

/-- A document with its sections in order. -/
structure Document (σ : Type) where
  sections : List (Section σ)
  fileName : Option Text
  rules : List SuppressRule
  deriving DecidableEq, Repr

namespace ListElement

def map (f : σ → τ) (e : ListElement σ) : ListElement τ := ⟨e.level, e.sentences.map f⟩

end ListElement

namespace Section

/-- A section with a header and nothing else. -/
def ofHeader (level : Int) (header : List σ) (parent : Option Nat) : Section σ :=
  ⟨level, header, [], [], parent, []⟩

def paragraphSentences (s : Section σ) : List σ := s.paragraphs.flatten

def listSentences (s : Section σ) : List σ := s.listBlocks.flatten.flatMap (·.sentences)

/-- All sentences: those of the header, of the paragraphs and of the lists. -/
def sentences (s : Section σ) : List σ := s.header ++ s.paragraphSentences ++ s.listSentences

def map (f : σ → τ) (s : Section σ) : Section τ :=
  ⟨s.level, s.header.map f, s.paragraphs.map (·.map f),
    s.listBlocks.map (·.map (·.map f)), s.parent, s.subsections⟩

def enclose (s : Section σ) (i : Nat) : Section σ :=
  { s with subsections := s.subsections ++ [i] }

/-- Sections with one more behind them, which the section around it takes in. -/
def attach (sections : List (Section σ)) (s : Section σ) : List (Section σ) :=
  match s.parent with
  | some p => sections.modify p (·.enclose sections.length) ++ [s]
  | none => sections ++ [s]

end Section

namespace Document

/-- All sentences, section by section. -/
def sentences (d : Document σ) : List σ := d.sections.flatMap (·.sentences)

def map (f : σ → τ) (d : Document σ) : Document τ :=
  ⟨d.sections.map (·.map f), d.fileName, d.rules⟩

/-- The indices of the sections directly inside a section. An index counts only if a section
behind this one has it. -/
def childrenOf (d : Document σ) (i : Nat) : List Nat :=
  (((d.sections[i]?).map (·.subsections)).getD []).filter fun j =>
    decide (i < j) && decide (j < d.sections.length)

/-- The indices of the sections that nothing encloses. -/
def roots (d : Document σ) : List Nat :=
  (List.range d.sections.length).filter fun j => (d.sections[j]?.bind (·.parent)).isNone

end Document

end ProseLint
