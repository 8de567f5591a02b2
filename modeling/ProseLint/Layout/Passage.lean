import ProseLint.Boundary.Extractor
import ProseLint.Document.Sentence
import ProseLint.Source.Line

/-! Passages: the text left on some consecutive lines, joined and cut into sentences. Every
character of a passage keeps its place in the source. -/

namespace ProseLint

/-- A character of a passage with its place and whether inline markup surrounded it. -/
structure Glyph where
  char : Char
  position : Position
  inline : Bool
  deriving DecidableEq, Repr

/-- Joined lines. A link stands before the character whose index it has. -/
structure Passage where
  glyphs : List Glyph
  links : List (Nat × Text)
  deriving DecidableEq, Repr

namespace Passage

def glyphsOf (l : Line) : List Glyph :=
  (l.cells.filter (·.kept)).map fun c => ⟨c.char, ⟨l.number, c.offset⟩, c.inline⟩

/-- The number of characters left before a position. -/
def keptBefore (l : Line) (position : Nat) : Nat := (l.cells.take position).countP (·.kept)

/-- The links on a line whose text goes to a passage after `base` other characters. First
come those on the line by their positions, then those off the line by theirs. -/
def linksOf (base : Nat) (l : Line) : List (Nat × Text) :=
  let onLine := fun (p : Int) => decide (0 ≤ p) && decide (p < l.length)
  let inner := (List.range l.length).flatMap fun (i : Nat) =>
    (l.links.filter fun k => k.1 == (i : Int)).map fun k => (base + keptBefore l i, k.2)
  let outer := (l.links.filter fun k => !onLine k.1).mergeSort fun a b => a.1 ≤ b.1
  inner ++ outer.map fun k => (base + (glyphsOf l).length, k.2)

def separatorAfter (separator : Option Char) (l : Line) : List Glyph :=
  match separator with
  | some c => [⟨c, ⟨l.number, l.endOffset⟩, false⟩]
  | none => []

/-- Adds a line to a passage. The separator stands between it and the line before, unless
nothing has been joined yet. -/
def append (separator : Option Char) (p : Passage) (previous : Option Line) (l : Line) :
    Passage :=
  let glue := match previous with
    | some before => if p.glyphs.isEmpty then [] else separatorAfter separator before
    | none => []
  let glyphs := p.glyphs ++ glue
  ⟨glyphs ++ glyphsOf l, p.links ++ linksOf glyphs.length l⟩

/-- Adds lines to a passage one after the other. -/
def appendAll (separator : Option Char) (p : Passage) (previous : Option Line) :
    List Line → Passage
  | [] => p
  | l :: rest => appendAll separator (p.append separator previous l) (some l) rest

def ofLines (separator : Option Char) (lines : List Line) : Passage :=
  appendAll separator ⟨[], []⟩ none lines

def content (p : Passage) : Text := p.glyphs.map (·.char)

/-- The walk behind `markupRanges`, where `start` is the beginning of an open range. -/
def markupFrom (start : Option Nat) (i : Nat) : List Bool → List (Nat × Nat)
  | [] => match start with
      | some s => [(s, i)]
      | none => []
  | flag :: flags =>
      match start, flag with
      | none, true => markupFrom (some i) (i + 1) flags
      | some s, false => (s, i) :: markupFrom none (i + 1) flags
      | s, _ => markupFrom s (i + 1) flags

def markupRanges (flags : List Bool) : List (Nat × Nat) := markupFrom none 0 flags

/-- The spans of the passage that become sentences: the complete ones and the rest, without
those in which nothing is visible. -/
def spans (e : Extractor) (t : Text) : List (Nat × Nat) :=
  let (ranges, remainder) := e.extract t
  let all := if remainder < t.length then ranges ++ [(remainder, t.length)] else ranges
  all.filter fun r => !(t.slice r.1 r.2).isAllBlank

/-- The index of the span that takes a link: the one around it, or else the last. -/
def targetOf (spans : List (Nat × Nat)) (position : Nat) : Nat :=
  (spans.findIdx? fun r => r.1 ≤ position && decide (position < r.2)).getD (spans.length - 1)

def sentenceOf (p : Passage) (links : List Text) (span : Nat × Nat) : Sentence :=
  let glyphs := (p.glyphs.take span.2).drop span.1
  .ofPositions (glyphs.map (·.char)) (glyphs.map (·.position)) links
    ((markupRanges (glyphs.map (·.inline))).map fun r => ((r.1 : Int), (r.2 : Int)))

/-- The sentences of the passage. The first one is marked. -/
def sentences (e : Extractor) (p : Passage) : List Sentence :=
  let spans := spans e p.content
  spans.mapIdx fun i span =>
    let links := (p.links.filter fun k => targetOf spans k.1 == i).map (·.2)
    { p.sentenceOf links span with isFirst := i == 0 }

end Passage

def Line.sentences (e : Extractor) (lines : List Line) : List Sentence :=
  (Passage.ofLines e.separator lines).sentences e

end ProseLint
