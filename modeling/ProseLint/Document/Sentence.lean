import ProseLint.Document.Position
import ProseLint.Document.Token

/-! Sentences. Every character of a sentence has the place in the source that it came
from, so a span of the sentence is a span of the source. -/

namespace ProseLint

/-- A sentence without its markup. `positions` holds the source place of each character,
and `markup` the ranges of the content that came from inline markup. -/
structure Sentence where
  content : Text
  line : Int
  start : Int
  isFirst : Bool
  links : List Text
  positions : List Position
  tokens : List Token
  markup : List (Int × Int)
  deriving DecidableEq, Repr

namespace Sentence

/-- Places on one line for so many characters. -/
def positionsFrom (line start : Int) (count : Nat) : List Position :=
  (List.range count).map fun (i : Nat) => ⟨line, start + i⟩

/-- A sentence that starts at a place. Without places for its characters they stand one
after the other from there. -/
def atPlace (content : Text) (line start : Int) (isFirst : Bool) (links : List Text)
    (positions : List Position) (markup : List (Int × Int)) : Sentence :=
  let positions :=
    if positions.isEmpty then positionsFrom line start content.length else positions
  ⟨content, line, start, isFirst, links, positions, [], markup⟩

/-- A sentence that starts where its first character does. -/
def ofPositions (content : Text) (positions : List Position) (links : List Text)
    (markup : List (Int × Int)) : Sentence :=
  let first := positions.head?.getD ⟨0, 0⟩
  atPlace content first.line first.offset false links positions markup

def position (s : Sentence) : Position := ⟨s.line, s.start⟩

def length (s : Sentence) : Nat := s.content.length

def positionAt? (s : Sentence) (i : Int) : Option Position :=
  if 0 ≤ i then s.positions[i.toNat]? else none

/-- The first character that came from a source place. -/
def indexOf? (s : Sentence) (p : Position) : Option Nat := s.positions.findIdx? (· == p)

/-- Whether a character came from inline markup. -/
def isInlineMarkup (s : Sentence) (i : Int) : Bool :=
  s.markup.any fun r => r.1 ≤ i && decide (i < r.2)

def tokenize (t : Tokenizer) (s : Sentence) : Sentence := { s with tokens := t.tokens s.content }

/-- The tokens of the sentence, cut at this moment if it has none. -/
def tokensOrCut (s : Sentence) : List Token :=
  if s.tokens.isEmpty then Token.ofText s.content else s.tokens

/-- The places of joined sentences. Each joining space stands one further than the
character before it, or than the place of the sentence after it when there is none. -/
def joinPositions (joined : List Position) : List Sentence → List Position
  | [] => joined
  | s :: rest =>
      let last := joined.getLast?.getD s.position
      joinPositions (joined ++ ⟨last.line, last.offset + 1⟩ :: s.positions) rest

/-- Sentences joined by spaces into one. No sentences give the empty sentence at line 0. -/
def joined : List Sentence → Sentence
  | [] => atPlace [] 0 0 false [] [] []
  | s :: rest =>
      let all := s :: rest
      let content := Text.join [' '] (all.map (·.content))
      let whole := ofPositions content (joinPositions s.positions rest) [] []
      { whole with
        line := s.line, start := s.start, isFirst := true, links := all.flatMap (·.links) }

end Sentence

end ProseLint
