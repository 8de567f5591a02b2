import ProseLint.Source.Line

/-! A walk over the characters of some consecutive lines. The walk only goes forward. What
it erases no longer shows to markup but stays in the way. -/

namespace ProseLint.Markdown

/-- Where an entry of a walk comes from: a line of the group and a position on it, or the
break between two lines. -/
inductive Place where
  | lineBreak
  | at (line position : Nat)
  deriving DecidableEq, Repr

/-- A character of the walk. `glyph` is what it shows to markup, or nothing once it is
erased. -/
structure Entry where
  place : Place
  char : Char
  glyph : Option Char
  deriving DecidableEq, Repr

/-- A walk: all characters, the index of the next one, and the links met so far with the
entry that stands before their text. -/
structure Cursor where
  entries : List Entry
  index : Nat
  links : List (Nat × Text)
  deriving DecidableEq, Repr

namespace Entry

def lineBreak : Entry := ⟨.lineBreak, '\n', some '\n'⟩

def ofLine (number : Nat) (l : Line) : List Entry :=
  (l.cells.mapIdx fun i c => (⟨.at number i, c.char, c.glyph⟩ : Entry)).filter (·.glyph.isSome)

/-- The entries of lines from a number on, with a line break before each. -/
def ofLinesFrom (number : Nat) : List Line → List Entry
  | [] => []
  | l :: rest => lineBreak :: (ofLine number l ++ ofLinesFrom (number + 1) rest)

def ofLines (lines : List Line) : List Entry := (ofLinesFrom 0 lines).drop 1

/-- The entry without its character. A line break cannot be erased. -/
def erased (e : Entry) : Entry :=
  match e.place with
  | .lineBreak => e
  | .at .. => { e with glyph := none }

/-- What the first of some entries shows to markup. -/
def headGlyph (entries : List Entry) : Option Char := entries.head?.bind (·.glyph)

/-- The length of a match at the start of some entries. After a line break the match goes
on behind the indentation of the next line. -/
def matchLength? : Text → List Entry → Option Nat
  | [], _ => some 0
  | _ :: _, [] => none
  | c :: needle, e :: entries =>
      if e.glyph ≠ some c then none
      else if c = '\n' then
        let indent :=
          (entries.takeWhile fun e => e.glyph == some ' ' || e.glyph == some '\t').length
        (matchLength? needle (entries.drop indent)).map (· + indent + 1)
      else (matchLength? needle entries).map (· + 1)

/-- The first match in entries that start at index `i`, as a span. -/
def find? (needle : Text) (i : Nat) : List Entry → Option (Nat × Nat)
  | [] => none
  | e :: entries =>
      match matchLength? needle (e :: entries) with
      | some n => some (i, i + n)
      | none => find? needle (i + 1) entries

/-- The first match that is not part of a longer run of its first character. `before` is
what stands in front of the entries. -/
def findRun? (needle : Text) (before : Option Char) (i : Nat) : List Entry → Option (Nat × Nat)
  | [] => none
  | e :: entries =>
      let later := findRun? needle e.glyph (i + 1) entries
      match matchLength? needle (e :: entries) with
      | some n =>
          let after := headGlyph ((e :: entries).drop n)
          if needle.head? == before || needle.head? == after then later else some (i, i + n)
      | none => later

/-- The index behind a text that is passed over, in entries that start at index `i`.
Characters of the text that no entry has are ignored. -/
def skip (i : Nat) (entries : List Entry) : Text → Nat
  | [] => i
  | c :: text =>
      match entries.findIdx? (·.char == c) with
      | some k => skip (i + k + 1) (entries.drop (k + 1)) text
      | none => skip i entries text

/-- The length of what stands in parentheses at the start of some entries, within `depth`
parentheses. -/
def parenthesized? (depth : Nat) : List Entry → Option Nat
  | [] => none
  | e :: entries =>
      if e.glyph = some '(' then (parenthesized? (depth + 1) entries).map (· + 1)
      else if e.glyph = some ')' then
        if depth ≤ 1 then some 1 else (parenthesized? (depth - 1) entries).map (· + 1)
      else (parenthesized? depth entries).map (· + 1)

/-- The length of the address in parentheses or the label in brackets at the start of some
entries. -/
def tailLength (entries : List Entry) : Nat :=
  match headGlyph entries with
  | some '(' => (parenthesized? 0 entries).getD 0
  | some '[' => (((entries.drop 1).findIdx? (·.glyph == some ']')).map (· + 2)).getD 0
  | _ => 0

end Entry

namespace Cursor

def ofLines (lines : List Line) : Cursor := ⟨Entry.ofLines lines, 0, []⟩

/-- The entries that are still ahead. -/
def ahead (c : Cursor) : List Entry := c.entries.drop c.index

/-- What the entry before an index shows to markup. -/
def glyphBefore (c : Cursor) (i : Nat) : Option Char :=
  if i = 0 then none else (c.entries[i - 1]?).bind (·.glyph)

def find? (c : Cursor) (needle : Text) : Option (Nat × Nat) := Entry.find? needle c.index c.ahead

/-- The next match of a text that is no part of a longer run. -/
def findRun? (c : Cursor) (needle : Text) : Option (Nat × Nat) :=
  Entry.findRun? needle (c.glyphBefore c.index) c.index c.ahead

def erase (c : Cursor) (span : Nat × Nat) : Cursor :=
  { c with entries := c.entries.mapIdx fun i e =>
      if span.1 ≤ i ∧ i < span.2 then e.erased else e }

def moveTo (c : Cursor) (i : Nat) : Cursor := { c with index := i }

/-- Erases a span of entries and moves behind it. -/
def eraseAndPass (c : Cursor) (span : Nat × Nat) : Cursor := (c.erase span).moveTo span.2

def skip (c : Cursor) (text : Text) : Cursor := c.moveTo (Entry.skip c.index c.ahead text)

/-- Erases the next match of a text and moves behind it. -/
def consume (c : Cursor) (needle : Text) : Cursor :=
  match c.find? needle with
  | some span => c.eraseAndPass span
  | none => c

/-- Erases from an index to the next closing bracket and what belongs to it, and moves
behind that. -/
def consumeTail (c : Cursor) (start : Option Nat) : Cursor :=
  match c.find? [']'] with
  | some (i, stop) =>
      c.eraseAndPass (start.getD i, stop + Entry.tailLength (c.entries.drop stop))
  | none => c

/-- Records a link behind an entry. -/
def addLink (c : Cursor) (i : Nat) (url : Text) : Cursor :=
  { c with links := c.links ++ [(i, url)] }

end Cursor

end ProseLint.Markdown
