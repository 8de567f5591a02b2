import ProseLint.CommonMark.Token
import ProseLint.Markup.Markdown.Cursor
import ProseLint.Source.Erasure

/-! Erasing inline markup. The pieces of a text are looked up one after the other in its
lines, so only delimiters that the grammar has recognised are erased. Images disappear,
links keep their label and record their address, and the text of code spans stays. -/

namespace ProseLint.Markdown

open CommonMark (Inline)

/-- Why blocks cannot be matched with lines. No block read from a text has such a fault. -/
inductive BlockFault where
  | noLevel
  | badLevel
  | emptyCodeMark
  deriving DecidableEq, Repr

namespace Cursor

def eraseCodeSpan (c : Cursor) (mark : Text) : Cursor :=
  match c.findRun? mark with
  | none => c
  | some opening =>
      let inside := c.eraseAndPass opening
      match inside.findRun? mark with
      | none => inside
      | some closing => inside.eraseAndPass closing

/-- Passes a line break. A backslash that makes it a hard one is erased. -/
def passLineBreak (c : Cursor) (hard : Bool) : Cursor :=
  match c.find? ['\n'] with
  | none => c
  | some (start, stop) =>
      let c := if hard && c.glyphBefore start == some '\\' then c.erase (start - 1, start) else c
      c.moveTo stop

def eraseImage (c : Cursor) (description : Text) : Cursor :=
  match c.find? ['!', '['] with
  | none => c
  | some (start, stop) => ((c.moveTo stop).skip description).consumeTail (some start)

def openLink (c : Cursor) (opening : Char) (url : Text) : Cursor :=
  match c.find? [opening] with
  | none => c
  | some span => (c.addLink span.1 url).eraseAndPass span

end Cursor

/-- A walk with the characters that opened the links around it, innermost first. -/
structure Walk where
  cursor : Cursor
  openLinks : List Char
  deriving DecidableEq, Repr

namespace Walk

def change (w : Walk) (f : Cursor → Cursor) : Walk := { w with cursor := f w.cursor }

def pass (w : Walk) : Inline → Except BlockFault Walk
  | .text content => .ok (w.change (·.skip content))
  | .codeSpan mark =>
      if mark.isEmpty && !w.cursor.ahead.isEmpty then .error .emptyCodeMark
      else .ok (w.change (·.eraseCodeSpan mark))
  | .lineBreak hard => .ok (w.change (·.passLineBreak hard))
  | .html content => .ok (w.change (·.consume content))
  | .image description => .ok (w.change (·.eraseImage description))
  | .linkOpen auto url =>
      let opening := if auto then '<' else '['
      .ok ⟨w.cursor.openLink opening url, opening :: w.openLinks⟩
  | .linkClose =>
      let close := if w.openLinks.head? == some '<' then (·.consume ['>']) else (·.consumeTail none)
      .ok ⟨close w.cursor, w.openLinks.drop 1⟩
  | .delimiter mark => .ok (w.change (·.consume mark))
  | .other => .ok w

end Walk

/-- Erases the character of an entry that the walk has erased, when it stands on the line of
a number. -/
def eraseEntry (number : Nat) (l : Line) (e : Entry) : Line :=
  match e.place, e.glyph with
  | .at line position, none => if line = number then l.erase position 1 else l
  | _, _ => l

/-- Records a link of the walk, when it stands on the line of a number. -/
def recordLink (c : Cursor) (number : Nat) (l : Line) (link : Nat × Text) : Line :=
  match c.entries[link.1]? with
  | some ⟨.at line position, _, _⟩ =>
      if line = number then l.addLink (position + 1) link.2 else l
  | _ => l

/-- The line of a number among the lines of a walk, without what the walk has erased on it
and with the links it has met there. -/
def applyWalk (c : Cursor) (number : Nat) (l : Line) : Line :=
  c.links.foldl (recordLink c number) (c.entries.foldl (eraseEntry number) l)

/-- Erases the inline markup of some lines, given the pieces of their text. -/
def eraseInline (pieces : List Inline) (lines : List Line) : Except BlockFault (List Line) :=
  (pieces.foldlM Walk.pass ⟨.ofLines lines, []⟩).map fun w => lines.mapIdx (applyWalk w.cursor)

end ProseLint.Markdown
