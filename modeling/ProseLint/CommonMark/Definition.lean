import ProseLint.Address.Link
import ProseLint.CommonMark.BlockStart
import ProseLint.CommonMark.Destination
import ProseLint.CommonMark.Label

/-! Definitions of labels, such as `[label]: address "title"`. A definition may run over
several lines, which are added to the text as they are needed. A title that does not end
its line is no title, nor is one on a single line right behind the address. -/

namespace ProseLint.CommonMark

/-- The text of a definition as far as it has been needed, the lines that could follow, and
the number of those already added. -/
structure Feed where
  text : Array Char
  more : List Text
  added : Nat

namespace Feed

/-- Adds a line, if there is one. -/
def grow (f : Feed) : Feed :=
  match f.more with
  | [] => f
  | line :: more => ⟨f.text ++ line.toArray, more, f.added + 1⟩

def bound (f : Feed) : Nat := f.text.size + f.more.flatten.length

/-- The text from a position on. -/
def textFrom (f : Feed) (i : Nat) : Text := (f.text.extract i f.text.size).toList

/-- The closing bracket of a label, from a position inside it on. -/
def labelEnd (fuel : Nat) (f : Feed) (i : Nat) : Option (Feed × Nat) :=
  match fuel with
  | 0 => none
  | fuel + 1 =>
      match f.text[i]? with
      | none => none
      | some c =>
          if c = '[' then none
          else if c = ']' then some (f, i)
          else if c = '\n' then labelEnd fuel f.grow (i + 1)
          else if c = '\\' then
            labelEnd fuel (if f.text[i + 1]? = some '\n' then f.grow else f) (i + 2)
          else labelEnd fuel f (i + 1)

def skipGaps (fuel : Nat) (f : Feed) (i : Nat) : Feed × Nat :=
  match fuel with
  | 0 => (f, i)
  | fuel + 1 =>
      match f.text[i]? with
      | none => (f, i)
      | some c =>
          if c = '\n' then skipGaps fuel f.grow (i + 1)
          else if isSpacing c then skipGaps fuel f (i + 1)
          else (f, i)

/-- The end of a title of which some has been read, and whether it is empty. Lines are
added while it is open. What is read last must stand behind `stop`, so that a title that
starts there has to go on to another line. -/
def titleEnd (fuel : Nat) (f : Feed) (stop i : Nat) (read : TitleRead) :
    Feed × Option (Nat × Bool) :=
  match read with
  | .failed => (f, none)
  | .finished title length =>
      (f, if stop < i ∧ i < f.text.size then some (i + length, title.isEmpty) else none)
  | .isOpen closing title =>
      match fuel, f.more with
      | 0, _ => (f, none)
      | _, [] => (f, none)
      | fuel + 1, _ =>
          let i := f.text.size
          let f := f.grow
          titleEnd fuel f stop i (titleFrom closing title (f.textFrom i))

/-- Whether nothing but spaces is left on the line at a position. -/
def endsLine (f : Feed) (i : Nat) : Bool :=
  match ((f.textFrom i).dropWhile isSpacing).head? with
  | none => true
  | some c => c == '\n'

/-- The label, the address and the number of added lines of a definition. -/
def definition? (f : Feed) : Option (Text × Text × Nat) := do
  let fuel := f.bound + 1
  if f.text[0]? ≠ some '[' then none
  let (f, close) ← f.labelEnd fuel 1
  if f.text[close + 1]? ≠ some ':' then none
  let (f, start) := f.skipGaps fuel (close + 2)
  let (raw, length) ← destination? (f.textFrom start)
  let url := Address.recorded raw
  if !Address.isAccepted url then none
  let stop := start + length
  let (g, titleStart) := f.skipGaps fuel stop
  let (g, ending) := g.titleEnd fuel stop titleStart (title (g.textFrom titleStart))
  let lines ← match ending with
    | some (e, isEmpty) =>
        if g.endsLine e then some g.added
        else if !isEmpty && g.endsLine stop then some f.added
        else none
    | none => if g.endsLine stop then some f.added else none
  let label := (f.text.extract 1 close).toList
  if (normalLabel label).isEmpty then none
  return (normalLabel label, url, lines)

end Feed

/-- The lines that a definition may run over. -/
def continuations (c : Container) : List BlockLine → List Text
  | [] => []
  | l :: rest =>
      if l.isBlank || (!c.isLazy l && c.endsDefinition l rest) then []
      else l.endedBody :: continuations c rest

/-- The definition that starts on a line: its label, its address and the line after it. -/
def Container.definition? (c : Container) (l : BlockLine) (rest : List BlockLine) :
    Option (Text × Text × Nat) :=
  if c.isCode l ∨ l.body.head? ≠ some '[' then none
  else ((⟨l.endedBody.toArray, continuations c rest, 0⟩ : Feed).definition?).map fun d =>
    (d.1, d.2.1, l.number + 1 + d.2.2)

end ProseLint.CommonMark
