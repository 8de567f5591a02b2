import ProseLint.Markup.Classified

/-! Section titles. A title stands above a line of repeated punctuation and may have such a
line above it as well. The kind of punctuation gives the level. -/

namespace ProseLint.Rest

/-- Whether nothing is seen of a line: it is not there, erased, or white. -/
def isBlankLine : Option Line → Bool
  | none => true
  | some l => l.erased || l.text.isAllBlank

/-- Whether something is seen of a line and it is indented. -/
def isIndented : Option Line → Bool
  | none => false
  | some l => !isBlankLine (some l) && decide (0 < l.indentation)

/-- The characters that adorn titles. -/
def adornmentMarks : Text := "#*=-~^\"'`+_".toList

/-- The character of which a text of two or more characters consists, if it adorns titles. -/
def repeated? (t : Text) : Option Char :=
  match t with
  | c :: d :: rest =>
      if adornmentMarks.contains c && (d :: rest).all (· == c) then some c else none
  | _ => none

/-- The character of an adornment line, which is not indented. -/
def adornment? (l : Option Line) : Option Char :=
  match l with
  | none => none
  | some line =>
      if isBlankLine l || 0 < line.indentation then none else repeated? line.text

/-- The levels of titles by the character below and whether it also stands above. Level 0
is a subtitle. -/
def levels : List (Char × Bool × Nat) :=
  [('#', true, 1), ('*', true, 2), ('=', true, 3), ('=', false, 4), ('-', true, 0),
    ('-', false, 5), ('~', true, 6), ('~', false, 7), ('^', true, 8), ('^', false, 9)]

/-- The level of a title between two lines, if there is a title. -/
def levelBetween? (previous following : Option Line) : Option Nat :=
  match adornment? following with
  | none => none
  | some under =>
      let hasOverline := adornment? previous == some under
      (levels.find? fun e => e.1 == under && e.2.1 == hasOverline).map (·.2.2)

/-- The warning about a title whose lines above and below differ. -/
def overlineWarnings (l : Line) (above below : Option Char) : List MarkupWarning :=
  match above with
  | none => []
  | some c =>
      if above = below then [] else [.mismatchedOverline l.number [c] below.toList]

/-- The pass over the lines. The lines passed are in `done`, backwards. A title erases the
adornment around it, so no line adorns two titles. -/
def markTitles (done : List Line) : List Line → List Line × List MarkupWarning
  | [] => (done.reverse, [])
  | [l] => (((if (adornment? (some l)).isSome && isBlankLine done.head? then l.eraseAll
      else l) :: done).reverse, [])
  | l :: next :: rest =>
      let previous := done.head?
      let following := some next
      if isBlankLine (some l) || (adornment? (some l)).isSome then
        let transition :=
          (adornment? (some l)).isSome && isBlankLine previous && isBlankLine following
        markTitles ((if transition then l.eraseAll else l) :: done) (next :: rest)
      else match levelBetween? previous following with
        | none => markTitles (l :: done) (next :: rest)
        | some level =>
            let title := if 0 < level then { l with sectionLevel := level } else l
            let above := adornment? previous
            let done :=
              if above.isSome then (done.take 1).map Line.eraseAll ++ done.drop 1 else done
            let (lines, warnings) := markTitles (next.eraseAll :: title :: done) rest
            (lines, overlineWarnings l above (adornment? following) ++ warnings)

def titles (lines : List Line) : List Line × List MarkupWarning := markTitles [] lines

end ProseLint.Rest
