import ProseLint.Validation.Problem

/-! Problems grouped by sentence. Two sentences are the same only if they stand at the same
place in the order of their document, whatever they say. -/

namespace ProseLint

/-- The problems of one sentence, or those of one line that are in no sentence. -/
structure ProblemGroup where
  site : Option Site
  line : Int
  offset : Int
  problems : List Problem
  deriving DecidableEq, Repr

/-- What two problems must share to stand in one group. -/
inductive GroupKey where
  | sentence (index : Nat)
  | line (number : Int)
  deriving DecidableEq, Repr

namespace Problem

def groupKey (p : Problem) : GroupKey :=
  match p.site with
  | some site => .sentence site.index
  | none => .line p.line

/-- Where a problem is listed: at the start of its sentence, else at its own place. -/
def place (p : Problem) : Position :=
  match p.site with
  | some site => site.sentence.position
  | none => ⟨p.line, p.offset⟩

/-- The order in which problems are listed: by line, by offset, then by content. -/
def listedBefore (p q : Problem) : Bool :=
  p.place.lt q.place || (p.place == q.place && Text.le p.content q.content)

end Problem

namespace ProblemGroup

/-- The content of the sentence, empty without one. -/
def content (g : ProblemGroup) : Text := (g.site.map (·.sentence.content)).getD []

def single (p : Problem) : ProblemGroup := ⟨p.site, p.place.line, p.place.offset, [p]⟩

def key (g : ProblemGroup) : GroupKey :=
  match g.site with
  | some site => .sentence site.index
  | none => .line g.line

/-- Adds a problem to its group. A new group goes to the end. -/
def insert (p : Problem) : List ProblemGroup → List ProblemGroup
  | [] => [single p]
  | g :: rest =>
      if g.key = p.groupKey then { g with problems := g.problems ++ [p] } :: rest
      else g :: insert p rest

/-- Problems in listed order, grouped. Problems of one sentence stay in the order in which
they were found. -/
def ofProblems (problems : List Problem) : List ProblemGroup :=
  (problems.mergeSort Problem.listedBefore).foldl (fun groups p => insert p groups) []

/-- The group as a data value. What all its problems share is said once. -/
def toJson (g : ProblemGroup) : Json :=
  .object [("sentence", Problem.textOrNull g.content),
    ("position", .object [("line", .int g.line), ("offset", .int g.offset)]),
    ("errors", .list (g.problems.map fun p => .object p.ownFields))]

end ProblemGroup

end ProseLint
