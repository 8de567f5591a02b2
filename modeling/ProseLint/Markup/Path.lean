import ProseLint.Text.Basic

/-! File paths. -/

namespace ProseLint.Path

/-- The steps of a path. Empty steps and steps to the same directory are left out. -/
def steps (path : Text) : List Text :=
  (path.splitOn '/').filter fun s => !s.isEmpty && s != ['.']

/-- What stands before the first step: one slash, or two when exactly two are written. -/
def anchor (path : Text) : Text :=
  match (path.takeWhile (· == '/')).length with
  | 0 => []
  | 2 => ['/', '/']
  | _ => ['/']

/-- The path with its superfluous parts left out. A path without steps is the current
directory. -/
def normalize (path : Text) : Text :=
  let whole := anchor path ++ Text.join ['/'] (steps path)
  if whole.isEmpty then ['.'] else whole

/-- The last step of a path. -/
def name (path : Text) : Text := (steps path).getLast?.getD []

/-- The last dot of a file name and what follows it. A dot at the start or at the end of a
name begins no extension. -/
def extension (path : Text) : Text :=
  let n := name path
  let tail := (n.reverse.takeWhile (· != '.')).reverse
  if tail.isEmpty ∨ n.length ≤ tail.length + 1 then [] else '.' :: tail

end ProseLint.Path
