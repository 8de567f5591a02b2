import ProseLint.CommonMark.Escape

/-! The address and the title of a link as they are written behind its label. -/

namespace ProseLint.CommonMark

/-- The length of an address up to its closing angle bracket. A backslash hides the
character after it. -/
def angledLength? : Text → Option Nat
  | [] => none
  | '\\' :: _ :: rest => (angledLength? rest).map (· + 2)
  | c :: rest =>
      if c = '\n' ∨ c = '<' then none
      else if c = '>' then some 0
      else (angledLength? rest).map (· + 1)

/-- Whether a character ends an address without angle brackets. -/
def endsAddress (c : Char) : Bool := decide (c.toNat ≤ 0x20) || c.toNat == 0x7F

/-- The length of an address without angle brackets, inside `depth` parentheses.
Parentheses must match, and are not nested deeper than 32. -/
def bareLength? (depth : Nat) : Text → Option Nat
  | [] => if depth = 0 then some 0 else none
  | '\\' :: c :: rest =>
      if c = ' ' then if depth = 0 then some 0 else none
      else (bareLength? depth rest).map (· + 2)
  | c :: rest =>
      if endsAddress c then if depth = 0 then some 0 else none
      else if c = '(' then
        if 32 ≤ depth then none else (bareLength? (depth + 1) rest).map (· + 1)
      else if c = ')' then
        if depth = 0 then some 0 else (bareLength? (depth - 1) rest).map (· + 1)
      else (bareLength? depth rest).map (· + 1)

def destination? (t : Text) : Option (Text × Nat) :=
  match t with
  | '<' :: rest => (angledLength? rest).map fun n => (unescape (rest.take n), n + 2)
  | _ =>
      match bareLength? 0 t with
      | some (n + 1) => some (unescape (t.take (n + 1)), n + 1)
      | _ => none

/-- How far the reading of a title has come: nowhere, to its end, or to the end of the text
with the title still open. A finished title comes with the length of what was read. -/
inductive TitleRead where
  | failed
  | finished (title : Text) (length : Nat)
  | isOpen (closing : Char) (title : Text)

/-- The length of a title before its closing mark, or nothing when there is an opening
parenthesis inside parentheses. The flag says whether the closing mark was found. -/
def titleLength? (closing : Char) : Text → Option (Nat × Bool)
  | [] => some (0, false)
  | c :: rest =>
      if c = closing then some (0, true)
      else if c = '(' ∧ closing = ')' then none
      else if c = '\\' then
        match rest with
        | [] => some (1, false)
        | _ :: rest => (titleLength? closing rest).map fun r => (r.1 + 2, r.2)
      else (titleLength? closing rest).map fun r => (r.1 + 1, r.2)

/-- Reads on in a title of which some has been read. -/
def titleFrom (closing : Char) (done t : Text) : TitleRead :=
  match titleLength? closing t with
  | none => .failed
  | some (n, true) => .finished (done ++ unescape (t.take n)) (n + 1)
  | some (n, false) => .isOpen closing (done ++ unescape (t.take n))

def title (t : Text) : TitleRead :=
  match t with
  | c :: rest =>
      if c = '"' ∨ c = '\'' ∨ c = '(' then
        match titleFrom (if c = '(' then ')' else c) [] rest with
        | .finished title n => .finished title (n + 1)
        | other => other
      else .failed
  | [] => .failed

end ProseLint.CommonMark
