import ProseLint.Text.Basic

/-! Patterns of text, matched from the left. Of two ways to match the first one that lets
all that follows match is taken, and a repeated pattern takes as much as it can. -/

namespace ProseLint

/-- A pattern. A repeated pattern must not match the empty text. -/
inductive Pattern where
  | char (p : Char → Bool)
  | word (w : Text)
  | seq (first second : Pattern)
  | either (first second : Pattern)
  | many (repeated : Pattern)

namespace Pattern

/-- One pattern after the other. -/
def all : List Pattern → Pattern
  | [] => .word []
  | [p] => p
  | p :: rest => .seq p (all rest)

/-- A pattern or nothing. -/
def maybe (p : Pattern) : Pattern := .either p (.word [])

/-- A pattern once or more often. -/
def some1 (p : Pattern) : Pattern := .seq p (.many p)

/-- What `k` makes of the text behind a match. -/
def run {α : Type} (fuel : Nat) (p : Pattern) (t : Text) (k : Text → Option α) : Option α :=
  match fuel with
  | 0 => none
  | n + 1 =>
      match p with
      | .char p => match t with
          | c :: rest => if p c then k rest else none
          | [] => none
      | .word w => match w.isPrefixOf? t with
          | some rest => k rest
          | none => none
      | .seq first second => run n first t fun rest => run n second rest k
      | .either first second => match run n first t k with
          | some a => some a
          | none => run n second t k
      | .many repeated =>
          match run n repeated t fun rest => run n (.many repeated) rest k with
          | some a => some a
          | none => k t

/-- Steps enough for any pattern of this library. Every repetition takes a character, and
no pattern is nested deeper than the constant. -/
def fuelFor (t : Text) : Nat := 2 * t.length + 100

def rest? (p : Pattern) (t : Text) : Option Text := run (fuelFor t) p t some

def length? (p : Pattern) (t : Text) : Option Nat :=
  (p.rest? t).map fun rest => t.length - rest.length

def fits (p : Pattern) (t : Text) : Bool :=
  (run (fuelFor t) p t fun rest => if rest.isEmpty then some () else none).isSome

end Pattern

end ProseLint
