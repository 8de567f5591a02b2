/-! Text as a list of characters. A position is an index into the list, so every
length and offset counts characters and never bytes. -/

namespace ProseLint

/-- Text is the list of its characters. -/
abbrev Text := List Char

namespace Text

/-- The first position at which `needle` occurs. The empty needle occurs at the start. -/
def find? : Text → Text → Option Nat
  | [], needle => if needle.isEmpty then some 0 else none
  | c :: rest, needle =>
      if needle.isPrefixOf (c :: rest) then some 0 else (find? rest needle).map (· + 1)

/-- The first position from `start` on at which `needle` occurs. -/
def findFrom? (t needle : Text) (start : Nat) : Option Nat :=
  (find? (t.drop start) needle).map (· + start)

/-- Whether `needle` occurs anywhere in the text. -/
def has (t needle : Text) : Bool := (find? t needle).isSome

/-- Every position at which `needle` occurs, counted from `i`. Occurrences may overlap. -/
def occurrencesFrom (needle : Text) (i : Nat) : Text → List Nat
  | [] => []
  | c :: rest =>
      let later := occurrencesFrom needle (i + 1) rest
      if needle.isPrefixOf (c :: rest) then i :: later else later

/-- Every position at which `needle` occurs, overlapping ones included. -/
def occurrences (t needle : Text) : List Nat := occurrencesFrom needle 0 t

/-- The walk behind `greedy`. The first `skip` characters belong to an occurrence
already taken. -/
def greedyFrom (needle : Text) (skip i : Nat) : Text → List Nat
  | [] => []
  | c :: rest =>
      match skip with
      | k + 1 => greedyFrom needle k (i + 1) rest
      | 0 =>
          if needle.isPrefixOf (c :: rest) then
            i :: greedyFrom needle (needle.length - 1) (i + 1) rest
          else
            greedyFrom needle 0 (i + 1) rest

/-- Occurrences taken from left to right, each starting where the one before it has
ended or later. -/
def greedy (t needle : Text) : List Nat := greedyFrom needle 0 0 t

/-- The number of occurrences that do not overlap. The empty needle fits before every
character and at the end. -/
def count (t needle : Text) : Nat :=
  if needle.isEmpty then t.length + 1 else (greedy t needle).length

/-- The parts of a text between separators. There is always one more than there are
separators. -/
def splitOn (separator : Char) : Text → List Text
  | [] => [[]]
  | c :: rest =>
      if c = separator then [] :: splitOn separator rest
      else match splitOn separator rest with
        | [] => [[c]]
        | part :: parts => (c :: part) :: parts

/-- The parts one after the other with a separator between any two. -/
def join (separator : Text) : List Text → Text
  | [] => []
  | [part] => part
  | part :: parts => part ++ separator ++ join separator parts

/-- Characters from `start` up to and not including `stop`. -/
def slice (t : Text) (start stop : Nat) : Text := (t.take stop).drop start

/-- The text without the characters at its end that satisfy `p`. -/
def dropRightWhile (p : Char → Bool) (t : Text) : Text := (t.reverse.dropWhile p).reverse

/-- The text without the characters at both ends that satisfy `p`. -/
def trimWhile (p : Char → Bool) (t : Text) : Text := (t.dropRightWhile p).dropWhile p

/-- The text with every run of characters that satisfy `p` written as one space. The flag
says that the character before was one of them. -/
def collapseFrom (p : Char → Bool) (inRun : Bool) : Text → Text
  | [] => []
  | c :: rest =>
      if p c then
        if inRun then collapseFrom p true rest else ' ' :: collapseFrom p true rest
      else
        c :: collapseFrom p false rest

/-- The text with every run of characters that satisfy `p` written as one space. -/
def collapse (p : Char → Bool) (t : Text) : Text := collapseFrom p false t

/-- Whether the text ends in `suffix`. -/
def endsWith (t suffix : Text) : Bool := suffix.isSuffixOf t

/-- The order of two texts by their first different character, a text standing before
its continuations. -/
def le : Text → Text → Bool
  | [], _ => true
  | _ :: _, [] => false
  | a :: as, b :: bs => if a = b then le as bs else decide (a.toNat < b.toNat)

def ofNat (n : Nat) : Text := (toString n).toList

end Text

end ProseLint
