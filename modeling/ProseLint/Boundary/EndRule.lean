import ProseLint.Text.Blank

/-! Where sentences end. An end token is an end symbol, with a closing quotation after it
if there is one. A run of end tokens ends a sentence unless its first token lies inside a
protected word, or its last character is a Latin one with something visible after it. -/

namespace ProseLint

/-- The end tokens in order of preference and the words in which no sentence ends. -/
structure EndRule where
  tokens : List Text
  words : List Text
  deriving DecidableEq, Repr

namespace EndRule

/-- The end tokens of some end symbols and closing quotations, the quoted ones first. -/
def tokensOf (symbols quotations : List Text) : List Text :=
  (quotations.flatMap fun q => symbols.map (· ++ q)) ++ symbols

/-- The rule for end symbols, closing quotations and protected words. -/
def ofSymbols (symbols quotations words : List Text) : EndRule :=
  ⟨tokensOf symbols quotations, words.filter (!·.isEmpty)⟩

/-- The spans of the protected words in a text, overlapping ones included. -/
def shields (r : EndRule) (t : Text) : List (Nat × Nat) :=
  r.words.flatMap fun w => (t.occurrences w).map fun i => (i, i + w.length)

def isShielded (shields : List (Nat × Nat)) (start stop : Nat) : Bool :=
  shields.any fun s => s.1 ≤ start && stop ≤ s.2

def tokenAt? (tokens : List Text) (t : Text) : Option Nat :=
  (tokens.find? (·.isPrefixOf t)).map List.length

/-- The first end token of a text that starts at position `i`, as a span. -/
def search (tokens : List Text) (i : Nat) : Text → Option (Nat × Nat)
  | [] => none
  | c :: rest =>
      match tokenAt? tokens (c :: rest) with
      | some n => some (i, i + n)
      | none => search tokens (i + 1) rest

/-- The end of the run of end tokens at the start of a text that starts at position `i`. -/
def runEnd (tokens : List Text) (i : Nat) (t : Text) : Nat :=
  match t with
  | [] => i
  | c :: rest =>
      match tokenAt? tokens (c :: rest) with
      | none => i
      | some 0 => i
      | some (n + 1) => runEnd tokens (i + n + 1) ((c :: rest).drop (n + 1))
termination_by t.length
decreasing_by
  simp only [List.length_drop, List.length_cons]
  omega

/-- Whether a character is one of the first 128. -/
def isBasicLatin (c : Char) : Bool := c.toNat < 0x80

/-- Whether a run with this last character ends a sentence before this rest of the text. -/
def closes (last : Char) : Text → Bool
  | [] => true
  | next :: _ => !isBasicLatin last || isBlank next

/-- The last character of the first sentence of a text that starts at position `i`. -/
def endFrom? (r : EndRule) (shields : List (Nat × Nat)) (i : Nat) (t : Text) : Option Nat :=
  match t with
  | [] => none
  | c :: rest =>
      match search r.tokens i (c :: rest) with
      | none => none
      | some (start, stop) =>
          let stop' :=
            if isShielded shields start stop then stop
            else runEnd r.tokens stop ((c :: rest).drop (stop - i))
          if stop' ≤ i then none
          else
            let after := (c :: rest).drop (stop' - i)
            if isShielded shields start stop then endFrom? r shields stop' after
            else if closes ((c :: rest).getD (stop' - 1 - i) c) after then some (stop' - 1)
            else endFrom? r shields stop' after
termination_by t.length
decreasing_by
  all_goals
    simp only [List.length_drop, List.length_cons]
    omega

/-- The last character of the first sentence from `start` on, if a sentence ends there. -/
def sentenceEnd? (r : EndRule) (t : Text) (start : Nat) : Option Nat :=
  r.endFrom? (r.shields t) start (t.drop start)

end EndRule

end ProseLint
