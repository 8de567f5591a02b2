import ProseLint.Text.Blank
import ProseLint.Text.Alphanumeric
import ProseLint.Text.Quoted

/-! Words and punctuation of a sentence. A word is a run of word characters, and an
apostrophe or a hyphen between two word characters does not end it. Every other visible
character is a symbol of its own. -/

namespace ProseLint

/-- What a token is. -/
inductive TokenKind where
  | word
  | symbol
  deriving DecidableEq, Repr

/-- A piece of a text and where it starts in it. -/
structure Token where
  surface : Text
  kind : TokenKind
  offset : Nat
  deriving DecidableEq, Repr

namespace Token

/-- Marks that join two parts of one word. -/
def isJoiner (c : Char) : Bool := c == '\'' || c == '\u2019' || c == '-'

def startsWord : Text → Bool
  | [] => false
  | c :: _ => isWordChar c

/-- The word read so far, backwards, as a token that ends at `i`. -/
def finish (current : Text) (i : Nat) : List Token :=
  if current.isEmpty then [] else [⟨current.reverse, .word, i - current.length⟩]

/-- The tokens from position `i` on, where `current` is the word read so far, backwards. -/
def scan (current : Text) (i : Nat) : Text → List Token
  | [] => finish current i
  | c :: rest =>
      if isWordChar c then scan (c :: current) (i + 1) rest
      else if !current.isEmpty && isJoiner c && startsWord rest then
        scan (c :: current) (i + 1) rest
      else if isBlank c then finish current i ++ scan [] (i + 1) rest
      else finish current i ++ ⟨[c], .symbol, i⟩ :: scan [] (i + 1) rest

def ofText (t : Text) : List Token := scan [] 0 t

end Token

/-- The ways of cutting sentences into tokens that a configuration may name. -/
inductive Tokenizer where
  | whitespace
  deriving DecidableEq, Repr

namespace Tokenizer

def names : List String := ["whitespace"]

def ofName? (name : String) : Option Tokenizer :=
  if name == "whitespace" then some .whitespace else none

/-- What is said about a name that no tokenizer has. -/
def unknownMessage (name : String) : Text :=
  "Unknown tokenizer ".toList ++ Quoted.showText name.toList ++ ", expected one of ".toList ++
    Quoted.showValue (.list (names.map .str))

def name : Tokenizer → String
  | .whitespace => "whitespace"

def tokens : Tokenizer → Text → List Token
  | .whitespace => Token.ofText

end Tokenizer

end ProseLint
