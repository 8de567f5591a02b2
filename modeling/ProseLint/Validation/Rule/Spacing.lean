import ProseLint.Validation.Validator

/-! The space between Latin words and the Chinese and Japanese characters around them. -/

namespace ProseLint.Rule

/-- Whether a character is a Chinese or Japanese one: kana or an ideograph. -/
def isCjk (c : Char) : Bool :=
  ('\u3040' ≤ c && c ≤ '\u30ff') || ('\u3400' ≤ c && c ≤ '\u4dbf') ||
    ('\u4e00' ≤ c && c ≤ '\u9fff')

/-- Whether a character is a Latin letter without marks. -/
def isLatinLetter (c : Char) : Bool := ('A' ≤ c && c ≤ 'Z') || ('a' ≤ c && c ≤ 'z')

/-- What is wrong about a space, or about a missing one. -/
inductive SpacingFault where
  | missingBefore
  | missingAfter
  | forbidden
  deriving DecidableEq, Repr

def SpacingFault.message : SpacingFault → String
  | .missingBefore => "Space is needed before the alphabetical word."
  | .missingAfter => "Space is needed after the alphabetical word."
  | .forbidden => "Space between an alphabetical word and CJK text is not allowed."

/-- Whether one of two characters belongs to a Latin word and the other to the text around
it. -/
def isBorder (left right : Char) : Bool :=
  (isCjk left && isLatinLetter right) || (isLatinLetter left && isCjk right)

/-- The places, counted from `i`, where a space is missing between two characters. -/
def missingSpaces (i : Nat) : Text → List (Nat × SpacingFault)
  | left :: right :: rest =>
      let later := missingSpaces (i + 1) (right :: rest)
      if isCjk left && isLatinLetter right then (i, .missingBefore) :: later
      else if isLatinLetter left && isCjk right then (i, .missingAfter) :: later
      else later
  | _ => []

/-- The places, counted from `i`, of single spaces between a Latin word and the text around
it. -/
def borderSpaces (i : Nat) : Text → List Nat
  | left :: mid :: right :: rest =>
      let later := borderSpaces (i + 1) (mid :: right :: rest)
      if mid = ' ' && isBorder left right then (i + 1) :: later else later
  | _ => []

/-- Spaces that are missing around Latin words. With the attribute `no_space` the spaces
that are there are reported. -/
def spaceBetweenAlphabeticalWord : ValidatorKind where
  name := "SpaceBetweenAlphabeticalWord".toList
  defaults := [("no_space", .bool false)]
  check s :=
    let report := fun (fault : SpacingFault) => s.problemAt fault.message.toList
    .ok (.onSentence fun site => some
      (if s.flag "no_space" then
        (borderSpaces 0 site.sentence.content).map fun i => report .forbidden site i (i + 1)
      else
        (missingSpaces 0 site.sentence.content).map fun p => report p.2 site p.1 (p.1 + 2)))

end ProseLint.Rule
