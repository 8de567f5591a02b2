import ProseLint.Text.Digit
import ProseLint.Validation.Validator

/-! Rules about what stands in a sentence: characters and expressions that must not be
used, and words that are used twice. -/

namespace ProseLint.Rule

def about (before : String) (t : Text) (after : String) : Text :=
  before.toList ++ '"' :: (t ++ '"' :: after.toList)

/-! ## Symbols -/

/-- The characters to look for and the symbols to use for them. A character counts for the
first symbol that has it, unless it is that symbol. -/
def wrongForms (symbols : List Symbol) : List (Char × Text) :=
  symbols.flatMap fun s => (s.invalid.filter fun c => [c] != s.value).map fun c => (c, s.value)

/-- The first place of each wrong character in a text with the symbol to use for it, in the
order of the symbols. Characters already reported are left out. -/
def wrongSymbols (reported : List Char) (t : Text) : List (Char × Text) → List (Nat × Char × Text)
  | [] => []
  | (c, value) :: rest =>
      if reported.contains c then wrongSymbols reported t rest
      else match Text.find? t [c] with
        | some i => (i, c, value) :: wrongSymbols (c :: reported) t rest
        | none => wrongSymbols reported t rest

def wrongSymbolMessage (c : Char) (value : Text) : Text :=
  about "Found invalid symbol " [c] (String.ofList (about " (use " value " instead)."))

/-- Characters that must not stand in the place of a symbol, each reported once in a
sentence. -/
def invalidSymbol : ValidatorKind where
  name := "InvalidSymbol".toList
  defaults := []
  check s := .ok (.onSentence fun site => some
    ((wrongSymbols [] site.sentence.content (wrongForms s.symbols.symbols)).map
      fun (i, c, value) => s.problemAt (wrongSymbolMessage c value) site i (i + 1)))

/-! ## Expressions -/

/-- The places of expressions in a text, expression by expression. Occurrences of one
expression are taken from left to right and do not overlap. -/
def expressionPlaces (expressions : List Text) (t : Text) : List (Nat × Text) :=
  expressions.flatMap fun e => (Text.greedy t e).map fun i => (i, e)

/-- Expressions of the attribute `list` that stand in a sentence. -/
def invalidExpression : ValidatorKind where
  name := "InvalidExpression".toList
  defaults := [("list", .str "")]
  check s := do
    let expressions ← s.texts "list"
    return .onSentence fun site => some
      ((expressionPlaces expressions site.sentence.content).map fun (i, e) =>
        s.problemAt (about "Found invalid expression " e ".") site i (i + e.length))

/-! ## Repeated words -/

/-- Words that may be used any number of times. -/
def commonWords : List Text :=
  ["a", "an", "the", "of", "to", "in", "on", "at", "by", "for", "with", "and", "or", "but",
    "is", "are", "was", "were", "be", "it", "that", "this", "as", "from", "not", "no", "do",
    "does", "can", "will"].map String.toList

/-- Whether a text is made of digits only. -/
def isNumber (t : Text) : Bool := !t.isEmpty && t.all isDigitForm

/-- Whether a token counts: a word that is neither skipped nor a number. -/
def isCounted (skipped : List Text) (t : Token) : Bool :=
  t.kind == .word && !skipped.contains t.surface.lower && !isNumber t.surface.lower

/-- The tokens whose word, without case, has been seen before. -/
def repeated (seen : List Text) : List Token → List Token
  | [] => []
  | t :: rest =>
      let word := t.surface.lower
      if seen.contains word then t :: repeated seen rest else repeated (word :: seen) rest

/-- Words used again in a sentence. Common words and those of the attribute `list` may be
used again. -/
def doubledWord : ValidatorKind where
  name := "DoubledWord".toList
  defaults := [("list", .str "")]
  check s := do
    let skipped := commonWords ++ (← s.texts "list").map Text.lower
    return .onSentence fun site => some
      ((repeated [] (site.sentence.tokensOrCut.filter (isCounted skipped))).map fun t =>
        s.problemAt (about "Found repeated word " t.surface ".") site t.offset
          (t.offset + t.surface.length))

end ProseLint.Rule
