import ProseLint.Validation.Validator

/-! Rules about size: how long sentences and sections are, and how many commas and
paragraphs they have. A rule reports what is larger than its limit. -/

namespace ProseLint.Rule

/-- What is said when a count exceeds its limit. -/
def tooMany (subject : String) (count : Nat) (limit : Int) : Text :=
  subject.toList ++ " (".toList ++ Decimal.digits count ++ ") exceeds the maximum of ".toList ++
    Decimal.ofInt limit ++ ['.']

/-- Reports a count that exceeds a limit. -/
def overLimit (s : ValidatorSetup) (subject : String) (count : Nat) (limit : Int)
    (site : Option Site) : List Problem :=
  if limit < count then [s.problem (tooMany subject count limit) site] else []

/-- Sentences with more than `max_len` characters. -/
def sentenceLength : ValidatorKind where
  name := "SentenceLength".toList
  defaults := [("max_len", .int 30)]
  check s := do
    let limit ← s.int "max_len"
    return .onSentence fun site => some
      (overLimit s "The length of the sentence" site.sentence.length limit (some site))

def comma (symbols : SymbolTable) : Text := (symbols.value? "COMMA").getD [',']

/-- Sentences with more than `max_num` commas. -/
def commaNumber : ValidatorKind where
  name := "CommaNumber".toList
  defaults := [("max_num", .int 3)]
  check s := do
    let limit ← s.int "max_num"
    return .onSentence fun site => some
      (overLimit s "The number of commas" (Text.count site.sentence.content (comma s.symbols))
        limit (some site))

def bodyLength (s : Section Site) : Nat :=
  (s.paragraphSentences.flatMap (·.sentence.content)).length

/-- Sections with more than `max_num` characters in their paragraphs. -/
def sectionLength : ValidatorKind where
  name := "SectionLength".toList
  defaults := [("max_num", .int 1000)]
  check s := do
    let limit ← s.int "max_num"
    return .onSection fun target => some
      (overLimit s "The number of characters in the section" (bodyLength target) limit
        target.sentences.head?)

/-- Sections with more than `max_num` paragraphs. -/
def paragraphNumber : ValidatorKind where
  name := "ParagraphNumber".toList
  defaults := [("max_num", .int 5)]
  check s := do
    let limit ← s.int "max_num"
    return .onSection fun target => some
      (overLimit s "The number of paragraphs in the section" target.paragraphs.length limit
        target.sentences.head?)

end ProseLint.Rule
