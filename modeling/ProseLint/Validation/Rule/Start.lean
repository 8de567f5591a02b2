import ProseLint.Validation.Validator
import ProseLint.Validation.Rule.Wording

/-! Rules about how sentences and paragraphs start. -/

namespace ProseLint.Rule

/-! ## Capital letters -/

def isSmallLatin (c : Char) : Bool := 'a' ≤ c && c ≤ 'z'

/-- The small letter with which a text starts after white space, and its place. Words that
are allowed to start in lowercase give none. -/
def smallStart? (allowed : List Text) (t : Text) : Option (Nat × Char) :=
  match t.stripLeft with
  | [] => none
  | c :: rest =>
      if isSmallLatin c && !allowed.any fun word => word.isPrefixOf (c :: rest) then
        some (t.length - (rest.length + 1), c)
      else none

/-- Sentences that start with a small Latin letter. Words of the attribute `list` may start
a sentence as they are. -/
def startWithCapitalLetter : ValidatorKind where
  name := "StartWithCapitalLetter".toList
  defaults := [("list", .str "")]
  check s := do
    let allowed ← s.texts "list"
    return .onSentence fun site => some
      ((smallStart? allowed site.sentence.content).toList.map fun (i, c) =>
        s.problemAt (about "Sentence starts with a lowercase character " [c] ".") site i (i + 1))

/-! ## Paragraphs -/

/-- The first sentences of the paragraphs that do not start with a text. -/
def otherStarts (wanted : Text) (paragraphs : List (List Site)) : List Site :=
  (paragraphs.filterMap List.head?).filter fun site => !wanted.isPrefixOf site.sentence.content

/-- Paragraphs that do not start with the text of the attribute `start_from`. -/
def paragraphStartWith : ValidatorKind where
  name := "ParagraphStartWith".toList
  defaults := [("start_from", .str "")]
  check s :=
    let wanted := s.text "start_from"
    .ok (.onSection fun target => some ((otherStarts wanted target.paragraphs).map fun site =>
      s.problem (about "Paragraph does not start with " wanted ".") (some site)))

/-! ## Frequent starts -/

def wordsOf (s : Sentence) : List Text :=
  (s.tokensOrCut.filter (·.kind == .word)).map (·.surface)

/-- The sequences of one word up to `limit` words with which a sentence starts, each joined
by spaces. -/
def startsOf (limit : Int) (s : Sentence) : List Text :=
  let words := wordsOf s
  (List.range (min limit.toNat words.length)).map fun n => Text.join [' '] (words.take (n + 1))

/-- A start with the number of sentences that have it and the first of them. -/
structure StartCount where
  start : Text
  count : Nat
  first : Site

/-- Counts one more use of a start. A new one goes to the end. -/
def countStart (site : Site) (start : Text) : List StartCount → List StartCount
  | [] => [⟨start, 1, site⟩]
  | c :: rest =>
      if c.start = start then { c with count := c.count + 1 } :: rest
      else c :: countStart site start rest

/-- The starts of all sentences in the order of their first use. -/
def startCounts (limit : Int) (sites : List Site) : List StartCount :=
  sites.foldl (fun counts site =>
    (startsOf limit site.sentence).foldl (fun counts start => countStart site start counts)
      counts) []

/-- The share of sentences that have a start, as a percentage. -/
def percentage (count total : Nat) : Binary64 := .ofRatio false (count * 100) total

def frequentStarts (limit : Int) (threshold : Binary64) (sites : List Site) : List StartCount :=
  (startCounts limit sites).filter fun c => threshold.lt (percentage c.count sites.length)

def frequentMessage (threshold : Binary64) (total : Nat) (c : StartCount) : Text :=
  '"' :: (c.start ++ "\" starts ".toList ++
    Decimal.ofInt ((percentage c.count total).round?.getD 0) ++
    "% of the sentences (threshold ".toList ++ threshold.general ++ "%).".toList)

/-- Sequences of up to `leading_word_limit` words that start more than
`percentage_threshold` percent of the sentences. Documents with fewer than
`min_sentence_count` sentences are not looked at, and blank sentences do not count. -/
def frequentSentenceStart : ValidatorKind where
  name := "FrequentSentenceStart".toList
  defaults := [("leading_word_limit", .int 3), ("percentage_threshold", .int 25),
    ("min_sentence_count", .int 5)]
  check s := do
    let limit ← s.int "leading_word_limit"
    let threshold ← s.float "percentage_threshold"
    let least ← s.int "min_sentence_count"
    return .onDocument fun target =>
      let sites := target.sentences.filter fun site => !Text.isAllBlank site.sentence.content
      if (sites.length : Int) < least then some []
      else some ((frequentStarts limit threshold sites).map fun c =>
        s.problem (frequentMessage threshold sites.length c) (some c.first))

end ProseLint.Rule
