import ProseLint.CommonMark.Reader
import ProseLint.Layout.Grouping
import ProseLint.Markup.Format
import ProseLint.Markup.Markdown.Reading
import ProseLint.Markup.Rest.Body
import ProseLint.Markup.Review
import ProseLint.Markup.Wiki

/-! Reading texts. The lines of a text are classified as its format asks, and a document
is laid out from them. Malformed markup is read as well as it can be, with a warning. -/

namespace ProseLint

/-- Something noticed while a text was read. -/
inductive ReadWarning where
  | markup (warning : MarkupWarning)
  | misplacedSection (level : Int)
  deriving DecidableEq, Repr

def ReadWarning.message : ReadWarning → Text
  | .markup warning => warning.message
  | .misplacedSection level =>
      "No enclosing section with a level lower than ".toList ++ Decimal.ofInt level ++
        "; keeping the section at the top level".toList

def Builder.warnings (b : Builder) : List ReadWarning := b.misplaced.map .misplacedSection

/-- A document with what was noticed while it was read. -/
structure Reading where
  document : Document Sentence
  warnings : List ReadWarning
  deriving DecidableEq, Repr

/-- How a text is made into a document, apart from its markup. -/
structure ReadOptions where
  extractor : Extractor
  fileName : Option Text
  tokenizer : Option Tokenizer
  deriving DecidableEq, Repr

def Classified.read (c : Classified) (o : ReadOptions) : Reading :=
  let b := Layout.build o.extractor c.lines c.rules o.fileName
  ⟨b.build o.tokenizer, c.warnings.map .markup ++ b.warnings⟩

namespace Markdown

/-- Classifies the lines of a Markdown text. The blocks of a text have levels and marks, so
no fault arises. -/
def classifyText (t : Text) : Classified :=
  let lines := Line.readAll true t
  match classify (CommonMark.blocks t) lines with
  | .ok c => c
  | .error _ => ⟨lines, rules lines, []⟩

end Markdown

namespace Format

/-- Classifies the lines of a text. Plain text has neither markup nor escapes. -/
def classify (f : Format) (t : Text) : Classified :=
  match f with
  | .plain => ⟨Line.readAll false t, [], []⟩
  | .wiki => Wiki.classify (Line.readAll true t)
  | .markdown => Markdown.classifyText t
  | .rest => Rest.classify (Line.readAll true t)
  | .review => Review.classify (Line.readAll true t)

def read (f : Format) (o : ReadOptions) (t : Text) : Reading := (f.classify t).read o

end Format

end ProseLint
