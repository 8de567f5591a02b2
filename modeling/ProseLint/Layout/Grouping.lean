import ProseLint.Document.Builder
import ProseLint.Layout.Passage

/-! From classified lines to documents. Lines that belong together become one header,
paragraph or list element. -/

namespace ProseLint.Layout

def continuesList (level : Int) (l : Line) : Bool :=
  !l.isEmpty && !l.listStart && l.sectionLevel == 0 && l.listLevel == level

def continuesParagraph (l : Line) : Bool :=
  !l.isEmpty && l.sectionLevel == 0 && !l.listStart

def addParagraphOf (b : Builder) (sentences : List Sentence) : Builder :=
  sentences.foldl Builder.addSentence b.addParagraph

def addLines (e : Extractor) (b : Builder) (lines : List Line) : Builder :=
  match lines with
  | [] => b
  | l :: rest =>
      if l.isEmpty then addLines e b rest
      else if 0 < l.sectionLevel then
        addLines e (b.addSection l.sectionLevel (Line.sentences e [l])) rest
      else if l.listStart then
        let level := max l.listLevel 1
        let group := l :: rest.takeWhile (continuesList level)
        addLines e (b.addListElement level (Line.sentences e group))
          (rest.dropWhile (continuesList level))
      else if 0 < l.listLevel ∧ b.inList then
        let group := l :: rest.takeWhile (continuesList l.listLevel)
        addLines e (b.extendListElement l.listLevel (Line.sentences e group))
          (rest.dropWhile (continuesList l.listLevel))
      else
        let group := l :: rest.takeWhile continuesParagraph
        addLines e (addParagraphOf b (Line.sentences e group))
          (rest.dropWhile continuesParagraph)
termination_by lines.length
decreasing_by
  · simp
  · simp
  · exact Nat.lt_succ_of_le (List.dropWhile_sublist _).length_le
  · exact Nat.lt_succ_of_le (List.dropWhile_sublist _).length_le
  · exact Nat.lt_succ_of_le (List.dropWhile_sublist _).length_le

/-- Whether the first line with text is no header, or there is none. -/
def needsRoot (lines : List Line) : Bool :=
  match lines.find? (!·.isEmpty) with
  | none => true
  | some l => l.sectionLevel == 0

/-- The document on classified lines. Text before the first header goes to an untitled
section of level 0. -/
def build (e : Extractor) (lines : List Line) (rules : List SuppressRule)
    (fileName : Option Text) : Builder :=
  let b := rules.foldl Builder.addRule (Builder.empty.setFileName fileName)
  addLines e (if needsRoot lines then b.addSection 0 [] else b) lines

end ProseLint.Layout
