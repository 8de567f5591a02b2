import ProseLint.Text.CharSet

/-! White space in the sense of Unicode, together with the four information separators. -/

namespace ProseLint

/-- Characters that count as white space. The zero-width space and the byte order mark
do not. -/
def blankSet : CharSet := ⟨[
  (0x09, 0x0D), (0x1C, 0x20), (0x85, 0x85), (0xA0, 0xA0), (0x1680, 0x1680),
  (0x2000, 0x200A), (0x2028, 0x2029), (0x202F, 0x202F), (0x205F, 0x205F), (0x3000, 0x3000)]⟩

def isBlank (c : Char) : Bool := blankSet.contains c

namespace Text

/-- The text without its leading white space. -/
def stripLeft (t : Text) : Text := t.dropWhile isBlank

/-- The text without its trailing white space. -/
def stripRight (t : Text) : Text := t.dropRightWhile isBlank

/-- The text without the white space at both ends. -/
def strip (t : Text) : Text := t.stripRight.stripLeft

/-- Whether nothing but white space is in the text. -/
def isAllBlank (t : Text) : Bool := t.all isBlank

/-- The walk behind `words`, where `current` is the word read so far, backwards. -/
def wordsFrom (current : Text) : Text → List Text
  | [] => if current.isEmpty then [] else [current.reverse]
  | c :: rest =>
      if isBlank c then
        if current.isEmpty then wordsFrom [] rest else current.reverse :: wordsFrom [] rest
      else
        wordsFrom (c :: current) rest

/-- The maximal runs of characters that are not white space. -/
def words (t : Text) : List Text := wordsFrom [] t

end Text

end ProseLint
