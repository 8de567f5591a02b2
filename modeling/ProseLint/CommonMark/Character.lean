import ProseLint.Text.Punctuation

/-! Classes of characters in Markdown. -/

namespace ProseLint.CommonMark

def isSpacing (c : Char) : Bool := c == ' ' || c == '\t'

/-- A space, a tab or a line break. -/
def isGap (c : Char) : Bool := isSpacing c || c == '\n'

/-- White space beside delimiters: the spaces of Unicode and the ASCII control characters
for space. -/
def isWhite (c : Char) : Bool :=
  let n := c.toNat
  (9 ≤ n && n ≤ 13) || n == 0x20 || n == 0xA0 || n == 0x1680 || (0x2000 ≤ n && n ≤ 0x200A) ||
    n == 0x202F || n == 0x205F || n == 0x3000

/-- White space in labels and in rows of tables: also the separators of lines and paragraphs
and the byte order mark. Other control characters are no white space. -/
def isWideGap (c : Char) : Bool := isWhite c || "\u2028\u2029\uFEFF".toList.contains c

def isMark (c : Char) : Bool := isAsciiPunctuation c || isPunctuation c

/-- Whether a number is the code of a character that a reference may stand for. -/
def isReferable (n : Nat) : Bool :=
  !((0xD800 ≤ n && n ≤ 0xDFFF) || (0xFDD0 ≤ n && n ≤ 0xFDEF) || n % 0x10000 == 0xFFFF ||
    n % 0x10000 == 0xFFFE || n ≤ 8 || n == 0xB || (0xE ≤ n && n ≤ 0x1F) ||
    (0x7F ≤ n && n ≤ 0x9F) || 0x10FFFF < n)

end ProseLint.CommonMark
