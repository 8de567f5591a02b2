import ProseLint.Text.Blank
import ProseLint.Text.Pattern

/-! Raw HTML: tags inside text, and lines that open a block of it. -/

namespace ProseLint.CommonMark.Html

open Pattern (all maybe some1)

def the (c : Char) : Pattern := .char (· == c)

/-- White space, or none. -/
def gap : Pattern := .many (.char isBlank)

/-- Characters that may stand in the name of a tag. -/
def isTagChar (c : Char) : Bool := c.isAlphanum || c == '-'

def tagName : Pattern := .seq (.char Char.isAlpha) (.many (.char isTagChar))

def startsAttribute (c : Char) : Bool := c.isAlpha || c == '_' || c == ':'

def isAttributeChar (c : Char) : Bool := c.isAlphanum || ":._-".toList.contains c

/-- Whether a character may stand in a value without quotes. -/
def isValueChar (c : Char) : Bool := decide (0x20 < c.toNat) && !"\"'=<>\x60".toList.contains c

def quoted (quote : Char) : Pattern := all [the quote, .many (.char (· != quote)), the quote]

def value : Pattern :=
  .either (some1 (.char isValueChar)) (.either (quoted '\'') (quoted '"'))

/-- An attribute, with white space before it. -/
def tagAttribute : Pattern :=
  all [some1 (.char isBlank), .char startsAttribute, .many (.char isAttributeChar),
    maybe (all [gap, the '=', gap, value])]

def openTag : Pattern :=
  all [the '<', tagName, .many tagAttribute, gap, maybe (the '/'), the '>']

def closeTag : Pattern := all [.word ['<', '/'], tagName, gap, the '>']

def comment : Pattern :=
  let noHyphen : Pattern := .char (· != '-')
  let inside : Pattern :=
    .either noHyphen (.either (.seq (the '-') noHyphen)
      (.seq (.word ['-', '-']) (.char (· != '>'))))
  .either (all [.word "<!--".toList, maybe (the '-'), the '>'])
    (all [.word "<!--".toList, .many inside, .word "-->".toList])

def declaration : Pattern :=
  all [.word ['<', '!'], .char Char.isAlpha, .many (.char (· != '>')), the '>']

/-- The length of text between two delimiters at the start of a text, which ends at the
first place it can. -/
def between? (opening closing t : Text) : Option Nat :=
  match opening.isPrefixOf? t with
  | some rest => (Text.find? rest closing).map (opening.length + · + closing.length)
  | none => none

def tagLength? (t : Text) : Option Nat :=
  match t with
  | '<' :: c :: _ =>
      if c = '!' ∨ c = '?' ∨ c = '/' ∨ c.isAlpha then
        openTag.length? t <|> closeTag.length? t <|> comment.length? t <|>
          between? ['<', '?'] ['?', '>'] t <|> declaration.length? t <|>
          between? "<![CDATA[".toList "]]>".toList t
      else none
  | _ => none

/-- A block of HTML: whether it may interrupt a paragraph, and the lines that end it. -/
structure Opening where
  interrupts : Bool
  endsAt : Text → Bool

/-- Elements whose content is no markup. -/
def rawNames : List Text := ["script", "pre", "style", "textarea"].map String.toList

/-- Elements that stand in blocks of their own. -/
def blockNames : List Text :=
  ["address", "article", "aside", "base", "basefont", "blockquote", "body", "caption", "center",
    "col", "colgroup", "dd", "details", "dialog", "dir", "div", "dl", "dt", "fieldset",
    "figcaption", "figure", "footer", "form", "frame", "frameset", "h1", "h2", "h3", "h4", "h5",
    "h6", "head", "header", "hr", "html", "iframe", "legend", "li", "link", "main", "menu",
    "menuitem", "nav", "noframes", "ol", "optgroup", "option", "p", "param", "search", "section",
    "summary", "table", "tbody", "td", "tfoot", "th", "thead", "title", "tr", "track",
    "ul"].map String.toList

def lowerAscii (t : Text) : Text := t.map Char.toLower

/-- Whether the name of an element may end before a text. -/
def endsName : Text → Bool
  | [] => true
  | c :: _ => isBlank c || c == '>'

/-- Whether the name of a block element may end before a text. -/
def endsBlockName (t : Text) : Bool := endsName t || ['/', '>'].isPrefixOf t

/-- Whether one of some names stands at the start of a text, in any case. -/
def startsWithName (names : List Text) (stops : Text → Bool) (t : Text) : Bool :=
  names.any fun name =>
    name.isPrefixOf (lowerAscii (t.take name.length)) && stops (t.drop name.length)

/-- Whether a closing tag of an element without markup is in a text. -/
def closesRaw (t : Text) : Bool :=
  rawNames.any fun name => Text.has (lowerAscii t) (['<', '/'] ++ name ++ ['>'])

/-- What a line opens that starts with an angle bracket. -/
def opening? (t : Text) : Option Opening :=
  match t with
  | '<' :: rest =>
      let named := match rest with
        | '/' :: more => startsWithName blockNames endsBlockName more
        | _ => startsWithName blockNames endsBlockName rest
      if startsWithName rawNames endsName rest then some ⟨true, closesRaw⟩
      else if "!--".toList.isPrefixOf rest then some ⟨true, fun t => Text.has t "-->".toList⟩
      else if rest.head? = some '?' then some ⟨true, fun t => Text.has t ['?', '>']⟩
      else if rest.head? = some '!' ∧ ((rest[1]?).map Char.isAlpha).getD false then
        some ⟨true, fun t => t.contains '>'⟩
      else if "![CDATA[".toList.isPrefixOf rest then
        some ⟨true, fun t => Text.has t "]]>".toList⟩
      else if named then some ⟨true, List.isEmpty⟩
      else if (Pattern.seq (.either openTag closeTag) gap).fits t then some ⟨false, List.isEmpty⟩
      else none
  | _ => none

end ProseLint.CommonMark.Html
