import ProseLint.Json.Basic

/-! The symbols that a language uses, each with the characters that must not stand in its
place. -/

namespace ProseLint

/-- A named symbol. `invalid` holds the characters reported as wrong forms of it. -/
structure Symbol where
  name : String
  value : Text
  invalid : List Char
  spaceBefore : Bool
  spaceAfter : Bool
  deriving DecidableEq, Repr

/-- A symbol around which no space is needed. -/
def Symbol.plain (name value invalid : String) : Symbol :=
  ⟨name, value.toList, invalid.toList, false, false⟩

/-- The symbols of a language, in order and each name once. The variant is kept as it was
given. -/
structure SymbolTable where
  lang : String
  variant : Json
  symbols : List Symbol

namespace SymbolTable

/-- The ASCII digits, which both tables have. -/
def digitSymbols : List Symbol := [
  .plain "DIGIT_ZERO" "0" "",
  .plain "DIGIT_ONE" "1" "",
  .plain "DIGIT_TWO" "2" "",
  .plain "DIGIT_THREE" "3" "",
  .plain "DIGIT_FOUR" "4" "",
  .plain "DIGIT_FIVE" "5" "",
  .plain "DIGIT_SIX" "6" "",
  .plain "DIGIT_SEVEN" "7" "",
  .plain "DIGIT_EIGHT" "8" "",
  .plain "DIGIT_NINE" "9" ""]

def latin : List Symbol := [
  .plain "SPACE" " " "\u3000",
  .plain "EXCLAMATION_MARK" "!" "！",
  .plain "NUMBER_SIGN" "#" "＃",
  .plain "DOLLAR_SIGN" "$" "＄",
  .plain "PERCENT_SIGN" "%" "％",
  .plain "QUESTION_MARK" "?" "？",
  .plain "AMPERSAND" "&" "＆",
  .plain "LEFT_PARENTHESIS" "(" "（",
  .plain "RIGHT_PARENTHESIS" ")" "）",
  .plain "ASTERISK" "*" "＊",
  .plain "COMMA" "," "，、",
  .plain "FULL_STOP" "." "．。",
  .plain "PLUS_SIGN" "+" "＋",
  .plain "HYPHEN_SIGN" "-" "ー",
  .plain "SLASH" "/" "／",
  .plain "COLON" ":" "：",
  .plain "SEMICOLON" ";" "；",
  .plain "LESS_THAN_SIGN" "<" "＜",
  .plain "EQUAL_SIGN" "=" "＝",
  .plain "GREATER_THAN_SIGN" ">" "＞",
  .plain "AT_MARK" "@" "＠",
  .plain "LEFT_SQUARE_BRACKET" "[" "",
  .plain "RIGHT_SQUARE_BRACKET" "]" "",
  .plain "BACKSLASH" "\\" "",
  .plain "CIRCUMFLEX_ACCENT" "^" "",
  .plain "LOW_LINE" "_" "",
  .plain "LEFT_CURLY_BRACKET" "\x7b" "｛",
  .plain "RIGHT_CURLY_BRACKET" "\x7d" "｝",
  .plain "VERTICAL_BAR" "|" "｜",
  .plain "TILDE" "~" "〜",
  .plain "LEFT_SINGLE_QUOTATION_MARK" "'" "",
  .plain "RIGHT_SINGLE_QUOTATION_MARK" "'" "",
  .plain "LEFT_DOUBLE_QUOTATION_MARK" "\"" "",
  .plain "RIGHT_DOUBLE_QUOTATION_MARK" "\"" ""] ++ digitSymbols

def japanese : List Symbol := [
  .plain "SPACE" "\u3000" " ",
  .plain "EXCLAMATION_MARK" "！" "!",
  .plain "NUMBER_SIGN" "＃" "#",
  .plain "DOLLAR_SIGN" "$" "＄",
  .plain "PERCENT_SIGN" "％" "%",
  .plain "QUESTION_MARK" "？" "?",
  .plain "AMPERSAND" "＆" "&",
  .plain "LEFT_PARENTHESIS" "（" "(",
  .plain "RIGHT_PARENTHESIS" "）" ")",
  .plain "ASTERISK" "＊" "*",
  .plain "COMMA" "、" ",，",
  .plain "FULL_STOP" "。" ".．",
  .plain "PLUS_SIGN" "＋" "+",
  .plain "HYPHEN_SIGN" "ー" "-",
  .plain "SLASH" "／" "/",
  .plain "COLON" "：" ":",
  .plain "SEMICOLON" "；" ";",
  .plain "LESS_THAN_SIGN" "＜" "<",
  .plain "EQUAL_SIGN" "＝" "=",
  .plain "GREATER_THAN_SIGN" "＞" ">",
  .plain "AT_MARK" "＠" "@",
  .plain "LEFT_SQUARE_BRACKET" "「" "",
  .plain "RIGHT_SQUARE_BRACKET" "」" "",
  .plain "BACKSLASH" "¥" "\\",
  .plain "CIRCUMFLEX_ACCENT" "＾" "^",
  .plain "LOW_LINE" "＿" "_",
  .plain "LEFT_CURLY_BRACKET" "｛" "",
  .plain "RIGHT_CURLY_BRACKET" "｝" "",
  .plain "VERTICAL_BAR" "｜" "|",
  .plain "TILDE" "〜" "~",
  .plain "LEFT_SINGLE_QUOTATION_MARK" "‘" "",
  .plain "RIGHT_SINGLE_QUOTATION_MARK" "’" "",
  .plain "LEFT_DOUBLE_QUOTATION_MARK" "“" "",
  .plain "RIGHT_DOUBLE_QUOTATION_MARK" "”" ""] ++ digitSymbols

/-- The languages that a configuration may name. -/
def languages : List String := ["en", "ja"]

/-- Puts a symbol in the place of the one with its name, or at the end. -/
def override (symbols : List Symbol) (s : Symbol) : List Symbol :=
  match symbols with
  | [] => [s]
  | t :: rest => if t.name = s.name then s :: rest else t :: override rest s

/-- The table of a language with some symbols replaced. Languages without a table of their
own have the Latin one. -/
def create (lang : String) (variant : Json) (overrides : List Symbol) : SymbolTable :=
  ⟨lang, variant, overrides.foldl override (if lang = "ja" then japanese else latin)⟩

/-- The table used when nothing is configured. -/
def standard : SymbolTable := create "en" (.str "") []

def symbol? (t : SymbolTable) (name : String) : Option Symbol :=
  t.symbols.find? (·.name == name)

def value? (t : SymbolTable) (name : String) : Option Text := (t.symbol? name).map (·.value)

/-- The values of some symbols, without those that are missing or empty. -/
def values (t : SymbolTable) (names : List String) : List Text :=
  (names.filterMap t.value?).filter (!·.isEmpty)

end SymbolTable

end ProseLint
