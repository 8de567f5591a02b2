import ProseLint.Text.Basic

/-! Text inside marked-up reports. -/

namespace ProseLint.Text

/-- One character with the five characters that mean something to markup written as
entities. -/
def entityOf (c : Char) : Text :=
  if c = '&' then "&amp;".toList
  else if c = '<' then "&lt;".toList
  else if c = '>' then "&gt;".toList
  else if c = '\'' then "&#39;".toList
  else if c = '"' then "&#34;".toList
  else [c]

/-- The text with every character that means something to markup written as an entity. -/
def escapeMarkup (t : Text) : Text := t.flatMap entityOf

end ProseLint.Text
