import ProseLint.Boundary.Extractor
import ProseLint.Document.Token

/-! Configurations: the symbols of a language, the tokenizer, and the validators in the
order in which they run. -/

namespace ProseLint

/-- A validator as it is configured. The values of attributes stay as they were given; the
validator makes of them what it needs. -/
structure ValidatorSettings where
  name : Text
  attributes : Json.Fields

/-- A configuration. The metadata is kept and not looked at. -/
structure Configuration where
  validators : List ValidatorSettings
  symbols : SymbolTable
  tokenizer : Tokenizer
  metadata : Json

namespace ValidatorSettings

/-- The settings as a data value. -/
def toJson (s : ValidatorSettings) : Json :=
  .object [("name", .text s.name), ("attributes", .object s.attributes)]

end ValidatorSettings

namespace Configuration

/-- The configuration without validators. -/
def empty : Configuration := ⟨[], .standard, .whitespace, .object []⟩

def lang (c : Configuration) : String := c.symbols.lang

def names (c : Configuration) : List Text := c.validators.map (·.name)

/-- The first settings for a validator of this name. -/
def settings? (c : Configuration) (name : Text) : Option ValidatorSettings :=
  c.validators.find? (·.name == name)

def extractor (c : Configuration) : Except ExtractorFault Extractor :=
  Extractor.ofSymbols c.symbols

/-- The symbols that differ from those of the language. -/
def overrides (t : SymbolTable) : List Symbol :=
  let base := SymbolTable.create t.lang (.str "") []
  t.symbols.filter fun s => base.symbol? s.name != some s

/-- A symbol as a data value. -/
def symbolJson (s : Symbol) : Json :=
  .object [("name", .str s.name), ("value", .text s.value), ("invalid_chars", .text s.invalid),
    ("before_space", .bool s.spaceBefore), ("after_space", .bool s.spaceAfter)]

/-- The configuration as a data value, from which it can be loaded again. -/
def toJson (c : Configuration) : Json :=
  .object [("lang", .str c.lang), ("variant", c.symbols.variant),
    ("tokenizer", .str c.tokenizer.name), ("validators", .list (c.validators.map (·.toJson))),
    ("symbols", .list ((overrides c.symbols).map symbolJson)), ("metadata", c.metadata)]

/-- The text under which the configuration is saved. -/
def saved (c : Configuration) : Text := Json.render (.block 2) c.toJson

end Configuration

end ProseLint
