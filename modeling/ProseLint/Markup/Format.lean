import ProseLint.Json.Basic
import ProseLint.Markup.Path
import ProseLint.Text.Lowercase
import ProseLint.Text.Utf8

/-! The markup formats, how they are told apart, and what can keep a text from being read
at all. Malformed markup never does. -/

namespace ProseLint

/-- A markup format. -/
inductive Format where
  | plain
  | wiki
  | markdown
  | rest
  | review
  deriving DecidableEq, Repr

/-- The kind of a failure to read an input. -/
inductive InputErrorKind where
  | general
  | unreadable
  | unsupported
  deriving DecidableEq, Repr

/-- A failure to read an input: what went wrong, in which file, at what place, and details
for programs. -/
structure InputError where
  kind : InputErrorKind
  message : Text
  filePath : Option Text
  location : Option Text
  details : Json.Fields

namespace InputErrorKind

def name : InputErrorKind → String
  | .general => "ParseError"
  | .unreadable => "DocumentReadError"
  | .unsupported => "UnsupportedFormatError"

end InputErrorKind

namespace Format

def all : List Format := [.plain, .wiki, .markdown, .rest, .review]

def name : Format → String
  | .plain => "plain"
  | .wiki => "wiki"
  | .markdown => "markdown"
  | .rest => "rest"
  | .review => "review"

def names : List String := all.map name

/-- The file extensions and their formats, by extension. -/
def extensions : List (String × Format) :=
  [(".markdown", .markdown), (".md", .markdown), (".re", .review), (".rest", .rest),
    (".rst", .rest), (".text", .plain), (".txt", .plain), (".wiki", .wiki)]

/-- A list of names as a detail of a failure. -/
def supportedDetail (names : List String) : Json.Fields :=
  [("supported_formats", .list (names.map .str))]

/-- The format of a name, which may be in any case. -/
def ofName (name : Text) : Except InputError Format :=
  match all.find? fun f => f.name.toList == name.lower with
  | some f => .ok f
  | none => .error ⟨.unsupported, "Unsupported document format: ".toList ++ name, none,
      some "format".toList, supportedDetail names⟩

/-- The format of a file by its extension, which may be in any case. -/
def ofPath (path : Text) : Except InputError Format :=
  let extension := (Path.extension path).lower
  match extensions.find? fun e => e.1.toList == extension with
  | some e => .ok e.2
  | none => .error ⟨.unsupported, "Unsupported file extension: ".toList ++ extension, some path,
      some "file extension".toList, supportedDetail (extensions.map (·.1))⟩

end Format

namespace InputError

/-- Bytes that are not a text. -/
def undecodable (path : Text) (fault : Utf8.Fault) : InputError :=
  ⟨.unreadable, "Document is not valid UTF-8".toList, some path,
    some ("byte ".toList ++ Decimal.digits fault.position),
    [("reason", .str fault.reason.message)]⟩

/-- A text, unless it is missing or empty. -/
def present (t : Option Text) : Option Text := t.filter (!·.isEmpty)

def display (e : InputError) : Text :=
  let text := match present e.filePath with
    | some path => path ++ ": ".toList ++ e.message
    | none => e.message
  match present e.location with
  | some place => text ++ " (".toList ++ place ++ [')']
  | none => text

/-- A field for a text that is not empty. -/
def field (key : String) (t : Option Text) : Json.Fields :=
  match present t with
  | some t => [(key, .text t)]
  | none => []

def toJson (e : InputError) : Json :=
  .object ([("error_type", .str e.kind.name), ("message", .text e.message)] ++
    field "file_path" e.filePath ++ field "location" e.location ++
    if e.details.isEmpty then [] else [("details", .object e.details)])

/-- The names of the formats that would have been supported, as far as the details tell. -/
def supported (e : InputError) : Option (List Json) :=
  ((Json.get? "supported_formats" e.details).getD (.list [])).elements?

end InputError

end ProseLint
