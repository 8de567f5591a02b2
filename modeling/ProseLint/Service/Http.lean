import ProseLint.Service.CommandLine

/-! The answers of the HTTP service. A request is answered by a function, so nothing here
depends on a server. -/

namespace ProseLint.Http

/-- A request. The body is text that should hold a data value. -/
structure Request where
  method : Text
  path : Text
  body : Text
  deriving DecidableEq, Repr

/-- An answer: a status with a data value, or the places in the request that are not as
they must be. -/
inductive Response where
  | value (status : Nat) (body : Json)
  | invalid (places : List (List String))

namespace Response

/-- An answer that says what is wrong. -/
def detail (status : Nat) (message : Text) : Response :=
  .value status (.object [("detail", .text message)])

end Response

/-- A request to check a text. -/
structure CheckRequest where
  document : Text
  format : Text
  lang : String
  config : Option Json.Fields

namespace CheckRequest

/-- A field that must be a text, with the text to take when it is missing. -/
def text? (key : String) (default : Option String) (fields : Json.Fields) : Option String :=
  match Json.get? key fields with
  | none => default
  | some (.str s) => some s
  | some _ => none

/-- The configuration of a request, which may be left out or null. -/
def config? (fields : Json.Fields) : Option (Option Json.Fields) :=
  match Json.get? "config" fields with
  | none => some none
  | some .null => some none
  | some (.object config) => some (some config)
  | some _ => none

/-- The place of a field that is not as it must be. -/
def place {α : Type} (key : String) : Option α → List (List String)
  | some _ => []
  | none => [["body", key]]

/-- Reads a request. Fields that are not known do not count. -/
def ofFields (fields : Json.Fields) : Except (List (List String)) CheckRequest :=
  match text? "document" none fields, text? "format" (some "plain") fields,
      text? "lang" (some "en") fields, config? fields with
  | some document, some format, some lang, some config =>
      .ok ⟨document.toList, format.toList, lang, config⟩
  | document, format, lang, config =>
      .error (place "document" document ++ place "format" format ++ place "lang" lang ++
        place "config" config)

/-- Reads the body of a request. A byte order mark before it does not count. -/
def ofBody (body : Text) : Except (List (List String)) CheckRequest :=
  let body := match body with
    | '\ufeff' :: rest => rest
    | _ => body
  match Json.read? body with
  | some (.object fields) => ofFields fields
  | _ => .error [["body"]]

/-- The configuration to be used. The language of the request counts when the configuration
names none. -/
def configuration (r : CheckRequest) :
    Except ConfigurationFault (Configuration × List ConfigurationWarning) :=
  match r.config with
  | none => Configuration.default (.str r.lang)
  | some fields =>
      let fields := if Json.hasKey "lang" fields then fields else fields ++ [("lang", .str r.lang)]
      Configuration.ofFields (some Registry.builtin.names) fields

def found (d : Document Sentence) (o : Outcome) : Response :=
  .value 200 (.object [("errors", .list (o.problems.map (·.toJson))),
    ("sentences", .nat d.sentences.length)])

def answer (r : CheckRequest) : Logged Response :=
  match Linter.ofLoaded .builtin r.configuration with
  | (warnings, .error (.rejected e)) =>
      ⟨warnings.map (·.message) ++ ["Rejected configuration: ".toList ++ e.message],
        .ok (.detail 400 e.message)⟩
  | (warnings, .error fault) => ⟨warnings.map (·.message), .error fault⟩
  | (warnings, .ok l) =>
      match Format.ofName r.format with
      | .error e => ⟨warnings.map (·.message), .ok (.detail 400 e.display)⟩
      | .ok format =>
          let reading := format.read (l.readOptions none) r.document
          let o := l.check reading.document
          ⟨warnings.map (·.message) ++ Linter.log reading.warnings o,
            .ok (found reading.document o)⟩

end CheckRequest

def validatorNames : Response :=
  .value 200 (.object [("validators", .list (Registry.builtin.names.map .text))])

/-- The paths that are answered, each with its method. -/
def routes : List (Text × Text) :=
  [("/api/validate".toList, "POST".toList), ("/api/validators".toList, "GET".toList)]

/-- The answer to a request. A slash at the end of a path does not count, and neither does
what follows a question mark. -/
def respond (r : Request) : Logged Response :=
  let path := Text.dropRightWhile (· == '/') (r.path.takeWhile (· != '?'))
  match routes.lookup path with
  | none => ⟨[], .ok (.detail 404 "Not Found".toList)⟩
  | some method =>
      if r.method.map Char.toUpper != method then
        ⟨[], .ok (.detail 405 "Method Not Allowed".toList)⟩
      else if method == "GET".toList then ⟨[], .ok validatorNames⟩
      else match CheckRequest.ofBody r.body with
        | .error places => ⟨[], .ok (.invalid places)⟩
        | .ok check => check.answer

end ProseLint.Http
