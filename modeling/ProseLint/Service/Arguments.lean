import ProseLint.Markup.Format
import ProseLint.Number.Numeral
import ProseLint.Report.Basic

/-! The words of a command line. Options may be shortened to a beginning that no other
option has, may have their value joined to them, and single letters may share one dash. -/

namespace ProseLint

/-- The options. -/
inductive OptionName where
  | help
  | format
  | conf
  | resultFormat
  | limit
  | lang
  | verbose
  deriving DecidableEq, Repr

namespace OptionName

def spellings : List (Text × OptionName) :=
  [("-h", .help), ("--help", .help), ("-f", .format), ("--format", .format), ("-c", .conf),
    ("--conf", .conf), ("-r", .resultFormat), ("--result-format", .resultFormat),
    ("-l", .limit), ("--limit", .limit), ("-L", .lang), ("--lang", .lang), ("-v", .verbose),
    ("--verbose", .verbose)].map fun (s, name) => (s.toList, name)

def takesValue : OptionName → Bool
  | .help => false
  | .verbose => false
  | _ => true

end OptionName

/-- One way to read a word as an option: which one, whether it has a single dash, and what
is joined to it. The flag of the joined text says that an equals sign stands before it. -/
structure OptionReading where
  name : OptionName
  short : Bool
  joined : Option (Bool × Text)
  deriving DecidableEq, Repr

/-- A word of the command line. An option without readings is an unknown one. -/
inductive Word where
  | plain (t : Text)
  | separator
  | option (readings : List OptionReading)
  deriving DecidableEq, Repr

namespace Word

def isShort : Text → Bool
  | '-' :: '-' :: _ => false
  | _ => true

def spelledOut? (t : Text) (joined : Option (Bool × Text)) : Option OptionReading :=
  (OptionName.spellings.lookup t).map fun name => ⟨name, isShort t, joined⟩

/-- What stands before the first equals sign, and what stands after it if there is one. -/
def atEquals (t : Text) : Text × Option (Bool × Text) :=
  match t.dropWhile (· != '=') with
  | [] => (t, none)
  | _ :: rest => (t.takeWhile (· != '='), some (true, rest))

/-- The options that begin with a text. -/
def abbreviated (t : Text) : List OptionReading :=
  let (start, joined) := atEquals t
  (OptionName.spellings.filter fun s => start.isPrefixOf s.1).map fun s =>
    ⟨s.2, isShort s.1, joined⟩

/-- The option of one letter with which a word begins, with the rest of the word joined to
it. -/
def lettered (t : Text) : List OptionReading :=
  (spelledOut? (t.take 2) (some (false, t.drop 2))).toList

/-- Whether a word is a negative number, which is no option. -/
def isNegative : Text → Bool
  | '-' :: rest =>
      match rest.dropWhile isDecimal with
      | [] => !rest.isEmpty
      | '.' :: fraction => !fraction.isEmpty && fraction.all isDecimal
      | _ => false
  | _ => false

/-- The readings of a word that starts with a dash and is not spelled out in full. -/
def readings (t : Text) : List OptionReading :=
  match t with
  | '-' :: '-' :: _ => abbreviated t
  | _ => lettered t ++ abbreviated t

/-- A word of the command line before the separator. -/
def ofText (t : Text) : Word :=
  if t = ['-', '-'] then .separator
  else if t.head? != some '-' || t.length = 1 then .plain t
  else match spelledOut? t none with
    | some r => .option [r]
    | none =>
        let (start, joined) := atEquals t
        match joined.bind fun _ => spelledOut? start joined with
        | some r => .option [r]
        | none =>
            match readings t with
            | [] => if isNegative t || t.contains ' ' then .plain t else .option []
            | found => .option found

/-- The words of a command line. After the separator every word is a plain one. -/
def ofTexts : List Text → List Word
  | [] => []
  | t :: rest =>
      match ofText t with
      | .separator => .separator :: rest.map .plain
      | w => w :: ofTexts rest

end Word

/-- What a command line asks for. -/
structure Request where
  format : Option Text
  conf : Option Text
  resultFormat : ReportFormat
  limit : Int
  lang : Text
  verbose : Bool
  files : List Text
  deriving DecidableEq, Repr

/-- Why a command line is not carried out: it asks for help, or it is malformed. -/
inductive Halt where
  | help
  | usage
  deriving DecidableEq, Repr

namespace Request

/-- The request without any words. -/
def initial : Request := ⟨none, none, .plain, 0, "en".toList, false, []⟩

def use (r : Request) (name : OptionName) (value : Text) : Except Halt Request :=
  match name with
  | .help => .error .help
  | .format =>
      if Format.names.any (·.toList == value) then .ok { r with format := some value }
      else .error .usage
  | .conf => .ok { r with conf := some value }
  | .resultFormat =>
      match ReportFormat.ofName? (String.ofList value) with
      | some f => .ok { r with resultFormat := f }
      | none => .error .usage
  | .limit =>
      match Numeral.int? value with
      | some n => .ok { r with limit := n }
      | none => .error .usage
  | .lang => .ok { r with lang := value }
  | .verbose => .ok { r with verbose := true }

def useAll (r : Request) : List (OptionName × Text) → Except Halt Request
  | [] => .ok r
  | (name, value) :: rest =>
      match r.use name value with
      | .ok r => r.useAll rest
      | .error halt => .error halt

end Request

/-- The options in one word: those complete with their values, one that still needs a value,
and whether something unknown follows. -/
structure OptionUses where
  complete : List (OptionName × Text)
  pending : Option OptionName
  unknown : Bool
  deriving DecidableEq, Repr

namespace OptionUses

/-- An option with nothing joined to it. -/
def alone (name : OptionName) : OptionUses :=
  if name.takesValue then ⟨[], some name, false⟩ else ⟨[(name, [])], none, false⟩

/-- More options after one without a value. -/
def after (name : OptionName) (more : OptionUses) : OptionUses :=
  { more with complete := (name, []) :: more.complete }

/-- An option with a text joined to it. The text is its value, or it is further letters
after a single dash. -/
def joined (name : OptionName) (short equals : Bool) (t : Text) : Except Halt OptionUses :=
  if name.takesValue then .ok ⟨[(name, t)], none, false⟩
  else if !short || equals then .error .usage
  else match t with
    | [] => .error .usage
    | c :: rest =>
        if c = '-' then .error .usage
        else match OptionName.spellings.lookup ['-', c] with
          | none => .ok ⟨[(name, [])], none, true⟩
          | some next =>
              match rest with
              | [] => .ok (after name (alone next))
              | '=' :: value => (joined next true true value).map (after name)
              | more => (joined next true false more).map (after name)

/-- The options in a word, which must have one reading. -/
def ofReadings : List OptionReading → Except Halt OptionUses
  | [] => .ok ⟨[], none, true⟩
  | [r] =>
      match r.joined with
      | none => .ok (alone r.name)
      | some (equals, t) => joined r.name r.short equals t
  | _ => .error .usage

end OptionUses

/-- How far a command line has been read: the request so far, whether the files may still
be continued, and whether something was left over. -/
structure ArgumentState where
  request : Request
  inFiles : Bool
  extra : Bool
  deriving DecidableEq, Repr

namespace ArgumentState

/-- Reads a plain word. Files must stand together, so a later one is left over. -/
def plain (s : ArgumentState) (t : Text) : ArgumentState :=
  if s.inFiles || s.request.files.isEmpty then
    { s with request := { s.request with files := s.request.files ++ [t] }, inFiles := true }
  else { s with extra := true }

/-- Reads the separator, which must not stand apart from the files. -/
def separator (s : ArgumentState) : ArgumentState :=
  if s.inFiles || s.request.files.isEmpty then s else { s with extra := true }

def use (s : ArgumentState) (uses : List (OptionName × Text)) (unknown : Bool) :
    Except Halt ArgumentState :=
  (s.request.useAll uses).map fun r => ⟨r, false, s.extra || unknown⟩

/-- Reads words from a state on. An option that still needs a value takes the plain word
after it. -/
def read (s : ArgumentState) (words : List Word) : Except Halt ArgumentState :=
  match words with
  | [] => .ok s
  | .plain t :: rest => (s.plain t).read rest
  | .separator :: rest => s.separator.read rest
  | .option readings :: rest =>
      match OptionUses.ofReadings readings with
      | .error halt => .error halt
      | .ok uses =>
          match uses.pending, rest with
          | none, rest =>
              match s.use uses.complete uses.unknown with
              | .ok s => s.read rest
              | .error halt => .error halt
          | some name, .plain value :: rest =>
              match s.use (uses.complete ++ [(name, value)]) uses.unknown with
              | .ok s => s.read rest
              | .error halt => .error halt
          | some _, _ => .error .usage
termination_by words.length

end ArgumentState

/-- Reads a command line. There must be a file, and nothing may be left over. -/
def Request.ofArguments (args : List Text) : Except Halt Request :=
  match (ArgumentState.mk .initial false false).read (Word.ofTexts args) with
  | .error halt => .error halt
  | .ok s => if s.extra || s.request.files.isEmpty then .error .usage else .ok s.request

end ProseLint
