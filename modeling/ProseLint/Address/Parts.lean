import ProseLint.Number.Decimal
import ProseLint.Text.Lowercase
import ProseLint.Text.Blank

/-! The parts of an address: a protocol, a host with what belongs to it, a path, a query and
a fragment. -/

namespace ProseLint

/-- An address in parts. Parts that are not there are empty; `hasSlashes` says that two
slashes stand before the host. -/
structure Address where
  protocol : Text
  hasSlashes : Bool
  auth : Text
  host : Text
  portNumber : Text
  path : Text
  query : Text
  fragment : Text
  deriving DecidableEq, Repr

namespace Address

/-- Characters outside ASCII that differ from one of its letters by case alone: the dotted
capital and the dotless small i, the long s and the sign of the kelvin. -/
def letterVariants : Text := "\u0130\u0131\u017F\u212A".toList

def isProtocolChar (c : Char) : Bool :=
  c.isAlphanum || letterVariants.contains c || c == '.' || c == '+' || c == '-'

/-- The protocol at the start of a text, its colon included. -/
def protocolOf (t : Text) : Text :=
  let name := t.takeWhile isProtocolChar
  if !name.isEmpty && t[name.length]? == some ':' then name ++ [':'] else []

/-- Protocols whose hosts stand behind two slashes only. -/
def slashedProtocols : List Text :=
  ["http:", "https:", "ftp:", "gopher:", "file:"].map String.toList

/-- The protocol that has no host. -/
def hostless : Text := "javascript:".toList

/-- Characters that end whatever stands before the path. -/
def isHostEnd (c : Char) : Bool := c == '/' || c == '?' || c == '#'

/-- Characters that never stand in a host. -/
def nonHostMarks : Text := "%/?;#'\x7b\x7d|\\^\x60<>\" \r\n\t".toList

def isHostChar (c : Char) : Bool := !nonHostMarks.contains c

def isLabelChar (c : Char) : Bool := c.isAlphanum || c == '+' || c == '_' || c == '-'

/-- Whether a label of a host is well formed. Characters outside ASCII are. -/
def isLabel (t : Text) : Bool :=
  decide (t.length ≤ 63) && t.all fun c => isLabelChar c || decide (127 < c.toNat)

/-- The name and the password before the last at sign of the host part, and the rest. -/
def splitAuth (t : Text) : Text × Text :=
  let before := t.takeWhile fun c => !isHostEnd c
  match before.reverse.findIdx? (· == '@') with
  | some i => (before.take (before.length - 1 - i), t.drop (before.length - i))
  | none => ([], t)

/-- The characters of the host and the rest. A colon at the end belongs to the rest. -/
def splitHost (t : Text) : Text × Text :=
  let host := t.takeWhile isHostChar
  let length := if host.getLast? = some ':' then host.length - 1 else host.length
  (t.take length, t.drop length)

/-- A host and the number that stands behind its last colon, in digits alone. -/
def splitPortNumber (t : Text) : Text × Text :=
  let digits := (t.reverse.takeWhile Decimal.isDigit).length
  let before := t.take (t.length - digits)
  if before.getLast? = some ':' then (before.dropLast, t.drop (t.length - digits)) else (t, [])

/-- The host up to the first label that is not well formed, and what is left over from that
label on. The good part of that label still belongs to the host. -/
def splitLabels (good : List Text) : List Text → Text × Text
  | [] => (Text.join ['.'] good, [])
  | label :: rest =>
      if isLabel label then splitLabels (good ++ [label]) rest
      else
        let start := (label.takeWhile isLabelChar).take 63
        (Text.join ['.'] (good ++ [start]),
          Text.join ['.'] (label.drop start.length :: rest))

def isBracketed (t : Text) : Bool :=
  t.head? == some '[' && t.getLast? == some ']'

/-- The part from a character on and the part before it. -/
def splitFrom (c : Char) (t : Text) : Text × Text := (t.dropWhile (· != c), t.takeWhile (· != c))

/-- The address with path, query and fragment from a text. -/
def withTail (a : Address) (t : Text) : Address :=
  let (fragment, t) := splitFrom '#' t
  let (query, path) := splitFrom '?' t
  { a with path := path, query := query, fragment := fragment }

/-- An address that consists of a protocol alone. -/
def ofProtocol (protocol : Text) : Address := ⟨protocol, false, [], [], [], [], [], []⟩

/-- The address with host and tail from a text. -/
def withHost (a : Address) (t : Text) : Address :=
  let (auth, t) := splitAuth t
  let (authority, t) := splitHost t
  let (host, portNumber) := splitPortNumber authority
  let bracketed := isBracketed host
  let (host, left) := if bracketed then (host, []) else splitLabels [] (host.splitOn '.')
  let host := if 255 < host.length then [] else host
  let host := if bracketed then (host.drop 1).dropLast else host
  { a with auth := auth, host := host, portNumber := portNumber }.withTail (left ++ t)

/-- The parts of an address. White space around it is ignored. -/
def ofText (t : Text) : Address :=
  let t := t.strip
  let protocol := protocolOf t
  let t := t.drop protocol.length
  let slashes := ['/', '/'].isPrefixOf t && protocol != hostless
  let a := { ofProtocol protocol with hasSlashes := slashes }
  let t := if slashes then t.drop 2 else t
  if protocol ≠ hostless ∧ (slashes ∨ (protocol ≠ [] ∧ ¬ slashedProtocols.contains protocol)) then
    a.withHost t
  else a.withTail t

/-- What stands before the host. -/
def front (a : Address) : Text :=
  a.protocol ++ (if a.hasSlashes then ['/', '/'] else []) ++
    (if a.auth.isEmpty then [] else a.auth ++ ['@'])

/-- What stands behind the host. -/
def tail (a : Address) : Text :=
  (if a.portNumber.isEmpty then [] else ':' :: a.portNumber) ++ a.path ++ a.query ++ a.fragment

/-- Where the host has colons, a text in brackets, else the text alone. -/
def inBrackets (a : Address) (t : Text) : Text :=
  if a.host.contains ':' then '[' :: (t ++ [']']) else t

def text (a : Address) : Text := a.front ++ a.inBrackets a.host ++ a.tail

end Address

end ProseLint
