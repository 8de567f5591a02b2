import ProseLint.Address.Parts
import ProseLint.Address.Percent
import ProseLint.Address.Punycode

/-! Addresses of links: the form in which they are recorded, the form in which they are
shown, and those that are refused. -/

namespace ProseLint.Address

/-- Whether the host of an address has a second form with basic characters alone. -/
def hasInternationalHost (a : Address) : Bool :=
  !a.host.isEmpty && (a.protocol.isEmpty ||
    (["http:", "https:", "mailto:"].map String.toList).contains a.protocol)

def isStop (c : Char) : Bool := c == '.' || c == '\u3002' || c == '\uFF0E' || c == '\uFF61'

def labels : Text → List Text
  | [] => [[]]
  | c :: rest =>
      if isStop c then [] :: labels rest
      else match labels rest with
        | [] => [[c]]
        | label :: more => (c :: label) :: more

/-- What a label with basic characters alone starts with. -/
def acePart : Text := "xn--".toList

/-- A label with basic characters alone. -/
def basicLabel (t : Text) : Text :=
  if t.any (0x7E < ·.toNat) then acePart ++ Punycode.encode t else t

/-- A label with the characters that it stands for, if it can be read. -/
def shownLabel (t : Text) : Option Text :=
  match acePart.isPrefixOf? t with
  | some rest => Punycode.decode (Text.lower rest)
  | none => some t

/-- The address in one piece, escaped. The brackets around a host stay. -/
def escaped (a : Address) : Text :=
  Percent.encode a.front ++ a.inBrackets (Percent.encode a.host) ++ Percent.encode a.tail

/-- The recorded form of an address: the host in basic characters, everything else escaped. -/
def recorded (t : Text) : Text :=
  let a := ofText t
  let host :=
    if a.hasInternationalHost then Text.join ['.'] ((labels a.host).map basicLabel) else a.host
  escaped { a with host := host }

/-- Characters that stay escaped when an address is shown. -/
def keptEscapes : Text := ";/?:@&=+$,#%".toList

/-- The shown form of an address: the host in its own characters, and no escapes. -/
def shown (t : Text) : Text :=
  let a := ofText t
  let host := match (labels a.host).mapM shownLabel with
    | some labels => if a.hasInternationalHost then Text.join ['.'] labels else a.host
    | none => a.host
  Percent.decode keptEscapes { a with host := host }.text

/-- Protocols that are refused. -/
def refusedProtocols : List Text := ["vbscript:", "javascript:", "file:", "data:"].map String.toList

/-- Data that is not refused. -/
def acceptedData : List Text :=
  ["gif", "png", "jpeg", "webp"].map fun kind => "data:image/".toList ++ kind.toList ++ [';']

def isAccepted (t : Text) : Bool :=
  let t := t.strip.lower
  !(refusedProtocols.any (·.isPrefixOf t)) || acceptedData.any (·.isPrefixOf t)

end ProseLint.Address
