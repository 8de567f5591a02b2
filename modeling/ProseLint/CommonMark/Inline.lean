import ProseLint.Address.Link
import ProseLint.CommonMark.Delimiter
import ProseLint.CommonMark.Destination
import ProseLint.CommonMark.Html
import ProseLint.CommonMark.Label
import Std.Data.HashMap

/-! Inline text. Code spans, links, images, raw HTML and character references are found from
left to right; emphasis is matched afterwards. Where brackets are nested too deeply, what
is inside is read as plain text. -/

namespace ProseLint.CommonMark

/-- The text to be read and the addresses of labels. -/
structure Source where
  chars : Array Char
  definitions : Definitions

/-- What has been learned about positions: where the piece ends that starts there, and for
each length of backquotes the last place where it can close a code span, once all of them
have been looked for. -/
structure Memory where
  ends : Std.HashMap Nat Nat
  backquotes : List (Nat × Nat)
  allBackquotes : Bool

namespace Memory

def empty : Memory := ⟨∅, [], false⟩

end Memory

/-- A piece of inline text that has been found. -/
inductive Found where
  | plain (text : Text)
  | softBreak
  | hardBreak
  | special (text : Text)
  | codeSpan (mark : Text)
  | html (text : Text)
  | autolink (url shown : Text)
  | image (description : Text)
  | link (labelEnd : Nat) (url : Text)

namespace Source

/-- The characters from a position up to another one. -/
def slice (s : Source) (start stop : Nat) : Text := (s.chars.extract start stop).toList

/-- Whether a character stands at a position before `stop`. -/
def isAt (s : Source) (c : Char) (stop i : Nat) : Bool := decide (i < stop) && s.chars[i]? == some c

/-- The first position from `i` on at which the character does not satisfy `p`. -/
def skipWhile (s : Source) (p : Char → Bool) (stop i : Nat) : Nat :=
  if h : i < stop ∧ i < s.chars.size then
    if p s.chars[i] then skipWhile s p stop (i + 1) else i
  else i
termination_by stop - i

/-- Characters at which plain text is interrupted. -/
def isInterrupting (c : Char) : Bool := "\n!#$%&*+-:<=>@[\\]^_\x60\x7b\x7d~".toList.contains c

/-- The character before a position, or a space. -/
def before (s : Source) (i : Nat) : Char := if i = 0 then ' ' else s.chars.getD (i - 1) ' '

def runAt (s : Source) (stop i : Nat) (mark : Char) : Run :=
  let e := s.skipWhile (· == mark) stop i
  let after := if e < stop then s.chars.getD e ' ' else ' '
  .between (e - i) (mark != '_') (s.before i) after

/-- The position of the first backquote from `i` on. -/
def backquoteFrom (s : Source) (i : Nat) : Option Nat :=
  let e := s.skipWhile (· != '\x60') s.chars.size i
  if e < s.chars.size then some e else none

/-- The end of the code span that so many backquotes open, searched from `i` on. The runs
of other lengths that are passed go to memory. -/
def closeCode (s : Source) (stop length fuel i : Nat) (m : Memory) : Memory × Option Nat :=
  match fuel with
  | 0 => ({ m with allBackquotes := true }, none)
  | fuel + 1 =>
      match s.backquoteFrom i with
      | none => ({ m with allBackquotes := true }, none)
      | some start =>
          let e := max (start + 1) (s.skipWhile (· == '\x60') stop (start + 1))
          if e - start = length then (m, some e)
          else closeCode s stop length fuel e
            { m with backquotes := (e - start, start) :: m.backquotes }

/-- A code span, or backquotes that open none. -/
def codeAt (s : Source) (stop i : Nat) (m : Memory) : Memory × Option (Found × Nat) :=
  let e := s.skipWhile (· == '\x60') stop i
  let length := e - i
  let mark := List.replicate length '\x60'
  if m.allBackquotes && decide ((m.backquotes.lookup length).getD 0 ≤ i) then
    (m, some (.plain mark, e))
  else
    match s.closeCode stop length (s.chars.size + 1) e m with
    | (m, some close) => (m, some (.codeSpan mark, close))
    | (m, none) => (m, some (.plain mark, e))

/-- A character after a backslash, or a line break after one. -/
def escapeAt (s : Source) (stop i : Nat) : Option (Found × Nat) :=
  if stop ≤ i + 1 then none
  else match s.chars[i + 1]? with
    | none => none
    | some c =>
        if c = '\n' then some (.hardBreak, s.skipWhile isSpacing stop (i + 2))
        else some (.special (if isAsciiPunctuation c then [c] else ['\\', c]), i + 2)

def isUri (t : Text) : Bool :=
  let isSchemeChar (c : Char) : Bool := c.isAlphanum || c == '+' || c == '.' || c == '-'
  let scheme := t.takeWhile isSchemeChar
  (scheme.head?.map Char.isAlpha).getD false && 2 ≤ scheme.length && scheme.length ≤ 32 &&
    t[scheme.length]? == some ':' && (t.drop scheme.length).all fun c => decide (0x20 < c.toNat)

def isMailLabel (t : Text) : Bool :=
  let isAlphanum (c : Option Char) : Bool := (c.map Char.isAlphanum).getD false
  isAlphanum t.head? && isAlphanum t.getLast? && decide (t.length ≤ 63) &&
    t.all fun c => c.isAlphanum || c == '-'

/-- Marks that may stand in the name of a mailbox. -/
def mailMarks : Text := ".!#$%&'*+/=?^_\x60\x7b|\x7d~-".toList

def isMail (t : Text) : Bool :=
  let name := t.takeWhile (· != '@')
  !name.isEmpty && name.length < t.length &&
    name.all (fun c => c.isAlphanum || mailMarks.contains c) &&
    (Text.splitOn '.' (t.drop (name.length + 1))).all isMailLabel

/-- An address in angle brackets. A line break at its end does not count. -/
def autolinkAt (s : Source) (stop i : Nat) : Option (Found × Nat) :=
  let e := s.skipWhile (fun c => c != '<' && c != '>') stop (i + 1)
  if !s.isAt '>' stop e then none
  else
    let body := s.slice (i + 1) e
    let address := if body.getLast? = some '\n' then body.dropLast else body
    let target :=
      if isUri address then some body
      else if isMail address then some ("mailto:".toList ++ body)
      else none
    match target with
    | none => none
    | some target =>
        let url := Address.recorded target
        if Address.isAccepted url then some (.autolink url (Address.shown body), e + 1) else none

def htmlAt (s : Source) (stop i : Nat) : Option (Found × Nat) :=
  if stop ≤ i + 2 then none
  else (Html.tagLength? (s.slice i s.chars.size)).map fun n => (.html (s.slice i (i + n)), i + n)

def referenceAt (s : Source) (stop i : Nat) : Option (Found × Nat) :=
  if stop ≤ i + 1 then none
  else (reference? (s.slice i s.chars.size)).map fun r => (.special r.1, i + r.2)

/-- How a position is passed over in a search: the piece that starts there is skipped. -/
abbrev Skip := Memory → Nat → Memory × Nat

/-- The closing bracket of a label that has `level` open brackets at a position. With
`noLinks` there may be no link in it. -/
def labelEnd (s : Source) (skip : Skip) (noLinks : Bool) (stop fuel level i : Nat) (m : Memory) :
    Memory × Option Nat :=
  match fuel with
  | 0 => (m, none)
  | fuel + 1 =>
      if stop ≤ i then (m, none)
      else
        let c := s.chars.getD i ' '
        if c = ']' ∧ level ≤ 1 then (m, some i)
        else
          let level := if c = ']' then level - 1 else level
          let (m, next) := skip m i
          if c = '[' then
            if next = i + 1 then labelEnd s skip noLinks stop fuel (level + 1) next m
            else if noLinks then (m, none)
            else labelEnd s skip noLinks stop fuel level next m
          else labelEnd s skip noLinks stop fuel level next m

def label (s : Source) (skip : Skip) (noLinks : Bool) (stop i : Nat) (m : Memory) :
    Memory × Option Nat :=
  s.labelEnd skip noLinks stop (stop + 1 - i) 1 i m

/-- The address in parentheses from a position on, and the position of what should be the
closing parenthesis. An address that is refused is not passed. -/
def targetAt (s : Source) (stop i : Nat) : Text × Nat :=
  match destination? (s.slice i stop) with
  | none => ([], i)
  | some (raw, n) =>
      let url := Address.recorded raw
      let (url, e) := if Address.isAccepted url then (url, i + n) else ([], i)
      let start := s.skipWhile isGap stop e
      match title (s.slice start stop) with
      | .finished _ n =>
          if start < stop ∧ start ≠ e then (url, s.skipWhile isGap stop (start + n))
          else (url, start)
      | _ => (url, start)

/-- The address that a label refers to. Another label may stand at a position; if there is
none there, or an empty one, the first label counts. -/
def referred (s : Source) (skip : Skip) (stop labelStart labelEnd i : Nat) (m : Memory) :
    Memory × Option (Text × Nat) :=
  if s.definitions.isEmpty then (m, none)
  else
    let own := s.slice labelStart labelEnd
    let (m, label, e) :=
      if s.isAt '[' stop i then
        match s.label skip false stop (i + 1) m with
        | (m, some e) => (m, s.slice (i + 1) e, e + 1)
        | (m, none) => (m, [], labelEnd + 1)
      else (m, [], labelEnd + 1)
    let label := if label.isEmpty then own else label
    (m, (s.definitions.address? label).map fun url => (url, e))

/-- A link. What looks like an address in parentheses but is none is passed over when a
second label is looked for. -/
def linkAt (s : Source) (skip : Skip) (stop i : Nat) (m : Memory) : Memory × Option (Found × Nat) :=
  match s.label skip true stop (i + 1) m with
  | (m, none) => (m, none)
  | (m, some e) =>
      let byLabel := fun (start : Nat) =>
        let (m, r) := s.referred skip stop (i + 1) e start m
        (m, r.map fun r => (Found.link e r.1, r.2))
      if s.isAt '(' stop (e + 1) then
        let start := s.skipWhile isGap stop (e + 2)
        if stop ≤ start then (m, none)
        else
          let (url, close) := s.targetAt stop start
          if s.isAt ')' stop close then (m, some (.link e url, close + 1)) else byLabel (close + 1)
      else byLabel (e + 1)

def imageAt (s : Source) (skip : Skip) (stop i : Nat) (m : Memory) :
    Memory × Option (Found × Nat) :=
  if decide (i + 1 < stop) && s.chars[i + 1]? != some '[' then (m, none)
  else match s.label skip false stop (i + 2) m with
    | (m, none) => (m, none)
    | (m, some e) =>
        let found := Found.image (s.slice (i + 2) e)
        if s.isAt '(' stop (e + 1) then
          let start := s.skipWhile isGap stop (e + 2)
          if stop ≤ start then (m, none)
          else
            let (_, close) := s.targetAt stop start
            if s.isAt ')' stop close then (m, some (found, close + 1)) else (m, none)
        else
          let (m, r) := s.referred skip stop (i + 2) e (e + 1) m
          (m, r.map fun r => (found, r.2))

/-- The piece that starts at a position and where it ends. Delimiters of emphasis are no
pieces. -/
def pieceAt (s : Source) (skip : Skip) (stop i : Nat) (m : Memory) :
    Memory × Option (Found × Nat) :=
  match s.chars[i]? with
  | none => (m, none)
  | some c =>
      if c = '\n' then (m, some (.softBreak, s.skipWhile isSpacing stop (i + 1)))
      else if c = '\\' then (m, s.escapeAt stop i)
      else if c = '\x60' then s.codeAt stop i m
      else if c = '[' then s.linkAt skip stop i m
      else if c = '!' then s.imageAt skip stop i m
      else if c = '<' then (m, s.autolinkAt stop i <|> s.htmlAt stop i)
      else if c = '&' then (m, s.referenceAt stop i)
      else if isInterrupting c then (m, none)
      else
        let e := s.skipWhile (fun c => !isInterrupting c) s.chars.size i
        let e := if e < s.chars.size then e else stop
        (m, some (.plain (s.slice i e), e))

/-- Passes over the piece at a position, with brackets nested `depth` deep at most. Where
they are nested deeper everything up to the end is passed over. -/
def skip (s : Source) (stop depth : Nat) : Skip := fun m i =>
  match m.ends[i]? with
  | some e => (m, e)
  | none =>
      match depth with
      | 0 => ({ m with ends := m.ends.insert i (stop + 1) }, stop + 1)
      | depth + 1 =>
          let (m, r) := s.pieceAt (s.skip stop depth) stop i m
          let e := match r with
            | some (_, e) => e
            | none => i + 1
          ({ m with ends := m.ends.insert i e }, e)

end Source

/-- Items read so far, the last one first, and the plain text after them. -/
structure Reading where
  items : List Item
  pending : Text

namespace Reading

def flush (r : Reading) : Reading :=
  if r.pending.isEmpty then r else ⟨.text r.pending :: r.items, []⟩

/-- Adds items behind the plain text. -/
def add (r : Reading) (items : List Item) : Reading :=
  { r.flush with items := items.reverse ++ r.flush.items }

def say (r : Reading) (t : Text) : Reading := { r with pending := r.pending ++ t }

/-- Adds a line break. Two or more spaces before it make it a hard one, and spaces before
it are dropped. -/
def addBreak (r : Reading) : Reading :=
  let spaces := (r.pending.reverse.takeWhile (· == ' ')).length
  let bare := { r with pending := r.pending.take (r.pending.length - spaces) }
  bare.add [.done (.lineBreak (2 ≤ spaces))]

/-- Adds delimiters: each mark of emphasis alone, marks of struck text in pairs. -/
def addRun (r : Reading) (mark : Char) (run : Run) : Reading :=
  if mark = '~' then
    let lone := if run.length % 2 = 1 then [Item.text ['~']] else []
    r.add (lone ++ List.replicate (run.length / 2) (.mark ['~', '~'] run))
  else r.add (List.replicate run.length (.mark [mark] run))

/-- Adds a piece, other than a link. -/
def addFound (r : Reading) : Found → Reading
  | .plain text => r.say text
  | .softBreak => r.addBreak
  | .hardBreak => r.add [.done (.lineBreak true)]
  | .special text => r.add [.done (.text text)]
  | .codeSpan mark => r.add [.done (.codeSpan mark)]
  | .html text => r.add [.done (.html text)]
  | .autolink url shown =>
      r.add [.done (.linkOpen true url), .done (.text shown), .done .linkClose]
  | .image description => r.add [.done (.image description)]
  | .link _ _ => r

def addLink (r : Reading) (url : Text) (pieces : List Inline) : Reading :=
  r.add (.done (.linkOpen false url) :: pieces.map .done ++ [.done .linkClose])

end Reading

namespace Source

def isDelimiter (c : Char) : Bool := c == '*' || c == '_' || c == '~'

mutual

/-- The pieces from a position up to another one, inside links nested at most `depth`
deep. -/
def pieces (s : Source) (depth start stop : Nat) (m : Memory) : Memory × List Inline :=
  let (m, r) := s.readOn depth (stop - start) stop start m ⟨[], []⟩
  (m, resolve r.flush.items.reverse)
termination_by (depth, stop - start + 1)

/-- Reads pieces, `fuel` characters at most. -/
def readOn (s : Source) (depth fuel stop i : Nat) (m : Memory) (r : Reading) : Memory × Reading :=
  match fuel with
  | 0 => (m, r)
  | fuel + 1 =>
      if stop ≤ i then (m, r)
      else
        let c := s.chars.getD i ' '
        match depth with
        | 0 => readOn s 0 fuel stop (i + 1) m (r.say [c])
        | inner + 1 =>
            let run := s.runAt stop i c
            if isDelimiter c && (c != '~' || 2 ≤ run.length) then
              readOn s (inner + 1) fuel stop (i + run.length) m (r.addRun c run)
            else
              match s.pieceAt (s.skip stop (inner + 1)) stop i m with
              | (m, none) => readOn s (inner + 1) fuel stop (i + 1) m (r.say [c])
              | (m, some (.link e url, next)) =>
                  let (m, label) := s.pieces inner (i + 1) e m
                  readOn s (inner + 1) fuel stop next m (r.addLink url label)
              | (m, some (found, next)) =>
                  readOn s (inner + 1) fuel stop next m (r.addFound found)
termination_by (depth, fuel)

end

end Source

def maxNesting : Nat := 20

def inlines (definitions : Definitions) (t : Text) : List Inline :=
  let s : Source := ⟨t.toArray, definitions⟩
  (s.pieces maxNesting 0 s.chars.size .empty).2

end ProseLint.CommonMark
