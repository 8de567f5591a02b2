import ProseLint.CommonMark.BlockLine
import ProseLint.CommonMark.Html
import ProseLint.Number.Decimal

/-! How blocks start, and which of them end the block before. -/

namespace ProseLint.CommonMark

def Container.isCode (c : Container) (l : BlockLine) : Bool := decide (4 ≤ l.indent - c.indent)

/-- The mark of a fence and how often it stands there. A fence of backquotes has no
backquote behind it. -/
def fence? (t : Text) : Option (Char × Nat) :=
  match t with
  | c :: _ =>
      let length := (t.takeWhile (· == c)).length
      if (c = '~' ∨ c = '\x60') ∧ 3 ≤ length ∧ ¬ (c = '\x60' ∧ (t.drop length).contains c) then
        some (c, length)
      else none
  | [] => none

/-- Whether a text is a rule: three or more equal marks, and spaces. -/
def isRule (t : Text) : Bool :=
  match t with
  | c :: _ =>
      (c == '*' || c == '-' || c == '_') && t.all (fun d => d == c || isSpacing d) &&
        decide (3 ≤ t.countP (· == c))
  | [] => false

/-- The level of a heading and its text. Number signs that close it stand behind a space. -/
def heading? (t : Text) : Option (Nat × Text) :=
  let level := (t.takeWhile (· == '#')).length
  let rest := t.drop level
  if level = 0 ∨ 6 < level ∨ ¬ ((rest.head?).map isSpacing).getD true then none
  else
    let open1 := Text.dropRightWhile isSpacing rest
    let bare := Text.dropRightWhile (· == '#') open1
    some (level, Text.trimWhile isGap
      (if ((bare.getLast?).map isSpacing).getD false then bare else open1))

/-- The mark of a list item: its length, its last character, and its number if it has one. -/
structure ListMark where
  length : Nat
  last : Char
  number : Option Nat
  deriving DecidableEq, Repr

def startsItem (t : Text) : Bool := ((t.head?).map isSpacing).getD true

def listMark? (t : Text) : Option ListMark :=
  let digits := t.takeWhile Decimal.isDigit
  if digits.isEmpty then
    match t with
    | c :: rest =>
        if (c = '*' ∨ c = '-' ∨ c = '+') ∧ startsItem rest then some ⟨1, c, none⟩ else none
    | [] => none
  else
    match t[digits.length]? with
    | some c =>
        if (c = '.' ∨ c = ')') ∧ digits.length ≤ 9 ∧ startsItem (t.drop (digits.length + 1)) then
          some ⟨digits.length + 1, c, some (Decimal.value digits)⟩
        else none
    | none => none

/-- The cells of a row of a table. A bar after a backslash separates nothing. -/
def cellsFrom (current : Text) (escaped : Bool) : Text → List Text
  | [] => [current.reverse]
  | c :: rest =>
      if c = '|' then
        if escaped then cellsFrom ('|' :: current.drop 1) false rest
        else current.reverse :: cellsFrom [] false rest
      else cellsFrom (c :: current) (c == '\\') rest

/-- The cells of a row without the empty ones before the first bar and behind the last. -/
def rowCells (t : Text) : List Text :=
  let cells := cellsFrom [] false t
  let cells := if cells.head? = some [] then cells.drop 1 else cells
  if cells.getLast? = some [] then cells.dropLast else cells

def isAlignment (t : Text) : Bool :=
  let inner := if t.head? = some ':' then t.drop 1 else t
  let inner := if inner.getLast? = some ':' then inner.dropLast else inner
  !inner.isEmpty && inner.all (· == '-')

/-- The number of columns of a table that the line below its head asks for. -/
def columnCount? (t : Text) : Option Nat :=
  let isTableChar (c : Char) : Bool := c == '|' || c == '-' || c == ':'
  match t with
  | a :: b :: _ =>
      if !isTableChar a || !(isTableChar b || isSpacing b) || (a == '-' && isSpacing b) ||
          !t.all (fun c => isTableChar c || isSpacing c) then none
      else
        let columns := (Text.splitOn '|' t).map (Text.trimWhile isSpacing)
        let inner := (columns.drop 1).dropLast
        let named := columns.filter (!·.isEmpty)
        if inner.any (·.isEmpty) || !named.all isAlignment then none else some named.length
  | _ => none

namespace Container

def table? (c : Container) (l : BlockLine) (rest : List BlockLine) : Option Nat :=
  match rest with
  | [] => none
  | next :: _ =>
      if next.indent < c.indent ∨ c.isCode next ∨ c.isCode l then none
      else match columnCount? next.body with
        | none => none
        | some n =>
            let row := l.body.trimWhile isWideGap
            if row.contains '|' ∧ 0 < n ∧ (rowCells row).length = n then some n else none

/-- The fence that a line opens. -/
def fence? (c : Container) (l : BlockLine) : Option (Char × Nat) :=
  if c.isCode l then none else CommonMark.fence? l.body

def isQuote (c : Container) (l : BlockLine) : Bool := !c.isCode l && l.body.head? == some '>'

def isRule (c : Container) (l : BlockLine) : Bool := !c.isCode l && CommonMark.isRule l.body

def heading? (c : Container) (l : BlockLine) : Option (Nat × Text) :=
  if c.isCode l then none else CommonMark.heading? l.body

/-- The block of HTML that a line opens. -/
def html? (c : Container) (l : BlockLine) : Option Html.Opening :=
  if c.isCode l then none else Html.opening? l.body

/-- The mark of the list item on a line. After a paragraph a list may only start with
number one and some text. -/
def list? (c : Container) (afterParagraph : Bool) (l : BlockLine) : Option ListMark :=
  if c.isCode l ∨ (0 ≤ c.listIndent ∧ 4 ≤ l.indent - c.listIndent ∧ l.indent < c.indent) then none
  else match listMark? l.body with
    | none => none
    | some m =>
        let interrupts := afterParagraph && decide ((c.indent : Int) ≤ l.indent)
        if interrupts && ((m.number.map (· != 1)).getD false ||
            (l.body.drop m.length).all isSpacing) then none
        else some m

def endsItem (c : Container) (l : BlockLine) : Bool :=
  (c.fence? l).isSome || c.isQuote l || c.isRule l

def endsQuote (c : Container) (l : BlockLine) : Bool :=
  c.endsItem l || (c.list? false l).isSome || ((c.html? l).map (·.interrupts)).getD false ||
    (c.heading? l).isSome

/-- Whether a line ends the definition of a label by starting another block. -/
def endsDefinition (c : Container) (l : BlockLine) (rest : List BlockLine) : Bool :=
  (c.table? l rest).isSome || c.endsQuote l

def endsParagraph (c : Container) (l : BlockLine) (rest : List BlockLine) : Bool :=
  (c.table? l rest).isSome || c.endsItem l || (c.list? true l).isSome ||
    ((c.html? l).map (·.interrupts)).getD false || (c.heading? l).isSome

def isLazy (c : Container) (l : BlockLine) : Bool := c.isCode l || decide (l.indent < 0)

end Container

end ProseLint.CommonMark
