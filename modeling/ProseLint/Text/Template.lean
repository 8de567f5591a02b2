import ProseLint.Text.Quoted

/-! Message templates. A field in braces names an argument by its number and may say how
the argument is laid out. Behind an exclamation mark it may ask for the text of the
argument first. A doubled brace stands for itself. -/

namespace ProseLint

/-- A value put into a message. -/
inductive TemplateValue where
  | text (t : Text)
  | int (n : Int)
  | float (x : Binary64)

namespace Template

/-- Where an argument stands in a field that is wider than its text. -/
inductive Align where
  | left
  | right
  | center
  | afterSign
  deriving DecidableEq

/-- How an argument is laid out: the character that fills a wide field, the width, and the
letter of a number form. -/
structure Spec where
  fill : Char := ' '
  align : Option Align := none
  plus : Bool := false
  width : Nat := 0
  form : Option Char := none

/-- The side that a character stands for. -/
def align? (c : Char) : Option Align :=
  if c = '<' then some .left
  else if c = '>' then some .right
  else if c = '^' then some .center
  else if c = '=' then some .afterSign
  else none

def spec? (t : Text) : Option Spec :=
  let (fill, align, rest) : Char × Option Align × Text := match t with
    | c :: a :: rest =>
        match align? a with
        | some side => (c, some side, rest)
        | none =>
            match align? c with
            | some side => (' ', some side, a :: rest)
            | none => (' ', none, t)
    | [c] =>
        match align? c with
        | some side => (' ', some side, [])
        | none => (' ', none, t)
    | [] => (' ', none, [])
  let (plus, rest) := match rest with
    | '+' :: more => (true, more)
    | '-' :: more => (false, more)
    | _ => (false, rest)
  let (fill, align) := match rest, align with
    | '0' :: _, none => ('0', some Align.afterSign)
    | _, _ => (fill, align)
  let width := rest.takeWhile Decimal.isDigit
  match rest.dropWhile Decimal.isDigit with
  | [] => some ⟨fill, align, plus, Decimal.value width, none⟩
  | [form] => some ⟨fill, align, plus, Decimal.value width, some form⟩
  | _ => none

def fit (s : Spec) (preferred : Align) (sign body : Text) : Text :=
  let missing := s.width - (sign.length + body.length)
  let pad := fun k => List.replicate k s.fill
  match s.align.getD preferred with
  | .left => sign ++ body ++ pad missing
  | .right => pad missing ++ sign ++ body
  | .center => pad (missing / 2) ++ sign ++ body ++ pad (missing - missing / 2)
  | .afterSign => sign ++ pad missing ++ body

def splitSign (plus : Bool) (t : Text) : Text × Text :=
  match t with
  | '-' :: rest => (['-'], rest)
  | _ => (if plus then ['+'] else [], t)

/-- The digits of a number in the base that a letter stands for. -/
def radixDigits? (form : Char) (n : Nat) : Option Text :=
  if form = 'x' then some (Nat.toDigits 16 n)
  else if form = 'X' then some ((Nat.toDigits 16 n).map Char.toUpper)
  else if form = 'o' then some (Nat.toDigits 8 n)
  else if form = 'b' then some (Nat.toDigits 2 n)
  else none

/-- The text of an argument in a field, or nothing when its kind has no such form. -/
def layOut? (s : Spec) : TemplateValue → Option Text
  | .text t =>
      if (s.form == none || s.form == some 's') && !s.plus && s.align != some .afterSign then
        some (fit s .left [] t)
      else none
  | .int n =>
      let number := splitSign s.plus (Decimal.ofInt n)
      match s.form with
      | none | some 'd' | some 'n' => some (fit s .right number.1 number.2)
      | some 'g' =>
          (Binary64.ofInt? n).map fun x =>
            let number := splitSign s.plus x.general
            fit s .right number.1 number.2
      | some form => (radixDigits? form n.natAbs).map (fit s .right number.1)
  | .float x =>
      match s.form with
      | none =>
          let number := splitSign s.plus (x.display "inf" "nan")
          some (fit s .right number.1 number.2)
      | some 'g' | some 'n' =>
          let number := splitSign s.plus x.general
          some (fit s .right number.1 number.2)
      | _ => none

/-- How fields have named their arguments so far: not at all, by number, or by their
turn. The two ways do not mix. -/
inductive Numbering where
  | open
  | byNumber
  | byTurn (next : Nat)

/-- The argument that a field names, and the numbering after it. -/
def argument? (numbering : Numbering) (name : Text) : Option (Nat × Numbering) :=
  if name.isEmpty then
    match numbering with
    | .open => some (0, .byTurn 1)
    | .byTurn next => some (next, .byTurn (next + 1))
    | .byNumber => none
  else if name.all Decimal.isDigit then
    match numbering with
    | .byTurn _ => none
    | _ => some (Decimal.value name, .byNumber)
  else none

/-- An argument as a text: in quotes when it is one already and the letter asks for that. -/
def converted? (letter : Char) (a : TemplateValue) : Option TemplateValue :=
  let shown := match a with
    | .text t => if letter = 'r' then Quoted.showText t else t
    | .int n => Decimal.ofInt n
    | .float x => x.display "inf" "nan"
  if letter = 'r' ∨ letter = 's' then some (.text shown) else none

/-- An argument laid out by what stands behind its name: a letter for its text, if any, and
the layout. -/
def argumentText? (a : TemplateValue) : Text → Option Text
  | [] => layOut? {} a
  | ':' :: layout => (spec? layout).bind fun s => layOut? s a
  | '!' :: letter :: [] => (converted? letter a).bind (layOut? {})
  | '!' :: letter :: ':' :: layout =>
      (converted? letter a).bind fun a => (spec? layout).bind fun s => layOut? s a
  | _ => none

def field? (numbering : Numbering) (args : List TemplateValue) (inside : Text) :
    Option (Text × Numbering) :=
  let isName (c : Char) : Bool := c != ':' && c != '!'
  match argument? numbering (inside.takeWhile isName) with
  | some (i, numbering) =>
      (args[i]?.bind fun a => argumentText? a (inside.dropWhile isName)).map (·, numbering)
  | none => none

/-- Where the walk through a template stands: in plain text, after one brace, or inside a
field of which some has been read, backwards. -/
inductive Place where
  | plain
  | opened
  | closed
  | inField (read : Text)

/-- The walk behind `fill?`. -/
def fillFrom? (args : List TemplateValue) (numbering : Numbering) (place : Place) :
    Text → Option Text
  | [] => match place with
      | .plain => some []
      | _ => none
  | c :: rest =>
      let close := fun (read : Text) =>
        match field? numbering args read with
        | some (shown, numbering) => (fillFrom? args numbering .plain rest).map (shown ++ ·)
        | none => none
      match place with
      | .plain =>
          if c = '\x7b' then fillFrom? args numbering .opened rest
          else if c = '\x7d' then fillFrom? args numbering .closed rest
          else (fillFrom? args numbering .plain rest).map (c :: ·)
      | .opened =>
          if c = '\x7b' then (fillFrom? args numbering .plain rest).map (c :: ·)
          else if c = '\x7d' then close []
          else fillFrom? args numbering (.inField [c]) rest
      | .closed =>
          if c = '\x7d' then (fillFrom? args numbering .plain rest).map (c :: ·) else none
      | .inField read =>
          if c = '\x7d' then close read.reverse
          else if c = '\x7b' then none
          else fillFrom? args numbering (.inField (c :: read)) rest

/-- The template with its fields filled in, or nothing when it is malformed or names an
argument that is not there. -/
def fill? (template : Text) (args : List TemplateValue) : Option Text :=
  fillFrom? args .open .plain template

end Template

end ProseLint
