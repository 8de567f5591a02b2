import ProseLint.CommonMark.Character
import ProseLint.CommonMark.Token

/-! Delimiters of emphasis and struck text. What may open and what may close is told by the
characters around a run of delimiters; which ones belong together is found from left to
right, each closing one taking the nearest opening one that fits. -/

namespace ProseLint.CommonMark

/-- A run of one mark: its length, and whether it may open or close something. -/
structure Run where
  length : Nat
  canOpen : Bool
  canClose : Bool
  deriving DecidableEq, Repr

/-- The run of a length between two characters. Without `splitsWords` it may not stand
inside a word. -/
def Run.between (length : Nat) (splitsWords : Bool) (before after : Char) : Run :=
  let leftFlanking := !(isWhite after || (isMark after && !(isWhite before || isMark before)))
  let rightFlanking := !(isWhite before || (isMark before && !(isWhite after || isMark after)))
  ⟨length, leftFlanking && (splitsWords || !rightFlanking || isMark before),
    rightFlanking && (splitsWords || !leftFlanking || isMark after)⟩

/-- A piece of inline text while its delimiters are not yet matched. -/
inductive Item where
  | text (content : Text)
  | mark (content : Text) (run : Run)
  | strike (closing : Bool)
  | done (piece : Inline)
  deriving DecidableEq, Repr, Inhabited

/-- A delimiter: the item it stands for, its mark, the length of its run as far as it
counts for matching, and the delimiter that closes it. -/
structure Delimiter where
  item : Nat
  mark : Char
  length : Nat
  canOpen : Bool
  canClose : Bool
  closedBy : Option Nat
  deriving DecidableEq, Repr, Inhabited

/-- The delimiters among items from a position on. The run of struck text has no length. -/
def Delimiter.ofItems (i : Nat) : List Item → List Delimiter
  | [] => []
  | item :: rest =>
      match item with
      | .mark (c :: _) run =>
          ⟨i, c, if c = '~' then 0 else run.length, run.canOpen, run.canClose, none⟩ ::
            ofItems (i + 1) rest
      | _ => ofItems (i + 1) rest

/-- The state of matching: how many delimiters before each one may be passed over, the first
delimiter of the current run, the item after which the run would go on, and for each kind
of closing delimiter the number of delimiters below which it found no opening one. -/
structure Matching where
  delimiters : Array Delimiter
  jumps : Array Nat
  runStart : Nat
  runEnd : Option Nat
  floors : List ((Char × Nat) × Nat)

namespace Matching

/-- Whether the lengths of two runs keep them from being matched. -/
def isOdd (opener closer : Delimiter) : Bool :=
  (opener.canClose || closer.canOpen) && (opener.length + closer.length) % 3 == 0 &&
    (opener.length % 3 != 0 || closer.length % 3 != 0)

/-- The nearest delimiter that a closing one takes, among the first `count` ones and not
below the floor. -/
def opener? (s : Matching) (closer : Delimiter) (floor : Nat) (count : Nat) : Option Nat :=
  match count with
  | 0 => none
  | i + 1 =>
      if i + 1 ≤ floor then none
      else
        let d := s.delimiters.getD i default
        if d.mark = closer.mark ∧ d.canOpen ∧ d.closedBy.isNone ∧ ¬ isOdd d closer then some i
        else opener? s closer floor (i - s.jumps.getD i 0)
termination_by count
decreasing_by exact Nat.lt_succ_of_le (Nat.sub_le _ _)

def kindOf (closer : Delimiter) : Char × Nat :=
  (closer.mark, (if closer.canOpen then 3 else 0) + closer.length % 3)

def join (s : Matching) (opener closer : Nat) : Matching :=
  let before := s.delimiters.getD (opener - 1) default
  let jump := if 0 < opener ∧ ¬ before.canOpen then s.jumps.getD (opener - 1) 0 + 1 else 0
  { s with
    delimiters := (s.delimiters.modify closer ({ · with canOpen := false })).modify opener
      ({ · with closedBy := some closer, canClose := false })
    jumps := (s.jumps.setIfInBounds closer (closer - opener + jump)).setIfInBounds opener jump
    runEnd := none }

def pass (s : Matching) (i : Nat) : Matching :=
  let closer := s.delimiters.getD i default
  let first := s.delimiters.getD s.runStart default
  let goesOn := first.mark == closer.mark && s.runEnd.map (· + 1) == some closer.item
  let s := { s with
    jumps := s.jumps.push 0
    runStart := if goesOn then s.runStart else i
    runEnd := some closer.item }
  if !closer.canClose then s
  else
    let kind := kindOf closer
    let count := s.runStart - s.jumps.getD s.runStart 0
    match s.opener? closer ((s.floors.lookup kind).getD 0) count with
    | some opener => s.join opener i
    | none => if count = 0 then s else { s with floors := (kind, count) :: s.floors }

/-- The delimiters with those that belong together matched. -/
def matched (delimiters : List Delimiter) : Array Delimiter :=
  ((List.range delimiters.length).foldl pass ⟨delimiters.toArray, #[], 0, none, []⟩).delimiters

end Matching

def strikePair (delimiters : Array Delimiter) (items : Array Item) (d : Delimiter) : Array Item :=
  match d.mark, d.closedBy with
  | '~', some e =>
      let close := (delimiters.getD e default).item
      (items.setIfInBounds d.item (.strike false)).setIfInBounds close (.strike true)
  | _, _ => items

/-- The items with a lone mark at `i` moved behind the closing delimiters after it. -/
def moveLone (items : Array Item) (i : Nat) : Array Item :=
  let closing := ((items.toList.drop (i + 1)).takeWhile (· == .strike true)).length
  items.swapIfInBounds i (i + closing)

/-- Marks struck text. A run of odd length leaves one mark over, which goes behind the
closing delimiters. -/
def strikeAll (delimiters : Array Delimiter) (items : Array Item) : Array Item :=
  let struck := delimiters.toList.foldl (strikePair delimiters) items
  let lone := delimiters.toList.filterMap fun d =>
    match d.mark, d.closedBy with
    | '~', some e =>
        let close := (delimiters.getD e default).item
        if 0 < close ∧ struck.getD (close - 1) default = .text ['~'] then some (close - 1) else none
    | _, _ => none
  lone.reverse.foldl moveLone struck

/-- Whether a delimiter and the one before it are the two marks of strong emphasis. -/
def isStrong (delimiters : Array Delimiter) (i close : Nat) : Bool :=
  let item := fun (j : Nat) => delimiters.getD j default
  decide (0 < i) && (item (i - 1)).closedBy == some (close + 1) &&
    (item (i - 1)).mark == (item i).mark && (item (i - 1)).item + 1 == (item i).item &&
    (item (close + 1)).item == (item close).item + 1

/-- Marks emphasis, from the last of the first `count` delimiters backwards. -/
def emphasise (delimiters : Array Delimiter) (items : Array Item) (count : Nat) : Array Item :=
  match count with
  | 0 => items
  | i + 1 =>
      let d := delimiters.getD i default
      match d.closedBy with
      | none => emphasise delimiters items i
      | some e =>
          if d.mark ≠ '*' ∧ d.mark ≠ '_' then emphasise delimiters items i
          else
            let item := fun (j : Nat) => (delimiters.getD j default).item
            if isStrong delimiters i e then
              let both := Item.done (.delimiter [d.mark, d.mark])
              let items := (items.setIfInBounds d.item both).setIfInBounds (item e) both
              let spare (items : Array Item) (j : Nat) : Array Item :=
                items.setIfInBounds (item j) (.text [])
              emphasise delimiters (spare (spare items (i - 1)) (e + 1)) (i - 1)
            else
              let one := Item.done (.delimiter [d.mark])
              emphasise delimiters ((items.setIfInBounds d.item one).setIfInBounds (item e) one) i
termination_by count
decreasing_by all_goals omega

/-- The piece of an item. Delimiters that match nothing are text. -/
def Item.piece : Item → Inline
  | .text content => .text content
  | .mark content _ => .text content
  | .strike _ => .delimiter ['~', '~']
  | .done piece => piece

/-- The pieces of some items, their delimiters matched. -/
def resolve (items : List Item) : List Inline :=
  let delimiters := Matching.matched (Delimiter.ofItems 0 items)
  let struck := strikeAll delimiters items.toArray
  (emphasise delimiters struck delimiters.size).toList.map Item.piece

end ProseLint.CommonMark
