import ProseLint.Text.Basic

/-! What a Markdown text consists of: a flat sequence of blocks, opened and closed, with
the lines on which each stands, and the inline pieces of those that hold text. -/

namespace ProseLint.CommonMark

/-- A piece of inline text. A delimiter opens or closes emphasis or struck text. A text may
hold characters that are not in the source, where a reference was resolved. -/
inductive Inline where
  | text (content : Text)
  | codeSpan (mark : Text)
  | lineBreak (hard : Bool)
  | html (content : Text)
  | image (description : Text)
  | linkOpen (auto : Bool) (url : Text)
  | linkClose
  | delimiter (mark : Text)
  | other
  deriving DecidableEq, Repr, Inhabited

/-- The kinds of blocks. A block without prose is code, raw markup, a rule or a table. A
block of inline text comes with its pieces. -/
inductive BlockKind where
  | listOpen
  | listClose
  | item (mark : Text)
  | heading (tag mark : Text)
  | quote
  | noProse
  | inlines (pieces : List Inline)
  | other
  deriving DecidableEq, Repr, Inhabited

/-- A block with the lines on which it stands, counted from 0: the first one and the one
after the last. -/
structure Block where
  kind : BlockKind
  lines : Option (Nat × Nat)
  deriving DecidableEq, Repr, Inhabited

end ProseLint.CommonMark
