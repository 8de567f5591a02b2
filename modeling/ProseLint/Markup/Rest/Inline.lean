import ProseLint.Markup.Classified
import ProseLint.Source.Enclosure
import ProseLint.Text.Alphanumeric

/-! Inline markup of structured text: references between backquotes, eleven kinds of
enclosures, and underscores after words. -/

namespace ProseLint.Rest

/-- A reference between backquotes. Its label runs from the character after `start` to
`labelEnd`, and everything ends at `stop`. -/
structure PhraseLink where
  start : Nat
  labelEnd : Nat
  stop : Nat
  url : Option Text
  deriving DecidableEq, Repr

/-- A character that may stand in a label. -/
def isLabelChar (c : Char) : Bool := c != '\x60' && c != '<'

/-- A character that may stand in an address. -/
def isAddressChar (c : Char) : Bool := c != '<' && c != '>' && c != '\x60'

/-- The length of the backquote and underscores that end a reference at the start of a
text. -/
def referenceEnd? : Text → Option Nat
  | '\x60' :: '_' :: '_' :: _ => some 3
  | '\x60' :: '_' :: _ => some 2
  | _ => none

/-- The reference that starts at the start of a text, which stands at position `i`. White
space before an address in angle brackets belongs to neither label nor address. -/
def phraseLinkAt? (i : Nat) (t : Text) : Option PhraseLink :=
  match t with
  | '\x60' :: body =>
      let label := body.takeWhile isLabelChar
      if label.isEmpty then none
      else match body.dropWhile isLabelChar with
        | '<' :: rest =>
            let address := rest.takeWhile isAddressChar
            if address.isEmpty then none
            else match rest.dropWhile isAddressChar with
              | '>' :: after =>
                  (referenceEnd? after).map fun n =>
                    ⟨i, i + 1 + max (Text.stripRight label).length 1,
                      i + 1 + label.length + 1 + address.length + 1 + n, some address⟩
              | _ => none
        | after =>
            (referenceEnd? after).map fun n =>
              ⟨i, i + 1 + label.length, i + 1 + label.length + n, none⟩
  | _ => none

/-- The references in a text that starts at position `i`. The first `skip` characters
belong to one already taken. -/
def phraseLinksFrom (skip i : Nat) : Text → List PhraseLink
  | [] => []
  | c :: rest =>
      match skip with
      | k + 1 => phraseLinksFrom k (i + 1) rest
      | 0 =>
          match phraseLinkAt? i (c :: rest) with
          | some link => link :: phraseLinksFrom (link.stop - i - 1) (i + 1) rest
          | none => phraseLinksFrom 0 (i + 1) rest

/-- Keeps the label of a reference and records its address. References that are escaped or
erased stay. -/
def erasePhraseLink (l : Line) (link : PhraseLink) : Line :=
  if l.glyphAt link.start ≠ some '\x60' ∨ l.glyphAt link.labelEnd = none then l
  else
    let bare := (l.erase link.start 1).erase link.labelEnd (link.stop - link.labelEnd)
    match link.url with
    | some url => bare.addLink (link.start + 1) url.strip
    | none => bare

def erasePhraseLinks (l : Line) : Line := (phraseLinksFrom 0 0 l.text).foldl erasePhraseLink l

/-- The kinds of enclosures in the order in which they are erased. -/
def enclosures : List Enclosure :=
  [(":ref:`", "`"), ("`", "`:sup:"), ("`", "`:sub:"), ("*", "*"), ("**", "**"), ("`", "`"),
    ("``", "``"), ("`", "`_"), ("_`", "`"), ("[", "]_"), ("|", "|")].map fun d =>
      ⟨d.1.toList, d.2.toList, .inlineMarkup, true⟩

/-- Whether a reference may end before a text. -/
def endsReference : Text → Bool
  | [] => true
  | c :: _ => isBlank c || ".,;:!?)]".toList.contains c

/-- The length of the underscores at the start of a text that end a reference. -/
def underscores? : Text → Option Nat
  | '_' :: '_' :: rest =>
      if endsReference rest then some 2 else if endsReference ('_' :: rest) then some 1 else none
  | '_' :: rest => if endsReference rest then some 1 else none
  | _ => none

/-- The positions and lengths of underscores that end a reference, in a text that starts at
position `i`. The flag says that a word character stands before the text. The first `skip`
characters belong to underscores already taken. -/
def referencesFrom (afterWord : Bool) (skip i : Nat) : Text → List (Nat × Nat)
  | [] => []
  | c :: rest =>
      match skip with
      | k + 1 => referencesFrom (isWordChar c) k (i + 1) rest
      | 0 =>
          match if afterWord then underscores? (c :: rest) else none with
          | some n => (i, n) :: referencesFrom (isWordChar c) (n - 1) (i + 1) rest
          | none => referencesFrom (isWordChar c) 0 (i + 1) rest

/-- Erases underscores that end a reference, unless the first of them is escaped or erased. -/
def eraseReference (l : Line) (r : Nat × Nat) : Line :=
  if l.isKept r.1 && !l.isEscaped r.1 then l.erase r.1 r.2 else l

def eraseInline (l : Line) : Line :=
  let enclosed := enclosures.foldl (fun l e => (l.eraseEnclosure e).1) (erasePhraseLinks l)
  (referencesFrom false 0 0 enclosed.text).foldl eraseReference enclosed

end ProseLint.Rest
