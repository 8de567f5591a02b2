import ProseLint.Proofs.Markup.Commands
import ProseLint.Proofs.Text.Tokens

/-! Block commands of book manuscripts. A command is written as its name, its properties in
brackets and perhaps a brace, and it is read back as it was written. Whatever the text, the
properties that are read stand in brackets one after the other behind the name, and a bracket that
is not closed is none of them. -/

namespace ProseLint.Review

/-! ## Properties -/

/-- A property as it is written. -/
def bracketed (property : Text) : Text := '[' :: (property ++ [']'])

theorem bracketed_append (property rest : Text) :
    bracketed property ++ rest = '[' :: (property ++ ']' :: rest) := by
  simp [bracketed]

/-- A text starts with properties, each of which ends at the first closing bracket, and goes on
with something that is no further property. -/
structure Spells (properties : List Text) (after t : Text) : Prop where
  text : t = properties.flatMap bracketed ++ after
  closed : ∀ property ∈ properties, ']' ∉ property
  stops : ∀ property rest, after ≠ bracketed property ++ rest

/-- The first closing bracket ends a property. -/
theorem bracketed_append_inj {p q rest behind : Text} (hp : ']' ∉ p) (hq : ']' ∉ q)
    (h : bracketed p ++ rest = bracketed q ++ behind) : p = q ∧ rest = behind := by
  rw [bracketed_append, bracketed_append, List.cons.injEq] at h
  have hParts := congrArg (Text.splitOn ']') h.2
  rw [Text.splitOn_append_cons hp, Text.splitOn_append_cons hq, List.cons.injEq] at hParts
  obtain ⟨rfl, _⟩ := hParts
  exact ⟨rfl, List.tail_eq_of_cons_eq (List.append_cancel_left h.2)⟩

theorem ne_bracketed_append {t : Text} (h : ∀ c ∈ t.head?, c ≠ '[') (property rest : Text) :
    t ≠ bracketed property ++ rest := by
  rintro rfl
  exact h '[' rfl rfl

namespace Spells

variable {properties : List Text} {property after t : Text}

theorem cons (hClosed : ']' ∉ property) (h : Spells properties after t) :
    Spells (property :: properties) after (bracketed property ++ t) where
  text := by rw [h.text, List.flatMap_cons, List.append_assoc]
  closed := List.forall_mem_cons.mpr ⟨hClosed, h.closed⟩
  stops := h.stops

theorem exists_rest (h : Spells (property :: properties) after t) :
    ∃ rest, t = bracketed property ++ rest ∧ ']' ∉ property ∧ Spells properties after rest := by
  obtain ⟨hFirst, hLater⟩ := List.forall_mem_cons.mp h.closed
  refine ⟨properties.flatMap bracketed ++ after, ?_, hFirst, rfl, hLater, h.stops⟩
  rw [h.text, List.flatMap_cons, List.append_assoc]

/-- A text spells its properties in one way. -/
theorem unique {others : List Text} {behind : Text} (h : Spells properties after t)
    (hOther : Spells others behind t) : properties = others ∧ after = behind := by
  induction properties generalizing others t with
  | nil =>
      cases others with
      | nil => exact ⟨rfl, h.text.symm.trans hOther.text⟩
      | cons other others =>
          obtain ⟨rest, hText, _⟩ := hOther.exists_rest
          exact absurd (h.text.symm.trans hText) (h.stops other rest)
  | cons property properties ih =>
      obtain ⟨rest, hText, hClosed, hRest⟩ := h.exists_rest
      cases others with
      | nil => exact absurd (hOther.text.symm.trans hText) (hOther.stops property rest)
      | cons other others =>
          obtain ⟨rest', hText', hClosed', hRest'⟩ := hOther.exists_rest
          obtain ⟨rfl, rfl⟩ := bracketed_append_inj hClosed hClosed' (hText.symm.trans hText')
          obtain ⟨rfl, hAfter⟩ := ih hRest hRest'
          exact ⟨rfl, hAfter⟩

end Spells

/-- What has been read of a property that is still open, with its bracket. -/
def pending : Option Text → Text
  | some read => '[' :: read.reverse
  | none => []

/-- Reading goes on with an open property up to the first closing bracket. Without one the open
property is a part of what follows. -/
theorem pending_spells (inside : Option Text) (hOpen : ∀ read ∈ inside, ']' ∉ read) (t : Text) :
    Spells (propertiesFrom inside t).1 (propertiesFrom inside t).2 (pending inside ++ t) := by
  induction t generalizing inside with
  | nil =>
      cases inside with
      | none => exact ⟨rfl, nofun, nofun⟩
      | some read =>
          refine ⟨List.append_nil _, nofun, fun property rest hSame => ?_⟩
          have hClosed : ']' ∈ '[' :: read.reverse := by
            have hIn : ']' ∈ bracketed property ++ rest := by simp [bracketed]
            rwa [← hSame] at hIn
          exact hOpen read rfl (by simpa using hClosed)
  | cons c t ih =>
      cases inside with
      | none =>
          by_cases hBracket : c = '['
          · subst hBracket
            rw [propertiesFrom, if_pos rfl]
            exact ih (some []) (by simp)
          · rw [propertiesFrom, if_neg hBracket]
            exact ⟨rfl, nofun, ne_bracketed_append (by simpa using hBracket)⟩
      | some read =>
          have hRead := hOpen read rfl
          by_cases hClose : c = ']'
          · subst hClose
            have hText : pending (some read) ++ ']' :: t = bracketed read.reverse ++ t :=
              (bracketed_append _ _).symm
            rw [propertiesFrom, if_pos rfl, hText]
            exact .cons (by simpa using hRead) (ih none nofun)
          · have hMore : ∀ longer ∈ some (c :: read), ']' ∉ longer := by
              simpa using ⟨Ne.symm hClose, hRead⟩
            have hText : pending (some read) ++ c :: t = pending (some (c :: read)) ++ t := by
              simp [pending]
            rw [propertiesFrom, if_neg hClose, hText]
            exact ih (some (c :: read)) hMore

theorem propertiesFrom_spells (t : Text) :
    Spells (propertiesFrom none t).1 (propertiesFrom none t).2 t :=
  pending_spells none nofun t

/-- What a text spells is read off it. -/
theorem propertiesFrom_eq {properties : List Text} {after t : Text}
    (h : Spells properties after t) : propertiesFrom none t = (properties, after) := by
  obtain ⟨hProperties, hAfter⟩ := (propertiesFrom_spells t).unique h
  exact Prod.ext hProperties hAfter

/-! ## Commands -/

namespace Block

/-- The name of a block command and its properties, as they are written. -/
def heading (b : Block) : Text := '/' :: '/' :: (b.name ++ b.properties.flatMap bracketed)

/-- A block command as it is written, with the brace that opens its body. -/
def written (b : Block) : Text := b.heading ++ if b.isOpen then [openBrace] else []

/-- The command has a name, and its properties can be written in brackets. -/
structure IsWritable (b : Block) : Prop where
  name : IsName b.name
  closed : ∀ property ∈ b.properties, ']' ∉ property

/-- A text begins with a block command and goes on with something else, neither with the name nor
with a further property. The body is open when a brace is the last that is seen of the text. -/
structure Begins (b : Block) (after t : Text) : Prop extends b.IsWritable where
  text : t = b.heading ++ after
  ends : b.properties = [] → ∀ c ∈ after.head?, isWordChar c = false
  stops : ∀ property rest, after ≠ bracketed property ++ rest
  isOpen_iff : b.isOpen = true ↔
    ∃ before blanks : Text, after = before ++ openBrace :: blanks ∧ blanks.isAllBlank = true

end Block

theorem isBlank_openBrace : isBlank openBrace = false := by decide

theorem isWordChar_of_isBlank {c : Char} (h : isBlank c = true) : isWordChar c = false := by
  apply Bool.eq_false_iff.mpr
  intro hWord
  rw [isBlank_of_isWordChar hWord] at h
  cases h

section Name

variable {name rest : Text} (hName : IsName name)
variable (hEnds : ∀ c ∈ rest.head?, isWordChar c = false)

include hName hEnds

/-- Behind a name the properties are read, and what follows them tells whether the body is open. -/
theorem blockOf_append :
    blockOf ('/' :: '/' :: (name ++ rest)) =
      ⟨name, (propertiesFrom none rest).1,
        (propertiesFrom none rest).2.stripRight.endsWith [openBrace]⟩ := by
  obtain ⟨hTake, hDrop⟩ := span_append hName.word hEnds
  simp [blockOf, hTake, hDrop, hName.ne_nil]

theorem blockOf_begins :
    (blockOf ('/' :: '/' :: (name ++ rest))).Begins (propertiesFrom none rest).2
      ('/' :: '/' :: (name ++ rest)) := by
  have hSpells := propertiesFrom_spells rest
  rw [blockOf_append hName hEnds]
  refine ⟨⟨hName, hSpells.closed⟩, ?_, fun hNone => ?_, hSpells.stops,
    Text.endsWith_stripRight_iff isBlank_openBrace _⟩
  · simp [Block.heading, ← hSpells.text]
  · have hText := hSpells.text
    change (propertiesFrom none rest).1 = [] at hNone
    rw [hNone, List.flatMap_nil, List.nil_append] at hText
    rwa [← hText]

end Name

/-- What a text begins with is read off it. -/
theorem Block.Begins.blockOf_eq {b : Block} {after t : Text} (h : b.Begins after t) :
    blockOf t = b := by
  let rest := b.properties.flatMap bracketed ++ after
  have hEnds : ∀ c ∈ rest.head?, isWordChar c = false := by
    cases hProperties : b.properties with
    | nil => simpa [rest, hProperties] using h.ends hProperties
    | cons property properties =>
        have hBracket : isWordChar '[' = false := by decide
        simpa [rest, hProperties, bracketed] using hBracket
  have hRead : propertiesFrom none rest = (b.properties, after) :=
    propertiesFrom_eq ⟨rfl, h.closed, h.stops⟩
  have hOpen : after.stripRight.endsWith [openBrace] = b.isOpen := by
    rw [Bool.eq_iff_iff, Text.endsWith_stripRight_iff isBlank_openBrace, h.isOpen_iff]
  have hText : t = '/' :: '/' :: (b.name ++ rest) := by
    rw [h.text, heading]
    simp [rest]
  rw [hText, blockOf_append h.name hEnds, hRead, hOpen]

/-- Either two slashes and a name stand at the start of a text, or no block command is read. -/
theorem exists_name_or_blockOf_eq (t : Text) :
    (∃ name rest, IsName name ∧ (∀ c ∈ rest.head?, isWordChar c = false) ∧
      t = '/' :: '/' :: (name ++ rest)) ∨
    (blockOf t = ⟨[], [], false⟩ ∧ ∀ name, IsName name → ¬ '/' :: '/' :: name <+: t) := by
  by_cases hSlashes : ∃ rest, t = '/' :: '/' :: rest
  · obtain ⟨rest, rfl⟩ := hSlashes
    by_cases hNone : rest.takeWhile isWordChar = []
    · right
      refine ⟨by simp [blockOf, hNone], ?_⟩
      rintro name hName ⟨behind, hText⟩
      obtain rfl : name ++ behind = rest := by simpa using hText
      rw [List.takeWhile_append_of_pos hName.word, List.append_eq_nil_iff] at hNone
      exact hName.ne_nil hNone.1
    · left
      refine ⟨rest.takeWhile isWordChar, rest.dropWhile isWordChar,
        ⟨hNone, List.all_eq_true.mp List.all_takeWhile⟩, fun c hFirst => ?_,
        by rw [List.takeWhile_append_dropWhile]⟩
      have hStop := List.head?_dropWhile_not isWordChar rest
      rw [hFirst] at hStop
      simpa using hStop
  · right
    refine ⟨?_, fun name _ ⟨behind, hText⟩ => hSlashes ⟨name ++ behind, hText.symm⟩⟩
    unfold blockOf
    split
    · next rest => exact absurd ⟨rest, rfl⟩ hSlashes
    · rfl

/-- Behind the properties of a command that is written stand a brace or white space alone. -/
theorem begins_written {b : Block} (h : b.IsWritable) {blanks : Text}
    (hBlank : blanks.isAllBlank = true) :
    b.Begins ((if b.isOpen then [openBrace] else []) ++ blanks) (b.written ++ blanks) := by
  have hAll : ∀ c ∈ blanks, isBlank c = true := List.all_eq_true.mp hBlank
  have hFirst : ∀ c ∈ ((if b.isOpen then [openBrace] else []) ++ blanks).head?,
      c = openBrace ∨ isBlank c = true := by
    intro c hHead
    rcases List.mem_append.mp (List.mem_of_mem_head? hHead) with hBrace | hMem
    · left
      split at hBrace
      · exact List.mem_singleton.mp hBrace
      · cases hBrace
    · exact .inr (hAll c hMem)
  refine ⟨h, by rw [Block.written, List.append_assoc], fun _ c hHead => ?_, ?_, ?_⟩
  · rcases hFirst c hHead with rfl | hSpace
    · decide
    · exact isWordChar_of_isBlank hSpace
  · apply ne_bracketed_append
    rintro c hHead rfl
    rcases hFirst '[' hHead with hBrace | hSpace
    · exact absurd hBrace (by decide)
    · exact absurd hSpace (by decide)
  · constructor
    · intro hOpen
      exact ⟨[], blanks, by rw [hOpen]; rfl, hBlank⟩
    · rintro ⟨before, rest, hText, -⟩
      by_contra hClosed
      rw [if_neg hClosed, List.nil_append] at hText
      have hBrace := hAll openBrace (by rw [hText]; simp)
      rw [isBlank_openBrace] at hBrace
      cases hBrace

/-- A block command is read back as it was written, also with white space behind it. Whatever the
text, the name that is read stands behind two slashes at its start, and behind the name stand the
properties that are read, each in brackets, up to where no further one follows. Where no name
stands, nothing is read. -/
theorem blockOf_written :
    (∀ b : Block, b.IsWritable → ∀ blanks : Text, blanks.isAllBlank = true →
      blockOf (b.written ++ blanks) = b) ∧
    ∀ t : Text, (∃ after, (blockOf t).Begins after t) ∨
      (blockOf t = ⟨[], [], false⟩ ∧ ∀ name, IsName name → ¬ '/' :: '/' :: name <+: t) := by
  refine ⟨fun b hWritable blanks hBlank => ?_, fun t => ?_⟩
  · exact (begins_written hWritable hBlank).blockOf_eq
  · rcases exists_name_or_blockOf_eq t with ⟨name, rest, hName, hEnds, rfl⟩ | hNone
    · exact .inl ⟨_, blockOf_begins hName hEnds⟩
    · exact .inr hNone

/-- Properties with an opening bracket, with nothing and with a brace, white space behind them, and
a bracket that is not closed. -/
theorem blockOf_written_brackets :
    let b : Block := ⟨"list".toList, ["a[1".toList, [], [openBrace]], true⟩
    let t := "//image[logo][The logo".toList
    b.IsWritable ∧ b.written = "//list[a[1][][\x7b]\x7b".toList ∧
      blockOf (b.written ++ " \t".toList) = b ∧
      blockOf t = ⟨"image".toList, ["logo".toList], false⟩ ∧
      ∃ after, (blockOf t).Begins after t := by
  intro b t
  have hName : IsName "list".toList := ⟨by decide, List.all_eq_true.mp (by decide)⟩
  have hWritable : b.IsWritable := ⟨hName, by decide⟩
  have hRead : blockOf t = ⟨"image".toList, ["logo".toList], false⟩ := by decide
  have hFound := (blockOf_written.2 t).resolve_right fun h => by
    rw [hRead] at h
    exact absurd h.1 (by decide)
  have hBack := blockOf_written.1 b hWritable " \t".toList (by decide)
  exact ⟨hWritable, by decide, hBack, hRead, hFound⟩

end ProseLint.Review
