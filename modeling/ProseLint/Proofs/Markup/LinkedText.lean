import ProseLint.Markup.Wiki
import ProseLint.Proofs.Source.Blocks
import ProseLint.Proofs.Source.Doubled
import ProseLint.Proofs.Text.Pieces

/-! Links in wiki texts. Of a link its label is left, or its address when it has no label, and the
address is recorded. But the text that is left is searched for inline markup, and addresses are not
spared: the text of a line stays as it is just when no inline delimiter stands twice in the
addresses that are left. -/

namespace ProseLint.Wiki

/-! ## Lines with links -/

/-- A link as it is written: the text that is left of it and the address behind a bar. A link
without a bar shows its address. -/
structure WrittenLink where
  text : Text
  address : Option Text
  deriving DecidableEq, Repr

namespace WrittenLink

/-- What stands between the text and the closing brackets. -/
def hidden (w : WrittenLink) : Text :=
  match w.address with
  | some url => '|' :: url
  | none => []

def tail (w : WrittenLink) : Text := w.hidden ++ [']', ']']

def source (w : WrittenLink) : Text := ['[', '['] ++ (w.text ++ w.tail)

def url (w : WrittenLink) : Text := w.address.getD w.text

/-- The address, if it is left on the line. -/
def shownUrl (w : WrittenLink) : Text :=
  match w.address with
  | some _ => []
  | none => w.text

end WrittenLink

/-- The characters that double to inline delimiters. -/
def delimiters : List Char := ['*', '/', '_', '-']

/-- Text that is no part of a link and holds no inline delimiter. -/
structure IsPlain (t : Text) : Prop where
  opening : '[' ∉ t
  bar : '|' ∉ t
  closing : ']' ∉ t
  delimiter : ∀ d ∈ delimiters, ¬ [d, d] <:+: t

theorem isPlain_iff {t : Text} : IsPlain t ↔ ('[' ∉ t ∧ '|' ∉ t ∧ ']' ∉ t) ∧
    (delimiters.all fun d => t.occurrences [d, d] == []) = true := by
  have hNone (d : Char) : t.occurrences [d, d] = [] ↔ ¬ [d, d] <:+: t :=
    Text.occurrences_eq_nil_iff (List.cons_ne_nil d [d])
  simp only [List.all_eq_true, beq_iff_eq, hNone]
  exact ⟨fun h => ⟨⟨h.opening, h.bar, h.closing⟩, h.delimiter⟩,
    fun ⟨⟨hOpening, hBar, hClosing⟩, hDelimiter⟩ => ⟨hOpening, hBar, hClosing, hDelimiter⟩⟩

instance (t : Text) : Decidable (IsPlain t) := decidable_of_iff' _ isPlain_iff

/-- A label is plain text, and the address behind it has no closing brackets before its end. An
address without a label has no brackets and no bars. -/
def WrittenLink.IsLegible (w : WrittenLink) : Prop :=
  match w.address with
  | some url => IsPlain w.text ∧ ¬ [']', ']'] <:+: url ++ [']']
  | none => '[' ∉ w.text ∧ '|' ∉ w.text ∧ ']' ∉ w.text

instance : (w : WrittenLink) → Decidable w.IsLegible
  | ⟨text, some url⟩ =>
      decidable_of_iff (IsPlain text ∧ (url ++ [']']).occurrences [']', ']'] = [])
        (and_congr_right' (Text.occurrences_eq_nil_iff (List.cons_ne_nil _ _)))
  | ⟨text, none⟩ => inferInstanceAs (Decidable ('[' ∉ text ∧ '|' ∉ text ∧ ']' ∉ text))

/-- Links, each with the text behind it. -/
abbrev LinkedText := List (WrittenLink × Text)

namespace LinkedText

def source (links : LinkedText) : Text := links.flatMap fun w => w.1.source ++ w.2

/-- What is to be left. -/
def shown (links : LinkedText) : Text := links.flatMap fun w => w.1.text ++ w.2

/-- The links to be recorded, in a text that starts at a position. -/
def recorded (position : Nat) : LinkedText → List (Int × Text)
  | [] => []
  | (w, t) :: rest =>
      (((position + 2 : Nat) : Int), w.url.strip) ::
        recorded (position + w.source.length + t.length) rest

/-- How often a character stands just twice in a row in the addresses that are left. -/
def doubled (d : Char) : LinkedText → Nat
  | [] => 0
  | (w, _) :: rest => w.shownUrl.doubled d + doubled d rest

/-- What is shown to markup of a text whose links have been erased. -/
def glyphs (links : LinkedText) : List (Option Char) :=
  links.flatMap fun w => List.replicate 2 none ++
    (w.1.text.map some ++ (List.replicate w.1.tail.length none ++ w.2.map some))

/-- Links that can be told from the text around them. -/
def IsLegible (links : LinkedText) : Prop := ∀ w ∈ links, w.1.IsLegible ∧ IsPlain w.2

instance (links : LinkedText) : Decidable links.IsLegible :=
  inferInstanceAs (Decidable (∀ w ∈ links, w.1.IsLegible ∧ IsPlain w.2))

end LinkedText

/-- A line of prose as it was read, without escapes. -/
structure IsProse (l : Line) : Prop where
  fresh : ∀ c ∈ l.cells, c.kept = true ∧ c.escaped = false
  links : l.links = []
  notComment : commentBody? l.text = none
  noComment : (l.eraseEnclosure comment).2 = 0
  header : header? l.text = none
  item : listItem? l.text = none

theorem eraseEnclosure_comment_none {l : Line} (hFresh : ∀ c ∈ l.cells, c.kept = true ∧
    c.escaped = false) (hNone : l.text.occurrences commentOpening = []) :
    (l.eraseEnclosure comment).2 = 0 := by
  have hReads : Reads l.cells l.text := ⟨rfl, hFresh⟩
  rw [Text.occurrences_eq_nil_iff (by decide)] at hNone
  refine List.length_eq_zero_iff.mpr (List.eq_nil_iff_forall_not_mem.mpr fun pair hMem => hNone ?_)
  obtain ⟨-, -, hSpells⟩ := Enclosure.mem_pairs pair hMem
  exact ((hReads.drop _).spells_iff.mp hSpells).isInfix.trans (List.drop_suffix _ _).isInfix

/-! ## Finding the links -/

theorem linksFrom_of_none {cells : List Cell} (h : Cell.find? ['[', '['] cells = none) (i : Nat) :
    linksFrom i cells = [] := by
  cases cells with
  | nil => rw [linksFrom]
  | cons c rest => rw [linksFrom, h]

theorem linksFrom_of_some {cells : List Cell} {b k : Nat}
    (hOpening : Cell.find? ['[', '['] cells = some b)
    (hClosing : Cell.find? [']', ']'] (cells.drop (b + 2)) = some k) (i : Nat) :
    linksFrom i cells =
      ⟨i + b, ((Cell.find? ['|'] (cells.drop (b + 2))).filter (· < k)).map (i + b + 2 + ·),
        i + b + 2 + k⟩ :: linksFrom (i + (b + 4 + k)) (cells.drop (b + 4 + k)) := by
  cases cells with
  | nil => cases hOpening
  | cons c rest =>
      rw [linksFrom, hOpening]
      simp only [hClosing]

theorem not_isPrefix_drop {c : Char} {needle front : Text} (h : c ∉ front) (behind : Text) {i : Nat}
    (hLt : i < front.length) : ¬ c :: needle <+: (front ++ behind).drop i := by
  intro hPrefix
  have hHead : ((front ++ behind).drop i).head? = some c := by
    obtain ⟨more, hMore⟩ := hPrefix
    rw [← hMore, List.cons_append, List.head?_cons]
  rw [List.head?_drop, List.getElem?_append_left hLt] at hHead
  exact h (List.mem_of_getElem? hHead)

namespace WrittenLink

variable {w : WrittenLink} {cells : List Cell} {behind : Text}

theorem length_source (w : WrittenLink) :
    w.source.length = w.text.length + w.hidden.length + 4 := by
  simp only [source, tail, List.length_append, List.length_cons, List.length_nil]
  omega

theorem IsLegible.parts (h : w.IsLegible) :
    '|' ∉ w.text ∧ ']' ∉ w.text ∧ ¬ [']', ']'] <:+: w.hidden ++ [']'] := by
  unfold IsLegible at h
  cases hAddress : w.address with
  | none =>
      simp only [hAddress] at h
      refine ⟨h.2.1, h.2.2, fun hIn => ?_⟩
      have hLength := hIn.length_le
      simp [hidden, hAddress] at hLength
  | some url =>
      simp only [hAddress] at h
      refine ⟨h.1.bar, h.1.closing, ?_⟩
      rw [hidden, hAddress]
      simp only [List.cons_append, List.infix_cons_iff]
      rintro (hPrefix | hIn)
      · exact absurd (List.cons_prefix_cons.mp hPrefix).1 (by decide)
      · exact h.2 hIn

/-- The closing brackets of a link are the first ones behind its opening brackets. -/
theorem IsLegible.not_closing (h : w.IsLegible) (behind : Text) {i : Nat}
    (hLt : i < w.text.length + w.hidden.length) :
    ¬ [']', ']'] <+: (w.text ++ (w.tail ++ behind)).drop i := by
  obtain ⟨-, hText, hHidden⟩ := h.parts
  rcases Nat.lt_or_ge i w.text.length with hInText | hBehind
  · exact not_isPrefix_drop hText _ hInText
  · intro hPrefix
    obtain ⟨j, rfl⟩ := Nat.exists_eq_add_of_le hBehind
    have hSplit : w.tail ++ behind = (w.hidden ++ [']']) ++ (']' :: behind) := by simp [tail]
    rw [List.drop_length_add_append, hSplit, List.drop_append_of_le_length (by simp; omega)]
      at hPrefix
    -- The first of the two might be the last character of the address, so one bracket is added.
    have hInside : [']', ']'] <+: (w.hidden ++ [']']).drop j :=
      List.prefix_of_prefix_length_le hPrefix (List.prefix_append _ _) (by simp; omega)
    exact hHidden (hInside.isInfix.trans (List.drop_suffix _ _).isInfix)

theorem IsLegible.find?_closing (h : w.IsLegible)
    (hReads : Reads cells (w.text ++ (w.tail ++ behind))) :
    Cell.find? [']', ']'] cells = some (w.text.length + w.hidden.length) := by
  refine hReads.find?_eq_some ?_ ?_ fun i hi => h.not_closing behind hi
  · simp only [tail, List.length_append, List.length_cons]
    omega
  · rw [List.drop_length_add_append, tail, List.append_assoc, List.drop_left]
    exact List.prefix_append _ _

theorem IsLegible.find?_bar (h : w.IsLegible)
    (hReads : Reads cells (w.text ++ (w.tail ++ behind))) :
    (Cell.find? ['|'] cells).filter (· < w.text.length + w.hidden.length) =
      w.address.map fun _ => w.text.length := by
  obtain ⟨hBar, -, -⟩ := h.parts
  rw [find?_singleton, hReads.findIdx?_eq, tail, hidden]
  cases w.address with
  | some url =>
      have hFirst := findIdx?_first hBar (url ++ ([']', ']'] ++ behind))
      simp only [List.cons_append, List.append_assoc] at hFirst ⊢
      rw [hFirst, Option.filter_some, if_pos (by simp), Option.map_some]
  | none =>
      rw [List.findIdx?_append, findIdx?_of_not_mem hBar, Option.none_or, Option.map_none]
      refine Option.filter_eq_none_iff.mpr fun i hMem => ?_
      obtain ⟨k, -, rfl⟩ := Option.map_eq_some_iff.mp hMem
      simp

/-- The link as it is found at a position. -/
def link (position : Nat) (w : WrittenLink) : Link :=
  ⟨position, w.address.map fun _ => position + 2 + w.text.length,
    position + 2 + (w.text.length + w.hidden.length)⟩

end WrittenLink

/-- The links as they are found in a text that starts at a position. -/
def LinkedText.found (position : Nat) : LinkedText → List Link
  | [] => []
  | (w, t) :: rest => w.link position :: found (position + w.source.length + t.length) rest

theorem LinkedText.source_cons (w : WrittenLink) (t : Text) (links : LinkedText) :
    source ((w, t) :: links) =
      ['[', '['] ++ (w.text ++ (w.tail ++ (t ++ source links))) := by
  simp [source, WrittenLink.source]

theorem linksFrom_eq_found {cells : List Cell} {lead : Text} {links : LinkedText}
    (hReads : Reads cells (lead ++ links.source)) (hLead : '[' ∉ lead) (hLinks : links.IsLegible)
    (i : Nat) : linksFrom i cells = links.found (i + lead.length) := by
  induction links generalizing cells lead i with
  | nil =>
      refine linksFrom_of_none (hReads.find?_eq_none fun k hPrefix => ?_) i
      have hMem : '[' ∈ lead ++ LinkedText.source [] :=
        (List.drop_subset _ _) (hPrefix.subset List.mem_cons_self)
      simp [LinkedText.source, hLead] at hMem
  | cons first links ih =>
      obtain ⟨w, t⟩ := first
      obtain ⟨⟨hLegible, hPlain⟩, hRest⟩ : (w.IsLegible ∧ IsPlain t) ∧
        LinkedText.IsLegible links := List.forall_mem_cons.mp hLinks
      rw [LinkedText.source_cons] at hReads
      have hOpening : Cell.find? ['[', '['] cells = some lead.length := by
        refine hReads.find?_eq_some ?_ ?_ fun k hk => not_isPrefix_drop hLead _ hk
        · simp
        · rw [List.drop_left]
          exact List.prefix_append _ _
      have hContent : Reads (cells.drop (lead.length + 2))
          (w.text ++ (w.tail ++ (t ++ LinkedText.source links))) := by
        have hDrop := hReads.drop (lead.length + 2)
        rwa [List.drop_length_add_append] at hDrop
      have hBehind : Reads (cells.drop (lead.length + 4 + (w.text.length + w.hidden.length)))
          (t ++ LinkedText.source links) := by
        have hTail : w.tail.length = w.hidden.length + 2 := by simp [WrittenLink.tail]
        have hDrop := hContent.drop (w.text.length + w.tail.length)
        rw [List.drop_length_add_append, List.drop_left, List.drop_drop, hTail] at hDrop
        rwa [show lead.length + 4 + (w.text.length + w.hidden.length) =
          lead.length + 2 + (w.text.length + (w.hidden.length + 2)) by omega]
      rw [linksFrom_of_some hOpening (hLegible.find?_closing hContent),
        hLegible.find?_bar hContent, ih hBehind hPlain.opening hRest, LinkedText.found,
        WrittenLink.link, w.length_source, Option.map_map]
      congr 2
      omega

/-! ## Erasing the links -/

theorem eraseLink_block {l : Line} {front opening inner closing behind : List Cell}
    {w : WrittenLink}
    (hCells : l.cells = front ++ (opening ++ (inner ++ (closing ++ behind))))
    (hOpening : Reads opening ['[', '[']) (hInner : Reads inner w.text)
    (hClosing : Reads closing w.tail) :
    eraseLink l (w.link front.length) =
      { l with
        cells := front ++ (hide opening ++ (inner ++ (hide closing ++ behind)))
        links := l.links ++ [(((front.length + 2 : Nat) : Int), w.url.strip)] } := by
  have hText : l.text = front.map (·.char) ++
      (['[', '['] ++ (w.text ++ (w.tail ++ behind.map (·.char)))) := by
    rw [Line.text, hCells]
    simp only [List.map_append, hOpening.char, hInner.char, hClosing.char]
  have hTwo : opening.length = 2 := hOpening.length_eq
  have hLabel := hInner.length_eq
  have hTail : closing.length = w.hidden.length + 2 := by
    rw [hClosing.length_eq, WrittenLink.tail, List.length_append]
    rfl
  rw [eraseLink, WrittenLink.link, WrittenLink.url]
  cases hAddress : w.address with
  | some url =>
      have hHidden : w.hidden = '|' :: url := by rw [WrittenLink.hidden, hAddress]
      have hAt : l.text.StandsAt (front.length + 2 + w.text.length + 1) url :=
        ⟨front.map (·.char) ++ (['[', '['] ++ (w.text ++ ['|'])), [']', ']'] ++
          behind.map (·.char), by simp; omega, by rw [hText, WrittenLink.tail, hHidden]; simp⟩
      have hSlice := hAt.slice_eq
      rw [hHidden, List.length_cons] at hTail
      simp only [Option.map_some, Option.getD_some, hHidden, List.length_cons]
      rw [erase_around hCells rfl (by omega) (by omega) (by omega),
        show front.length + 2 + (w.text.length + (url.length + 1)) =
          front.length + 2 + w.text.length + 1 + url.length by omega, hSlice]
      rfl
  | none =>
      have hHidden : w.hidden = [] := by rw [WrittenLink.hidden, hAddress]
      have hAt : l.text.StandsAt (front.length + 2) w.text :=
        ⟨front.map (·.char) ++ ['[', '['], w.tail ++ behind.map (·.char), by simp, by
          rw [hText]; simp⟩
      have hSlice := hAt.slice_eq
      rw [hHidden, List.length_nil] at hTail
      simp only [Option.map_none, Option.getD_none, hHidden, List.length_nil, Nat.add_zero]
      rw [erase_around hCells rfl (by omega) (by omega) (by omega), hSlice]
      rfl

/-- All links are erased, each where it is found on the line as the links before it have left it. -/
theorem foldl_eraseLink_found {links : LinkedText} {l : Line} {front cells : List Cell}
    (hCells : l.cells = front ++ cells) (hReads : Reads cells links.source) :
    ∃ done, (links.found front.length).foldl eraseLink l =
        { l with cells := front ++ done, links := l.links ++ links.recorded front.length } ∧
      keptOf done = links.shown ∧ done.map Cell.glyph = links.glyphs := by
  induction links generalizing l front cells with
  | nil =>
      have hNil : cells = [] := List.map_eq_nil_iff.mp hReads.char
      subst hNil
      refine ⟨[], ?_, rfl, rfl⟩
      rw [LinkedText.found, List.foldl_nil, LinkedText.recorded, ← hCells, List.append_nil]
  | cons first links ih =>
      obtain ⟨w, t⟩ := first
      rw [LinkedText.source_cons] at hReads
      obtain ⟨opening, cells, rfl, hOpening, hReads⟩ := hReads.exists_append
      obtain ⟨inner, cells, rfl, hInner, hReads⟩ := hReads.exists_append
      obtain ⟨closing, cells, rfl, hClosing, hReads⟩ := hReads.exists_append
      obtain ⟨segment, cells, rfl, hSegment, hReads⟩ := hReads.exists_append
      have hLength : (front ++ (hide opening ++ (inner ++ (hide closing ++ segment)))).length =
          front.length + w.source.length + t.length := by
        simp only [WrittenLink.source, List.length_append, length_hide, hOpening.length_eq,
          hInner.length_eq, hClosing.length_eq, hSegment.length_eq, Nat.add_assoc]
      -- For the next link, this one and the text behind it are in front.
      have hFirst := eraseLink_block hCells hOpening hInner hClosing
      rw [LinkedText.found, List.foldl_cons, ← hLength]
      generalize eraseLink l (w.link front.length) = next at hFirst ⊢
      have hNext : next.cells =
          (front ++ (hide opening ++ (inner ++ (hide closing ++ segment)))) ++ cells := by
        simp only [hFirst, List.append_assoc]
      obtain ⟨done, hDone, hKept, hGlyphs⟩ := ih hNext hReads
      refine ⟨hide opening ++ (inner ++ (hide closing ++ (segment ++ done))), ?_, ?_, ?_⟩
      · rw [hDone, LinkedText.recorded, hLength, hFirst]
        simp only [List.append_assoc, List.singleton_append]
      · simp only [keptOf_append, keptOf_hide, hInner.keptOf_eq, hSegment.keptOf_eq, hKept,
          LinkedText.shown, List.flatMap_cons, List.nil_append, List.append_assoc]
      · simp only [List.map_append, map_glyph_hide, hInner.map_glyph, hSegment.map_glyph, hGlyphs,
          hOpening.length_eq, hClosing.length_eq, LinkedText.glyphs, List.flatMap_cons,
          List.append_assoc]
        rfl

/-! ## Inline markup in addresses -/

/-- Addresses that are left are the only places where an inline delimiter can stand. -/
theorem doubledFrom_glyphs {d : Char} (hDelimiter : d ∈ delimiters) {lead : Text}
    (hLead : IsPlain lead) {links : LinkedText} (hLinks : links.IsLegible) (before : Option Char) :
    doubledFrom d before (lead.map some ++ links.glyphs) = links.doubled d := by
  induction links generalizing lead before with
  | nil =>
      rw [LinkedText.glyphs, List.flatMap_nil, List.append_nil,
        doubledFrom_eq_zero (hLead.delimiter d hDelimiter)]
      rfl
  | cons first links ih =>
      obtain ⟨w, t⟩ := first
      obtain ⟨⟨hLegible, hPlain⟩, hRest⟩ : (w.IsLegible ∧ IsPlain t) ∧
        LinkedText.IsLegible links := List.forall_mem_cons.mp hLinks
      have hText : doubledFrom d none (w.text.map some) = w.shownUrl.doubled d := by
        unfold WrittenLink.IsLegible at hLegible
        unfold WrittenLink.shownUrl
        cases hAddress : w.address with
        | none => rfl
        | some url =>
            simp only [hAddress] at hLegible
            exact doubledFrom_eq_zero (hLegible.1.delimiter d hDelimiter) none
      have hGlyphs : lead.map some ++ LinkedText.glyphs ((w, t) :: links) =
          lead.map some ++ (List.replicate 2 none ++ (w.text.map some ++
            (List.replicate (w.hidden.length + 1 + 1) none ++
              (t.map some ++ LinkedText.glyphs links)))) := by
        simp [LinkedText.glyphs, WrittenLink.tail]
      rw [hGlyphs, doubledFrom_append_erased, doubledFrom_append_erased, ih hPlain hRest, hText,
        doubledFrom_eq_zero (hLead.delimiter d hDelimiter), Nat.zero_add]
      rfl

theorem inlineMarkup_eq : inlineMarkup = delimiters.map Enclosure.twice := rfl

theorem links_foldl_eraseEnclosure (es : List Enclosure) (l : Line) :
    (es.foldl (fun l e => (l.eraseEnclosure e).1) l).links = l.links := by
  induction es generalizing l with
  | nil => rfl
  | cons e es ih => rw [List.foldl_cons, ih, Line.eraseEnclosure_eq, Enclosure.change]

/-- Inline markup takes something away just when a delimiter stands twice in the addresses. -/
theorem keptText_inlineMarkup_iff {bare : Line} {lead : Text} {links : LinkedText}
    (hGlyphs : bare.cells.map Cell.glyph = lead.map some ++ links.glyphs) (hLead : IsPlain lead)
    (hLinks : links.IsLegible) :
    (inlineMarkup.foldl (fun l e => (l.eraseEnclosure e).1) bare).keptText = bare.keptText ↔
      ∀ d ∈ delimiters, links.doubled d ≤ 1 := by
  rw [Line.foldl_eraseEnclosure_keptText_iff (by decide) bare, inlineMarkup_eq, List.forall_mem_map]
  refine forall₂_congr fun d hDelimiter => ?_
  rw [Enclosure.pairs_twice_eq_nil_iff, hGlyphs, doubledFrom_glyphs hDelimiter hLead hLinks]

/-- Before inline markup is looked for, just the links have been erased. -/
theorem exists_classifyLine_eq {l : Line} {lead : Text} {links : LinkedText} (hProse : IsProse l)
    (hText : l.text = lead ++ links.source) (hLead : IsPlain lead) (hLinks : links.IsLegible) :
    ∃ bare : Line,
      classifyLine false l = (false, inlineMarkup.foldl (fun l e => (l.eraseEnclosure e).1) bare) ∧
      bare.links = links.recorded lead.length ∧ bare.keptText = lead ++ links.shown ∧
      bare.cells.map Cell.glyph = lead.map some ++ links.glyphs := by
  have hReads : Reads l.cells (lead ++ links.source) := ⟨hText, hProse.fresh⟩
  have hFound : linksFrom 0 l.cells = links.found lead.length := by
    rw [linksFrom_eq_found hReads hLead.opening hLinks, Nat.zero_add]
  obtain ⟨front, cells, hCells, hFront, hLinked⟩ := hReads.exists_append
  obtain ⟨done, hDone, hKept, hGlyphs⟩ := foldl_eraseLink_found hCells hLinked
  rw [hFront.length_eq, hProse.links, List.nil_append] at hDone
  have hComment := Line.eraseEnclosure_of_none (List.length_eq_zero_iff.mp hProse.noComment)
  refine ⟨{ l with cells := front ++ done, links := links.recorded lead.length }, ?_, rfl, ?_, ?_⟩
  · rw [classifyLine, hProse.notComment, classifyProse, hComment, markStart, hProse.header,
      hProse.item, eraseLinks, hFound, hDone]
    rfl
  · rw [← hFront.keptOf_eq, ← hKept, ← keptOf_append]
    rfl
  · rw [List.map_append, hFront.map_glyph, hGlyphs]

/-- Of a line of prose the text around its links, their labels and the addresses without a label are
left, and the address of each link is recorded. Nothing of this text gets lost just when no inline
delimiter stands twice in the addresses that are left, be it in one of them or in two. -/
theorem classifyLine_links_iff {l : Line} {lead : Text} {links : LinkedText} (hProse : IsProse l)
    (hText : l.text = lead ++ links.source) (hLead : IsPlain lead) (hLinks : links.IsLegible) :
    ∃ m, classifyLine false l = (false, m) ∧ m.links = links.recorded lead.length ∧
      (m.keptText = lead ++ links.shown ↔ ∀ d ∈ delimiters, links.doubled d ≤ 1) := by
  obtain ⟨bare, hLine, hRecorded, hKept, hGlyphs⟩ :=
    exists_classifyLine_eq hProse hText hLead hLinks
  refine ⟨_, hLine, (links_foldl_eraseEnclosure _ bare).trans hRecorded, ?_⟩
  rw [← hKept]
  exact keptText_inlineMarkup_iff hGlyphs hLead hLinks

/-- A link with a label and one without, whose addresses both have slashes. -/
theorem classifyLine_links_iff_labelled :
    let l := Line.ofText 1 true "See [[a site|http://a]] or [[http://b]].".toList
    let links : LinkedText := [(⟨"a site".toList, some "http://a".toList⟩, " or ".toList),
      (⟨"http://b".toList, none⟩, ['.'])]
    IsProse l ∧ l.text = "See ".toList ++ links.source ∧ IsPlain "See ".toList ∧ links.IsLegible ∧
      ∃ m, classifyLine false l = (false, m) ∧
        m.links = [(6, "http://a".toList), (29, "http://b".toList)] ∧
        m.keptText = "See a site or http://b.".toList := by
  intro l links
  have hFresh : ∀ c ∈ l.cells, c.kept = true ∧ c.escaped = false := by decide
  have hProse : IsProse l := ⟨hFresh, rfl, by decide,
    eraseEnclosure_comment_none hFresh (by decide), by decide, by decide⟩
  have hText : l.text = "See ".toList ++ links.source := by decide
  have hLead : IsPlain "See ".toList := by decide +kernel
  have hLinks : links.IsLegible := by decide +kernel
  have hOnce : (delimiters.all fun d => links.doubled d ≤ 1) = true := by decide
  obtain ⟨m, hLine, hRecorded, hKept⟩ := classifyLine_links_iff hProse hText hLead hLinks
  refine ⟨hProse, hText, hLead, hLinks, m, hLine, hRecorded.trans (by decide), ?_⟩
  refine (hKept.mpr fun d hMem => ?_).trans (by decide)
  exact of_decide_eq_true (List.all_eq_true.mp hOnce d hMem)

/-- The slashes of two addresses are taken for what encloses italic text. -/
theorem exists_link_text_lost :
    ∃ (l : Line) (lead : Text) (links : LinkedText), IsProse l ∧ l.text = lead ++ links.source ∧
      IsPlain lead ∧ links.IsLegible ∧
      (classifyLine false l).2.keptText ≠ lead ++ links.shown := by
  let l := Line.ofText 1 true "[[http://a]] and [[http://b]]".toList
  let links : LinkedText :=
    [(⟨"http://a".toList, none⟩, " and ".toList), (⟨"http://b".toList, none⟩, [])]
  have hFresh : ∀ c ∈ l.cells, c.kept = true ∧ c.escaped = false := by decide
  have hProse : IsProse l := ⟨hFresh, rfl, by decide,
    eraseEnclosure_comment_none hFresh (by decide), by decide, by decide⟩
  have hText : l.text = [] ++ links.source := by decide
  have hLead : IsPlain [] := by decide +kernel
  have hLinks : links.IsLegible := by decide +kernel
  refine ⟨l, [], links, hProse, hText, hLead, hLinks, fun hSame => ?_⟩
  obtain ⟨bare, hLine, -, hKept, hGlyphs⟩ := exists_classifyLine_eq hProse hText hLead hLinks
  rw [hLine, ← hKept, keptText_inlineMarkup_iff hGlyphs hLead hLinks] at hSame
  exact absurd (hSame '/' (by decide)) (by decide)

end ProseLint.Wiki
