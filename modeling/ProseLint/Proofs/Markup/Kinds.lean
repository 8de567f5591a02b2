import ProseLint.Markup.Reading
import ProseLint.Proofs.Markup.Looks
import ProseLint.Proofs.Source.Escapes
import ProseLint.Proofs.Text.Kinds

/-! What the patterns of wiki and structured text tell apart. Each of them looks for white space
and some marks, for a letter or for a digit, so characters of one kind are matched alike. -/

namespace ProseLint

open Text

/-! ## Wiki -/

namespace Wiki

/-- The characters that wiki patterns are made of. -/
def signs : Text := "h123456.-#[!]".toList

/-- What wiki patterns see of a character. -/
def kind : Char → Char := kindOf signs fun _ => '@'

theorem kind_discerns : Discerns kind signs := kindOf_discerns fun _ => by decide

theorem header?_cons (a d b : Char) (rest : Text) :
    header? (a :: d :: b :: rest) =
      if a = 'h' ∧ b = '.' ∧ 49 ≤ d.toNat ∧ d.toNat ≤ 54 ∧ 0 < (rest.takeWhile isBlank).length then
        some (d.toNat - 48, 3 + (rest.takeWhile isBlank).length)
      else none := by
  by_cases hOpen : a = 'h' ∧ b = '.'
  · obtain ⟨rfl, rfl⟩ := hOpen
    simp [header?]
  · rw [if_neg fun h => hOpen ⟨h.1, h.2.1⟩]
    unfold header?
    split
    · next heq => simp_all
    · rfl

/-- The levels of headers are seen. -/
theorem level_seen {d : Char} (h : 49 ≤ d.toNat ∧ d.toNat ≤ 54) : seen signs d = true := by
  have hLevel : d.toNat = 49 ∨ d.toNat = 50 ∨ d.toNat = 51 ∨ d.toNat = 52 ∨ d.toNat = 53 ∨
      d.toNat = 54 := by omega
  rw [← Char.ofNat_toNat d]
  rcases hLevel with hd | hd | hd | hd | hd | hd <;> rw [hd] <;> decide

theorem header?_map (t : Text) : header? (t.map kind) = header? t := by
  match t with
  | [] => rfl
  | [a] => simp [header?]
  | [a, d] => simp [header?]
  | a :: d :: b :: rest =>
      have hOpen := Discerns.eq_iff kind_discerns (m := 'h') (by decide) a
      have hDot := Discerns.eq_iff kind_discerns (m := '.') (by decide) b
      simp only [List.map_cons, header?_cons, takeWhile_map (Discerns.blank kind_discerns),
        List.length_map, hOpen, hDot]
      by_cases hLevel : 49 ≤ d.toNat ∧ d.toNat ≤ 54
      · rw [(Discerns.eq_iff kind_discerns (level_seen hLevel) d).mpr rfl]
      · have hKind : ¬(49 ≤ (kind d).toNat ∧ (kind d).toNat ≤ 54) := by
          intro hSeen
          rw [(Discerns.eq_iff kind_discerns (level_seen hSeen) d).mp rfl] at hLevel
          exact hLevel hSeen
        rw [if_neg fun h => hKind ⟨h.2.2.1, h.2.2.2.1⟩, if_neg fun h => hLevel ⟨h.2.2.1, h.2.2.2.1⟩]

theorem listItem?_map (t : Text) : listItem? (t.map kind) = listItem? t := by
  have hMark : ∀ c, isListMark (kind c) = isListMark c := fun c => by
    simp only [isListMark, Discerns.beq kind_discerns (m := '-') (by decide),
      Discerns.beq kind_discerns (m := '#') (by decide)]
  simp only [listItem?, takeWhile_map hMark, takeWhile_map (Discerns.blank kind_discerns),
    List.length_map, ← List.map_drop]

theorem commentBody?_map (t : Text) :
    commentBody? (t.map kind) = (commentBody? t).map (List.map kind) := by
  rw [commentBody?, Discerns.stripLeft_map kind_discerns,
    Discerns.isPrefixOf?_map kind_discerns (by decide)]
  rfl

theorem closesComment_map (t : Text) : closesComment (t.map kind) = closesComment t := by
  rw [closesComment, Discerns.stripRight_map kind_discerns,
    Discerns.endsWith_map kind_discerns (by decide)]
  rfl

/-- Lines with the same kinds of characters look the same. -/
theorem look_eq_of_kinds {l m : Line} (hKinds : l.text.map kind = m.text.map kind)
    (hEscaped : l.cells.map (·.escaped) = m.cells.map (·.escaped)) : look l = look m := by
  have hComment : (commentBody? l.text).map closesComment =
      (commentBody? m.text).map closesComment :=
    eq_of_kinds (g := fun t => (commentBody? t).map closesComment) (fun t => by
      simp only [commentBody?_map, Option.map_map, Function.comp_def, closesComment_map]) hKinds
  simp only [look, hComment, eq_of_kinds closesComment_map hKinds, eq_of_kinds header?_map hKinds,
    eq_of_kinds listItem?_map hKinds, Line.isEscaped_congr hEscaped]

end Wiki

/-! ## Structured text -/

namespace Rest

/-- The characters other than letters and digits that the patterns of structured text are made
of. -/
def signs : Text := "#*=-~^\"'`+_.:()|>".toList

/-- Enumerators are letters or digits, and patterns see nothing else of these. -/
def letterOrDigit (c : Char) : Char :=
  if c.isAlpha then 'a' else if isDecimal c then '0' else '@'

/-- What the patterns see of a character. -/
def kind : Char → Char := kindOf signs letterOrDigit

theorem kind_discerns : Discerns kind signs := kindOf_discerns fun c => by
  unfold letterOrDigit
  split
  · decide
  · split <;> decide

theorem isAlpha_range {c : Char} (h : c.isAlpha = true) : 65 ≤ c.toNat ∧ c.toNat ≤ 122 := by
  rcases (Bool.or_eq_true _ _).mp h with hUpper | hLower
  · have hCase : 'A'.val ≤ c.val ∧ c.val ≤ 'Z'.val := of_decide_eq_true hUpper
    have hCodes : 65 ≤ c.toNat ∧ c.toNat ≤ 90 := hCase
    omega
  · have hBoth : (decide ('a'.val ≤ c.val) && decide (c.val ≤ 'z'.val)) = true := hLower
    rw [Bool.and_eq_true, decide_eq_true_eq, decide_eq_true_eq] at hBoth
    have hCodes : 97 ≤ c.toNat ∧ c.toNat ≤ 122 := hBoth
    omega

theorem isDecimal_of_isAlpha {c : Char} (h : c.isAlpha = true) : isDecimal c = false := by
  have hRange := isAlpha_range h
  -- no row of digits reaches into the letters
  have hApart : ∀ z ∈ digitZeros, z + 10 ≤ 65 ∨ 122 < z := by decide
  have hNone : digitZeros.find? (fun z => z ≤ c.toNat && c.toNat < z + 10) = none := by
    refine List.find?_eq_none.mpr fun z hMem hIn => ?_
    rw [Bool.and_eq_true, decide_eq_true_eq, decide_eq_true_eq] at hIn
    have hRow := hApart z hMem
    omega
  rw [isDecimal, decimalValue?, hNone]
  rfl

theorem kind_isAlpha (c : Char) : (kind c).isAlpha = c.isAlpha := by
  unfold kind kindOf letterOrDigit
  split
  · rfl
  · cases hAlpha : c.isAlpha with
    | true => rfl
    | false => cases hDecimal : isDecimal c <;> rfl

theorem kind_isDecimal (c : Char) : isDecimal (kind c) = isDecimal c := by
  unfold kind kindOf letterOrDigit
  split
  · rfl
  · cases hAlpha : c.isAlpha with
    | true => rw [isDecimal_of_isAlpha hAlpha]; decide
    | false => cases hDecimal : isDecimal c <;> decide

theorem kind_isIndent (c : Char) : Line.isIndent (kind c) = Line.isIndent c := by
  rw [Line.isIndent, Discerns.beq kind_discerns (by decide), Discerns.beq kind_discerns (by decide),
    Line.isIndent]

/-! ### Adornments and tables -/

theorem repeated?_map (t : Text) : repeated? (t.map kind) = repeated? t := by
  match t with
  | [] => rfl
  | [c] => rfl
  | c :: d :: rest =>
      have hAdorns := Discerns.contains_eq kind_discerns (w := adornmentMarks) (by decide) c
      have hUnfold : ∀ c d (rest : Text), repeated? (c :: d :: rest) =
          if adornmentMarks.contains c && (d :: rest).all (· == c) then some c else none :=
        fun _ _ _ => rfl
      rw [List.map_cons, List.map_cons, hUnfold, hUnfold, hAdorns, ← List.map_cons]
      cases hMark : adornmentMarks.contains c with
      | false => rfl
      | true =>
          have hAll : adornmentMarks.all (seen signs) = true := by decide
          have hSign := List.all_eq_true.mp hAll c (List.contains_iff_mem.mp hMark)
          rw [(Discerns.eq_iff kind_discerns hSign c).mpr rfl,
            all_map (Discerns.beq kind_discerns hSign)]

theorem isGridEdge_map (t : Text) : isGridEdge (t.map kind) = isGridEdge t := by
  have hEdge := all_map (f := kind) (p := fun c => c == '-' || c == '=' || c == '+') fun c => by
    rw [Discerns.beq kind_discerns (by decide), Discerns.beq kind_discerns (by decide),
      Discerns.beq kind_discerns (by decide)]
  simp only [isGridEdge, Discerns.strip_map kind_discerns, List.length_map, hEdge, List.head?_map,
    List.getLast?_map, Discerns.option_beq kind_discerns (m := '+') (by decide)]

theorem isColumnEdge_map (t : Text) : isColumnEdge (t.map kind) = isColumnEdge t := by
  have hEdge := all_map (f := kind) (p := fun c => c == '=' || c == ' ') fun c => by
    rw [Discerns.beq kind_discerns (by decide), Discerns.beq kind_discerns (by decide)]
  simp only [isColumnEdge, Discerns.strip_map kind_discerns, hEdge,
    Discerns.contains_map kind_discerns (m := ' ') (by decide)]

/-! ### Blocks without prose -/

/-- Whether a line starts with two dots and nothing else in the same word. -/
def hasDots (t : Text) : Bool :=
  ((afterDots? t).map fun rest => ((rest.head?).map isBlank).getD true).getD false

/-- Whether a line starts what indented lines belong to and is no prose itself. -/
def opensIndented (t : Text) : Bool :=
  (['_', '_'].isPrefixOf t.stripLeft && ((t.stripLeft[2]?).map isBlank).getD false) || hasDots t

/-- What is explicit markup would be a comment if it were nothing else. -/
theorem hasDots_of_explicitMarkup? {t rest : Text} (h : explicitMarkup? t = some rest) :
    hasDots t = true := by
  unfold explicitMarkup? at h
  split at h
  · next c more hAfter =>
      split at h
      · next hBlank => simp [hasDots, hAfter, hBlank]
      · cases h
  · cases h

/-- Blocks are told apart only as far as they end in different ways. -/
theorem blockKind?_doctest (t : Text) : (blockKind? t).map (· == .doctest) =
    if opensIndented t then some false
    else if ['>', '>', '>'].isPrefixOf t.stripLeft then some true else none := by
  cases hExplicit : explicitMarkup? t with
  | none =>
      simp only [blockKind?, opensIndented, hasDots, hExplicit, Option.map_none, Option.getD_none,
        Bool.false_eq_true, if_false, Bool.or_eq_true]
      split_ifs <;> simp_all
  | some rest =>
      have hDots := hasDots_of_explicitMarkup? hExplicit
      rw [hasDots] at hDots
      simp only [blockKind?, opensIndented, hasDots, hDots, Bool.or_true, if_true]
      split_ifs <;> rfl

theorem opensIndented_map (t : Text) : opensIndented (t.map kind) = opensIndented t := by
  simp only [opensIndented, hasDots, afterDots?, Discerns.stripLeft_map kind_discerns,
    Discerns.isPrefixOf_map kind_discerns (w := ['_', '_']) (by decide),
    Discerns.isPrefixOf?_map kind_discerns (w := ['.', '.']) (by decide), List.getElem?_map,
    Option.map_map, List.head?_map, Function.comp_def, Discerns.blank kind_discerns]

theorem blockKind?_map (t : Text) : (blockKind? (t.map kind)).map (· == .doctest) =
    (blockKind? t).map (· == .doctest) := by
  rw [blockKind?_doctest, blockKind?_doctest, opensIndented_map,
    Discerns.stripLeft_map kind_discerns, Discerns.isPrefixOf_map kind_discerns (by decide)]

theorem isLineBlock_eq (t : Text) :
    isLineBlock t = (decide (t.stripLeft = ['|']) || ['|', ' '].isPrefixOf t.stripLeft) := by
  unfold isLineBlock
  split
  · next heq => rw [heq]; rfl
  · next heq => rw [heq]; rfl
  · next hBar hSpace =>
      rw [decide_eq_false hBar, Bool.false_or, eq_comm, Bool.eq_false_iff]
      intro hPrefix
      obtain ⟨rest, hRest⟩ := List.isPrefixOf_iff_prefix.mp hPrefix
      exact hSpace rest hRest.symm

theorem isLineBlock_map (t : Text) : isLineBlock (t.map kind) = isLineBlock t := by
  simp only [isLineBlock_eq, Discerns.stripLeft_map kind_discerns,
    Discerns.map_eq_iff kind_discerns (w := ['|']) (by decide),
    Discerns.isPrefixOf_map kind_discerns (w := ['|', ' ']) (by decide)]

/-! ### Lists -/

theorem gap?_map (t : Text) : gap? (t.map kind) = gap? t := by
  have hBlanks := congrArg List.length (takeWhile_map (Discerns.blank kind_discerns) t)
  rw [List.length_map] at hBlanks
  cases t with
  | nil => rfl
  | cons c rest =>
      unfold gap?
      simp only [List.map_cons, Discerns.blank kind_discerns]
      rw [← List.map_cons, hBlanks]

theorem marked?_map {mark? : Text → Option Nat} (hMark : ∀ t, mark? (t.map kind) = mark? t)
    (t : Text) : marked? mark? (t.map kind) = marked? mark? t := by
  simp only [marked?, takeWhile_map (Discerns.blank kind_discerns), List.length_map,
    ← List.map_drop, hMark, gap?_map]

theorem bullet?_map (t : Text) : bullet? (t.map kind) = bullet? t := by
  cases t with
  | nil => rfl
  | cons c rest =>
      have hBullet : (kind c == '*' || kind c == '+' || kind c == '-') =
          (c == '*' || c == '+' || c == '-') := by
        rw [Discerns.beq kind_discerns (by decide), Discerns.beq kind_discerns (by decide),
          Discerns.beq kind_discerns (by decide)]
      simp only [List.map_cons, bullet?, hBullet]

theorem numeral?_eq (t : Text) : numeral? t =
    if t.head? == some '#' then some 1
    else if 0 < (t.takeWhile isDecimal).length then some (t.takeWhile isDecimal).length
    else none := by
  unfold numeral?
  split
  · rfl
  · next hOther =>
      have hHead : ¬(t.head? == some '#') = true := by
        intro hHead
        obtain ⟨rest, rfl⟩ := List.head?_eq_some_iff.mp (beq_iff_eq.mp hHead)
        exact hOther rest rfl
      rw [if_neg hHead]

theorem numeral?_map (t : Text) : numeral? (t.map kind) = numeral? t := by
  rw [numeral?_eq, numeral?_eq, List.head?_map, Discerns.option_beq kind_discerns (by decide),
    takeWhile_map kind_isDecimal, List.length_map]

theorem enumerator?_cons (c : Char) (rest : Text) : enumerator? (c :: rest) =
    if c = '(' then
      match numeral? rest with
      | some n => if rest[n]? = some ')' then some (n + 2) else none
      | none => none
    else match if c.isAlpha then some 1 else numeral? (c :: rest) with
      | some n => if (c :: rest)[n]? = some '.' ∨ (c :: rest)[n]? = some ')' then some (n + 1)
          else none
      | none => none := by
  by_cases hOpen : c = '('
  · rw [hOpen]
    rfl
  · rw [if_neg hOpen]
    unfold enumerator?
    split
    · next heq => exact absurd (List.cons.inj heq).1 hOpen
    · next heq =>
      obtain ⟨rfl, rfl⟩ := List.cons.inj heq
      rfl
    · next heq => cases heq

theorem enumerator?_map (t : Text) : enumerator? (t.map kind) = enumerator? t := by
  have hClose := Discerns.getElem?_map_eq_iff kind_discerns (m := ')') (by decide)
  have hStop := Discerns.getElem?_map_eq_iff kind_discerns (m := '.') (by decide)
  cases t with
  | nil => rfl
  | cons c rest =>
      rw [List.map_cons, enumerator?_cons, enumerator?_cons, ← List.map_cons]
      simp only [Discerns.eq_iff kind_discerns (m := '(') (by decide), numeral?_map, kind_isAlpha,
        hClose, hStop]

theorem field?_cons (c : Char) (rest : Text) : field? (c :: rest) =
    if c = ':' then
      let name := rest.takeWhile fun c => c != ':' && c != '\x60'
      if name.isEmpty ∨ rest[name.length]? ≠ some ':' then none
      else (gap? (rest.drop (name.length + 1))).map (name.length + 2 + ·)
    else none := by
  by_cases hOpen : c = ':'
  · rw [hOpen]
    rfl
  · rw [if_neg hOpen]
    unfold field?
    split
    · next heq => exact absurd (List.cons.inj heq).1 hOpen
    · rfl

theorem field?_map (t : Text) : field? (t.map kind) = field? t := by
  cases t with
  | nil => rfl
  | cons c rest =>
      have hName := takeWhile_map (f := kind) (p := fun c => c != ':' && c != '\x60') (fun c => by
        simp only [bne, Discerns.beq kind_discerns (m := ':') (by decide),
          Discerns.beq kind_discerns (m := '\x60') (by decide)]) rest
      have hClose := Discerns.getElem?_map_eq_iff kind_discerns (m := ':') (by decide)
      simp only [List.map_cons, field?_cons, Discerns.eq_iff kind_discerns (m := ':') (by decide),
        hName, List.isEmpty_map, List.length_map, ne_eq, hClose, ← List.map_drop, gap?_map]

/-- Lines with the same kinds of characters look the same. -/
theorem look_eq_of_kinds {l m : Line} (hKinds : l.text.map kind = m.text.map kind)
    (hEscaped : l.cells.map (·.escaped) = m.cells.map (·.escaped))
    (hSuppress : (Suppress.rule? l).isSome = (Suppress.rule? m).isSome) : look l = look m := by
  have hBlank : l.text.isAllBlank = m.text.isAllBlank :=
    eq_of_kinds (all_map (Discerns.blank kind_discerns)) hKinds
  have hIndentation : l.indentation = m.indentation := by
    rw [indentation_eq, indentation_eq]
    exact eq_of_kinds (g := fun t => (t.takeWhile Line.isIndent).length)
      (fun t => by rw [takeWhile_map kind_isIndent, List.length_map]) hKinds
  have hTable : (isGridEdge l.text || isColumnEdge l.text) =
      (isGridEdge m.text || isColumnEdge m.text) := by
    rw [eq_of_kinds isGridEdge_map hKinds, eq_of_kinds isColumnEdge_map hKinds]
  have hBlock : (blockKind? l.text).map (· == .doctest) = (blockKind? m.text).map (· == .doctest) :=
    eq_of_kinds (g := fun t => (blockKind? t).map (· == .doctest)) blockKind?_map hKinds
  have hOnly : (l.text.strip == [':', ':']) = (m.text.strip == [':', ':']) :=
    eq_of_kinds (g := fun t => Text.strip t == [':', ':']) (fun t => by
      rw [Bool.eq_iff_iff, beq_iff_eq, beq_iff_eq, Discerns.strip_map kind_discerns,
        Discerns.map_eq_iff kind_discerns (by decide)]) hKinds
  have hEnds : l.text.endsWith [':', ':'] = m.text.endsWith [':', ':'] :=
    eq_of_kinds (g := fun t => Text.endsWith t [':', ':'])
      (Discerns.endsWith_map kind_discerns (by decide)) hKinds
  have hColon : l.text.endsWith [':'] = m.text.endsWith [':'] :=
    eq_of_kinds (g := fun t => Text.endsWith t [':'])
      (Discerns.endsWith_map kind_discerns (by decide)) hKinds
  have hLiteral : opensLiteral l = opensLiteral m := by
    have hLength : l.length = m.length := by
      have hCells := congrArg List.length hEscaped
      rwa [List.length_map, List.length_map] at hCells
    rw [opensLiteral, opensLiteral, hLength, Line.isEscaped_congr hEscaped, hEnds]
  simp only [look, hSuppress, hBlank, hIndentation, eq_of_kinds repeated?_map hKinds, hTable,
    hBlock, eq_of_kinds isLineBlock_map hKinds, hOnly, hLiteral, hColon,
    eq_of_kinds (marked?_map bullet?_map) hKinds, eq_of_kinds (marked?_map enumerator?_map) hKinds,
    eq_of_kinds field?_map hKinds]

end Rest

/-! ## Escaped characters -/

/-- What starts a text is found before a character that is not in it. -/
theorem isPrefixOf_before {w : Text} {c : Char} (h : c ∉ w) (before after : Text) :
    w.isPrefixOf (before ++ c :: after) = w.isPrefixOf before := by
  induction w generalizing before with
  | nil => rfl
  | cons m w ih =>
      obtain ⟨hOther, hRest⟩ := List.ne_and_not_mem_of_not_mem_cons h
      cases before with
      | nil =>
          simp only [List.nil_append, List.isPrefixOf, beq_false_of_ne hOther.symm, Bool.false_and]
      | cons d before => simp only [List.cons_append, List.isPrefixOf, ih hRest]

namespace Line

/-- Two lines that differ in one escaped character. -/
structure Replaced (c d : Char) (l m : Line) : Prop where
  raw_eq : ∃ head tail, l.raw = head ++ '\\' :: c :: tail ∧ m.raw = head ++ '\\' :: d :: tail
  cells_eq : ∃ left right k,
    l.cells = left ++ .ofChar c k true :: right ∧ m.cells = left ++ .ofChar d k true :: right
  marks_eq : l.marks = m.marks

/-- Replacing an escaped character of a text replaces it on one line. -/
theorem readAll_replaced {before : Text} (hEven : before.backslashes % 2 = 0) (after : Text)
    {c d : Char} (hc : isBlank c = false) (hd : isBlank d = false) :
    ∃ above below l m, Replaced c d l m ∧
      readAll true (before ++ '\\' :: c :: after) = above ++ l :: below ∧
      readAll true (before ++ '\\' :: d :: after) = above ++ m :: below := by
  obtain ⟨above, below, n, head, tail, hSame, hRead⟩ := readAll_escaped before after
  rw [← hSame] at hEven
  obtain ⟨left, right, k, hCells⟩ := ofText_cells_escaped hEven n tail
  exact ⟨above, below, _, _, ⟨⟨head, tail, rfl, rfl⟩, ⟨left, right, k, hCells c, hCells d⟩, rfl⟩,
    hRead c hc, hRead d hd⟩

namespace Replaced

variable {c d : Char} {l m : Line} (h : Replaced c d l m)
include h

theorem escaped_eq : l.cells.map (·.escaped) = m.cells.map (·.escaped) := by
  obtain ⟨left, right, k, hl, hm⟩ := h.cells_eq
  rw [hl, hm, List.map_append, List.map_append, List.map_cons, List.map_cons]
  rfl

theorem kinds_eq {kind : Char → Char} (hKind : kind c = kind d) :
    l.text.map kind = m.text.map kind := by
  obtain ⟨left, right, k, hl, hm⟩ := h.cells_eq
  simp only [text, hl, hm, List.map_append, List.map_cons, Cell.ofChar, hKind]

/-- There is no backslash in what starts a suppress comment. -/
theorem rule_isSome_eq : (Suppress.rule? l).isSome = (Suppress.rule? m).isSome := by
  obtain ⟨head, tail, hl, hm⟩ := h.raw_eq
  have hMarker : '\\' ∉ Suppress.marker := by decide
  rw [Suppress.rule?, Suppress.rule?, Option.isSome_map, Option.isSome_map, hl, hm,
    List.isSome_isPrefixOf?_eq_isPrefixOf, List.isSome_isPrefixOf?_eq_isPrefixOf,
    isPrefixOf_before hMarker, isPrefixOf_before hMarker]

end Replaced

end Line

theorem Wiki.look_replaced {l m : Line} {c d : Char} (h : l.Replaced c d m)
    (hKind : Wiki.kind c = Wiki.kind d) : Wiki.look l = Wiki.look m :=
  look_eq_of_kinds (h.kinds_eq hKind) h.escaped_eq

theorem Rest.look_replaced {l m : Line} {c d : Char} (h : l.Replaced c d m)
    (hKind : Rest.kind c = Rest.kind d) : Rest.look l = Rest.look m :=
  look_eq_of_kinds (h.kinds_eq hKind) h.escaped_eq h.rule_isSome_eq

namespace Format

open Line

/-- Which character is escaped decides nothing about the block structure of a text, so long as the
patterns of its format find the same with the one character as with the other. They do with
characters of one kind, and where they ask whether a mark is escaped. -/
theorem marks_of_escaped_replaced (before after : Text) (c d : Char)
    (hEven : before.backslashes % 2 = 0) (hc : isBlank c = false) (hd : isBlank d = false) :
    let t := before ++ '\\' :: c :: after
    let u := before ++ '\\' :: d :: after
    ((Wiki.kind c = Wiki.kind d ∨
        (readAll true t).map Wiki.look = (readAll true u).map Wiki.look) →
      (wiki.classify t).lines.map marks = (wiki.classify u).lines.map marks) ∧
    ((Rest.kind c = Rest.kind d ∨
        (readAll true t).map Rest.look = (readAll true u).map Rest.look) →
      (rest.classify t).lines.map marks = (rest.classify u).lines.map marks) := by
  obtain ⟨above, below, l, m, hLine, ht, hu⟩ := readAll_replaced hEven after hc hd
  intro t u
  have hMarks : (readAll true t).map marks = (readAll true u).map marks := by
    simp only [t, u, ht, hu, List.map_append, List.map_cons, hLine.marks_eq]
  have hFound {α : Type} {look : Line → α} (hLook : look l = look m) :
      (readAll true t).map look = (readAll true u).map look := by
    simp only [t, u, ht, hu, List.map_append, List.map_cons, hLook]
  refine ⟨fun hSeen => Wiki.classify_marks ?_ hMarks, fun hSeen => Rest.classify_marks ?_ hMarks⟩
  · exact hSeen.elim (fun hKind => hFound (Wiki.look_replaced hLine hKind)) id
  · exact hSeen.elim (fun hKind => hFound (Rest.look_replaced hLine hKind)) id

/-- A wiki line does not become a list element by an escaped mark, and one mark of structured
text is as good as another. -/
theorem marks_of_escaped_replaced_mark :
    (wiki.classify "\\- item".toList).lines.map marks =
      (wiki.classify "\\+ item".toList).lines.map marks ∧
    (rest.classify "\\- item".toList).lines.map marks =
      (rest.classify "\\+ item".toList).lines.map marks := by
  obtain ⟨hWiki, hRest⟩ := marks_of_escaped_replaced [] " item".toList '-' '+' (by decide)
    (by decide) (by decide)
  exact ⟨hWiki (.inr (by with_unfolding_all decide)), hRest (.inr (by with_unfolding_all decide))⟩

/-- A header is opened by a letter that is escaped, and by no other in its place. So is a list
element of structured text by a mark. -/
theorem exists_escaped_opening :
    (wiki.classify "\\h1. Title".toList).lines.map marks ≠
      (wiki.classify "\\x1. Title".toList).lines.map marks ∧
    (rest.classify "\\- item".toList).lines.map marks ≠
      (rest.classify "\\x item".toList).lines.map marks := by
  with_unfolding_all decide

end Format

end ProseLint
