import ProseLint.Proofs.Markup.SingleLine
import ProseLint.CommonMark.Destination

/-! A link on a line of text. The grammar knows where the address and the title of a link end, but
the walk looks for that place itself, by counting parentheses. So it stops elsewhere when there are
parentheses that do not match in an address in angle brackets or in a title. -/

namespace ProseLint

namespace Text

/-! ## Parentheses -/

/-- How many parentheses are open behind a character. None can be closed if none is open. -/
def nest? (depth : Nat) (c : Char) : Option Nat :=
  if c = '(' then some (depth + 1)
  else if c = ')' then if depth = 0 then none else some (depth - 1)
  else some depth

/-- How many parentheses are open behind a text. -/
def depthAfter? (depth : Nat) (t : Text) : Option Nat := t.foldlM nest? depth

/-- Each parenthesis of the text has its match. -/
def IsBalanced (t : Text) : Prop := t.depthAfter? 0 = some 0

instance (t : Text) : Decidable t.IsBalanced := inferInstanceAs (Decidable (_ = _))

theorem depthAfter?_cons (depth : Nat) (c : Char) (rest : Text) :
    depthAfter? depth (c :: rest) = (nest? depth c).bind (depthAfter? · rest) :=
  List.foldlM_cons

theorem depthAfter?_append (depth : Nat) (t more : Text) :
    depthAfter? depth (t ++ more) = (depthAfter? depth t).bind (depthAfter? · more) :=
  List.foldlM_append

theorem depthAfter?_of_not_mem {t : Text} (hOpen : '(' ∉ t) (hClose : ')' ∉ t) (depth : Nat) :
    t.depthAfter? depth = some depth := by
  induction t with
  | nil => rfl
  | cons c rest ih =>
      rw [List.mem_cons, not_or] at hOpen hClose
      rw [depthAfter?_cons, nest?, if_neg (Ne.symm hOpen.1), if_neg (Ne.symm hClose.1)]
      exact ih hOpen.2 hClose.2

theorem nest?_add {depth after : Nat} {c : Char} (h : nest? depth c = some after) (outer : Nat) :
    nest? (depth + outer) c = some (after + outer) := by
  unfold nest? at h ⊢
  split_ifs at h ⊢ <;> simp only [Option.some.injEq] at h ⊢ <;> omega

/-- What is open further out does not matter. -/
theorem depthAfter?_add {t : Text} {depth after : Nat} (h : t.depthAfter? depth = some after)
    (outer : Nat) : t.depthAfter? (depth + outer) = some (after + outer) := by
  induction t generalizing depth with
  | nil =>
      cases h
      rfl
  | cons c rest ih =>
      rw [depthAfter?_cons] at h ⊢
      obtain ⟨next, hNext, hRest⟩ := Option.bind_eq_some_iff.mp h
      rw [nest?_add hNext outer]
      exact ih hRest

theorem IsBalanced.depthAfter?_eq {t : Text} (h : t.IsBalanced) (depth : Nat) :
    t.depthAfter? depth = some depth := by
  simpa using depthAfter?_add h depth

end Text

namespace Markdown

open CommonMark

/-- Only behind the first of two texts is what is left the second one. -/
theorem drop_append_eq_right_iff {t more : Text} {n : Nat} (hLe : n ≤ (t ++ more).length) :
    (t ++ more).drop n = more ↔ n = t.length := by
  constructor
  · intro hSame
    have hLength := congrArg List.length hSame
    rw [List.length_drop, List.length_append] at hLength
    rw [List.length_append] at hLe
    omega
  · rintro rfl
    exact List.drop_left

/-! ## What stands in the parentheses of a link -/

/-- An address as it is written, with what of it is hidden from the grammar: in angle brackets
parentheses mean nothing, and elsewhere they match. -/
inductive IsAddress : Text → Text → Prop where
  | angled (inside : Text) (hInside : '<' ∉ inside ∧ '>' ∉ inside) :
      IsAddress ('<' :: (inside ++ ['>'])) inside
  | bare (address : Text) (hStarts : address.head? ≠ some '<')
      (hGoes : ∀ c ∈ address, endsAddress c = false) (hBalanced : address.IsBalanced) :
      IsAddress address []

/-- An address with or without a title behind it, and what is hidden of both. A title in
parentheses has no others in it. -/
inductive IsLinkTail : Text → Text → Prop where
  | untitled {address hidden : Text} (hAddress : IsAddress address hidden) :
      IsLinkTail address hidden
  | quoted {address hidden : Text} (hAddress : IsAddress address hidden) (gap title : Text)
      (quote : Char) (hGap : gap ≠ [] ∧ ∀ c ∈ gap, Line.isIndent c = true)
      (hQuote : quote = '"' ∨ quote = '\'') (hTitle : quote ∉ title) :
      IsLinkTail (address ++ (gap ++ (quote :: title ++ [quote]))) (hidden ++ title)
  | enclosed {address hidden : Text} (hAddress : IsAddress address hidden) (gap title : Text)
      (hGap : gap ≠ [] ∧ ∀ c ∈ gap, Line.isIndent c = true)
      (hTitle : '(' ∉ title ∧ ')' ∉ title) :
      IsLinkTail (address ++ (gap ++ ('(' :: title ++ [')']))) hidden

/-! ## Addresses as they are read -/

theorem angledLength?_cons {c : Char} (hPlain : c ≠ '\\') {rest : Text} {n : Nat}
    (h : angledLength? (c :: rest) = some n) :
    c ≠ '<' ∧ (c = '>' ∧ n = 0 ∨ c ≠ '>' ∧ ∃ m, angledLength? rest = some m ∧ n = m + 1) := by
  rw [angledLength?] at h
  · split at h
    · cases h
    · next hOther =>
        rw [not_or] at hOther
        refine ⟨hOther.2, ?_⟩
        split at h
        · next hEnd => exact .inl ⟨hEnd, (Option.some.inj h).symm⟩
        · next hGoes =>
            obtain ⟨m, hRest, rfl⟩ := Option.map_eq_some_iff.mp h
            exact .inr ⟨hGoes, m, hRest, rfl⟩
  · exact fun _ _ hSlash => absurd hSlash hPlain

/-- An address in angle brackets is read up to the first of these, and it is the closing one. -/
theorem angledLength?_eq_some {t : Text} (hPlain : '\\' ∉ t) {n : Nat}
    (h : angledLength? t = some n) :
    ∃ inside rest, t = inside ++ '>' :: rest ∧ inside.length = n ∧
      '<' ∉ inside ∧ '>' ∉ inside := by
  induction t generalizing n with
  | nil => cases h
  | cons c rest ih =>
      rw [List.mem_cons, not_or] at hPlain
      obtain ⟨hOpen, ⟨rfl, rfl⟩ | ⟨hGoes, m, hRest, rfl⟩⟩ :=
        angledLength?_cons (Ne.symm hPlain.1) h
      · exact ⟨[], rest, rfl, rfl, List.not_mem_nil, List.not_mem_nil⟩
      · obtain ⟨inside, more, rfl, rfl, hNone, hNoneCloses⟩ := ih hPlain.2 hRest
        refine ⟨c :: inside, more, rfl, rfl, ?_, ?_⟩
        · exact List.not_mem_cons_of_ne_of_not_mem (Ne.symm hOpen) hNone
        · exact List.not_mem_cons_of_ne_of_not_mem (Ne.symm hGoes) hNoneCloses

theorem bareLength?_cons {c : Char} (hPlain : c ≠ '\\') {rest : Text} {depth n : Nat}
    (h : bareLength? depth (c :: rest) = some n) :
    depth = 0 ∧ n = 0 ∨ endsAddress c = false ∧
      ∃ next m, Text.nest? depth c = some next ∧ bareLength? next rest = some m ∧ n = m + 1 := by
  unfold Text.nest?
  rw [bareLength?] at h
  · split at h
    · split at h
      · next hZero => exact .inl ⟨hZero, (Option.some.inj h).symm⟩
      · cases h
    · next hGoes =>
        rw [Bool.not_eq_true] at hGoes
        split at h
        · split at h
          · cases h
          · obtain ⟨m, hRest, rfl⟩ := Option.map_eq_some_iff.mp h
            exact .inr ⟨hGoes, _, m, if_pos ‹_›, hRest, rfl⟩
        · split at h
          · split at h
            · next hZero => exact .inl ⟨hZero, (Option.some.inj h).symm⟩
            · obtain ⟨m, hRest, rfl⟩ := Option.map_eq_some_iff.mp h
              refine .inr ⟨hGoes, _, m, ?_, hRest, rfl⟩
              rw [if_neg ‹_›, if_pos ‹_›, if_neg ‹_›]
          · obtain ⟨m, hRest, rfl⟩ := Option.map_eq_some_iff.mp h
            refine .inr ⟨hGoes, _, m, ?_, hRest, rfl⟩
            rw [if_neg ‹_›, if_neg ‹_›]
  · exact fun _ _ hSlash => absurd hSlash hPlain

/-- Without angle brackets an address is read up to a place where all its parentheses match. -/
theorem bareLength?_eq_some {t : Text} (hPlain : '\\' ∉ t) {depth n : Nat}
    (h : bareLength? depth t = some n) :
    ∃ address rest, t = address ++ rest ∧ address.length = n ∧
      address.depthAfter? depth = some 0 ∧ ∀ c ∈ address, endsAddress c = false := by
  induction t generalizing depth n with
  | nil =>
      rw [bareLength?] at h
      split at h
      · next hZero =>
          cases h
          exact ⟨[], [], rfl, rfl, congrArg some hZero, by simp⟩
      · cases h
  | cons c rest ih =>
      rw [List.mem_cons, not_or] at hPlain
      obtain ⟨rfl, rfl⟩ | ⟨hGoes, next, m, hNext, hRest, rfl⟩ :=
        bareLength?_cons (Ne.symm hPlain.1) h
      · exact ⟨[], c :: rest, rfl, rfl, rfl, by simp⟩
      · obtain ⟨address, more, rfl, rfl, hDepth, hAll⟩ := ih hPlain.2 hRest
        refine ⟨c :: address, more, rfl, rfl, ?_, List.forall_mem_cons.mpr ⟨hGoes, hAll⟩⟩
        rw [Text.depthAfter?_cons, hNext]
        exact hDepth

/-- Without backslashes, what is read as the address of a link is one. -/
theorem isAddress_of_destination? {t url : Text} (hPlain : '\\' ∉ t) {n : Nat}
    (h : destination? t = some (url, n)) : ∃ hidden, IsAddress (t.take n) hidden := by
  unfold destination? at h
  split at h
  · next rest =>
      rw [List.mem_cons, not_or] at hPlain
      obtain ⟨m, hLength, hRead⟩ := Option.map_eq_some_iff.mp h
      obtain ⟨inside, more, rfl, rfl, hNone⟩ := angledLength?_eq_some hPlain.2 hLength
      obtain rfl : inside.length + 2 = n := congrArg Prod.snd hRead
      refine ⟨inside, ?_⟩
      have hSplit : '<' :: (inside ++ '>' :: more) = '<' :: (inside ++ ['>']) ++ more := by simp
      rw [hSplit, List.take_left' (by simp)]
      exact .angled inside hNone
  · next hStarts =>
      split at h
      · next m hLength =>
          obtain ⟨address, more, rfl, hSize, hDepth, hGoes⟩ := bareLength?_eq_some hPlain hLength
          obtain rfl : m + 1 = n := congrArg Prod.snd (Option.some.inj h)
          refine ⟨[], ?_⟩
          rw [List.take_left' hSize]
          refine .bare address (fun hOpen => ?_) hGoes hDepth
          obtain ⟨others, rfl⟩ := List.head?_eq_some_iff.mp hOpen
          exact hStarts _ rfl
      · cases h

/-! ## What of it counts -/

theorem IsAddress.depthAfter?_eq {address hidden : Text} (h : IsAddress address hidden)
    (depth : Nat) : address.depthAfter? depth = hidden.depthAfter? depth := by
  cases h with
  | angled _ hInside =>
      have hOpen : Text.nest? depth '<' = some depth := rfl
      have hClose : (Text.depthAfter? · ['>']) = some := rfl
      rw [Text.depthAfter?_cons, hOpen, Option.bind_some, Text.depthAfter?_append, hClose,
        Option.bind_fun_some]
  | bare _ hStarts hGoes hBalanced => exact hBalanced.depthAfter?_eq depth

theorem depthAfter?_gap {gap : Text} (hGap : ∀ c ∈ gap, Line.isIndent c = true) (depth : Nat) :
    gap.depthAfter? depth = some depth := by
  apply Text.depthAfter?_of_not_mem
  · exact fun hMem => absurd (hGap _ hMem) (by decide)
  · exact fun hMem => absurd (hGap _ hMem) (by decide)

/-- Only what is hidden counts. -/
theorem IsLinkTail.depthAfter?_eq {tail hidden : Text} (h : IsLinkTail tail hidden)
    (depth : Nat) : tail.depthAfter? depth = hidden.depthAfter? depth := by
  cases h with
  | untitled hAddress => exact hAddress.depthAfter?_eq depth
  | @quoted address inside hAddress gap title quote hGap hQuote hTitle =>
      have hQuiet : ∀ d, Text.depthAfter? d [quote] = some d := by
        rcases hQuote with rfl | rfl <;> exact fun d => rfl
      rw [Text.depthAfter?_append, Text.depthAfter?_append, hAddress.depthAfter?_eq]
      refine congrArg _ (funext fun d => ?_)
      rw [Text.depthAfter?_append, depthAfter?_gap hGap.2, Option.bind_some, List.cons_append,
        ← List.singleton_append, Text.depthAfter?_append, hQuiet, Option.bind_some,
        Text.depthAfter?_append]
      simp [hQuiet]
  | enclosed hAddress gap title hGap hTitle =>
      have hQuiet : ∀ d, Text.depthAfter? d ('(' :: title ++ [')']) = some d := by
        intro d
        have hInside := Text.depthAfter?_of_not_mem hTitle.1 hTitle.2 (d + 1)
        have hOpen : Text.nest? d '(' = some (d + 1) := rfl
        rw [List.cons_append, Text.depthAfter?_cons, hOpen, Option.bind_some,
          Text.depthAfter?_append, hInside]
        rfl
      have hBehind : ∀ d, Text.depthAfter? d (gap ++ ('(' :: title ++ [')'])) = some d := by
        intro d
        rw [Text.depthAfter?_append, depthAfter?_gap hGap.2, Option.bind_some, hQuiet]
      rw [Text.depthAfter?_append, hAddress.depthAfter?_eq]
      simp only [hBehind, Option.bind_fun_some]

theorem IsLinkTail.isBalanced_iff {tail hidden : Text} (h : IsLinkTail tail hidden) :
    tail.IsBalanced ↔ hidden.IsBalanced :=
  Eq.congr_left (h.depthAfter?_eq 0)

/-! ## Counting parentheses -/

namespace Entry

theorem parenthesized?_bounds {depth n : Nat} {entries : List Entry}
    (h : parenthesized? depth entries = some n) : 0 < n ∧ n ≤ entries.length := by
  induction entries generalizing depth n with
  | nil => cases h
  | cons e rest ih =>
      have hLater : ∀ d, (parenthesized? d rest).map (· + 1) = some n →
          0 < n ∧ n ≤ (e :: rest).length := by
        intro d hSome
        obtain ⟨m, hRest, rfl⟩ := Option.map_eq_some_iff.mp hSome
        have hLe := (ih hRest).2
        simp only [List.length_cons]
        omega
      rw [parenthesized?] at h
      split at h
      · exact hLater _ h
      · split at h
        · split at h
          · cases h
            simp
          · exact hLater _ h
        · exact hLater _ h

/-- The parenthesis behind some entries closes the outermost one if theirs match, and only then. -/
theorem parenthesized?_eq_some_iff {inner : List Entry} (hFresh : ∀ e ∈ inner, e.IsFresh)
    {closing : Entry} (hClosing : closing.glyph = some ')') (rest : List Entry) (depth : Nat) :
    parenthesized? (depth + 1) (inner ++ closing :: rest) = some (inner.length + 1) ↔
      Text.depthAfter? depth (inner.map (·.char)) = some 0 := by
  induction inner generalizing depth with
  | nil =>
      have hNot : closing.glyph ≠ some '(' := by rw [hClosing]; decide
      rw [List.nil_append, parenthesized?, if_neg hNot, if_pos hClosing]
      cases depth with
      | zero => simp [Text.depthAfter?]
      | succ depth =>
          rw [if_neg (by omega)]
          apply iff_of_false
          · intro hSome
            obtain ⟨m, hRest, hOne⟩ := Option.map_eq_some_iff.mp hSome
            have hPos := (parenthesized?_bounds hRest).1
            simp only [List.length_nil] at hOne
            omega
          · exact fun hSame => nomatch hSame
  | cons e inner ih =>
      obtain ⟨hFirst, hLater⟩ := List.forall_mem_cons.mp hFresh
      have hMap : ∀ o : Option Nat, o.map (· + 1) = some ((e :: inner).length + 1) ↔
          o = some (inner.length + 1) := by
        intro o
        simp [Option.map_eq_some_iff]
      rw [List.cons_append, parenthesized?, List.map_cons, Text.depthAfter?_cons, hFirst.glyph,
        Text.nest?]
      simp only [Option.some.injEq]
      split
      · rw [hMap]
        exact ih hLater (depth + 1)
      · split
        · cases depth with
          | zero => simp
          | succ depth =>
              rw [if_neg (by omega), hMap]
              exact ih hLater depth
        · rw [hMap]
          exact ih hLater depth

/-- What is taken for the address of a link ends with the parenthesis behind it just when the
parentheses in between match. -/
theorem tailLength_eq_iff {tail more : Text} {entries : List Entry}
    (hFresh : ∀ e ∈ entries, e.IsFresh)
    (h : entries.map (·.char) = '(' :: (tail ++ ')' :: more)) :
    tailLength entries = tail.length + 2 ↔ tail.IsBalanced := by
  obtain ⟨opening, _, rfl, hOpening, hBehind⟩ := List.map_eq_cons_iff.mp h
  obtain ⟨inner, _, rfl, rfl, hClosed⟩ := List.map_eq_append_iff.mp hBehind
  obtain ⟨closing, rest, rfl, hClosing, hRest⟩ := List.map_eq_cons_iff.mp hClosed
  have hFirst : opening.glyph = some '(' := hOpening ▸ (hFresh opening (by simp)).glyph
  have hLast : closing.glyph = some ')' := hClosing ▸ (hFresh closing (by simp)).glyph
  have hInner : ∀ e ∈ inner, e.IsFresh := fun e hMem => hFresh e (by simp [hMem])
  have hCount := parenthesized?_eq_some_iff hInner hLast rest 0
  have hHead : headGlyph (opening :: (inner ++ closing :: rest)) = some '(' := hFirst
  rw [Text.IsBalanced, ← hCount, tailLength, hHead]
  simp only [parenthesized?, if_pos hFirst, List.length_map]
  cases parenthesized? 1 (inner ++ closing :: rest) with
  | none => simp
  | some n => simp

theorem tailLength_le_length (entries : List Entry) : tailLength entries ≤ entries.length := by
  unfold tailLength
  split
  · cases hAll : parenthesized? 0 entries with
    | none => simp
    | some n => exact (parenthesized?_bounds hAll).2
  · cases hIndex : (entries.drop 1).findIdx? (·.glyph == some ']') with
    | none => simp
    | some i =>
        have hLt := (List.findIdx?_eq_some_iff_getElem.mp hIndex).1
        rw [List.length_drop] at hLt
        simp only [Option.map_some, Option.getD_some]
        omega
  · exact Nat.zero_le _

end Entry

/-! ## The walk over a link -/

namespace Cursor

/-- The walk with the links that it has met. -/
def linked (c : Cursor) (links : List (Nat × Text)) : Cursor := { c with links := links }

theorem skip_linked (c : Cursor) (links : List (Nat × Text)) (text : Text) :
    (c.linked links).skip text = (c.skip text).linked links := rfl

theorem consumeTail_linked (c : Cursor) (links : List (Nat × Text)) (start : Option Nat) :
    (c.linked links).consumeTail start = (c.consumeTail start).linked links := by
  have hFind : (c.linked links).find? [']'] = c.find? [']'] := rfl
  rw [consumeTail, consumeTail, hFind]
  cases c.find? [']'] <;> rfl

variable {behind rest : List Entry} {e : Entry}

theorem between_find?_cons {x : Char} (hLine : x ≠ '\n') (h : e.glyph = some x) :
    (between behind (e :: rest)).find? [x] = some (behind.length, behind.length + 1) := by
  have hNeedle : '\n' ∉ [x] := by simpa using hLine.symm
  have hHere : [e].map (·.glyph) = [x].map some := by simp [h]
  rw [between_find?]
  exact Entry.find?_append hNeedle (List.cons_ne_nil e []) hHere behind.length rest

theorem between_openLink {opening : Char} (hLine : opening ≠ '\n') (h : e.glyph = some opening)
    (url : Text) : (between behind (e :: rest)).openLink opening url =
      (between (behind ++ [e.erased]) rest).linked [(behind.length, url)] := by
  have hErase := between_eraseAndPass behind [e] rest [] rfl rfl
  rw [openLink, between_find?_cons hLine h]
  exact congrArg (linked · [(behind.length, url)]) hErase

/-- The bracket that closes a label is erased with what belongs to it. -/
theorem between_consumeTail (h : e.glyph = some ']') :
    (between behind (e :: rest)).consumeTail none =
      between (behind ++ (e :: rest.take (Entry.tailLength rest)).map Entry.erased)
        (rest.drop (Entry.tailLength rest)) := by
  have hRest : (between behind (e :: rest)).entries.drop (behind.length + 1) = rest := by
    rw [← List.drop_drop]
    change ((behind ++ e :: rest).drop behind.length).drop 1 = rest
    rw [List.drop_left]
    rfl
  have hLe := Entry.tailLength_le_length rest
  have hStop : behind.length + 1 + Entry.tailLength rest =
      behind.length + (e :: rest.take (Entry.tailLength rest)).length := by
    rw [List.length_cons, List.length_take, Nat.min_eq_left hLe]
    omega
  have hErase := between_eraseAndPass behind (e :: rest.take (Entry.tailLength rest))
    (rest.drop (Entry.tailLength rest)) [] rfl hStop
  rw [List.nil_append, List.nil_append, List.cons_append, List.take_append_drop] at hErase
  rw [consumeTail, between_find?_cons (by decide) h]
  simp only [hRest, Option.getD_none]
  exact hErase

end Cursor

section Link

variable {before label tail hidden after : Text} {first inner rest : List Entry}
  {opening closing : Entry}

/-- A link with text before and behind it, as the grammar reads it. -/
def linkPieces (before label after url : Text) : List Inline :=
  [.text before, .linkOpen false url, .text label, .linkClose, .text after]

/-- The same as it is written. -/
def linkLine (before label tail after : Text) : Text :=
  before ++ '[' :: (label ++ ']' :: '(' :: (tail ++ ')' :: after))

/-- The walk erases the brackets around the label and what it takes for the address. -/
theorem exists_walk_link (first inner rest : List Entry) (hOpening : opening.glyph = some '[')
    (hClosing : closing.glyph = some ']') (after url : Text) :
    ∃ c : Cursor,
      (linkPieces (first.map (·.char)) (inner.map (·.char)) after url).foldlM Walk.pass
        ⟨.between [] (first ++ opening :: (inner ++ closing :: rest)), []⟩ = .ok ⟨c, []⟩ ∧
      c.entries = first ++ ([opening].map Entry.erased ++ (inner ++
        ((closing :: rest.take (Entry.tailLength rest)).map Entry.erased ++
          rest.drop (Entry.tailLength rest)))) ∧
      c.links = [(first.length, url)] := by
  have hText : Walk.pass ⟨.between [] (first ++ opening :: (inner ++ closing :: rest)), []⟩
      (.text (first.map (·.char))) =
        .ok ⟨.between first (opening :: (inner ++ closing :: rest)), []⟩ := by
    rw [Walk.pass, Walk.change, Cursor.between_skip, List.nil_append]
  have hOpen : Walk.pass ⟨.between first (opening :: (inner ++ closing :: rest)), []⟩
      (.linkOpen false url) = .ok ⟨(Cursor.between (first ++ [opening.erased])
        (inner ++ closing :: rest)).linked [(first.length, url)], ['[']⟩ := by
    rw [← Cursor.between_openLink (by decide) hOpening]
    rfl
  have hLabel : Walk.pass ⟨(Cursor.between (first ++ [opening.erased])
      (inner ++ closing :: rest)).linked [(first.length, url)], ['[']⟩
        (.text (inner.map (·.char))) = .ok ⟨(Cursor.between (first ++ [opening.erased] ++ inner)
          (closing :: rest)).linked [(first.length, url)], ['[']⟩ := by
    rw [Walk.pass, Walk.change, Cursor.skip_linked, Cursor.between_skip]
  have hClose : Walk.pass ⟨(Cursor.between (first ++ [opening.erased] ++ inner)
      (closing :: rest)).linked [(first.length, url)], ['[']⟩ .linkClose =
        .ok ⟨((Cursor.between (first ++ [opening.erased] ++ inner) (closing :: rest)).consumeTail
          none).linked [(first.length, url)], []⟩ := by
    rw [← Cursor.consumeTail_linked]
    rfl
  rw [linkPieces, foldlM_pass_cons hText, foldlM_pass_cons hOpen, foldlM_pass_cons hLabel,
    foldlM_pass_cons hClose, Cursor.between_consumeTail hClosing]
  refine ⟨_, rfl, ?_, rfl⟩
  simp [Cursor.skip, Cursor.moveTo, Cursor.linked, Cursor.between]

theorem stripRight_linkLine (before label tail after : Text) :
    (linkLine before label tail after).stripRight =
      linkLine before label tail after.stripRight := by
  let link := before ++ '[' :: (label ++ ']' :: '(' :: tail) ++ [')']
  have hEnds : Text.EndsVisibly link := ⟨_, ')', rfl, by decide⟩
  have hSplit : ∀ more, linkLine before label tail more = link ++ more := by
    intro more
    simp [linkLine, link]
  rw [hSplit, hSplit, Text.stripRight_append hEnds]

/-- What is left of the line: as much of it is taken for the address as the parentheses tell. -/
theorem eraseInline_linkPieces (hPlain : '\\' ∉ linkLine before label tail after) (url : Text)
    (number : Nat) :
    let l := Line.ofText number true (linkLine before label tail after)
    ∃ n done, eraseInline (linkPieces before label after url) [l] = .ok [done] ∧
      n ≤ tail.length + 2 + after.stripRight.length ∧
      (n = tail.length + 2 ↔ tail.IsBalanced) ∧ done.origin = l.origin ∧
      done.links = [((before.length : Int) + 1, url)] ∧
      done.keptText =
        before ++ (label ++ ('(' :: (tail ++ ')' :: after.stripRight)).drop n) := by
  intro l
  have hFresh : ∀ e ∈ Entry.ofLines [l], e.IsFresh :=
    fun e hMem => ofLines_ofText_isFresh hPlain number hMem
  have hPlaces : ∀ e ∈ Entry.ofLines [l], e.place ≠ .lineBreak :=
    fun e hMem => ofLines_singleton_place hMem
  have hKept : ∀ c ∈ l.cells, c.kept = true :=
    fun c hMem => (ofText_isFresh hPlain number hMem).1
  have hChars := (ofLines_ofText_char hPlain number).trans
    (stripRight_linkLine before label tail after)
  obtain ⟨first, _, hAll, rfl, hBehind⟩ := List.map_eq_append_iff.mp hChars
  obtain ⟨opening, _, rfl, hOpening, hInside⟩ := List.map_eq_cons_iff.mp hBehind
  obtain ⟨inner, _, rfl, rfl, hClosed⟩ := List.map_eq_append_iff.mp hInside
  obtain ⟨closing, rest, rfl, hClosing, hRest⟩ := List.map_eq_cons_iff.mp hClosed
  change Entry.ofLines [l] = _ at hAll
  rw [hAll] at hFresh hPlaces
  have hOpens : opening.glyph = some '[' := hOpening ▸ (hFresh opening (by simp)).glyph
  have hCloses : closing.glyph = some ']' := hClosing ▸ (hFresh closing (by simp)).glyph
  have hFreshRest : ∀ e ∈ rest, e.IsFresh := fun e hMem => hFresh e (by simp [hMem])
  have hRestLength := Entry.tailLength_eq_iff hFreshRest hRest
  have hRestBound := Entry.tailLength_le_length rest
  have hSize : rest.length = tail.length + 2 + after.stripRight.length := by
    have hSame := congrArg List.length hRest
    simp only [List.length_map, List.length_cons, List.length_append] at hSame
    omega
  rw [hSize] at hRestBound
  obtain ⟨c, hWalk, hEntries, hLinks⟩ :=
    exists_walk_link first inner rest hOpens hCloses after url
  rw [← hAll] at hWalk
  generalize Entry.tailLength rest = n at *
  have hParts : first ++ opening :: (inner ++ closing :: rest) =
      first ++ ([opening] ++ (inner ++ ((closing :: rest.take n) ++ rest.drop n))) := by simp
  rw [hParts] at hAll hFresh hPlaces
  simp only [List.forall_mem_append] at hFresh hPlaces
  obtain ⟨hFreshFirst, hFreshOpening, hFreshInner, hFreshTail, hFreshMore⟩ := hFresh
  obtain ⟨-, hOpeningPlace, -, hTailPlaces, -⟩ := hPlaces
  have hCovers : c.Covers l := by
    constructor
    · simp only [hEntries, hAll, List.map_append, Entry.map_origin_erased]
    · simp only [hEntries, List.forall_mem_append]
      exact ⟨fun e hMem => (hFreshFirst e hMem).isSound, Entry.isSound_erased hFreshOpening,
        fun e hMem => (hFreshInner e hMem).isSound, Entry.isSound_erased hFreshTail,
        fun e hMem => (hFreshMore e hMem).isSound⟩
  have hLength : first.length < l.cells.length := by
    have hSame := congrArg List.length hAll
    rw [ofLines_singleton hKept, List.length_mapIdx] at hSame
    rw [hSame]
    simp
  have hChanges : Changes (fun _ => False) False l (applyWalk c 0 l) := applyWalk_changes c 0 l
  refine ⟨n, _, eraseInline_singleton hWalk, hRestBound, hRestLength,
    hChanges.origin_eq, ?_, ?_⟩
  · rw [hCovers.links_eq hKept hLength hLinks, List.length_map]
    rfl
  · rw [hCovers.keptText_eq hKept, hEntries, ← hRest, ← List.map_drop]
    simp only [List.map_append, kept_append, Entry.map_mark hFreshFirst, Entry.map_mark hFreshInner,
      Entry.map_mark hFreshMore, Entry.map_mark_erased hOpeningPlace,
      Entry.map_mark_erased hTailPlaces, kept_map_true, kept_map_false, List.nil_append]

/-- The end of the address is where the walk finds it just when the hidden parentheses match. Then
the label and nothing else is left of the link, and otherwise not. The link is recorded in any
case, behind the bracket before its label. -/
theorem eraseInline_link_iff (hLabel : label ≠ []) (hTail : IsLinkTail tail hidden)
    (hPlain : '\\' ∉ linkLine before label tail after) (url : Text) (number : Nat) :
    ∃ done, eraseInline (linkPieces before label after url)
        [Line.ofText number true (linkLine before label tail after)] = .ok [done] ∧
      done.links = [((before.length : Int) + 1, url)] ∧
      done.charAt ((before.length : Int) + 1) = label.head? ∧
      (done.keptText = before ++ (label ++ after.stripRight) ↔ hidden.IsBalanced) := by
  obtain ⟨n, done, hDone, hBound, hLength, hOrigin, hLinks, hKept⟩ :=
    eraseInline_linkPieces hPlain url number
  refine ⟨done, hDone, hLinks, ?_, ?_⟩
  · have hAt : (before.length : Int) + 1 = ((before.length + 1 : Nat) : Int) := by omega
    rw [hAt, Line.charAt_natCast, Line.text_eq_of_origin hOrigin, text_ofText hPlain,
      stripRight_linkLine]
    obtain ⟨c, more, rfl⟩ := List.exists_cons_of_ne_nil hLabel
    simp [linkLine]
  · have hSplit : '(' :: (tail ++ ')' :: after.stripRight) =
        '(' :: tail ++ [')'] ++ after.stripRight := by simp
    rw [hKept, List.append_right_inj, List.append_right_inj, ← hTail.isBalanced_iff, ← hLength,
      hSplit, drop_append_eq_right_iff]
    · simp
    · simp only [List.length_append, List.length_cons, List.length_nil]
      omega

/-- Matching parentheses in a title behind an address with parentheses of its own. -/
theorem eraseInline_link_iff_titled :
    let tail := "a(b) \"c (d)\"".toList
    IsLinkTail tail "c (d)".toList ∧ "see".toList ≠ [] ∧
      '\\' ∉ linkLine "Please ".toList "see".toList tail " it.".toList ∧
      ∃ done, eraseInline (linkPieces "Please ".toList "see".toList " it.".toList "a(b)".toList)
          [Line.ofText 1 true "Please [see](a(b) \"c (d)\") it.".toList] = .ok [done] ∧
        done.links = [(8, "a(b)".toList)] ∧ done.charAt 8 = some 's' ∧
        done.keptText = "Please see it.".toList := by
  intro tail
  have hAddress : IsAddress "a(b)".toList [] :=
    .bare "a(b)".toList (by decide) (by simp [endsAddress]) (by decide)
  have hTail : IsLinkTail tail "c (d)".toList :=
    .quoted hAddress [' '] "c (d)".toList '"' (by simp [Line.isIndent]) (by simp) (by decide)
  have hLabel : "see".toList ≠ [] := by decide
  have hPlain : '\\' ∉ linkLine "Please ".toList "see".toList tail " it.".toList := by decide
  obtain ⟨done, hDone, hLinks, hChar, hKept⟩ :=
    eraseInline_link_iff hLabel hTail hPlain "a(b)".toList 1
  exact ⟨hTail, hLabel, hPlain, done, hDone, hLinks, hChar, hKept.mpr (by decide)⟩

/-- An address in angle brackets with a parenthesis in it leaves its end in the text. -/
theorem exists_link_tail_left :
    IsLinkTail "<b)c>".toList "b)c".toList ∧
      linkLine [] ['a'] "<b)c>".toList " d".toList = "[a](<b)c>) d".toList ∧
      ∃ done, eraseInline (linkPieces [] ['a'] " d".toList "b)c".toList)
          [Line.ofText 1 true "[a](<b)c>) d".toList] = .ok [done] ∧
        done.keptText = "ac>) d".toList ∧ done.keptText ≠ "a d".toList := by
  refine ⟨.untitled (.angled "b)c".toList (by decide)), rfl, _, rfl, ?_⟩
  decide

end Link

end Markdown

end ProseLint
