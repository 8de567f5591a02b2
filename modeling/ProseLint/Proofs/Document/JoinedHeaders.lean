import ProseLint.Document.Tree
import ProseLint.Proofs.Layout.Passage
import ProseLint.Proofs.Text.Pieces

/-! Headers of several sentences, joined into one. The content is joined apart from the places, and
yet every character of the joined sentence has its place: a character of a header sentence keeps
the one that it had, and a space between two of them stands one further than what is before it. -/

namespace ProseLint

/-- The place one further on the same line. -/
def Position.next (p : Position) : Position := ⟨p.line, p.offset + 1⟩

namespace Sentence

/-- Every character of the sentence has a place. The sentence may be empty. -/
def IsAligned (s : Sentence) : Prop := s.positions.length = s.content.length

theorem IsAligned.length_placed {s : Sentence} (h : s.IsAligned) :
    s.placed.length = s.content.length := by
  rw [placed, List.length_zip, h, Nat.min_self]

theorem IsAligned.map_placed {s : Sentence} (h : s.IsAligned) :
    s.placed.map Prod.snd = s.positions :=
  List.map_snd_zip (Nat.le_of_eq h)

/-- The index at which a sentence starts that is joined behind others, each with a space. -/
def joinStart : List Sentence → Nat
  | [] => 0
  | s :: rest => s.length + 1 + joinStart rest

theorem joinStart_cons (s : Sentence) (rest : List Sentence) :
    joinStart (s :: rest) = s.length + 1 + joinStart rest := rfl

theorem joinStart_concat (before : List Sentence) (s : Sentence) :
    joinStart (before ++ [s]) = joinStart before + s.length + 1 := by
  induction before with
  | nil => simp [joinStart]
  | cons first rest ih =>
      rw [List.cons_append, joinStart_cons, joinStart_cons, ih]
      omega

/-! ## Contents and places -/

theorem joined_content (header : List Sentence) :
    (joined header).content = Text.join [' '] (header.map (·.content)) := by
  cases header <;> rfl

theorem length_joined {header : List Sentence} (hSome : header ≠ []) :
    (joined header).length + 1 = joinStart header := by
  rw [length, joined_content]
  induction header with
  | nil => exact absurd rfl hSome
  | cons s rest ih =>
      cases rest with
      | nil => simp [Text.join, joinStart, length]
      | cons next rest =>
          have hRest := ih (List.cons_ne_nil next rest)
          rw [joinStart_cons, ← hRest, List.map_cons, List.map_cons, Text.join_cons_cons]
          simp [length]
          omega

theorem length_joinPositions {rest : List Sentence} (hAligned : ∀ s ∈ rest, s.IsAligned)
    (places : List Position) :
    (joinPositions places rest).length = places.length + joinStart rest := by
  induction rest generalizing places with
  | nil => rfl
  | cons s rest ih =>
      obtain ⟨hFirst, hRest⟩ := List.forall_mem_cons.mp hAligned
      rw [joinPositions, ih hRest, List.length_append, List.length_cons, hFirst, joinStart_cons,
        length]
      omega

/-- The places of one more sentence come behind all others. -/
theorem joinPositions_concat (places : List Position) (rest : List Sentence) (s : Sentence) :
    joinPositions places (rest ++ [s]) = joinPositions places rest ++
      ((joinPositions places rest).getLast?.getD s.position).next :: s.positions := by
  induction rest generalizing places with
  | nil => rfl
  | cons first rest ih => rw [List.cons_append, joinPositions, joinPositions, ih]

theorem length_joinPositions_eq {s : Sentence} {rest : List Sentence}
    (hAligned : ∀ part ∈ s :: rest, part.IsAligned) :
    (joinPositions s.positions rest).length = (joined (s :: rest)).content.length := by
  obtain ⟨hFirst, hRest⟩ := List.forall_mem_cons.mp hAligned
  have hLength : (joined (s :: rest)).content.length + 1 =
      s.content.length + 1 + joinStart rest := length_joined (List.cons_ne_nil s rest)
  rw [length_joinPositions hRest, hFirst]
  omega

/-- The places are not made anew: they are missing only if there are no characters. -/
theorem joined_positions {s : Sentence} {rest : List Sentence}
    (hAligned : ∀ part ∈ s :: rest, part.IsAligned) :
    (joined (s :: rest)).positions = joinPositions s.positions rest :=
  ofPositions_positions _ _ [] [] (length_joinPositions_eq hAligned)

theorem joined_isAligned {header : List Sentence} (hAligned : ∀ s ∈ header, s.IsAligned) :
    (joined header).IsAligned := by
  cases header with
  | nil => rfl
  | cons s rest => rw [IsAligned, joined_positions hAligned, length_joinPositions_eq hAligned]

/-! ## One more sentence -/

section

variable {before after : List Sentence}

/-- A sentence that is joined behind others brings a space and its own characters with their
places, and leaves those before it as they are. -/
theorem joined_placed_concat {s : Sentence} (hSome : before ≠ [])
    (hAligned : ∀ part ∈ before ++ [s], part.IsAligned) :
    (joined (before ++ [s])).placed = (joined before).placed ++
      (' ', ((joined before).positions.getLast?.getD s.position).next) :: s.placed := by
  obtain ⟨hBefore, _⟩ := List.forall_mem_append.mp hAligned
  have hContent :
      (joined (before ++ [s])).content = (joined before).content ++ ' ' :: s.content := by
    rw [joined_content, List.map_append, List.map_singleton,
      Text.join_concat _ (by simpa using hSome), joined_content]
    rfl
  have hPositions : (joined (before ++ [s])).positions = (joined before).positions ++
      ((joined before).positions.getLast?.getD s.position).next :: s.positions := by
    cases before with
    | nil => exact absurd rfl hSome
    | cons first rest =>
        rw [joined_positions hBefore, ← joinPositions_concat]
        exact joined_positions hAligned
  rw [placed, hContent, hPositions, List.zip_append (joined_isAligned hBefore).symm]
  rfl

theorem joined_placed_isPrefix (hSome : before ≠ [])
    (hAligned : ∀ part ∈ before ++ after, part.IsAligned) :
    (joined before).placed <+: (joined (before ++ after)).placed := by
  induction after generalizing before with
  | nil => simp
  | cons s after ih =>
      rw [List.append_cons] at hAligned ⊢
      have hOne : (joined before).placed <+: (joined (before ++ [s])).placed := by
        rw [joined_placed_concat hSome (List.forall_mem_append.mp hAligned).1]
        exact List.prefix_append _ _
      exact hOne.trans (ih (by simp) hAligned)

/-- The characters of the last sentence, with their places, stand behind those of the others. -/
theorem exists_joined_ahead {s : Sentence} (hAligned : ∀ part ∈ before ++ [s], part.IsAligned) :
    ∃ ahead, (joined (before ++ [s])).placed = ahead ++ s.placed ∧
      ahead.length = joinStart before := by
  cases before with
  | nil =>
      have hPositions : (joined [s]).positions = s.positions := joined_positions hAligned
      exact ⟨[], by rw [List.nil_append, placed, hPositions]; rfl, rfl⟩
  | cons first rest =>
      obtain ⟨hBefore, _⟩ := List.forall_mem_append.mp hAligned
      have hSome : first :: rest ≠ [] := List.cons_ne_nil first rest
      refine ⟨_, (joined_placed_concat hSome hAligned).trans (List.append_cons _ _ _), ?_⟩
      rw [List.length_append, (joined_isAligned hBefore).length_placed, ← length_joined hSome]
      rfl

/-- Behind sentences that are joined comes the space in front of the next one. -/
theorem exists_joined_behind {s : Sentence} (hSome : before ≠ [])
    (hAligned : ∀ part ∈ before ++ s :: after, part.IsAligned) :
    ∃ more, (joined (before ++ s :: after)).placed = (joined before).placed ++
      (' ', ((joined before).positions.getLast?.getD s.position).next) :: more := by
  rw [List.append_cons] at hAligned ⊢
  obtain ⟨hUpTo, _⟩ := List.forall_mem_append.mp hAligned
  obtain ⟨more, hMore⟩ := joined_placed_isPrefix (by simp) hAligned
  refine ⟨s.placed ++ more, ?_⟩
  rw [← hMore, joined_placed_concat hSome hUpTo, List.append_assoc, List.cons_append]

end

/-! ## Joined headers -/

/-- The place that the space at index `k` of a joined header counts from: that of the character
before it or, if there is none, the one of the second sentence. -/
def placeBefore? (header : List Sentence) (whole : Sentence) : Nat → Option Position
  | 0 => header[1]?.map (·.position)
  | k + 1 => whole.positions[k]?

/-- A sentence is made up of those of a header, in order, with a space between any two: each of
their characters keeps its place, and each space has the place one further than what is before it.
The sentence stands where the first one does and has the links of all. -/
structure Joins (header : List Sentence) (whole : Sentence) : Prop where
  aligned : whole.IsAligned
  length_eq : whole.length + 1 = joinStart header
  kept : ∀ before part after, header = before ++ part :: after → ∀ i < part.length,
    whole.placed[joinStart before + i]? = part.placed[i]?
  space : ∀ before part next after, header = before ++ part :: next :: after →
    ∃ p, placeBefore? header whole (joinStart before + part.length) = some p ∧
      whole.placed[joinStart before + part.length]? = some (' ', p.next)
  position_eq : ∀ first ∈ header.head?, whole.position = first.position
  links_eq : whole.links = header.flatMap (·.links)

section

variable {before after : List Sentence}

theorem joined_kept {part : Sentence} (hAligned : ∀ s ∈ before ++ part :: after, s.IsAligned)
    {i : Nat} (hLt : i < part.length) :
    (joined (before ++ part :: after)).placed[joinStart before + i]? = part.placed[i]? := by
  rw [List.append_cons] at hAligned ⊢
  obtain ⟨hUpTo, _⟩ := List.forall_mem_append.mp hAligned
  obtain ⟨more, hWhole⟩ := joined_placed_isPrefix (by simp) hAligned
  obtain ⟨ahead, hPlaced, hLength⟩ := exists_joined_ahead hUpTo
  have hPart : i < part.placed.length := by
    rwa [(hUpTo part (by simp)).length_placed]
  rw [← hWhole, hPlaced, List.append_assoc, ← hLength, List.getElem?_append_right (by omega),
    Nat.add_sub_cancel_left, List.getElem?_append_left hPart]

/-- Sentences that are joined to nothing are one empty sentence. -/
theorem exists_of_length_joined (hSome : before ≠ []) (hNone : (joined before).length = 0) :
    ∃ s, before = [s] := by
  have hLength := length_joined hSome
  cases before with
  | nil => exact absurd rfl hSome
  | cons s rest =>
      cases rest with
      | nil => exact ⟨s, rfl⟩
      | cons next rest =>
          rw [hNone, joinStart_cons, joinStart_cons] at hLength
          omega

/-- The place that a space counts from is the last of those before it, if there are any. -/
theorem placeBefore?_length {header : List Sentence} {whole second : Sentence}
    {places : List Position} (hPrefix : places <+: whole.positions)
    (hSecond : places = [] → header[1]? = some second) :
    placeBefore? header whole places.length = some (places.getLast?.getD second.position) := by
  obtain rfl | ⟨init, last, rfl⟩ := List.eq_nil_or_concat places
  · simp [placeBefore?, hSecond rfl]
  · rw [List.concat_eq_append] at hPrefix ⊢
    obtain ⟨more, hMore⟩ := hPrefix
    rw [List.length_append, List.length_singleton, placeBefore?, ← hMore]
    simp

theorem joined_space {next : Sentence} (hSome : before ≠ [])
    (hAligned : ∀ s ∈ before ++ next :: after, s.IsAligned) :
    ∃ p, placeBefore? (before ++ next :: after) (joined (before ++ next :: after))
        (joined before).length = some p ∧
      (joined (before ++ next :: after)).placed[(joined before).length]? = some (' ', p.next) := by
  have hWhole : (joined (before ++ next :: after)).IsAligned := joined_isAligned hAligned
  have hFront : (joined before).IsAligned :=
    joined_isAligned (List.forall_mem_append.mp hAligned).1
  obtain ⟨more, hMore⟩ := exists_joined_behind hSome hAligned
  refine ⟨(joined before).positions.getLast?.getD next.position, ?_, ?_⟩
  · have hPlaces : (joined before).positions <+: (joined (before ++ next :: after)).positions := by
      rw [← hFront.map_placed, ← hWhole.map_placed, hMore]
      exact (List.prefix_append _ _).map Prod.snd
    rw [length, ← hFront]
    apply placeBefore?_length hPlaces
    intro hNone
    have hEmpty : (joined before).length = 0 := by rw [length, ← hFront, hNone, List.length_nil]
    obtain ⟨s, rfl⟩ := exists_of_length_joined hSome hEmpty
    rfl
  · rw [hMore, length, ← hFront.length_placed, List.getElem?_append_right (Nat.le_refl _),
      Nat.sub_self]
    rfl

end

/-- The sentences of a header are joined with their places when each of them has a place for every
character. Some or all of them may be empty. -/
theorem joined_joins {s : Section Sentence} (hSome : s.header ≠ [])
    (hAligned : ∀ part ∈ s.header, part.IsAligned) : Joins s.header (joined s.header) where
  aligned := joined_isAligned hAligned
  length_eq := length_joined hSome
  kept := by
    intro before part after hHeader i hLt
    rw [hHeader] at hAligned ⊢
    exact joined_kept hAligned hLt
  space := by
    intro before part next after hHeader
    have hFront : before ++ [part] ≠ [] := by simp
    have hEnd := length_joined hFront
    rw [joinStart_concat, Nat.add_right_cancel_iff] at hEnd
    rw [List.append_cons] at hHeader
    rw [hHeader] at hAligned ⊢
    rw [← hEnd]
    exact joined_space hFront hAligned
  position_eq := by
    intro first hFirst
    obtain ⟨rest, hHeader⟩ := List.head?_eq_some_iff.mp hFirst
    rw [hHeader]
    rfl
  links_eq := by
    obtain ⟨first, rest, hHeader⟩ := List.exists_cons_of_ne_nil hSome
    rw [hHeader]
    rfl

/-- A header that starts and ends with an empty sentence. The first space has nothing before it. -/
theorem joined_joins_empty :
    let blank : Sentence := .atPlace [] 1 4 true [] [] []
    let named : Sentence := .atPlace "A.".toList 2 0 false ["u".toList] [] []
    let s : Section Sentence := .ofHeader 1 [blank, named, blank] none
    s.header ≠ [] ∧ (∀ part ∈ s.header, part.IsAligned) ∧
      (joined s.header).placed =
        [(' ', ⟨2, 1⟩), ('A', ⟨2, 0⟩), ('.', ⟨2, 1⟩), (' ', ⟨2, 2⟩)] ∧
      Joins s.header (joined s.header) := by
  intro blank named s
  have hSome : s.header ≠ [] := List.cons_ne_nil _ _
  have hBlank : blank.IsAligned := rfl
  have hNamed : named.IsAligned := rfl
  have hAligned : ∀ part ∈ s.header, part.IsAligned := by
    simpa [s, Section.ofHeader] using ⟨hBlank, hNamed, hBlank⟩
  exact ⟨hSome, hAligned, by decide, joined_joins hSome hAligned⟩

end Sentence

end ProseLint
