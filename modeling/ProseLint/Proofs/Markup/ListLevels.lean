import ProseLint.Proofs.Markup.Looks

/-! Levels of lists in structured text. The indentations of the open lists rise from the outermost
to the innermost, and a list is open just when there is one. So the level of a list item is the
number of open lists that are indented less, and one more for its own, and items that are indented
alike have one level as long as no line between them closes a list that is indented less. -/

namespace ProseLint.Rest

open Line

/-! ## Open levels -/

/-- A list marker closes what is indented more, and its own level is open behind it. -/
theorem openLevel_eq {indents : List Nat} (h : indents.Pairwise (· > ·)) (indent : Nat) :
    openLevel indent indents = indent :: indents.filter (· < indent) := by
  induction indents with
  | nil => rfl
  | cons top rest ih =>
      obtain ⟨hTop, hRest⟩ := List.pairwise_cons.mp h
      by_cases hDeeper : indent < top
      · have hClosed : openLevel indent (top :: rest) = openLevel indent rest := by
          simp [openLevel, hDeeper]
        rw [hClosed, ih hRest, List.filter_cons_of_neg (by simpa using Nat.le_of_lt hDeeper)]
      · have hBelow : rest.filter (· < indent) = rest := by
          refine List.filter_eq_self.mpr fun n hMem => ?_
          have hLt := hTop n hMem
          simp only [decide_eq_true_eq]
          omega
        have hStays : (top :: rest).dropWhile (fun n => decide (indent < n)) = top :: rest := by
          simp [hDeeper]
        rw [openLevel, hStays, List.filter_cons, hBelow]
        by_cases hShallow : top < indent
        · simp [hShallow]
        · obtain rfl : top = indent := by omega
          simp

/-- The indentations of the open lists rise, and a list is open just when there is one of them. -/
structure State.IsStacked (s : State) : Prop where
  falling : s.indents.Pairwise (· > ·)
  inList_iff : s.inList = true ↔ s.indents ≠ []

theorem State.initial_isStacked : State.initial.IsStacked := ⟨.nil, by decide⟩

/-! ## What lines are to lists -/

/-- What a line is to the lists around it. A line that closes is a title, or is blank with no
indented line below it. A line that is unseen is blank otherwise, or belongs to no prose. -/
inductive ListRole where
  | closing
  | marker
  | field
  | term
  | continuation
  | text
  | unseen
  deriving DecidableEq, Repr

namespace ListRole

/-- The open levels behind a line of some indentation. -/
def levels (indent : Nat) (indents : List Nat) : ListRole → List Nat
  | .closing | .text => []
  | .marker => openLevel indent indents
  | .field | .term => [0]
  | .continuation | .unseen => indents

/-- Whether a list is open behind a line. -/
def opensList (inList : Bool) : ListRole → Bool
  | .closing | .text => false
  | .marker | .field | .term => true
  | .continuation | .unseen => inList

/-- The role of a line of prose. An item with a number, and a term, may only stand where a paragraph
may start or a list is open. -/
def ofProse (free belowIndented : Bool) (l : Line) : ListRole :=
  if (markerOf free l.text).isSome then .marker
  else if l.indentation = 0 ∧ (field? l.text).isSome then .field
  else if l.indentation == 0 && belowIndented && !l.text.endsWith [':'] && free then .term
  else if 0 < l.indentation then .continuation
  else .text

theorem ofProse_congr {l m : Line} (h : m.origin = l.origin) (free belowIndented : Bool) :
    ofProse free belowIndented m = ofProse free belowIndented l := by
  have hText : m.text = l.text := text_eq_of_origin h
  simp only [ofProse, indentation_eq, hText]

/-- What a line of some role does: to the open lists, and to itself when it becomes the start of a
list element. -/
structure Acts (role : ListRole) (before : State) (l : Line) (result : State × Line) : Prop where
  indents_eq : result.1.indents = role.levels l.indentation before.indents
  inList_eq : result.1.inList = role.opensList before.inList
  marker_level : role = .marker → result.2.listLevel = result.1.indents.length
  start_level : l.listStart = false → result.2.listStart = true →
    result.1.inList = true ∧ result.2.listLevel = max (result.1.indents.length : Int) 1

/-- A line that does not become the start of a list element. -/
theorem Acts.ofNoStart {role : ListRole} {s t : State} {l m : Line} (hRole : role ≠ .marker)
    (hIndents : t.indents = role.levels l.indentation s.indents)
    (hInList : t.inList = role.opensList s.inList) (hSame : m.listStart = l.listStart) :
    Acts role s l (t, m) where
  indents_eq := hIndents
  inList_eq := hInList
  marker_level hMarker := absurd hMarker hRole
  start_level hBefore hAfter := by simp [hSame, hBefore] at hAfter

/-- What a role does depends on the lists that are open, and on the text and the marks of a line. -/
theorem Acts.congr {role : ListRole} {s t : State} {l m done : Line} {result : State × Line}
    (h : Acts role t m result) (hIndents : t.indents = s.indents) (hInList : t.inList = s.inList)
    (hOrigin : m.origin = l.origin) (hMarks : m.marks = l.marks)
    (hDone : done.marks = result.2.marks) : Acts role s l (result.1, done) := by
  have hIndentation : m.indentation = l.indentation := by
    rw [indentation_eq, indentation_eq, text_eq_of_origin hOrigin]
  have hStart : m.listStart = l.listStart := congrArg Marks.listStart hMarks
  have hDoneStart : done.listStart = result.2.listStart := congrArg Marks.listStart hDone
  have hDoneLevel : done.listLevel = result.2.listLevel := congrArg Marks.listLevel hDone
  constructor
  · rw [h.indents_eq, hIndents, hIndentation]
  · rw [h.inList_eq, hInList]
  · rw [hDoneLevel]
    exact h.marker_level
  · rw [← hStart, hDoneStart, hDoneLevel]
    exact h.start_level

end ListRole

open ListRole (Acts)

theorem classifyUnmarked_acts (s : State) (free afterBlank belowIndented : Bool) (l : Line)
    (hUnmarked : markerOf free l.text = none) :
    Acts (.ofProse free belowIndented l) s l
      (classifyUnmarked s free afterBlank belowIndented l) := by
  unfold classifyUnmarked ListRole.ofProse
  generalize hFound : (if l.indentation = 0 then field? l.text else none) = found
  have hField : l.indentation = 0 ∧ (field? l.text).isSome = true ↔ found.isSome = true := by
    rw [← hFound]
    split <;> simp [*]
  simp only [hField, hUnmarked, Option.isSome_none, Bool.false_eq_true, if_false]
  cases found with
  | some length => exact ⟨rfl, rfl, by simp, fun _ _ => ⟨rfl, rfl⟩⟩
  | none =>
      simp only [Option.isSome_none, Bool.false_eq_true, if_false]
      split
      · exact .ofNoStart (by simp) rfl rfl rfl
      split
      · cases hList : s.inList with
        | true => exact ⟨rfl, rfl, by simp, fun _ _ => ⟨hList, rfl⟩⟩
        | false => exact .ofNoStart (by simp) rfl rfl rfl
      · exact .ofNoStart (by simp) rfl rfl rfl

theorem openLevel_ne_nil (indent : Nat) (indents : List Nat) : openLevel indent indents ≠ [] := by
  unfold openLevel
  split
  · exact List.cons_ne_nil _ _
  · split <;> exact List.cons_ne_nil _ _

theorem classifyList_acts (s : State) (previous following : Option Line) (l : Line) :
    Acts (.ofProse (isBlankLine previous || s.inList) (isIndented following) l) s l
      (classifyList s previous following l) := by
  rw [classifyList_eq]
  cases hMarker : markerOf (isBlankLine previous || s.inList) l.text with
  | none => exact classifyUnmarked_acts s _ _ _ l hMarker
  | some length =>
      have hRole : ListRole.ofProse (isBlankLine previous || s.inList) (isIndented following) l =
          .marker := by rw [ListRole.ofProse, hMarker]; rfl
      have hLevel : ((openLevel l.indentation s.indents).length : Int) =
          max ((openLevel l.indentation s.indents).length : Int) 1 := by
        have hPos := List.length_pos_iff.mpr (openLevel_ne_nil l.indentation s.indents)
        omega
      rw [hRole]
      exact ⟨rfl, rfl, fun _ => rfl, fun _ _ => ⟨rfl, hLevel⟩⟩

/-- Erasing the colons in front of a literal block, and the inline markup, does nothing to lists. -/
theorem classifyProse_acts (s : State) (previous following : Option Line) (l : Line) :
    Acts (.ofProse (isBlankLine previous || s.inList) (isIndented following) l) s l
      (classifyProse s previous following l) := by
  unfold classifyProse
  cases opensLiteral l with
  | true =>
      have hActs := classifyList_acts { s with block := some .literal } previous following
        (eraseColons l)
      rw [ListRole.ofProse_congr (eraseColons_origin l)] at hActs
      exact hActs.congr rfl rfl (eraseColons_origin l) (eraseColons_marks l) (eraseInline_marks _)
  | false =>
      exact (classifyList_acts s previous following l).congr rfl rfl rfl rfl (eraseInline_marks _)

/-- Whether a line of a text is no prose: the edge of a table, the start of a block that is erased,
or a line of a line block. -/
def isNoProse (t : Text) : Bool :=
  isGridEdge t || isColumnEdge t || (blockKind? t).isSome || isLineBlock t || t.strip == [':', ':']

/-- The role of a line when no block is open. -/
def ListRole.ofOpen (s : State) (previous following : Option Line) (l : Line) : ListRole :=
  if s.inTable || isNoProse l.text then .unseen
  else .ofProse (isBlankLine previous || s.inList) (isIndented following) l

theorem classifyOpen_acts (s : State) (previous following : Option Line) (l : Line) :
    Acts (.ofOpen s previous following l) s l (classifyOpen s previous following l) := by
  have hUnseen (hSkip : (s.inTable || isNoProse l.text) = true) (t : State)
      (hIndents : t.indents = s.indents) (hInList : t.inList = s.inList) :
      Acts (.ofOpen s previous following l) s l (t, l.eraseAll) := by
    rw [ListRole.ofOpen, if_pos hSkip]
    exact .ofNoStart (by simp) hIndents hInList rfl
  unfold classifyOpen
  simp only
  split
  · next hTable => exact hUnseen (by simp [hTable]) s rfl rfl
  split
  · next hEdge => exact hUnseen (by simp [isNoProse, hEdge]) _ rfl rfl
  split
  · next kind hKind => exact hUnseen (by simp [isNoProse, hKind]) _ rfl rfl
  split
  · next hLineBlock => exact hUnseen (by simp [isNoProse, hLineBlock]) s rfl rfl
  split
  · next hColons => exact hUnseen (by simp [isNoProse, hColons]) _ rfl rfl
  · next hTable hEdge _ hKind hLineBlock hColons =>
      have hProse : ¬ (s.inTable || isNoProse l.text) = true := by
        simp [isNoProse, hTable, hEdge, hKind, hLineBlock, hColons]
      rw [ListRole.ofOpen, if_neg hProse]
      exact classifyProse_acts s previous following l

/-- A line that is classified, with the lines beside it and with what is open before it. -/
structure Moment where
  before : State
  previous : Option Line
  following : Option Line
  line : Line

namespace Moment

def result (m : Moment) : State × Line := classifyLine m.before m.previous m.following m.line

/-- What is open behind the line. -/
def after (m : Moment) : State := m.result.1

/-- What becomes of the line. -/
def outcome (m : Moment) : Line := m.result.2

/-- Whether the line belongs to a block that has been opened above it. -/
def isInBlock (m : Moment) : Bool :=
  match m.before.block with
  | none => false
  | some kind => kind == .doctest || decide (0 < m.line.indentation)

def role (m : Moment) : ListRole :=
  if 0 < m.line.sectionLevel then .closing
  else if isBlankLine (some m.line) then if isIndented m.following then .unseen else .closing
  else if m.isInBlock then .unseen
  else .ofOpen m.before m.previous m.following m.line

/-- What is done with a line is told by its role. -/
theorem acts (m : Moment) : Acts m.role m.before m.line m.result := by
  obtain ⟨s, previous, following, l⟩ := m
  unfold role result classifyLine isInBlock
  simp only
  split
  · exact .ofNoStart (by simp) rfl rfl (congrArg Marks.listStart (eraseInline_marks l))
  split
  · split <;> exact .ofNoStart (by simp) rfl rfl rfl
  cases hBlock : s.block with
  | none => exact classifyOpen_acts s previous following l
  | some kind =>
      simp only [Bool.or_eq_true, beq_iff_eq, decide_eq_true_eq]
      split
      · exact .ofNoStart (by simp) rfl rfl rfl
      · have hActs := classifyOpen_acts { s with block := none } previous following l
        exact hActs.congr rfl rfl rfl rfl rfl

/-! ## One line -/

theorem role_indentation {m : Moment} (h : m.role = .field ∨ m.role = .term) :
    m.line.indentation = 0 := by
  by_contra hIndented
  unfold role ListRole.ofOpen ListRole.ofProse at h
  split_ifs at h <;> simp_all

variable {m : Moment} {indent : Nat}

theorem after_indents (m : Moment) :
    m.after.indents = m.role.levels m.line.indentation m.before.indents :=
  m.acts.indents_eq

theorem after_isStacked (h : m.before.IsStacked) : m.after.IsStacked := by
  constructor
  · rw [after_indents]
    cases m.role with
    | closing | text => exact .nil
    | marker =>
        rw [ListRole.levels, openLevel_eq h.falling]
        refine List.pairwise_cons.mpr ⟨fun n hMem => ?_, h.falling.filter _⟩
        simpa using (List.mem_filter.mp hMem).2
    | field | term => exact List.pairwise_singleton _ _
    | continuation | unseen => exact h.falling
  · rw [after_indents, after, m.acts.inList_eq]
    cases m.role with
    | closing | text => simp [ListRole.levels, ListRole.opensList]
    | marker => simp [ListRole.levels, ListRole.opensList, openLevel_ne_nil]
    | field | term => simp [ListRole.levels, ListRole.opensList]
    | continuation | unseen => exact h.inList_iff

/-- A line opens one level at most. -/
theorem length_after_le (h : m.before.IsStacked) :
    m.after.indents.length ≤ m.before.indents.length + 1 := by
  rw [after_indents]
  cases m.role with
  | closing | text => exact Nat.zero_le _
  | marker =>
      rw [ListRole.levels, openLevel_eq h.falling, List.length_cons]
      exact Nat.succ_le_succ (List.length_filter_le _ _)
  | field | term => exact Nat.le_add_left 1 _
  | continuation | unseen => exact Nat.le_succ _

/-- The start of a list element has the level of the innermost open list. -/
theorem start_level (h : m.before.IsStacked) (hBefore : m.line.listStart = false)
    (hStart : m.outcome.listStart = true) :
    m.outcome.listLevel = m.after.indents.length ∧ 1 ≤ m.after.indents.length := by
  obtain ⟨hOpen, hLevel⟩ := m.acts.start_level hBefore hStart
  have hSome : m.after.indents ≠ [] := (after_isStacked h).inList_iff.mp hOpen
  have hPos := List.length_pos_iff.mpr hSome
  refine ⟨?_, hPos⟩
  rw [outcome, hLevel]
  simp only [after] at hPos ⊢
  omega

/-- Whether the line may close a list that is indented less than `indent`: nothing is open behind
it, or it starts a list that is indented less itself. -/
def Interrupts (m : Moment) (indent : Nat) : Prop :=
  m.role = .closing ∨ (m.role = .text ∧ m.before.inList = true) ∨
    ((m.role = .marker ∨ m.role = .field ∨ m.role = .term) ∧ m.line.indentation < indent)

instance (m : Moment) (indent : Nat) : Decidable (m.Interrupts indent) :=
  inferInstanceAs (Decidable (_ ∨ _ ∨ _))

/-- The lists that are indented less stay open. -/
theorem shallower_after (h : m.before.IsStacked) (hGoesOn : ¬ m.Interrupts indent) :
    m.after.indents.filter (· < indent) = m.before.indents.filter (· < indent) := by
  have hFlat : m.role = .field ∨ m.role = .term → indent = 0 := fun hRole => by
    have hZero := role_indentation hRole
    by_contra hPos
    exact hGoesOn (.inr (.inr ⟨.inr hRole, by omega⟩))
  rw [after_indents]
  cases hRole : m.role with
  | closing => exact absurd (.inl hRole) hGoesOn
  | marker =>
      have hDeeper : indent ≤ m.line.indentation := by
        by_contra hLess
        exact hGoesOn (.inr (.inr ⟨.inl hRole, by omega⟩))
      rw [ListRole.levels, openLevel_eq h.falling, List.filter_cons_of_neg (by simpa using hDeeper),
        List.filter_filter]
      refine List.filter_congr fun n _ => ?_
      simp only [Bool.and_eq_left_iff_imp, decide_eq_true_eq]
      omega
  | field => simp [hFlat (.inl hRole), ListRole.levels]
  | term => simp [hFlat (.inr hRole), ListRole.levels]
  | text =>
      have hNone : m.before.indents = [] := by
        by_contra hSome
        exact hGoesOn (.inr (.inl ⟨hRole, h.inList_iff.mpr hSome⟩))
      rw [hNone]
      rfl
  | continuation | unseen => rfl

theorem not_interrupts_of_marker (hRole : m.role = .marker) :
    ¬ m.Interrupts m.line.indentation := by
  simp [Interrupts, hRole]

/-- The level of an item is the number of the open lists that are indented less, and its own. -/
theorem marker_level (h : m.before.IsStacked) (hRole : m.role = .marker) :
    m.outcome.listLevel =
      ((m.before.indents.filter (· < m.line.indentation)).length + 1 : Nat) := by
  have hLevel : m.outcome.listLevel = m.after.indents.length := m.acts.marker_level hRole
  rw [hLevel, after_indents, hRole, ListRole.levels, openLevel_eq h.falling, List.length_cons]

end Moment

/-! ## One line after the other -/

/-- Lines are classified one after the other from a state on. Nothing is asked of the lines beside
them. -/
inductive Run : State → List Moment → Prop where
  | nil (s : State) : Run s []
  | cons {m : Moment} {rest : List Moment} (hRest : Run m.after rest) : Run m.before (m :: rest)

namespace Run

variable {s : State} {m n : Moment} {before between rest : List Moment}

theorem isStacked {ms : List Moment} (h : Run s ms) (hStacked : s.IsStacked) :
    ∀ m ∈ ms, m.before.IsStacked := by
  induction h with
  | nil s => simp
  | cons _ ih => exact List.forall_mem_cons.mpr ⟨hStacked, ih (Moment.after_isStacked hStacked)⟩

theorem drop (h : Run s (before ++ m :: rest)) : Run m.before (m :: rest) := by
  induction before generalizing s with
  | nil =>
      cases h with
      | cons hRest => exact .cons hRest
  | cons k before ih =>
      cases h with
      | cons hRest => exact ih hRest

/-- Lists that are indented less stay open from line to line. -/
theorem shallower_eq {indent : Nat} (h : Run s (between ++ n :: rest)) (hStacked : s.IsStacked)
    (hGoesOn : ∀ k ∈ between, ¬ k.Interrupts indent) :
    n.before.indents.filter (· < indent) = s.indents.filter (· < indent) := by
  induction between generalizing s with
  | nil =>
      cases h with
      | cons _ => rfl
  | cons k between ih =>
      rw [List.forall_mem_cons] at hGoesOn
      cases h with
      | cons hRest =>
          rw [ih hRest (Moment.after_isStacked hStacked) hGoesOn.2,
            Moment.shallower_after hStacked hGoesOn.1]

end Run

/-- The lines that are classified when some lines are, each with what has become of the line above
it. Lines that are already erased are passed over. -/
def moments (s : State) (previous : Option Line) : List Line → List Moment
  | [] => []
  | l :: rest =>
      if l.erased then moments s (some l) rest
      else
        let m : Moment := ⟨s, previous, rest.head?, l⟩
        m :: moments m.after (some m.outcome) rest

theorem moments_run (s : State) (previous : Option Line) (lines : List Line) :
    Run s (moments s previous lines) := by
  induction lines generalizing s previous with
  | nil => exact .nil s
  | cons l rest ih =>
      rw [moments]
      split
      · exact ih s (some l)
      · exact .cons (m := ⟨s, previous, rest.head?, l⟩) (ih _ _)

/-- What becomes of the lines is what is made of them one after the other. -/
theorem moments_outcome (s : State) (previous : Option Line) (lines : List Line) :
    (moments s previous lines).map (fun m => (m.line, m.outcome)) =
      (lines.zip (classifyLines s previous lines)).filter (!·.1.erased) := by
  induction lines generalizing s previous with
  | nil => rfl
  | cons l rest ih =>
      rw [moments, classifyLines]
      cases hErased : l.erased with
      | true =>
          simp only [if_true, List.zip_cons_cons]
          rw [ih, List.filter_cons_of_neg (by simp [hErased])]
      | false =>
          simp only [Bool.false_eq_true, if_false, List.zip_cons_cons, List.map_cons]
          rw [ih, List.filter_cons_of_pos (by simp [hErased])]
          rfl

/-- However lines are classified one after the other, the open levels rise and a list is open just
when there is a level, a line that becomes the start of a list element has the level of the
innermost list, which is at most one more than there were, and items that are indented alike have
one level unless a line between them interrupts their list. So it is when the lines of a text are
classified. -/
theorem listLevels_stacked :
    (∀ lines, Run .initial (moments .initial none lines) ∧
      (moments .initial none lines).map (fun m => (m.line, m.outcome)) =
        (lines.zip (classifyLines .initial none lines)).filter (!·.1.erased)) ∧
    ∀ ms, Run .initial ms →
      (∀ m ∈ ms, m.before.IsStacked ∧ m.after.IsStacked) ∧
      (∀ m ∈ ms, m.line.listStart = false → m.outcome.listStart = true →
        m.outcome.listLevel = m.after.indents.length ∧ 1 ≤ m.after.indents.length ∧
          m.after.indents.length ≤ m.before.indents.length + 1) ∧
      ∀ m between n, m :: (between ++ [n]) <:+: ms → m.role = .marker → n.role = .marker →
        n.line.indentation = m.line.indentation →
        (∀ k ∈ between, ¬ k.Interrupts m.line.indentation) →
          n.outcome.listLevel = m.outcome.listLevel := by
  refine ⟨fun lines => ⟨moments_run _ _ lines, moments_outcome _ _ lines⟩, fun ms hRun => ?_⟩
  have hStacked := hRun.isStacked State.initial_isStacked
  refine ⟨fun m hMem => ⟨hStacked m hMem, Moment.after_isStacked (hStacked m hMem)⟩,
    fun m hMem hBefore hStart => ?_, fun m between n hInfix hFirst hSecond hAlike hGoesOn => ?_⟩
  · obtain ⟨hLevel, hPos⟩ := Moment.start_level (hStacked m hMem) hBefore hStart
    exact ⟨hLevel, hPos, Moment.length_after_le (hStacked m hMem)⟩
  · have hLeft := hStacked m (hInfix.subset List.mem_cons_self)
    have hRight := hStacked n (hInfix.subset (by simp))
    obtain ⟨above, below, rfl⟩ := hInfix
    have hAll : Run .initial (above ++ m :: (between ++ n :: below)) := by simpa using hRun
    have hFrom : Run m.before ((m :: between) ++ n :: below) := hAll.drop
    have hSame := hFrom.shallower_eq hLeft
      (List.forall_mem_cons.mpr ⟨Moment.not_interrupts_of_marker hFirst, hGoesOn⟩)
    rw [Moment.marker_level hRight hSecond, Moment.marker_level hLeft hFirst, hAlike, hSame]

/-- Two items of an inner list, with an item that is indented more and a line of its text between
them. -/
theorem listLevels_stacked_items :
    let lines := Line.readAll true "- a\n  - b\n      * c\n        d\n  - e".toList
    ∃ a m k l n, moments .initial none lines = [a, m, k, l, n] ∧
      (m.role = .marker ∧ n.role = .marker ∧ n.line.indentation = m.line.indentation ∧
        ∀ i ∈ [k, l], ¬ i.Interrupts m.line.indentation) ∧
      k.outcome.listLevel = 3 ∧ m.outcome.listLevel = 2 ∧
      n.outcome.listLevel = m.outcome.listLevel := by
  intro lines
  have hRun := moments_run .initial none lines
  refine ⟨_, _, _, _, _, rfl, ⟨by decide +kernel, by decide +kernel, by decide +kernel,
    by decide +kernel⟩, by decide +kernel, by decide +kernel, ?_⟩
  refine (listLevels_stacked.2 _ hRun).2.2 _ [_, _] _ ⟨[_], [], rfl⟩ ?_ ?_ ?_ ?_
  all_goals decide +kernel

end ProseLint.Rest
