import ProseLint.Document.Suppression
import ProseLint.Markup.Classified
import ProseLint.Source.Enclosure

/-! Lines that stand further down. Only its number tells a line from the same line elsewhere,
and nothing that is done to a line depends on the number. -/

namespace ProseLint

namespace Line

/-- The line as it is `k` lines further down. -/
def moved (k : Nat) (l : Line) : Line := { l with number := l.number + k }

variable (k : Nat) (l : Line)

-- Proved by `(rfl)`, these two also rewrite in what decides a condition, where others cannot.
@[simp] theorem text_moved : (l.moved k).text = l.text := (rfl)

@[simp] theorem indentation_moved : (l.moved k).indentation = l.indentation := (rfl)

@[simp] theorem length_moved : (l.moved k).length = l.length := rfl

@[simp] theorem sectionLevel_moved : (l.moved k).sectionLevel = l.sectionLevel := rfl

@[simp] theorem erased_moved : (l.moved k).erased = l.erased := rfl

@[simp] theorem glyphAt_moved (position : Int) : (l.moved k).glyphAt position = l.glyphAt position :=
  rfl

@[simp] theorem isKept_moved (position : Int) : (l.moved k).isKept position = l.isKept position :=
  rfl

@[simp] theorem isEscaped_moved (position : Int) :
    (l.moved k).isEscaped position = l.isEscaped position := rfl

@[simp] theorem erase_moved (start count : Int) :
    (l.moved k).erase start count = (l.erase start count).moved k := rfl

@[simp] theorem eraseAll_moved : (l.moved k).eraseAll = l.eraseAll.moved k := rfl

@[simp] theorem markInline_moved (start stop : Int) :
    (l.moved k).markInline start stop = (l.markInline start stop).moved k := rfl

@[simp] theorem addLink_moved (position : Int) (url : Text) :
    (l.moved k).addLink position url = (l.addLink position url).moved k := rfl

theorem ofText_moved (number : Nat) (escapes : Bool) (raw : Text) :
    (ofText number escapes raw).moved k = ofText (number + k) escapes raw := rfl

theorem moved_moved (j : Nat) : (l.moved j).moved k = l.moved (j + k) := by
  simp only [moved, Nat.add_assoc]

/-- Steps that do not look at the number do not when they are taken one after the other. -/
theorem foldl_moved {α : Type} {f : Line → α → Line} (h : ∀ l a, f (l.moved k) a = (f l a).moved k)
    (steps : List α) : steps.foldl f (l.moved k) = (steps.foldl f l).moved k := by
  induction steps generalizing l with
  | nil => rfl
  | cons a steps ih => rw [List.foldl_cons, List.foldl_cons, h, ih]

@[simp] theorem eraseAround_moved (e : Enclosure) (pair : Nat × Nat) :
    eraseAround e (l.moved k) pair = (eraseAround e l pair).moved k := by
  unfold eraseAround
  cases e.style <;> rfl

@[simp] theorem eraseEnclosure_moved (e : Enclosure) :
    ((l.moved k).eraseEnclosure e).1 = (l.eraseEnclosure e).1.moved k :=
  foldl_moved k l (fun l pair => eraseAround_moved k l e pair) _

/-- Lines with given texts, numbered from 1. -/
def ofTexts (escapes : Bool) (raws : List Text) : List Line :=
  raws.mapIdx fun i raw => ofText (i + 1) escapes raw

theorem head?_ofTexts (escapes : Bool) (raws : List Text) :
    (ofTexts escapes raws).head? = raws.head?.map (ofText 1 escapes) := by
  cases raws with
  | nil => rfl
  | cons raw rest => rw [ofTexts, List.mapIdx_cons, List.head?_cons, List.head?_cons]; rfl

/-- Below other lines the same texts give the same lines further down. -/
theorem ofTexts_append (escapes : Bool) (above below : List Text) :
    ofTexts escapes (above ++ below) =
      ofTexts escapes above ++ (ofTexts escapes below).map (moved above.length) := by
  rw [ofTexts, List.mapIdx_append]
  refine congrArg (ofTexts escapes above ++ ·) (List.ext_getElem (by simp [ofTexts]) ?_)
  intro i hLeft hRight
  simp only [ofTexts, List.getElem_mapIdx, List.getElem_map, ofText_moved, Nat.add_right_comm]

end Line

namespace SuppressRule

/-- The rule as it is `k` lines further down. -/
def moved (k : Nat) (r : SuppressRule) : SuppressRule := { r with line := r.line + k }

theorem moved_moved (j k : Nat) (r : SuppressRule) : (r.moved j).moved k = r.moved (j + k) := by
  simp only [moved, Int.natCast_add, Int.add_assoc]

theorem ofComment_moved (k line : Nat) (names : List Text) :
    (ofComment line names).moved k = ofComment ((line + k : Nat) : Int) names := by
  simp only [ofComment, moved, SuppressRule.mk.injEq, and_true]
  omega

end SuppressRule

namespace MarkupWarning

/-- The warning as it is `k` lines further down. -/
def moved (k : Nat) : MarkupWarning → MarkupWarning
  | .mismatchedOverline line above below => .mismatchedOverline (line + k) above below
  | warning => warning

theorem moved_moved (j k : Nat) (warning : MarkupWarning) :
    (warning.moved j).moved k = warning.moved (j + k) := by
  cases warning with
  | mismatchedOverline line above below => simp only [moved, Nat.add_assoc]
  | unclosedComment | unclosedBlock => rfl

end MarkupWarning

namespace Classified

/-- The classification as it is `k` lines further down. -/
def moved (k : Nat) (c : Classified) : Classified :=
  ⟨c.lines.map (.moved k), c.rules.map (.moved k), c.warnings.map (.moved k)⟩

theorem moved_moved (j k : Nat) (c : Classified) : (c.moved j).moved k = c.moved (j + k) := by
  simp only [moved, List.map_map, Function.comp_def, Line.moved_moved, SuppressRule.moved_moved,
    MarkupWarning.moved_moved]

end Classified

namespace Suppress

theorem rule?_moved (k : Nat) (l : Line) : rule? (l.moved k) = (rule? l).map (.moved k) := by
  unfold rule?
  rw [Option.map_map]
  refine congrArg (fun f => Option.map f (marker.isPrefixOf? l.raw)) (funext fun rest => ?_)
  exact (SuppressRule.ofComment_moved k l.number (Text.words rest)).symm

theorem rules_moved (k : Nat) (lines : List Line) :
    rules (lines.map (.moved k)) = (rules lines).map (.moved k) := by
  rw [rules, rules, List.filterMap_map, List.map_filterMap]
  exact congrArg (fun f => lines.filterMap f) (funext fun l => rule?_moved k l)

theorem eraseComments_moved (k : Nat) (lines : List Line) :
    eraseComments (lines.map (.moved k)) = (eraseComments lines).map (.moved k) := by
  rw [eraseComments, eraseComments, List.map_map, List.map_map]
  refine List.map_congr_left fun l _ => ?_
  simp only [Function.comp_apply, rule?_moved, Option.isSome_map]
  split <;> rfl

end Suppress

end ProseLint
