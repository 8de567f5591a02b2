import ProseLint.Text.Blank
import Mathlib.Data.List.Basic

/-! Kinds of characters. A pattern that looks for white space and for some marks does not tell
other characters apart, so it matches a text and the kinds of its characters alike. -/

namespace ProseLint

namespace Text

/-- Patterns made of some marks tell these and white space from everything else. -/
def seen (marks : Text) (c : Char) : Bool := isBlank c || marks.contains c

/-- The kind of a character: white space and marks are of a kind of their own each. -/
def kindOf (marks : Text) (other : Char → Char) (c : Char) : Char :=
  if seen marks c then c else other c

/-- `f` keeps white space and marks apart from each other and from everything else. -/
structure Discerns (f : Char → Char) (marks : Text) : Prop where
  eq_iff {m : Char} (hm : seen marks m = true) (c : Char) : f c = m ↔ c = m

theorem kindOf_discerns {marks : Text} {other : Char → Char}
    (hOther : ∀ c, seen marks (other c) = false) : Discerns (kindOf marks other) marks where
  eq_iff {m} hm c := by
    unfold kindOf
    split
    · rfl
    · next hPlain =>
        refine iff_of_false ?_ ?_
        · rintro rfl
          rw [hOther c] at hm
          cases hm
        · rintro rfl
          exact hPlain hm

/-- What does not tell a text from the kinds of its characters is the same of texts of the same
kinds. -/
theorem eq_of_kinds {α : Type} {f : Char → Char} {g : Text → α} (hg : ∀ t, g (t.map f) = g t)
    {t u : Text} (h : t.map f = u.map f) : g t = g u := by
  rw [← hg, h, hg]

section Predicate

variable {f : Char → Char} {p : Char → Bool}

theorem all_map (hp : ∀ c, p (f c) = p c) (t : Text) :
    (t.map f).all p = t.all p := by
  rw [List.all_map]
  exact congrArg t.all (funext hp)

theorem takeWhile_map (hp : ∀ c, p (f c) = p c) (t : Text) :
    (t.map f).takeWhile p = (t.takeWhile p).map f := by
  rw [List.takeWhile_map]
  exact congrArg (fun q => (t.takeWhile q).map f) (funext hp)

theorem dropWhile_map (hp : ∀ c, p (f c) = p c) (t : Text) :
    (t.map f).dropWhile p = (t.dropWhile p).map f := by
  rw [List.dropWhile_map]
  exact congrArg (fun q => (t.dropWhile q).map f) (funext hp)

end Predicate

namespace Discerns

variable {f : Char → Char} {marks : Text} (h : Discerns f marks)
include h

theorem beq {m : Char} (hm : seen marks m = true) (c : Char) : (f c == m) = (c == m) :=
  Bool.eq_iff_iff.mpr (by rw [beq_iff_eq, beq_iff_eq, h.eq_iff hm])

theorem blank (c : Char) : isBlank (f c) = isBlank c := by
  have hSeen : ∀ {m}, isBlank m = true → seen marks m = true := fun hBlank => by
    rw [seen, hBlank, Bool.true_or]
  cases hBlank : isBlank c with
  | true => rw [(h.eq_iff (hSeen hBlank) c).mpr rfl, hBlank]
  | false =>
      cases hKind : isBlank (f c) with
      | true => rw [← (h.eq_iff (hSeen hKind) c).mp rfl, hBlank] at hKind; cases hKind
      | false => rfl

theorem contains_map {m : Char} (hm : seen marks m = true) (t : Text) :
    (t.map f).contains m = t.contains m := by
  rw [Bool.eq_iff_iff, List.contains_iff_mem, List.contains_iff_mem, List.mem_map]
  constructor
  · rintro ⟨c, hMem, hKind⟩
    rwa [← (h.eq_iff hm c).mp hKind]
  · exact fun hMem => ⟨m, hMem, (h.eq_iff hm m).mpr rfl⟩

theorem option_beq {m : Char} (hm : seen marks m = true) (o : Option Char) :
    (o.map f == some m) = (o == some m) := by
  cases o with
  | none => rfl
  | some c => exact h.beq hm c

theorem getElem?_map_eq_iff {m : Char} (hm : seen marks m = true) (t : Text) (n : Nat) :
    (t.map f)[n]? = some m ↔ t[n]? = some m := by
  rw [List.getElem?_map, ← beq_iff_eq, h.option_beq hm, beq_iff_eq]

theorem stripLeft_map (t : Text) : stripLeft (t.map f) = t.stripLeft.map f :=
  dropWhile_map h.blank t

theorem stripRight_map (t : Text) : stripRight (t.map f) = t.stripRight.map f := by
  unfold stripRight dropRightWhile
  rw [← List.map_reverse, dropWhile_map h.blank, List.map_reverse]

theorem strip_map (t : Text) : strip (t.map f) = t.strip.map f := by
  rw [strip, stripRight_map h, stripLeft_map h, strip]

variable {w : Text} (hw : w.all (seen marks) = true)
include hw

theorem contains_eq (c : Char) : w.contains (f c) = w.contains c := by
  rw [Bool.eq_iff_iff, List.contains_iff_mem, List.contains_iff_mem]
  constructor
  · intro hMem
    rwa [← (h.eq_iff (List.all_eq_true.mp hw _ hMem) c).mp rfl] at hMem
  · intro hMem
    rwa [(h.eq_iff (List.all_eq_true.mp hw _ hMem) c).mpr rfl]

theorem isPrefixOf?_map (t : Text) :
    w.isPrefixOf? (t.map f) = (w.isPrefixOf? t).map (List.map f) := by
  induction w generalizing t with
  | nil => rfl
  | cons m w ih =>
      obtain ⟨hm, hRest⟩ := (Bool.and_eq_true _ _).mp hw
      cases t with
      | nil => rfl
      | cons c t =>
          have hChar : (m == f c) = (m == c) := by rw [Bool.beq_comm, h.beq hm, Bool.beq_comm]
          simp only [List.map_cons, List.isPrefixOf?, hChar, ih hRest]
          split <;> rfl

theorem isPrefixOf_map (t : Text) : w.isPrefixOf (t.map f) = w.isPrefixOf t := by
  rw [← List.isSome_isPrefixOf?_eq_isPrefixOf, h.isPrefixOf?_map hw, Option.isSome_map,
    List.isSome_isPrefixOf?_eq_isPrefixOf]

theorem endsWith_map (t : Text) : endsWith (t.map f) w = t.endsWith w := by
  unfold endsWith List.isSuffixOf
  rw [← List.map_reverse]
  exact h.isPrefixOf_map (by rw [List.all_reverse, hw]) t.reverse

theorem map_eq_iff (t : Text) : t.map f = w ↔ t = w := by
  induction w generalizing t with
  | nil => exact List.map_eq_nil_iff
  | cons m w ih =>
      obtain ⟨hm, hRest⟩ := (Bool.and_eq_true _ _).mp hw
      cases t with
      | nil => exact iff_of_false (List.cons_ne_nil _ _).symm (List.cons_ne_nil _ _).symm
      | cons c t => rw [List.map_cons, List.cons_eq_cons, List.cons_eq_cons, h.eq_iff hm, ih hRest]

end Discerns

end Text

end ProseLint
