import Mathlib.Data.List.Forall2
import Mathlib.Data.List.Induction
import Mathlib.Data.List.Permutation

/-! Lists walked through item by item, with the places of the items or with effects. -/

namespace ProseLint

variable {α β γ : Type}

theorem map_mapIdx (f : Nat → α → β) (g : β → γ) (items : List α) :
    (items.mapIdx f).map g = items.mapIdx fun i a => g (f i a) := by
  apply List.ext_getElem (by simp)
  intro i hLeft hRight
  simp

theorem mapIdx_map (f : Nat → β → γ) (g : α → β) (items : List α) :
    (items.map g).mapIdx f = items.mapIdx fun i a => f i (g a) := by
  apply List.ext_getElem (by simp)
  intro i hLeft hRight
  simp

theorem mapIdx_const (f : α → β) (items : List α) :
    (items.mapIdx fun _ a => f a) = items.map f := by
  apply List.ext_getElem (by simp)
  intro i hLeft hRight
  simp

/-- What holds of each item and what it becomes holds of the whole list, place by place. -/
theorem forall₂_mapIdx {R : α → β → Prop} {f : Nat → α → β} (h : ∀ i a, R a (f i a))
    (items : List α) : List.Forall₂ R items (items.mapIdx f) := by
  induction items generalizing f with
  | nil => exact .nil
  | cons a rest ih =>
      rw [List.mapIdx_cons]
      exact .cons (h 0 a) (ih fun i => h (i + 1))

/-- What every step of a fold keeps to, the fold keeps to. -/
theorem rel_foldl {R : β → β → Prop} (hRefl : ∀ b, R b b)
    (hTrans : ∀ {a b c}, R a b → R b c → R a c) {f : β → α → β} (hf : ∀ b a, R b (f b a))
    (items : List α) (b : β) : R b (items.foldl f b) := by
  induction items generalizing b with
  | nil => exact hRefl b
  | cons a rest ih => exact hTrans (hf b a) (ih (f b a))

theorem flatMap_mapIdx (f : Nat → α → β) (g : β → List γ) (items : List α) :
    (items.mapIdx f).flatMap g = (items.mapIdx fun i a => g (f i a)).flatten := by
  rw [List.flatMap_def, map_mapIdx]

/-- A change of the items in the middle of a list, by their places in it. -/
theorem mapIdx_middle_at (f : Nat → α → α) (before middle after : List α) :
    (before ++ (middle ++ after)).mapIdx (fun i a =>
      if before.length ≤ i ∧ i < before.length + middle.length then f (i - before.length) a
      else a) = before ++ (middle.mapIdx f ++ after) := by
  apply List.ext_getElem?
  intro i
  rw [List.getElem?_mapIdx]
  by_cases hBefore : i < before.length
  · rw [List.getElem?_append_left hBefore, List.getElem?_append_left hBefore]
    cases before[i]? with
    | none => rfl
    | some a => rw [Option.map_some, if_neg (by omega)]
  · rw [List.getElem?_append_right (Nat.not_lt.mp hBefore),
      List.getElem?_append_right (Nat.not_lt.mp hBefore)]
    by_cases hMiddle : i - before.length < middle.length
    · rw [List.getElem?_append_left hMiddle, List.getElem?_append_left (by simpa using hMiddle),
        List.getElem?_mapIdx]
      congr 1
      funext a
      exact if_pos (by omega)
    · rw [List.getElem?_append_right (Nat.not_lt.mp hMiddle),
        List.getElem?_append_right (by simpa using hMiddle), List.length_mapIdx]
      cases after[i - before.length - middle.length]? with
      | none => rfl
      | some a => rw [Option.map_some, if_neg (by omega)]

theorem mapIdx_middle (f : α → α) (before middle after : List α) :
    (before ++ (middle ++ after)).mapIdx (fun i a =>
      if before.length ≤ i ∧ i < before.length + middle.length then f a else a) =
        before ++ (middle.map f ++ after) := by
  rw [← mapIdx_const]
  exact mapIdx_middle_at (fun _ => f) before middle after

theorem ite_le_ite_of_imp {p q : Bool} (h : p = true → q = true) :
    (if p then 1 else 0) ≤ if q then 1 else 0 := by
  cases p with
  | false => exact Nat.zero_le _
  | true => exact Nat.le_of_eq (by rw [h rfl])

/-- A change of all items after which no others are accepted. -/
theorem countP_mapIdx_le {p : β → Bool} {q : α → Bool} {f : Nat → α → β}
    (hf : ∀ i a, p (f i a) = true → q a = true) (items : List α) :
    (items.mapIdx f).countP p ≤ items.countP q := by
  induction items generalizing f with
  | nil => exact Nat.le_refl 0
  | cons a rest ih =>
      rw [List.mapIdx_cons, List.countP_cons, List.countP_cons]
      exact Nat.add_le_add (ih fun i => hf (i + 1)) (ite_le_ite_of_imp (hf 0 a))

theorem countP_mapIdx_lt {p : β → Bool} {q : α → Bool} {f : Nat → α → β}
    (hf : ∀ i a, p (f i a) = true → q a = true) {items : List α} {i : Nat} {a : α}
    (hAt : items[i]? = some a) (hOld : q a = true) (hNew : p (f i a) = false) :
    (items.mapIdx f).countP p < items.countP q := by
  induction items generalizing f i with
  | nil => cases hAt
  | cons b rest ih =>
      rw [List.mapIdx_cons, List.countP_cons, List.countP_cons]
      cases i with
      | zero =>
          cases hAt
          rw [hNew, hOld]
          exact Nat.lt_succ_of_le (countP_mapIdx_le (fun i => hf (i + 1)) rest)
      | succ i =>
          exact Nat.add_lt_add_of_lt_of_le (ih (fun i => hf (i + 1)) hAt hNew)
            (ite_le_ite_of_imp (hf 0 b))

/-- What is left of a list after a change of one item, when the change takes the items of one kind
to items of another. -/
theorem forall_mem_modify_imp {P Q : α → Prop} {f : α → α} {items : List α} (i : Nat)
    (hAll : ∀ a ∈ items, P a) (hSame : ∀ a, P a → Q a) (hf : ∀ a, P a → Q (f a)) :
    ∀ a ∈ items.modify i f, Q a := by
  intro a hMem
  obtain ⟨k, hAt⟩ := List.getElem?_of_mem hMem
  rw [List.getElem?_modify] at hAt
  obtain ⟨c, hItem, rfl⟩ := Option.map_eq_some_iff.mp hAt
  have hHeld := hAll c (List.mem_of_getElem? hItem)
  split
  · exact hf c hHeld
  · exact hSame c hHeld

theorem forall_mem_modify {P : α → Prop} {f : α → α} {items : List α} (i : Nat)
    (hAll : ∀ a ∈ items, P a) (hf : ∀ a, P a → P (f a)) : ∀ a ∈ items.modify i f, P a :=
  forall_mem_modify_imp i hAll (fun _ => id) hf

theorem forall_mem_concat {P : α → Prop} {items : List α} {last : α} (hAll : ∀ a ∈ items, P a)
    (hLast : P last) : ∀ a ∈ items ++ [last], P a :=
  List.forall_mem_append.mpr ⟨hAll, List.forall_mem_singleton.mpr hLast⟩

/-- In a list whose items know their places, one item is at a place. -/
theorem filter_mapIdx_place {f : Nat → α → β} {place : β → Nat} (hPlace : ∀ i a, place (f i a) = i)
    (items : List α) (i : Nat) :
    (items.mapIdx f).filter (place · == i) = (items[i]?.map (f i)).toList := by
  -- from the end, since the place of an item is the number of those before it
  induction items using List.reverseRecOn with
  | nil => rfl
  | append_singleton items a ih =>
      rw [List.mapIdx_concat, List.filter_append, ih]
      rcases Nat.lt_trichotomy i items.length with hBefore | rfl | hBehind
      · simp [hPlace, List.getElem?_append_left hBefore, Nat.ne_of_gt hBefore]
      · simp [hPlace]
      · have hNone : (items ++ [a])[i]? = none :=
          List.getElem?_eq_none (by rw [List.length_append]; exact hBehind)
        simp [hPlace, hNone, List.getElem?_eq_none (Nat.le_of_lt hBehind), Nat.ne_of_lt hBehind]

/-- Items sorted into places, one place after the other. Those with too high a place are missing. -/
theorem flatMap_range_filter_perm (place : α → Nat) (n : Nat) (items : List α) :
    ((List.range n).flatMap fun i => items.filter (place · == i)).Perm
      (items.filter (place · < n)) := by
  induction n with
  | zero => simp
  | succ n ih =>
      have hSplit := List.filter_append_perm (place · < n) (items.filter (place · < n + 1))
      have hBelow : (items.filter (place · < n + 1)).filter (place · < n) =
          items.filter (place · < n) := by
        rw [List.filter_filter]
        exact List.filter_congr fun a _ => by grind
      have hLast : (items.filter (place · < n + 1)).filter (fun a => !decide (place a < n)) =
          items.filter (place · == n) := by
        rw [List.filter_filter]
        exact List.filter_congr fun a _ => by grind
      rw [hBelow, hLast] at hSplit
      rw [List.range_succ, List.flatMap_append, List.flatMap_singleton]
      exact (ih.append_right _).trans hSplit

/-- What is taken from the front ends at the latest at the first item that is refused. -/
theorem takeWhile_append_cons {p : α → Bool} {a : α} (h : p a = false) (before behind : List α) :
    (before ++ a :: behind).takeWhile p = before.takeWhile p := by
  induction before with
  | nil => simp [h]
  | cons b rest ih => simp only [List.cons_append, List.takeWhile_cons, ih]

theorem dropWhile_append_cons {p : α → Bool} {a : α} (h : p a = false) (before behind : List α) :
    (before ++ a :: behind).dropWhile p = before.dropWhile p ++ a :: behind := by
  induction before with
  | nil => simp [h]
  | cons b rest ih =>
      simp only [List.cons_append, List.dropWhile_cons, ih]
      split <;> rfl

/-- A list falls into a part that is accepted and one that starts with an item that is refused. -/
theorem span_append {p : α → Bool} {front behind : List α} (hFront : ∀ a ∈ front, p a = true)
    (hBehind : ∀ a ∈ behind.head?, p a = false) :
    (front ++ behind).takeWhile p = front ∧ (front ++ behind).dropWhile p = behind := by
  rw [List.takeWhile_append_of_pos hFront, List.dropWhile_append_of_pos hFront]
  cases behind with
  | nil => simp
  | cons a rest => simp [hBehind a rfl]

/-- A walk in which every step succeeds. -/
theorem mapM_eq_pure_map {m : Type → Type} [Monad m] [LawfulMonad m] {f : α → m β} {g : α → β}
    {items : List α} (h : ∀ a ∈ items, f a = pure (g a)) : items.mapM f = pure (items.map g) := by
  induction items with
  | nil => rfl
  | cons a rest ih =>
      rw [List.mapM_cons, h a List.mem_cons_self,
        ih fun b hMem => h b (List.mem_cons_of_mem a hMem)]
      simp

/-- A walk that succeeds has succeeded at its first item and at all others behind it. -/
theorem foldlM_cons_eq_ok {ε : Type} {f : β → α → Except ε β} {a : α} {rest : List α} {b c : β} :
    (a :: rest).foldlM f b = .ok c ↔ ∃ d, f b a = .ok d ∧ rest.foldlM f d = .ok c := by
  rw [List.foldlM_cons]
  cases f b a <;> simp [bind, Except.bind]

theorem foldlM_append_eq_ok {ε : Type} {f : β → α → Except ε β} {items more : List α} {b c : β} :
    (items ++ more).foldlM f b = .ok c ↔
      ∃ d, items.foldlM f b = .ok d ∧ more.foldlM f d = .ok c := by
  rw [List.foldlM_append]
  cases items.foldlM f b <;> simp [bind, Except.bind]

/-- What a walk has found comes from one of its items. -/
theorem exists_of_mapM_eq_some {f : α → Option β} {items : List α} {found : List β}
    (h : items.mapM f = some found) {b : β} (hMem : b ∈ found) : ∃ a ∈ items, f a = some b := by
  induction items generalizing found with
  | nil =>
      cases h
      cases hMem
  | cons a rest ih =>
      rw [List.mapM_cons] at h
      obtain ⟨first, hFirst, hMore⟩ := Option.bind_eq_some_iff.mp h
      obtain ⟨others, hRest, hAll⟩ := Option.bind_eq_some_iff.mp hMore
      cases hAll
      rcases List.mem_cons.mp hMem with rfl | hLater
      · exact ⟨a, List.mem_cons_self, hFirst⟩
      · obtain ⟨a', hMem', hIs⟩ := ih hRest hLater
        exact ⟨a', List.mem_cons_of_mem a hMem', hIs⟩

theorem exists_forall₂ {R : α → β → Prop} {items : List α} (h : ∀ a ∈ items, ∃ b, R a b) :
    ∃ found, List.Forall₂ R items found := by
  induction items with
  | nil => exact ⟨[], .nil⟩
  | cons a rest ih =>
      obtain ⟨b, hFirst⟩ := h a List.mem_cons_self
      obtain ⟨found, hRest⟩ := ih fun a' hMem => h a' (List.mem_cons_of_mem a hMem)
      exact ⟨b :: found, .cons hFirst hRest⟩

theorem forall_mem_middle {P : α → Prop} {before after : List α} {a : α}
    (h : P a ∧ ∀ b ∈ before ++ after, P b) : ∀ b ∈ before ++ a :: after, P b := by
  intro b hMem
  rcases List.mem_append.mp hMem with hBefore | hAfter
  · exact h.2 b (List.mem_append_left _ hBefore)
  · rcases List.mem_cons.mp hAfter with rfl | hAfter
    · exact h.1
    · exact h.2 b (List.mem_append_right _ hAfter)

/-- An item that differs from all others under a mapping. -/
theorem ne_of_nodup_map_middle {f : α → β} {before after : List α} {a b : α}
    (h : ((before ++ a :: after).map f).Nodup) (hMem : b ∈ before ++ after) : f b ≠ f a := by
  rw [List.map_append, List.map_cons, List.nodup_middle, ← List.map_append, List.nodup_cons] at h
  exact fun hSame => h.1 (List.mem_map.mpr ⟨b, hMem, hSame⟩)

/-- What has been checked item by item holds of all items. -/
theorem forall_mem_of_all {P : α → Prop} [DecidablePred P] {items : List α}
    (h : items.all (fun a => decide (P a)) = true) : ∀ a ∈ items, P a := fun a hMem =>
  of_decide_eq_true (List.all_eq_true.mp h a hMem)

end ProseLint
