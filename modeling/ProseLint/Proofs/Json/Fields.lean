import ProseLint.Json.Basic

/-! The fields of objects. A field that is written is found under its key, and writing it changes
nothing under other keys. -/

namespace ProseLint.Json

theorem get?_cons (key k : String) (v : Json) (fields : Fields) :
    get? key ((k, v) :: fields) = if key = k then some v else get? key fields := by
  rw [get?, List.lookup_cons]
  by_cases h : key = k
  · simp [h]
  · simp [h, beq_eq_false_iff_ne.mpr h, get?]

theorem get?_put (key other : String) (v : Json) (fields : Fields) :
    get? key (put other v fields) = if key = other then some v else get? key fields := by
  induction fields with
  | nil => exact get?_cons key other v []
  | cons field rest ih =>
      obtain ⟨k, w⟩ := field
      rw [put]
      by_cases hHere : k = other
      · subst hHere
        rw [if_pos rfl, get?_cons, get?_cons]
        split <;> rfl
      · rw [if_neg hHere, get?_cons, ih, get?_cons]
        split
        · next hIs => rw [if_neg (hIs ▸ hHere)]
        · rfl

/-- A new key goes to the end. -/
theorem put_of_not_mem {key : String} {fields : Fields} (h : key ∉ fields.map (·.1)) (v : Json) :
    put key v fields = fields ++ [(key, v)] := by
  induction fields with
  | nil => rfl
  | cons field rest ih =>
      rw [List.map_cons, List.mem_cons, not_or] at h
      rw [put, if_neg (Ne.symm h.1), ih h.2]
      rfl

end ProseLint.Json
