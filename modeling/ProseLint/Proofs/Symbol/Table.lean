import ProseLint.Configuration.Basic

/-! The table of a language and the symbols put in their places. All languages have the same
names in the same order, each once, so a symbol with one of these names stands where its name
stands, and the symbols that differ from those of the language say all about a table. -/

namespace ProseLint

/-- The symbol has a name that every language has. -/
def Symbol.IsKnown (s : Symbol) : Prop := s.name ∈ SymbolTable.latin.map (·.name)

namespace SymbolTable

theorem names_japanese : japanese.map (·.name) = latin.map (·.name) := by decide

theorem nodup_names_latin : (latin.map (·.name)).Nodup := by decide

/-- Every symbol of every language is one character. -/
theorem length_value_base {s : Symbol} (h : s ∈ latin ++ japanese) : s.value.length = 1 := by
  have hAll : ∀ s ∈ latin ++ japanese, s.value.length = 1 := by decide
  exact hAll s h

/-! ## One symbol put in its place -/

theorem mem_override {symbols : List Symbol} {s t : Symbol} (h : t ∈ override symbols s) :
    t = s ∨ t ∈ symbols := by
  induction symbols with
  | nil => exact Or.inl (List.mem_singleton.mp h)
  | cons first rest ih =>
      rw [override] at h
      split at h
      · rcases List.mem_cons.mp h with hIs | hLater
        · exact Or.inl hIs
        · exact Or.inr (List.mem_cons_of_mem first hLater)
      · rcases List.mem_cons.mp h with hIs | hLater
        · exact Or.inr (hIs ▸ List.mem_cons_self)
        · exact (ih hLater).imp_right (List.mem_cons_of_mem first)

/-- A symbol with a name that is there takes the place of that name. -/
theorem names_override {symbols : List Symbol} {s : Symbol} (h : s.name ∈ symbols.map (·.name)) :
    (override symbols s).map (·.name) = symbols.map (·.name) := by
  induction symbols with
  | nil => cases h
  | cons first rest ih =>
      rw [override]
      split
      · next hName => rw [List.map_cons, List.map_cons, hName]
      · next hName =>
          have hLater := (List.mem_cons.mp h).resolve_left (Ne.symm hName)
          rw [List.map_cons, List.map_cons, ih hLater]

/-! ## Symbols put in their places one after the other -/

theorem mem_foldl_override {overrides symbols : List Symbol} {t : Symbol}
    (h : t ∈ overrides.foldl override symbols) : t ∈ overrides ∨ t ∈ symbols := by
  induction overrides generalizing symbols with
  | nil => exact Or.inr h
  | cons s rest ih =>
      rcases ih h with hLater | hHere
      · exact Or.inl (List.mem_cons_of_mem s hLater)
      · refine (mem_override hHere).imp_left fun hIs => ?_
        rw [hIs]
        exact List.mem_cons_self

theorem names_foldl_override {overrides symbols : List Symbol}
    (h : ∀ s ∈ overrides, s.name ∈ symbols.map (·.name)) :
    (overrides.foldl override symbols).map (·.name) = symbols.map (·.name) := by
  induction overrides generalizing symbols with
  | nil => rfl
  | cons s rest ih =>
      have hFirst := names_override (h s List.mem_cons_self)
      rw [List.foldl_cons, ih fun t hMem => hFirst ▸ h t (List.mem_cons_of_mem s hMem), hFirst]

/-- Symbols with other names pass by the first one. -/
theorem foldl_override_cons {overrides symbols : List Symbol} {t : Symbol}
    (h : ∀ s ∈ overrides, s.name ≠ t.name) :
    overrides.foldl override (t :: symbols) = t :: overrides.foldl override symbols := by
  induction overrides generalizing symbols with
  | nil => rfl
  | cons s rest ih =>
      have hNe : t.name ≠ s.name := (h s List.mem_cons_self).symm
      rw [List.foldl_cons, List.foldl_cons, override, if_neg hNe,
        ih fun u hMem => h u (List.mem_cons_of_mem s hMem)]

/-- Of two tables with the same names, the one comes out of the other by the symbols in which it
differs, in its own order. -/
theorem foldl_override_changed {base table : List Symbol}
    (hNames : table.map (·.name) = base.map (·.name)) (hNodup : (base.map (·.name)).Nodup) :
    (table.filter fun s => base.find? (·.name == s.name) != some s).foldl override base =
      table := by
  induction base generalizing table with
  | nil => rw [List.map_eq_nil_iff.mp hNames]; rfl
  | cons b bs ih =>
      obtain ⟨t, ts, rfl⟩ : ∃ t ts, table = t :: ts :=
        List.exists_cons_of_ne_nil (by rintro rfl; cases hNames)
      rw [List.map_cons, List.map_cons] at hNames
      obtain ⟨hName, hNames⟩ := List.cons.inj hNames
      rw [List.map_cons, List.nodup_cons, ← hNames] at hNodup
      obtain ⟨hFresh, hNodup⟩ := hNodup
      have hOther : ∀ s ∈ ts, s.name ≠ b.name := fun s hMem hIs =>
        hFresh (hIs ▸ List.mem_map_of_mem hMem)
      -- The symbol at the front is the one found under its name, and under no other name.
      have hRest : (ts.filter fun s => (b :: bs).find? (·.name == s.name) != some s) =
          ts.filter fun s => bs.find? (·.name == s.name) != some s := by
        refine List.filter_congr fun s hMem => ?_
        rw [List.find?_cons_of_neg (by simpa using (hOther s hMem).symm)]
      have hKept : ∀ s ∈ ts.filter fun s => bs.find? (·.name == s.name) != some s,
          s.name ≠ t.name := fun s hMem => by
        rw [hName]
        exact hOther s (List.mem_filter.mp hMem).1
      rw [List.filter_cons, List.find?_cons_of_pos (by simpa using hName.symm), hRest]
      split
      · rw [List.foldl_cons, override, if_pos hName.symm, foldl_override_cons hKept,
          ih hNames (hNames ▸ hNodup)]
      · next hSame =>
          have hIs : b = t := by simpa using hSame
          rw [hIs, foldl_override_cons hKept, ih hNames (hNames ▸ hNodup)]

/-! ## The table of a language -/

theorem names_create_base (lang : String) (variant : Json) :
    (create lang variant []).symbols.map (·.name) = latin.map (·.name) := by
  rw [create, List.foldl_nil]
  split
  · exact names_japanese
  · rfl

theorem symbols_create (lang : String) (variant other : Json) (overrides : List Symbol) :
    (create lang variant overrides).symbols =
      overrides.foldl override (create lang other []).symbols := rfl

theorem names_create {lang : String} {variant : Json} {overrides : List Symbol}
    (h : ∀ s ∈ overrides, s.IsKnown) :
    (create lang variant overrides).symbols.map (·.name) = latin.map (·.name) := by
  have hBase := names_create_base lang variant
  rw [symbols_create lang variant variant, names_foldl_override, hBase]
  rw [hBase]
  exact h

theorem isKnown_of_mem_create {lang : String} {variant : Json} {overrides : List Symbol}
    (h : ∀ s ∈ overrides, s.IsKnown) {t : Symbol}
    (hMem : t ∈ (create lang variant overrides).symbols) : t.IsKnown := by
  have hName := List.mem_map_of_mem (f := (·.name)) hMem
  rwa [names_create h] at hName

theorem length_value_create {lang : String} {variant : Json} {overrides : List Symbol}
    (h : ∀ s ∈ overrides, s.value.length = 1) {t : Symbol}
    (hMem : t ∈ (create lang variant overrides).symbols) : t.value.length = 1 := by
  rcases mem_foldl_override hMem with hOverride | hBase
  · exact h t hOverride
  · refine length_value_base (List.mem_append.mpr ?_)
    split at hBase
    · exact Or.inr hBase
    · exact Or.inl hBase

/-- A table is made again from the symbols that differ from those of its language. -/
theorem create_overrides {lang : String} {variant : Json} {symbols : List Symbol}
    (h : ∀ s ∈ symbols, s.IsKnown) :
    create lang variant (Configuration.overrides (create lang variant symbols)) =
      create lang variant symbols := by
  have hBase := names_create_base lang (.str "")
  have hNames : (create lang variant symbols).symbols.map (·.name) =
      (create lang (.str "") []).symbols.map (·.name) := by rw [names_create h, hBase]
  have hNodup : ((create lang (.str "") []).symbols.map (·.name)).Nodup := by
    rw [hBase]
    exact nodup_names_latin
  have hChanged := foldl_override_changed hNames hNodup
  exact congrArg (SymbolTable.mk lang variant) hChanged

end SymbolTable

end ProseLint
