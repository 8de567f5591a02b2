import ProseLint.Configuration.Entry

/-! What the entries of a configuration source stand for. The rules are stated for the entry as a
data value, and reading accepts exactly the entries that follow them. -/

namespace ProseLint

theorem faultsOf_eq_nil_iff {ε α : Type} {r : Except (List ε) α} (h : r ≠ .error []) :
    faultsOf r = [] ↔ ∃ a, r = .ok a := by
  cases r with
  | ok a => simp [faultsOf]
  | error faults => simpa [faultsOf] using h

namespace ValidatorEntry

/-- The text is not blank, and when there are known names it is one of them. -/
structure IsName (known : Option (List Text)) (given : String) : Prop where
  visible : Text.strip given.toList ≠ []
  listed : ∀ names, known = some names → Text.strip given.toList ∈ names

/-- The attributes of an entry, none of them an object. -/
structure HasAttributes (entry attributes : Json.Fields) : Prop where
  given : (Json.get? "attributes" entry).getD (.object []) = .object attributes
  flat : ∀ a ∈ attributes, ∀ inner, a.2 ≠ .object inner

/-- The rules for entries: a name, or an object with a name and maybe with attributes, which is
switched off by the value false. -/
inductive IsReadAs (known : Option (List Text)) : Json → ValidatorEntry → Prop where
  | name {given : String} (isName : IsName known given) :
      IsReadAs known (.str given) (.active ⟨Text.strip given.toList, []⟩)
  | active {entry attributes : Json.Fields} {given : String}
      (hasName : Json.get? "name" entry = some (.str given)) (isName : IsName known given)
      (has : HasAttributes entry attributes)
      (isOn : Json.get? "enabled" entry ≠ some (.bool false)) :
      IsReadAs known (.object entry) (.active ⟨Text.strip given.toList, attributes⟩)
  | disabled {entry attributes : Json.Fields} {given : String}
      (hasName : Json.get? "name" entry = some (.str given)) (isName : IsName known given)
      (has : HasAttributes entry attributes)
      (isOff : Json.get? "enabled" entry = some (.bool false)) :
      IsReadAs known (.object entry) (.disabled (Text.strip given.toList))

theorem isDisabled_iff (entry : Json.Fields) :
    isDisabled entry = true ↔ Json.get? "enabled" entry = some (.bool false) := by
  rw [isDisabled]
  split
  · next hOff => simp [hOff]
  · next hOn => simpa using hOn

theorem nameFaults_eq_nil_iff (known : Option (List Text)) (name : Text) :
    nameFaults known name = [] ↔ ∀ names, known = some names → name ∈ names := by
  cases known with
  | none => simp [nameFaults]
  | some names => simp [nameFaults]

theorem attributeFaults_eq_nil_iff (attributes : Json.Fields) :
    attributeFaults attributes = [] ↔ ∀ a ∈ attributes, ∀ inner, a.2 ≠ .object inner := by
  rw [attributeFaults, List.filterMap_eq_nil_iff]
  refine forall₂_congr fun a _ => ?_
  cases a.2 <;> simp

theorem attributesOf_eq_iff (entry attributes : Json.Fields) :
    attributesOf entry = (attributes, []) ↔ HasAttributes entry attributes := by
  rw [attributesOf]
  split
  · next inner hGiven =>
      rw [Prod.mk.injEq]
      constructor
      · rintro ⟨rfl, hFlat⟩
        exact ⟨hGiven, (attributeFaults_eq_nil_iff _).mp hFlat⟩
      · intro h
        obtain rfl : inner = attributes := by simpa [hGiven] using h.given
        exact ⟨rfl, (attributeFaults_eq_nil_iff _).mpr h.flat⟩
  · next hOther =>
      constructor
      · intro h
        cases h
      · intro h
        exact (hOther _ h.given).elim

/-- What an entry with a name is read as. -/
theorem ofFields_of_name {known : Option (List Text)} {entry : Json.Fields} {given : String}
    {r : ValidatorEntry} (hName : Json.get? "name" entry = some (.str given)) :
    ofFields known entry = .ok r ↔ IsName known given ∧ ∃ attributes,
      HasAttributes entry attributes ∧
        r = if isDisabled entry then .disabled (Text.strip given.toList)
          else .active ⟨Text.strip given.toList, attributes⟩ := by
  rw [ofFields, hName]
  simp only
  generalize hRead : attributesOf entry = found
  obtain ⟨attributes, faults⟩ := found
  constructor
  · intro h
    split at h
    · cases h
    · next hVisible =>
        split at h
        · next hNone =>
            rw [List.isEmpty_iff, List.append_eq_nil_iff] at hNone
            obtain ⟨hListed, rfl⟩ := hNone
            exact ⟨⟨by simpa using hVisible, (nameFaults_eq_nil_iff _ _).mp hListed⟩, attributes,
              (attributesOf_eq_iff _ _).mp hRead, (Except.ok.inj h).symm⟩
        · cases h
  · rintro ⟨hIs, attributes', hHas, rfl⟩
    rw [(attributesOf_eq_iff _ _).mpr hHas] at hRead
    cases hRead
    rw [if_neg (by simpa using hIs.visible), (nameFaults_eq_nil_iff _ _).mpr hIs.listed]
    rfl

/-- Reading follows the rules. -/
theorem ofJson_eq_ok_iff {known : Option (List Text)} {v : Json} {r : ValidatorEntry} :
    ofJson known v = .ok r ↔ IsReadAs known v r := by
  cases v with
  | object entry =>
      constructor
      · intro h
        have hName : ∃ given, Json.get? "name" entry = some (.str given) := by
          rw [ofJson, ofFields] at h
          split at h
          · next given hName => exact ⟨given, hName⟩
          · cases h
        obtain ⟨given, hName⟩ := hName
        obtain ⟨hIs, attributes, hHas, rfl⟩ := (ofFields_of_name hName).mp h
        split
        · next hOff => exact .disabled hName hIs hHas ((isDisabled_iff entry).mp hOff)
        · next hOn => exact .active hName hIs hHas fun hOff => hOn ((isDisabled_iff entry).mpr hOff)
      · intro h
        cases h with
        | active hName hIs hHas hOn =>
            refine (ofFields_of_name hName).mpr ⟨hIs, _, hHas, ?_⟩
            rw [if_neg fun hOff => hOn ((isDisabled_iff entry).mp hOff)]
        | disabled hName hIs hHas hOff =>
            refine (ofFields_of_name hName).mpr ⟨hIs, _, hHas, ?_⟩
            rw [if_pos ((isDisabled_iff entry).mpr hOff)]
  | str given =>
      have hAlone : HasAttributes [("name", .str given)] [] := ⟨rfl, by simp⟩
      rw [ofJson, ofFields_of_name rfl]
      constructor
      · rintro ⟨hIs, attributes, hHas, rfl⟩
        have hNone : Json.object [] = .object attributes := hHas.given
        cases hNone
        exact .name hIs
      · intro h
        cases h with
        | name hIs => exact ⟨hIs, [], hAlone, rfl⟩
  | null | bool _ | int _ | float _ | list _ =>
      constructor <;> intro h <;> cases h

/-- An entry that is not read has a fault. -/
theorem ofJson_ne_error_nil {known : Option (List Text)} {v : Json} :
    ofJson known v ≠ .error [] := by
  have hFields : ∀ entry, ofFields known entry ≠ .error [] := by
    intro entry h
    rw [ofFields] at h
    split at h
    · simp only at h
      split at h
      · cases h
      · split at h
        · cases h
        · next hSome => exact hSome (by rw [Except.error.inj h]; rfl)
    · cases h
  cases v with
  | object entry => exact hFields entry
  | str name => exact hFields [("name", .str name)]
  | null | bool _ | int _ | float _ | list _ => exact fun h => by cases h

theorem faultsOf_ofJson_eq_nil_iff {known : Option (List Text)} {v : Json} :
    faultsOf (ofJson known v) = [] ↔ ∃ r, IsReadAs known v r := by
  rw [faultsOf_eq_nil_iff ofJson_ne_error_nil]
  exact exists_congr fun r => ofJson_eq_ok_iff

end ValidatorEntry

namespace SymbolEntry

/-- The rules for entries: an object with the name of a symbol and one character, and maybe with
the characters that must not stand in its place. -/
inductive IsReadAs : Json → Symbol → Prop where
  | object {entry : Json.Fields} {name value invalid : String}
      (hasName : Json.get? "name" entry = some (.str name))
      (isKnown : name ∈ SymbolTable.latin.map (·.name))
      (hasValue : Json.get? "value" entry = some (.str value)) (isCharacter : value.toList.length = 1)
      (hasInvalid : (Json.get? "invalid_chars" entry).getD (.str "") = .str invalid) :
      IsReadAs (.object entry) ⟨name, value.toList, invalid.toList, flag "before_space" entry,
        flag "after_space" entry⟩

theorem nameFaults_eq_nil_iff (v : Json) :
    nameFaults v = [] ↔ ∃ s ∈ SymbolTable.latin.map (·.name), v = .str s := by
  cases v with
  | str s => simp [nameFaults]
  | null | bool _ | int _ | float _ | list _ | object _ => simp [nameFaults]

theorem valueFaults_eq_nil_iff (v : Json) :
    valueFaults v = [] ↔ ∃ s, v = .str s ∧ s.toList.length = 1 := by
  cases v with
  | str s => simp [valueFaults]
  | null | bool _ | int _ | float _ | list _ | object _ => simp [valueFaults]

theorem invalidFaults_eq_nil_iff (v : Json) : invalidFaults v = [] ↔ ∃ s, v = .str s := by
  cases v <;> simp [invalidFaults]

/-- What an entry with a name and a value is read as. -/
theorem ofParts?_eq_ok_iff {name value : Json} {entry : Json.Fields} {s : Symbol} :
    ofParts? name value entry = some (.ok s) ↔ ∃ given character invalid,
      (name = .str given ∧ given ∈ SymbolTable.latin.map (·.name)) ∧
      (value = .str character ∧ character.toList.length = 1) ∧
      (Json.get? "invalid_chars" entry).getD (.str "") = .str invalid ∧
      s = ⟨given, character.toList, invalid.toList, flag "before_space" entry,
        flag "after_space" entry⟩ := by
  rw [ofParts?]
  simp only
  constructor
  · intro h
    split at h
    · split at h
      · next hNone =>
          rw [List.isEmpty_iff, List.append_eq_nil_iff, List.append_eq_nil_iff] at hNone
          obtain ⟨⟨hNames, hValues⟩, hInvalids⟩ := hNone
          obtain ⟨given, hKnown, rfl⟩ := (nameFaults_eq_nil_iff _).mp hNames
          obtain ⟨character, rfl, hOne⟩ := (valueFaults_eq_nil_iff _).mp hValues
          obtain ⟨invalid, hInvalid⟩ := (invalidFaults_eq_nil_iff _).mp hInvalids
          rw [hInvalid] at h
          refine ⟨given, character, invalid, ⟨rfl, hKnown⟩, ⟨rfl, hOne⟩, hInvalid, ?_⟩
          simpa [textOf] using h.symm
      · cases h
    · cases h
  · rintro ⟨given, character, invalid, ⟨rfl, hKnown⟩, ⟨rfl, hOne⟩, hInvalid, rfl⟩
    rw [(nameFaults_eq_nil_iff _).mpr ⟨_, hKnown, rfl⟩, (valueFaults_eq_nil_iff _).mpr ⟨_, rfl, hOne⟩,
      hInvalid]
    simp [isKey, invalidFaults, textOf]

/-- Reading follows the rules. -/
theorem ofJson?_eq_ok_iff {v : Json} {s : Symbol} : ofJson? v = some (.ok s) ↔ IsReadAs v s := by
  constructor
  · intro h
    unfold ofJson? at h
    split at h
    · split at h
      · next hName hValue =>
          obtain ⟨given, character, invalid, ⟨rfl, hKnown⟩, ⟨rfl, hOne⟩, hInvalid, rfl⟩ :=
            ofParts?_eq_ok_iff.mp h
          exact .object hName hKnown hValue hOne hInvalid
      · cases h
    · cases h
  · intro h
    cases h with
    | object hName hKnown hValue hOne hInvalid =>
        rw [ofJson?, hName, hValue]
        exact ofParts?_eq_ok_iff.mpr ⟨_, _, _, ⟨rfl, hKnown⟩, ⟨rfl, hOne⟩, hInvalid, rfl⟩

/-- An entry that is not read has a fault. -/
theorem ofJson?_ne_error_nil {v : Json} : ofJson? v ≠ some (.error []) := by
  intro h
  unfold ofJson? at h
  split at h
  · split at h
    · rw [ofParts?] at h
      split at h
      · simp only at h
        split at h
        · cases h
        · next hSome => exact hSome (by rw [Except.error.inj (Option.some.inj h)]; rfl)
      · cases h
    · next entry hMissing =>
        simp only [required, Option.some.injEq, Except.error.injEq, List.map_eq_nil_iff,
          List.filter_eq_nil_iff, List.mem_cons, List.not_mem_nil, or_false, forall_eq_or_imp,
          forall_eq, Bool.not_eq_true', Bool.not_eq_false, Json.hasKey, Option.isSome_iff_exists]
          at h
        obtain ⟨⟨name, hName⟩, value, hValue⟩ := h
        exact hMissing name value hName hValue
  · cases h

theorem faultsOf_eq_nil_iff_isReadAs {v : Json} {r : Except (List SymbolEntryFault) Symbol}
    (h : ofJson? v = some r) : faultsOf r = [] ↔ ∃ s, IsReadAs v s := by
  rw [faultsOf_eq_nil_iff fun hNone => ofJson?_ne_error_nil (hNone ▸ h)]
  refine exists_congr fun s => ?_
  rw [← ofJson?_eq_ok_iff, h, Option.some.injEq]

/-- The name of the entry can be looked up, if it is looked up, which is done when there is a value
too. -/
def CanLookUp (v : Json) : Prop :=
  ∀ entry name, v = .object entry → Json.get? "name" entry = some name →
    Json.hasKey "value" entry = true → isKey name = true

theorem exists_ofJson? {v : Json} (h : CanLookUp v) : ∃ r, ofJson? v = some r := by
  unfold ofJson?
  split
  · split
    · next hName hValue =>
        rw [ofParts?, if_pos (h _ _ rfl hName (Option.isSome_of_eq_some hValue))]
        simp only
        split <;> exact ⟨_, rfl⟩
    · exact ⟨_, rfl⟩
  · exact ⟨_, rfl⟩

end SymbolEntry

end ProseLint
