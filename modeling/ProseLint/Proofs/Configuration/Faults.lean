import ProseLint.Proofs.Configuration.Loading
import ProseLint.Proofs.Json.Fields
import ProseLint.Validation.Registry

/-! Which failures of a configuration are reported as errors of the configuration. A source whose
values can be walked through and converted where that is done gives its validators or is rejected,
and a single number in the place of texts is enough for another end. -/

namespace ProseLint

/-- If the reading fails, its failure is an error of the configuration. -/
def OnlyRejects {α : Type} (r : Except ConfigurationFault α) : Prop :=
  ∀ fault, r = .error fault → ∃ e, fault = .rejected e

namespace OnlyRejects

variable {α β : Type}

theorem ok (a : α) : OnlyRejects (.ok a) := by
  intro fault h
  cases h

theorem rejected (e : ConfigurationError) :
    OnlyRejects (.error (.rejected e) : Except ConfigurationFault α) := by
  intro fault h
  exact ⟨e, (Except.error.inj h).symm⟩

theorem bind {r : Except ConfigurationFault α} {f : α → Except ConfigurationFault β}
    (h : OnlyRejects r) (hNext : ∀ a, OnlyRejects (f a)) : OnlyRejects (r >>= f) := by
  cases r with
  | ok a => exact hNext a
  | error fault =>
      obtain ⟨e, rfl⟩ := h fault rfl
      exact rejected e

theorem map {r : Except ConfigurationFault α} (h : OnlyRejects r) (f : α → β) :
    OnlyRejects (r.map f) := by
  cases r with
  | ok a => exact ok (f a)
  | error fault =>
      obtain ⟨e, rfl⟩ := h fault rfl
      exact rejected e

end OnlyRejects

/-! ## Attributes -/

namespace Json

/-- The value is no infinite number. -/
def IsFinite (v : Json) : Prop := ∀ negative, v ≠ .float (.infinite negative)

/-- The value is a text, a list, or one that counts as nothing. -/
def HoldsTexts (v : Json) : Prop :=
  v.truthy = true → (∃ t, v = .str t) ∨ ∃ items, v = .list items

/-- The value is no whole number that is too large for every floating-point number. -/
def FitsFloat (v : Json) : Prop := ∀ n, v = .int n → ∃ x, Binary64.ofInt? n = some x

end Json

namespace ValidatorSetup

variable {s : ValidatorSetup} {key : String}

theorem onlyRejects_int (h : (s.value key).IsFinite) : OnlyRejects (s.int key) := by
  rw [int]
  split
  · next negative hIs => exact (h negative hIs).elim
  · split
    · exact .ok _
    · exact .rejected _

theorem onlyRejects_float (h : (s.value key).FitsFloat) : OnlyRejects (s.float key) := by
  rw [float]
  split
  · next n hIs =>
      obtain ⟨x, hFits⟩ := h n hIs
      rw [hFits]
      exact .ok x
  · exact .ok _
  · exact .ok _
  · split
    · exact .ok _
    · exact .rejected _
  · exact .rejected _

theorem exists_itemsOf? {v : Json} (h : v.HoldsTexts) : ∃ items, itemsOf? v = some items := by
  by_cases hTrue : v.truthy = true
  · obtain ⟨t, rfl⟩ | ⟨items, rfl⟩ := h hTrue
    · exact ⟨_, if_pos hTrue⟩
    · exact ⟨_, if_pos hTrue⟩
  · exact ⟨[], if_neg hTrue⟩

theorem onlyRejects_texts (h : (s.value key).HoldsTexts) : OnlyRejects (s.texts key) := by
  obtain ⟨items, hItems⟩ := exists_itemsOf? h
  rw [texts, hItems]
  exact .ok _

end ValidatorSetup

namespace ValidatorKind

/-- An attribute has a configured value, its default, or none. -/
theorem get?_attributes {k : ValidatorKind} {configured : Json.Fields} {key : String} {v : Json}
    (h : Json.get? key (k.attributes configured) = some v) :
    (key, v) ∈ configured ∨ Json.get? key k.defaults = some v := by
  rw [attributes] at h
  generalize k.defaults = fields at h ⊢
  induction configured generalizing fields with
  | nil => exact Or.inr h
  | cons a rest ih =>
      rcases ih _ h with hLater | hHere
      · exact Or.inl (List.mem_cons_of_mem a hLater)
      · rw [Json.get?_put] at hHere
        split at hHere
        · next hIs =>
            rw [hIs, ← Option.some.inj hHere]
            exact Or.inl List.mem_cons_self
        · exact Or.inr hHere

end ValidatorKind

/-! ## Validators -/

/-- The value can be converted to what the attribute is: no infinite number, texts for `list`, and
nothing too large for `percentage_threshold`. -/
structure Json.Suits (key : String) (v : Json) : Prop where
  isFinite : v.IsFinite
  holdsTexts : key = "list" → v.HoldsTexts
  fitsFloat : key = "percentage_threshold" → v.FitsFloat

/-- A value that counts as nothing and is no number suits every attribute. -/
theorem Json.suits_of_not_truthy {key : String} {v : Json} (hFalse : v.truthy = false)
    (hFinite : v.IsFinite) (hWhole : ∀ n, v ≠ .int n) : Json.Suits key v :=
  ⟨hFinite, fun _ hTrue => (Bool.eq_false_iff.mp hFalse hTrue).elim,
    fun _ n hIs => (hWhole n hIs).elim⟩

theorem Json.suits_null (key : String) : Json.Suits key .null :=
  Json.suits_of_not_truthy rfl (by simp [Json.IsFinite]) (by simp)

theorem Json.suits_int {key : String} {n : Int} (hText : key ≠ "list")
    (hFits : ∃ x, Binary64.ofInt? n = some x) : Json.Suits key (.int n) := by
  refine ⟨by simp [Json.IsFinite], fun hIs => absurd hIs hText, fun _ m hIs => ?_⟩
  cases hIs
  exact hFits

namespace ValidatorKind

/-- Every default can be converted to what its attribute is. -/
theorem suits_defaults {k : ValidatorKind} (hMem : k ∈ builtin) :
    ∀ a ∈ k.defaults, Json.Suits a.1 a.2 := by
  have hText : ∀ key, Json.Suits key (.str "") := fun key =>
    Json.suits_of_not_truthy rfl (by simp [Json.IsFinite]) (by simp)
  have hOff : Json.Suits "no_space" (.bool false) :=
    Json.suits_of_not_truthy rfl (by simp [Json.IsFinite]) (by simp)
  simp only [builtin, List.mem_cons, List.not_mem_nil, or_false] at hMem
  rcases hMem with rfl | rfl | rfl | rfl | rfl | rfl | rfl | rfl | rfl | rfl | rfl
  · exact List.forall_mem_singleton.mpr (Json.suits_int (by decide) ⟨_, rfl⟩)
  · exact List.forall_mem_singleton.mpr (Json.suits_int (by decide) ⟨_, rfl⟩)
  · exact List.forall_mem_nil _
  · exact List.forall_mem_singleton.mpr (hText _)
  · exact List.forall_mem_singleton.mpr (hText _)
  · exact List.forall_mem_singleton.mpr (hText _)
  · exact List.forall_mem_singleton.mpr hOff
  · exact List.forall_mem_singleton.mpr (Json.suits_int (by decide) ⟨_, rfl⟩)
  · exact List.forall_mem_singleton.mpr (Json.suits_int (by decide) ⟨_, rfl⟩)
  · exact List.forall_mem_singleton.mpr (hText _)
  · exact List.forall_mem_cons.mpr ⟨Json.suits_int (by decide) ⟨_, rfl⟩,
      List.forall_mem_cons.mpr ⟨Json.suits_int (by decide) ⟨_, rfl⟩,
        List.forall_mem_singleton.mpr (Json.suits_int (by decide) ⟨_, rfl⟩)⟩⟩

/-- Every attribute that is read can be converted, configured or not. -/
theorem suits_value {k : ValidatorKind} (hMem : k ∈ builtin) {s : ValidatorSetup}
    {configured : Json.Fields} (hSetup : s.attributes = k.attributes configured)
    (h : ∀ a ∈ configured, Json.hasKey a.1 k.defaults = true → Json.Suits a.1 a.2) {key : String}
    (hKey : Json.hasKey key k.defaults = true) : Json.Suits key (s.value key) := by
  rw [ValidatorSetup.value, hSetup]
  cases hGet : Json.get? key (k.attributes configured) with
  | none => exact Json.suits_null key
  | some v =>
      rcases get?_attributes hGet with hConfigured | hDefault
      · exact h (key, v) hConfigured hKey
      · obtain ⟨before, behind, hSplit, -⟩ := List.lookup_eq_some_iff.mp hDefault
        exact suits_defaults hMem (key, v) (by simp [hSplit])

theorem onlyRejects_check {k : ValidatorKind} (hMem : k ∈ builtin) {s : ValidatorSetup}
    (h : ∀ key, Json.hasKey key k.defaults = true → Json.Suits key (s.value key)) :
    OnlyRejects (k.check s) := by
  have hInt : ∀ key, Json.hasKey key k.defaults = true → OnlyRejects (s.int key) :=
    fun key hKey => ValidatorSetup.onlyRejects_int (h key hKey).isFinite
  have hTexts : Json.hasKey "list" k.defaults = true → OnlyRejects (s.texts "list") :=
    fun hKey => ValidatorSetup.onlyRejects_texts ((h _ hKey).holdsTexts rfl)
  have hFloat : Json.hasKey "percentage_threshold" k.defaults = true →
      OnlyRejects (s.float "percentage_threshold") :=
    fun hKey => ValidatorSetup.onlyRejects_float ((h _ hKey).fitsFloat rfl)
  -- A kind fails only where it reads an attribute, and it reads only those that have a default.
  simp only [builtin, List.mem_cons, List.not_mem_nil, or_false] at hMem
  rcases hMem with rfl | rfl | rfl | rfl | rfl | rfl | rfl | rfl | rfl | rfl | rfl
  · exact (hInt "max_len" rfl).bind fun _ => .ok _
  · exact (hInt "max_num" rfl).bind fun _ => .ok _
  · exact .ok _
  · exact (hTexts rfl).bind fun _ => .ok _
  · exact (hTexts rfl).bind fun _ => .ok _
  · exact (hTexts rfl).bind fun _ => .ok _
  · exact .ok _
  · exact (hInt "max_num" rfl).bind fun _ => .ok _
  · exact (hInt "max_num" rfl).bind fun _ => .ok _
  · exact .ok _
  · exact (hInt "leading_word_limit" rfl).bind fun _ => (hFloat rfl).bind fun _ =>
      (hInt "min_sentence_count" rfl).bind fun _ => .ok _

theorem onlyRejects_make {k : ValidatorKind} (hMem : k ∈ builtin) {configured : Json.Fields}
    (h : ∀ a ∈ configured, Json.hasKey a.1 k.defaults = true → Json.Suits a.1 a.2)
    (symbols : SymbolTable) : OnlyRejects (k.make configured symbols) := by
  rw [make]
  split
  · exact .rejected _
  · exact (onlyRejects_check hMem fun key hKey => suits_value hMem rfl h hKey).map _

end ValidatorKind

namespace Registry

/-- The attributes of the settings can be converted by the kind that they name. -/
def Takes (r : Registry) (s : ValidatorSettings) : Prop :=
  ∀ k ∈ r.kinds, k.name = s.name → ∀ a ∈ s.attributes,
    Json.hasKey a.1 k.defaults = true → Json.Suits a.1 a.2

theorem onlyRejects_create {s : ValidatorSettings} (h : builtin.Takes s) (symbols : SymbolTable) :
    OnlyRejects (builtin.create symbols s).2 := by
  rw [create]
  split
  · exact .rejected _
  · next k hKind =>
      have hMem : k ∈ ValidatorKind.builtin := List.mem_of_find?_eq_some hKind
      have hName : k.name = s.name := by simpa using List.find?_some hKind
      exact ValidatorKind.onlyRejects_make hMem (h k hMem hName) symbols

theorem onlyRejects_createAll {settings : List ValidatorSettings}
    (h : ∀ s ∈ settings, builtin.Takes s) (symbols : SymbolTable) :
    OnlyRejects (builtin.createAll symbols settings).2 := by
  induction settings with
  | nil => exact .ok _
  | cons s rest ih =>
      have hFirst := onlyRejects_create (h s List.mem_cons_self) symbols
      have hRest := ih fun t hMem => h t (List.mem_cons_of_mem s hMem)
      rw [createAll]
      split
      · next hCreate =>
          rw [hCreate] at hFirst
          obtain ⟨e, rfl⟩ := hFirst _ rfl
          exact .rejected e
      · exact hRest.map _

/-- Loads a source and makes its validators, which must be of these kinds. -/
def load (r : Registry) (source : Json.Fields) : Except ConfigurationFault (List Validator) :=
  match Configuration.ofFields (some r.names) source with
  | .ok (c, _) => (r.createAll c.symbols c.validators).2
  | .error fault => .error fault

end Registry

/-! ## Sources -/

namespace Configuration

/-- The values of the source can be walked through, looked up and converted where that is done. -/
structure IsConvertible (r : Registry) (source : Json.Fields) : Prop where
  walked : ∀ v, Json.get? "symbols" source = some v →
    ∃ entries, v.elements? = some entries ∧ ∀ e ∈ entries, SymbolEntry.CanLookUp e
  converted : ∀ entry attributes given, .object entry ∈ items "validators" source →
    Json.get? "name" entry = some (.str given) →
    Json.get? "attributes" entry = some (.object attributes) →
    r.Takes ⟨Text.strip given.toList, attributes⟩

variable {source : Json.Fields}

theorem IsConvertible.exists_symbolEntries? {r : Registry} (h : IsConvertible r source) :
    ∃ symbols, symbolEntries? source = some symbols := by
  cases hGiven : Json.get? "symbols" source with
  | none => exact ⟨[], by rw [symbolEntries?, hGiven]; rfl⟩
  | some v =>
      obtain ⟨entries, hWalked, hNames⟩ := h.walked v hGiven
      rw [symbolEntries?, hGiven, Option.getD_some, hWalked]
      exact ⟨_, mapM_eq_pure_map fun e hMem => ofJson?_eq_symbolReading (hNames e hMem)⟩

theorem IsConvertible.takes {r : Registry} (h : IsConvertible r source)
    {known : Option (List Text)} {s : ValidatorSettings}
    (hMem : s ∈ activeSettings (validatorEntries known source)) : r.Takes s := by
  obtain ⟨v, hItem, hRead⟩ := exists_isReadAs_of_activeSettings hMem
  cases hRead with
  | name _ => exact fun k _ _ a hIn => by cases hIn
  | active hName _ has _ =>
      cases hGiven : Json.get? "attributes" _ with
      | some given =>
          have hIs := has.given
          rw [hGiven] at hIs
          exact h.converted _ _ _ hItem hName (hGiven.trans (congrArg some hIs))
      | none =>
          have hIs := has.given
          rw [hGiven] at hIs
          cases hIs
          exact fun k _ _ a hIn => by cases hIn

end Configuration

namespace Registry

/-- A source that can be converted gives its validators or is rejected. -/
theorem load_ok_or_rejected {source : Json.Fields} (h : Configuration.IsConvertible builtin source) :
    (∃ validators, builtin.load source = .ok validators) ∨
      ∃ e, builtin.load source = .error (.rejected e) := by
  obtain ⟨symbols, hSymbols⟩ := h.exists_symbolEntries?
  have hOnly : OnlyRejects (builtin.load source) := by
    rw [load]
    split
    · next c _ hLoaded =>
        refine onlyRejects_createAll (fun s hMem => ?_) c.symbols
        obtain ⟨_, _, _, -, -, -, rfl, -⟩ := Configuration.of_ofFields_eq_ok hLoaded
        exact h.takes hMem
    · next fault hFault =>
        obtain ⟨-, rfl⟩ := Configuration.of_ofFields_eq_error hSymbols hFault
        exact .rejected _
  cases hLoad : builtin.load source with
  | ok validators => exact Or.inl ⟨validators, rfl⟩
  | error fault =>
      obtain ⟨e, rfl⟩ := hOnly fault hLoad
      exact Or.inr ⟨e, rfl⟩

/-- A source with a list of a number for `list`, and with a number for it where it is not read. The
length is no number. -/
def wordForNumber : Json.Fields :=
  [("validators", .list [
    .object [("name", .str "InvalidExpression"),
      ("attributes", .object [("list", .list [.int 5])])],
    .object [("name", .str "SentenceLength"),
      ("attributes", .object [("max_len", .str "x"), ("list", .int 5)])]])]

/-- The number where it is not read does not matter, and the length is reported. -/
theorem load_word_for_number :
    Configuration.IsConvertible builtin wordForNumber ∧
      ∃ e, builtin.load wordForNumber = .error (.rejected e) := by
  have hUnread : ∀ k ∈ ValidatorKind.builtin,
      k.name = "SentenceLength".toList → Json.hasKey "list" k.defaults = false := by decide
  have hItems : Json.Suits "list" (.list [.int 5]) :=
    ⟨by simp [Json.IsFinite], fun _ _ => Or.inr ⟨_, rfl⟩, fun hIs => absurd hIs (by decide)⟩
  have hWord : Json.Suits "max_len" (.str "x") :=
    ⟨by simp [Json.IsFinite], fun _ _ => Or.inl ⟨_, rfl⟩, fun hIs => absurd hIs (by decide)⟩
  have hConvertible : Configuration.IsConvertible builtin wordForNumber := by
    refine ⟨fun v hGiven => ?_, ?_⟩
    · cases hGiven
    · intro entry attributes given hItem hName hGiven k hMem hKind a hIn hKey
      rcases List.mem_cons.mp hItem with hIs | hSecond
      · cases hIs
        cases hGiven
        cases List.mem_singleton.mp hIn
        exact hItems
      · cases List.mem_singleton.mp hSecond
        cases hName
        cases hGiven
        rcases List.mem_cons.mp hIn with rfl | hOther
        · exact hWord
        · cases List.mem_singleton.mp hOther
          rw [hUnread k hMem hKind] at hKey
          cases hKey
  refine ⟨hConvertible, (load_ok_or_rejected hConvertible).resolve_left ?_⟩
  rintro ⟨validators, hLoad⟩
  cases hLoad

/-- A source with a number for `list` where it is read. -/
def numberForTexts : Json.Fields :=
  [("validators", .list [
    .object [("name", .str "InvalidExpression"), ("attributes", .object [("list", .int 5)])]])]

/-- The number ends the work with a failure that is no error of the configuration. -/
theorem load_number_for_texts :
    ¬ ((∃ validators, builtin.load numberForTexts = .ok validators) ∨
      ∃ e, builtin.load numberForTexts = .error (.rejected e)) := by
  have hLoad : builtin.load numberForTexts = .error .unusable := rfl
  rw [hLoad]
  rintro (⟨validators, hIs⟩ | ⟨e, hIs⟩) <;> cases hIs

end Registry

end ProseLint
