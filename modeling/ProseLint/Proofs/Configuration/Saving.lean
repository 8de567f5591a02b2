import ProseLint.Proofs.Configuration.Loading
import ProseLint.Proofs.Json.RoundTrip
import ProseLint.Proofs.Symbol.Table
import ProseLint.Proofs.Text.Utf8
import ProseLint.Proofs.Text.Visible

/-! A saved configuration is loaded as it was. What loading makes sure of is enough to load the
data value of a configuration again, and what is written for that value is read as the value. -/

namespace ProseLint

/-- What is true of the settings that come out of an entry. -/
structure ValidatorSettings.IsLoadable (known : Option (List Text)) (s : ValidatorSettings) :
    Prop where
  stripped : Text.strip s.name = s.name
  visible : s.name ≠ []
  listed : ∀ names, known = some names → s.name ∈ names
  flat : ∀ a ∈ s.attributes, ∀ inner, a.2 ≠ .object inner

/-- What is true of a symbol that comes out of an entry. -/
structure Symbol.IsLoadable (s : Symbol) : Prop where
  isKnown : s.IsKnown
  isCharacter : s.value.length = 1

/-- What is true of a configuration that has been loaded. -/
structure Configuration.IsLoadable (known : Option (List Text)) (c : Configuration) : Prop where
  language : c.lang ∈ SymbolTable.languages
  validators : ∀ s ∈ c.validators, s.IsLoadable known
  symbols : ∃ overrides, (∀ s ∈ overrides, Symbol.IsLoadable s) ∧
    c.symbols = .create c.lang c.symbols.variant overrides

/-! ## Entries -/

namespace ValidatorEntry

variable {known : Option (List Text)} {s : ValidatorSettings}

theorem IsReadAs.isLoadable {v : Json} (h : IsReadAs known v (.active s)) :
    s.IsLoadable known := by
  cases h with
  | name isName =>
      exact ⟨Text.strip_strip _, isName.visible, isName.listed, by simp⟩
  | active hasName isName has isOn =>
      exact ⟨Text.strip_strip _, isName.visible, isName.listed, has.flat⟩

/-- The data value of the settings is read as the settings. -/
theorem isReadAs_toJson (h : s.IsLoadable known) : IsReadAs known s.toJson (.active s) := by
  have hName : Text.strip (String.ofList s.name).toList = s.name := by
    rw [String.toList_ofList, h.stripped]
  have hIs : IsName known (String.ofList s.name) :=
    ⟨by rw [hName]; exact h.visible, by rw [hName]; exact h.listed⟩
  have hHas : HasAttributes [("name", .text s.name), ("attributes", .object s.attributes)]
      s.attributes := ⟨rfl, h.flat⟩
  have hOn : Json.get? "enabled" [("name", .text s.name), ("attributes", .object s.attributes)] ≠
      some (.bool false) := by
    show (none : Option Json) ≠ _
    simp
  have hRead := IsReadAs.active rfl hIs hHas hOn
  rw [hName] at hRead
  exact hRead

end ValidatorEntry

namespace SymbolEntry

theorem IsReadAs.isLoadable {v : Json} {s : Symbol} (h : IsReadAs v s) : s.IsLoadable := by
  cases h with
  | object hasName isKnown hasValue isCharacter hasInvalid => exact ⟨isKnown, isCharacter⟩

/-- The data value of a symbol is read as the symbol. -/
theorem isReadAs_symbolJson {s : Symbol} (h : s.IsLoadable) :
    IsReadAs (Configuration.symbolJson s) s := by
  have hOne : (String.ofList s.value).toList.length = 1 := by
    rw [String.toList_ofList, h.isCharacter]
  have hRead : IsReadAs (Configuration.symbolJson s) ⟨s.name, (String.ofList s.value).toList,
      (String.ofList s.invalid).toList, s.spaceBefore, s.spaceAfter⟩ :=
    .object rfl h.isKnown rfl hOne rfl
  rwa [String.toList_ofList, String.toList_ofList] at hRead

end SymbolEntry

/-! ## Configurations -/

namespace Configuration

variable {known : Option (List Text)}

/-- The symbols of a source come out of entries of a list. -/
theorem exists_isReadAs_of_symbolEntries? {source : Json.Fields}
    {symbols : List (Except (List SymbolEntryFault) Symbol)}
    (h : symbolEntries? source = some symbols) {s : Symbol}
    (hMem : s ∈ symbols.filterMap Except.toOption) : ∃ v, SymbolEntry.IsReadAs v s := by
  obtain ⟨r, hRead, hIs⟩ := List.mem_filterMap.mp hMem
  cases r with
  | error faults => cases hIs
  | ok t =>
      cases hIs
      rw [symbolEntries?] at h
      split at h
      · obtain ⟨v, -, hOk⟩ := exists_of_mapM_eq_some h hRead
        exact ⟨v, SymbolEntry.ofJson?_eq_ok_iff.mp hOk⟩
      · cases h

theorem isLoadable_of_ofFields {source : Json.Fields} {c : Configuration}
    {warnings : List ConfigurationWarning} (h : ofFields known source = .ok (c, warnings)) :
    c.IsLoadable known := by
  obtain ⟨symbols, lang, tokenizer, hSymbols, hLang, -, rfl, -⟩ := of_ofFields_eq_ok h
  refine ⟨(choice?_eq_some_iff.mp hLang).2, fun s hMem => ?_,
    symbols.filterMap Except.toOption, fun s hMem => ?_, rfl⟩
  · obtain ⟨v, -, hRead⟩ := exists_isReadAs_of_activeSettings hMem
    exact hRead.isLoadable
  · obtain ⟨v, hRead⟩ := exists_isReadAs_of_symbolEntries? hSymbols hMem
    exact hRead.isLoadable

/-- The fields of the data value of a configuration. -/
def fields (c : Configuration) : Json.Fields :=
  [("lang", .str c.lang), ("variant", c.symbols.variant),
    ("tokenizer", .str c.tokenizer.name), ("validators", .list (c.validators.map (·.toJson))),
    ("symbols", .list ((overrides c.symbols).map symbolJson)), ("metadata", c.metadata)]

namespace IsLoadable

variable {c : Configuration} (h : c.IsLoadable known)

include h

theorem isLoadable_of_mem_overrides {s : Symbol} (hMem : s ∈ overrides c.symbols) :
    s.IsLoadable := by
  obtain ⟨symbols, hOverrides, hTable⟩ := h.symbols
  have hIn := (List.mem_filter.mp hMem).1
  rw [hTable] at hIn
  exact ⟨SymbolTable.isKnown_of_mem_create (fun t hMem => (hOverrides t hMem).isKnown) hIn,
    SymbolTable.length_value_create (fun t hMem => (hOverrides t hMem).isCharacter) hIn⟩

/-- The symbols that are written make the table again. -/
theorem create_overrides :
    SymbolTable.create c.lang c.symbols.variant (overrides c.symbols) = c.symbols := by
  obtain ⟨symbols, hOverrides, hTable⟩ := h.symbols
  rw [hTable]
  exact SymbolTable.create_overrides fun s hMem => (hOverrides s hMem).isKnown

theorem symbolEntries?_fields :
    symbolEntries? c.fields = some ((overrides c.symbols).map .ok) := by
  show ((overrides c.symbols).map symbolJson).mapM SymbolEntry.ofJson? = _
  rw [List.mapM_map]
  exact mapM_eq_pure_map fun s hMem => SymbolEntry.ofJson?_eq_ok_iff.mpr
    (SymbolEntry.isReadAs_symbolJson (h.isLoadable_of_mem_overrides hMem))

theorem validatorEntries_fields :
    validatorEntries known c.fields = (c.validators.map .active).map .ok := by
  show (c.validators.map ValidatorSettings.toJson).map (ValidatorEntry.ofJson known) = _
  rw [List.map_map, List.map_map]
  refine List.map_congr_left fun s hMem => ?_
  exact ValidatorEntry.ofJson_eq_ok_iff.mpr (ValidatorEntry.isReadAs_toJson (h.validators s hMem))

theorem disabledWarnings_fields : disabledWarnings (validatorEntries known c.fields) = [] := by
  rw [h.validatorEntries_fields, disabledWarnings_map_ok, mapIdx_map, List.flatten_eq_nil_iff]
  intro found hMem
  obtain ⟨i, hLt, rfl⟩ := List.mem_mapIdx.mp hMem
  rfl

theorem standsFor_fields :
    standsFor known c.fields ((overrides c.symbols).map .ok) c.lang c.tokenizer = c := by
  have hActive : activeSettings (validatorEntries known c.fields) = c.validators := by
    rw [h.validatorEntries_fields, activeSettings_map_ok, List.filterMap_map]
    exact List.filterMap_some
  have hChanged : ((overrides c.symbols).map Except.ok).filterMap
      (@Except.toOption (List SymbolEntryFault) Symbol) = overrides c.symbols := by
    rw [List.filterMap_map]
    exact List.filterMap_some
  rw [standsFor, hActive, hChanged]
  show Configuration.mk c.validators
    (SymbolTable.create c.lang c.symbols.variant (overrides c.symbols)) c.tokenizer c.metadata = c
  rw [h.create_overrides]

/-- The data value of a configuration that has been loaded stands for the configuration. -/
theorem ofJson_toJson : ofJson known c.toJson = .ok (c, []) := by
  have hLang : language? c.fields = some c.lang :=
    choice?_eq_some_iff.mpr ⟨rfl, h.language⟩
  have hTokenizer : tokenizer? c.fields = some c.tokenizer := by
    cases hIs : c.tokenizer
    rw [fields, hIs]
    rfl
  have hNone : problems c.fields (validatorEntries known c.fields)
      ((overrides c.symbols).map .ok) = [] := by
    rw [h.validatorEntries_fields]
    exact problems_eq_nil_iff.mpr ⟨⟨_, hLang⟩, ⟨_, hTokenizer⟩, rfl,
      flatten_faultsOf_map_ok ConfigurationProblem.validator _,
      flatten_faultsOf_map_ok ConfigurationProblem.symbol _⟩
  calc ofJson known c.toJson = ofFields known c.fields := rfl
    _ = .ok (standsFor known c.fields ((overrides c.symbols).map .ok) c.lang c.tokenizer,
          disabledWarnings (validatorEntries known c.fields)) :=
        ofFields_of_sound h.symbolEntries?_fields hNone hLang hTokenizer
    _ = .ok (c, []) := by rw [h.standsFor_fields, h.disabledWarnings_fields]

end IsLoadable

end Configuration

/-! ## What is written is read -/

namespace Json

theorem Survives.get? {key : String} {fields : Fields} {v : Json} (h : Survives (.object fields))
    (hGet : Json.get? key fields = some v) : Survives v := by
  obtain ⟨before, behind, rfl, -⟩ := List.lookup_eq_some_iff.mp hGet
  exact (Survives.object_iff.mp h).2 (key, v) (by simp)

theorem Survives.getD_get? {key : String} {fields : Fields} {default : Json}
    (h : Survives (.object fields)) (hDefault : Survives default) :
    Survives ((Json.get? key fields).getD default) := by
  cases hGet : Json.get? key fields with
  | none => exact hDefault
  | some v => exact h.get? hGet

end Json

open Json (Survives)

theorem ValidatorEntry.IsReadAs.survives {known : Option (List Text)} {v : Json}
    {s : ValidatorSettings} (h : IsReadAs known v (.active s)) (hSurvives : v.Survives) :
    s.toJson.Survives := by
  have hAttributes : Survives (.object s.attributes) := by
    cases h with
    | name isName => simp
    | active hasName isName has isOn => exact has.given ▸ hSurvives.getD_get? (by simp)
  simpa [ValidatorSettings.toJson, Json.text] using hAttributes

namespace Configuration

variable {known : Option (List Text)}

theorem symbolJson_survives (s : Symbol) : (symbolJson s).Survives := by
  simp [symbolJson, Json.text]

theorem survives_of_mem_items {key : String} {source : Json.Fields} {v : Json}
    (h : Survives (.object source)) (hMem : v ∈ items key source) : v.Survives := by
  rw [items] at hMem
  split at hMem
  · next entries hGet => exact Survives.list_iff.mp (h.get? hGet) v hMem
  · cases hMem

/-- Every value in the data value of a configuration comes from its source or is a text or a truth
value. -/
theorem toJson_survives {source : Json.Fields} {c : Configuration}
    {warnings : List ConfigurationWarning} (hSource : Survives (.object source))
    (h : ofFields known source = .ok (c, warnings)) : c.toJson.Survives := by
  obtain ⟨symbols, lang, tokenizer, -, -, -, rfl, -⟩ := of_ofFields_eq_ok h
  have hVariant : ((Json.get? "variant" source).getD (.str "")).Survives :=
    hSource.getD_get? (.str "")
  have hMetadata : ((Json.get? "metadata" source).getD (.object [])).Survives :=
    hSource.getD_get? (by simp)
  have hValidators : ∀ s ∈ activeSettings (validatorEntries known source), s.toJson.Survives := by
    intro s hActive
    obtain ⟨entry, hItem, hRead⟩ := exists_isReadAs_of_activeSettings hActive
    exact hRead.survives (survives_of_mem_items hSource hItem)
  simpa [toJson, standsFor, symbolJson_survives, SymbolTable.create] using
    ⟨hVariant, hValidators, hMetadata⟩

end Configuration

namespace ActiveConfiguration

/-- What is saved is read from its path as the data value of the configuration. -/
theorem value_save {a : ActiveConfiguration} (h : a.configuration.toJson.Survives)
    (files : Text → FileContent) (path : Text) :
    (ConfigurationSource.file path).value (a.save files path) = .ok a.configuration.toJson := by
  rw [ConfigurationSource.value, save]
  simp only [if_true, Utf8.decode_encode, Configuration.saved, h.read?_render]

/-- A configuration that has been loaded, saved and loaded again is the same, and the second time
there is nothing to warn of. Floating-point numbers of the source must be such that their written
form is read as them. -/
theorem load_save {a b : ActiveConfiguration} {files : Text → FileContent}
    {known : Option (List Text)} {source : ConfigurationSource} {v : Json}
    {warnings : List ConfigurationWarning} (hValue : source.value files = .ok v)
    (hSurvives : v.Survives) (hLoad : a.load files known source = (b, .ok warnings))
    (others : Text → FileContent) (path : Text) :
    initial.load (b.save others path) known (.file path) = (b, .ok []) := by
  rw [load, ConfigurationSource.load, hValue] at hLoad
  simp only at hLoad
  split at hLoad
  · next c found hOk =>
      cases hLoad
      cases v with
      | object fields =>
          have hFile := value_save (a := ⟨c, true⟩) (Configuration.toJson_survives hSurvives hOk)
            others path
          rw [load, ConfigurationSource.load, hFile]
          -- What the first load has made sure of is all that the second one asks for.
          simp only [(Configuration.isLoadable_of_ofFields hOk).ofJson_toJson]
      | null | bool _ | int _ | float _ | str _ | list _ => cases hOk
  · cases hLoad

/-- A source with a name in spaces, a validator that is switched off, a symbol that is replaced and
one that is replaced twice, at last by itself. -/
def sampleSource : Json.Fields :=
  [("lang", .str "ja"), ("variant", .int 3),
    ("metadata", .object [("weight", .float (.finite false 7036874417766400 (-49)))]),
    ("validators", .list [
      .object [("name", .str " DoubledWord "), ("attributes", .object [("list", .list [.null])])],
      .object [("name", .str "CommaNumber"), ("enabled", .bool false)]]),
    ("symbols", .list [
      .object [("name", .str "COMMA"), ("value", .str ",")],
      .object [("name", .str "FULL_STOP"), ("value", .str "!"), ("invalid_chars", .str ".?"),
        ("after_space", .int 1)],
      .object [("name", .str "COMMA"), ("value", .str "、"), ("invalid_chars", .str ",，")]])]

def sampleKnown : Option (List Text) := some ["CommaNumber".toList, "DoubledWord".toList]

theorem sampleSource_survives : Survives (.object sampleSource) := by
  have hText : (Binary64.finite false 7036874417766400 (-49)).display "Infinity" "NaN" =
      Decimal.digits 12 ++ ['.', '5'] := by decide +kernel
  have hWeight : Survives (.float (.finite false 7036874417766400 (-49))) :=
    .float (Json.numberReadsBack_of_digits (by decide) hText (by decide)
      (List.forall_mem_singleton.mpr rfl) (by decide +kernel))
  simp [sampleSource, hWeight]

/-- The name is stripped, the validator that is switched off is gone, and one symbol is left that
differs from those of the language. -/
theorem load_save_sample :
    let b := (initial.load (fun _ => .missing) sampleKnown (.data (.object sampleSource))).1
    initial.load (fun _ => .missing) sampleKnown (.data (.object sampleSource)) =
        (b, .ok [.disabled 1 "CommaNumber".toList]) ∧
      b.configuration.names = ["DoubledWord".toList] ∧
      (Configuration.overrides b.configuration.symbols).map (·.name) = ["FULL_STOP"] ∧
      initial.load (b.save (fun _ => .missing) "a.json".toList) sampleKnown (.file "a.json".toList) =
        (b, .ok []) := by
  intro b
  have hLoad : initial.load (fun _ => .missing) sampleKnown (.data (.object sampleSource)) =
      (b, .ok [.disabled 1 "CommaNumber".toList]) := rfl
  refine ⟨hLoad, by decide +kernel, by decide +kernel, ?_⟩
  exact load_save rfl sampleSource_survives hLoad _ _

end ActiveConfiguration

end ProseLint
