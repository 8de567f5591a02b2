import ProseLint.Configuration.Loading
import ProseLint.Proofs.Configuration.Entry
import ProseLint.Proofs.Json.Fields
import ProseLint.Proofs.List.Map

/-! Loading configurations. A source is read part by part, and what is reported is what each part
would be reported for on its own. A load that fails changes nothing. -/

namespace ProseLint

/-- The problem with the entry at another place of its list. -/
def ConfigurationProblem.placed (i : Nat) : ConfigurationProblem → ConfigurationProblem
  | .validator _ fault => .validator i fault
  | .symbol _ fault => .symbol i fault
  | p => p

namespace ValidatorEntry

/-- The settings of an entry that is switched on. -/
def settings? : ValidatorEntry → Option ValidatorSettings
  | active settings => some settings
  | disabled _ => none

/-- The warning about the entry at a place that is switched off. -/
def warnings (i : Nat) : ValidatorEntry → List ConfigurationWarning
  | active _ => []
  | disabled name => [.disabled i name]

end ValidatorEntry

namespace Configuration

variable {known : Option (List Text)} {source : Json.Fields}
  {symbols : List (Except (List SymbolEntryFault) Symbol)}

/-! ## The two ends of a load -/

theorem absent_eq_nil_iff {α : Type} {problem : ConfigurationProblem} {o : Option α} :
    absent problem o = [] ↔ ∃ a, o = some a := by
  cases o <;> simp [absent]

theorem problems_eq_nil_iff
    {validators : List (Except (List ValidatorEntryFault) ValidatorEntry)} :
    problems source validators symbols = [] ↔
      (∃ lang, language? source = some lang) ∧ (∃ tokenizer, tokenizer? source = some tokenizer) ∧
        blockProblems source = [] ∧ validatorProblems validators = [] ∧
        symbolProblems symbols = [] := by
  simp only [problems, List.append_eq_nil_iff, absent_eq_nil_iff, and_assoc]

/-- The configuration that a source without problems stands for. -/
def standsFor (known : Option (List Text)) (source : Json.Fields)
    (symbols : List (Except (List SymbolEntryFault) Symbol)) (lang : String)
    (tokenizer : Tokenizer) : Configuration :=
  ⟨activeSettings (validatorEntries known source),
    SymbolTable.create lang ((Json.get? "variant" source).getD (.str ""))
      (symbols.filterMap Except.toOption),
    tokenizer, (Json.get? "metadata" source).getD (.object [])⟩

theorem ofFields_of_sound {lang : String} {tokenizer : Tokenizer}
    (hSymbols : symbolEntries? source = some symbols)
    (hNone : problems source (validatorEntries known source) symbols = [])
    (hLang : language? source = some lang) (hTokenizer : tokenizer? source = some tokenizer) :
    ofFields known source = .ok (standsFor known source symbols lang tokenizer,
      disabledWarnings (validatorEntries known source)) := by
  rw [ofFields, hSymbols]
  simp only [hNone, hLang, hTokenizer]
  rfl

/-- When the entries for symbols can be read, a source without problems is loaded, and one with
problems is rejected with all of them. -/
theorem ofFields_cases (hSymbols : symbolEntries? source = some symbols) :
    (problems source (validatorEntries known source) symbols = [] ∧
      ∃ lang tokenizer, language? source = some lang ∧ tokenizer? source = some tokenizer ∧
        ofFields known source = .ok (standsFor known source symbols lang tokenizer,
          disabledWarnings (validatorEntries known source))) ∨
    (problems source (validatorEntries known source) symbols ≠ [] ∧
      ofFields known source = .error (.rejected (.invalid
        (problems source (validatorEntries known source) symbols)))) := by
  by_cases hNone : problems source (validatorEntries known source) symbols = []
  · obtain ⟨⟨lang, hLang⟩, ⟨tokenizer, hTokenizer⟩, -⟩ := problems_eq_nil_iff.mp hNone
    exact Or.inl ⟨hNone, lang, tokenizer, hLang, hTokenizer,
      ofFields_of_sound hSymbols hNone hLang hTokenizer⟩
  · refine Or.inr ⟨hNone, ?_⟩
    rw [ofFields, hSymbols]
    simp only
    split
    · next hIs _ _ => exact absurd hIs hNone
    · rfl

/-- What a load that came to a configuration has found. -/
theorem of_ofFields_eq_ok {c : Configuration} {warnings : List ConfigurationWarning}
    (h : ofFields known source = .ok (c, warnings)) :
    ∃ symbols lang tokenizer, symbolEntries? source = some symbols ∧
      language? source = some lang ∧ problems source (validatorEntries known source) symbols = [] ∧
      c = standsFor known source symbols lang tokenizer ∧
      warnings = disabledWarnings (validatorEntries known source) := by
  cases hSymbols : symbolEntries? source with
  | none =>
      rw [ofFields, hSymbols] at h
      cases h
  | some symbols =>
      rcases @ofFields_cases known source symbols hSymbols with
        ⟨hNone, lang, tokenizer, hLang, -, hLoaded⟩ | ⟨-, hRejected⟩
      · cases hLoaded.symm.trans h
        exact ⟨symbols, lang, tokenizer, rfl, hLang, hNone, rfl, rfl⟩
      · cases hRejected.symm.trans h

/-- When the entries for symbols can be read, a load fails only because of problems. -/
theorem of_ofFields_eq_error {fault : ConfigurationFault}
    (hSymbols : symbolEntries? source = some symbols) (h : ofFields known source = .error fault) :
    problems source (validatorEntries known source) symbols ≠ [] ∧
      fault = .rejected (.invalid (problems source (validatorEntries known source) symbols)) := by
  rcases ofFields_cases hSymbols with ⟨-, _, _, -, -, hLoaded⟩ | ⟨hSome, hRejected⟩
  · cases hLoaded.symm.trans h
  · exact ⟨hSome, (Except.error.inj (hRejected.symm.trans h)).symm⟩

/-- The problems that a reading has been rejected with. -/
def reported {α : Type} : Except ConfigurationFault α → List ConfigurationProblem
  | .error (.rejected e) => e.problems
  | _ => []

theorem reported_ofFields (hSymbols : symbolEntries? source = some symbols) :
    reported (ofFields known source) =
      problems source (validatorEntries known source) symbols := by
  rcases ofFields_cases hSymbols with ⟨hNone, _, _, -, -, hLoaded⟩ | ⟨-, hRejected⟩
  · rw [hLoaded, hNone]
    rfl
  · rw [hRejected]
    rfl

/-! ## Names to choose from -/

theorem choice?_eq_some_iff {key default : String} {names : List String} {s : String} :
    choice? key default names source = some s ↔
      (Json.get? key source).getD (.str default) = .str s ∧ s ∈ names := by
  rw [choice?]
  cases (Json.get? key source).getD (.str default) with
  | str given =>
      simp only [List.contains_iff_mem, Option.ite_none_right_eq_some, Option.some.injEq,
        Json.str.injEq]
      constructor
      · rintro ⟨hMem, rfl⟩
        exact ⟨rfl, hMem⟩
      · rintro ⟨rfl, hMem⟩
        exact ⟨hMem, rfl⟩
  | null | bool _ | int _ | float _ | list _ | object _ => simp

theorem tokenizer?_eq_some_of_choice? {s : String}
    (h : choice? "tokenizer" "whitespace" Tokenizer.names source = some s) :
    tokenizer? source = some .whitespace := by
  have hName := (choice?_eq_some_iff.mp h).2
  rw [Tokenizer.names, List.mem_singleton] at hName
  rw [tokenizer?, h, hName]
  rfl

/-! ## The parts of a source -/

/-- The items of a field that is a list. -/
def items (key : String) (source : Json.Fields) : List Json :=
  match Json.get? key source with
  | some (.list items) => items
  | _ => []

/-- The symbols are absent, or a list of objects with a text as their name. -/
def HasNamedSymbols (source : Json.Fields) : Prop :=
  ∀ v, Json.get? "symbols" source = some v → ∃ entries, v = .list entries ∧
    ∀ e ∈ entries, ∃ entry name, e = .object entry ∧ Json.get? "name" entry = some (.str name)

/-- A part of a source that can be wrong by itself, with the value that it has there. -/
inductive Part where
  | language (given : Option Json)
  | tokenizer (given : Option Json)
  | block (given : Option Json)
  | validator (index : Nat) (entry : Json)
  | symbol (index : Nat) (entry : Json)

/-- The parts of a source in the order in which problems are reported. -/
def parts (source : Json.Fields) : List Part :=
  [.language (Json.get? "lang" source), .tokenizer (Json.get? "tokenizer" source),
    .block (Json.get? "validators" source)] ++
  (items "validators" source).mapIdx Part.validator ++
  (items "symbols" source).mapIdx Part.symbol

namespace Part

/-- A field with its value, if it has one. -/
def field (key : String) : Option Json → Json.Fields
  | some v => [(key, v)]
  | none => []

/-- The source that holds nothing but the part, and no validators where the part is none. -/
def alone : Part → Json.Fields
  | language given => field "lang" given ++ [("validators", .list [])]
  | tokenizer given => field "tokenizer" given ++ [("validators", .list [])]
  | block (some (.list _)) => [("validators", .list [])]
  | block given => field "validators" given
  | validator _ entry => [("validators", .list [entry])]
  | symbol _ entry => [("validators", .list []), ("symbols", .list [entry])]

/-- Where an entry stands in its list. -/
def index : Part → Nat
  | validator i _ => i
  | symbol i _ => i
  | _ => 0

/-- The problems that the part has on its own: those reported for the source that holds nothing
else, as problems with the entry at its own place. -/
def problems (known : Option (List Text)) (p : Part) : List ConfigurationProblem :=
  (reported (ofFields known p.alone)).map (·.placed p.index)

/-- The rules for the parts. -/
def IsValid (known : Option (List Text)) : Part → Prop
  | language given => ∀ v, given = some v → ∃ s ∈ SymbolTable.languages, v = .str s
  | tokenizer given => ∀ v, given = some v → ∃ s ∈ Tokenizer.names, v = .str s
  | block given => ∃ entries, given = some (.list entries)
  | validator _ entry => ∃ r, ValidatorEntry.IsReadAs known entry r
  | symbol _ entry => ∃ s, SymbolEntry.IsReadAs entry s

/-! ### What a part is reported for -/

theorem problems_of_alone {p : Part} (hSymbols : symbolEntries? p.alone = some symbols) :
    problems known p = (Configuration.problems p.alone (validatorEntries known p.alone) symbols).map
      (·.placed p.index) := by
  rw [problems, reported_ofFields hSymbols]

/-- A part that is a field of its own brings no validators and no symbols. -/
theorem problems_of_field {p : Part} {key : String} {given : Option Json}
    (hAlone : p.alone = field key given ++ [("validators", .list [])])
    (hValidators : key ≠ "validators") (hSymbols : key ≠ "symbols") :
    problems known p = absent .language (language? p.alone) ++
      absent .tokenizer (tokenizer? p.alone) := by
  have hBlock : Json.get? "validators" p.alone = some (.list []) := by
    rw [hAlone]
    cases given <;> simp [field, Json.get?_cons, hValidators.symm]
  have hNone : Json.get? "symbols" p.alone = none := by
    rw [hAlone]
    cases given <;> simp [field, hSymbols.symm, Json.get?]
  have hRead : symbolEntries? p.alone = some [] := by
    rw [symbolEntries?, hNone]
    rfl
  rw [problems_of_alone hRead, Configuration.problems, validatorEntries, blockProblems, hBlock]
  cases language? p.alone <;> cases tokenizer? p.alone <;> rfl

theorem problems_language (given : Option Json) :
    problems known (.language given) = absent .language (language? (field "lang" given)) := by
  have hLang : language? (language given).alone = language? (field "lang" given) := by
    cases given <;> rfl
  have hTokenizer : tokenizer? (language given).alone = some .whitespace := by
    cases given <;> rfl
  rw [problems_of_field rfl (by decide) (by decide), hLang, hTokenizer]
  exact List.append_nil _

theorem problems_tokenizer (given : Option Json) :
    problems known (.tokenizer given) =
      absent .tokenizer (tokenizer? (field "tokenizer" given)) := by
  have hLang : language? (tokenizer given).alone = some "en" := by cases given <;> rfl
  have hTokenizer : tokenizer? (tokenizer given).alone = tokenizer? (field "tokenizer" given) := by
    cases given <;> rfl
  rw [problems_of_field rfl (by decide) (by decide), hLang, hTokenizer]
  rfl

theorem problems_block (given : Option Json) :
    problems known (.block given) = blockProblems (field "validators" given) := by
  cases given with
  | none => rfl
  | some v => cases v <;> rfl

theorem problems_validator (i : Nat) (entry : Json) :
    problems known (.validator i entry) =
      (faultsOf (ValidatorEntry.ofJson known entry)).map (.validator i) := by
  have hSymbols : symbolEntries? (validator i entry).alone = some [] := rfl
  rw [problems_of_alone hSymbols]
  show (((faultsOf (ValidatorEntry.ofJson known entry)).map _ ++ []) ++ []).map _ = _
  rw [List.append_nil, List.append_nil, List.map_map]
  rfl

theorem problems_symbol (i : Nat) {entry : Json}
    {r : Except (List SymbolEntryFault) Symbol} (hRead : SymbolEntry.ofJson? entry = some r) :
    problems known (.symbol i entry) = (faultsOf r).map (.symbol i) := by
  have hSymbols : symbolEntries? (symbol i entry).alone = some [r] := by
    show [entry].mapM SymbolEntry.ofJson? = _
    rw [List.mapM_cons, hRead]
    rfl
  rw [problems_of_alone hSymbols]
  show ((faultsOf r).map _ ++ []).map _ = _
  rw [List.append_nil, List.map_map]
  rfl

/-! ### A part is valid when nothing is reported -/

theorem get?_field (key : String) (given : Option Json) :
    Json.get? key (field key given) = given := by
  cases given <;> simp [field, Json.get?]

/-- A field is one of some names when it is absent or holds one of them. -/
theorem exists_choice?_field {key default : String} {names : List String}
    (hDefault : default ∈ names) (given : Option Json) :
    (∃ s, choice? key default names (field key given) = some s) ↔
      ∀ v, given = some v → ∃ s ∈ names, v = .str s := by
  simp only [choice?_eq_some_iff, get?_field]
  cases given with
  | none => simpa using hDefault
  | some v => simp [and_comm]

/-- The part is reported for something exactly when it breaks a rule. An entry of the list of
symbols must be one that can be read at all. -/
theorem problems_eq_nil_iff {p : Part}
    (hReads : ∀ i entry, p = .symbol i entry → ∃ r, SymbolEntry.ofJson? entry = some r) :
    problems known p = [] ↔ p.IsValid known := by
  cases p with
  | language given =>
      rw [problems_language, absent_eq_nil_iff]
      exact exists_choice?_field (by decide) given
  | tokenizer given =>
      rw [problems_tokenizer, absent_eq_nil_iff, IsValid,
        ← exists_choice?_field (show "whitespace" ∈ Tokenizer.names by decide) given]
      constructor
      · rintro ⟨tokenizer, hTokenizer⟩
        obtain ⟨s, hChoice, -⟩ := Option.bind_eq_some_iff.mp hTokenizer
        exact ⟨s, hChoice⟩
      · rintro ⟨s, hChoice⟩
        exact ⟨.whitespace, tokenizer?_eq_some_of_choice? hChoice⟩
  | block given =>
      rw [problems_block, blockProblems, get?_field, IsValid]
      cases given with
      | none => simp
      | some v => cases v <;> simp
  | validator i entry =>
      rw [problems_validator, List.map_eq_nil_iff]
      exact ValidatorEntry.faultsOf_ofJson_eq_nil_iff
  | symbol i entry =>
      obtain ⟨r, hRead⟩ := hReads i entry rfl
      rw [problems_symbol i hRead, List.map_eq_nil_iff]
      exact SymbolEntry.faultsOf_eq_nil_iff_isReadAs hRead

end Part

/-! ## All parts together -/

/-- How an entry of the list of symbols is read, when it is one that can be read at all. -/
def symbolReading (entry : Json) : Except (List SymbolEntryFault) Symbol :=
  (SymbolEntry.ofJson? entry).getD (.error [])

theorem ofJson?_eq_symbolReading {v : Json} (h : SymbolEntry.CanLookUp v) :
    SymbolEntry.ofJson? v = some (symbolReading v) := by
  obtain ⟨r, hRead⟩ := SymbolEntry.exists_ofJson? h
  rw [symbolReading, hRead]
  rfl

theorem HasNamedSymbols.ofJson? (h : HasNamedSymbols source) {entry : Json}
    (hMem : entry ∈ items "symbols" source) :
    SymbolEntry.ofJson? entry = some (symbolReading entry) := by
  rw [items] at hMem
  split at hMem
  · next entries hGiven =>
      obtain ⟨entries', hList, hNamed⟩ := h _ hGiven
      cases hList
      obtain ⟨fields, name, rfl, hName⟩ := hNamed entry hMem
      refine ofJson?_eq_symbolReading fun fields' name' hFields hName' _ => ?_
      cases hFields
      rw [hName] at hName'
      cases hName'
      rfl
  · cases hMem

theorem HasNamedSymbols.symbolEntries? (h : HasNamedSymbols source) :
    symbolEntries? source = some ((items "symbols" source).map symbolReading) := by
  have hRead : (items "symbols" source).mapM SymbolEntry.ofJson? =
      some ((items "symbols" source).map symbolReading) := mapM_eq_pure_map fun _ => h.ofJson?
  rw [← hRead, Configuration.symbolEntries?, items]
  cases hGiven : Json.get? "symbols" source with
  | none => rfl
  | some v =>
      obtain ⟨entries, rfl, -⟩ := h v hGiven
      rfl

theorem validatorEntries_eq :
    validatorEntries known source =
      (items "validators" source).map (ValidatorEntry.ofJson known) := by
  rw [validatorEntries, items]
  cases Json.get? "validators" source with
  | none => rfl
  | some v => cases v <;> rfl

/-- What is reported for a source is what is reported for each of its parts alone. -/
theorem reported_eq_parts (h : HasNamedSymbols source) :
    reported (ofFields known source) = (parts source).flatMap (Part.problems known) := by
  have hLang : Part.problems known (.language (Json.get? "lang" source)) =
      absent .language (language? source) := by
    rw [Part.problems_language, language?, choice?, Part.get?_field]
    rfl
  have hTokenizer : Part.problems known (.tokenizer (Json.get? "tokenizer" source)) =
      absent .tokenizer (tokenizer? source) := by
    rw [Part.problems_tokenizer, tokenizer?, choice?, Part.get?_field]
    rfl
  have hBlock : Part.problems known (.block (Json.get? "validators" source)) =
      blockProblems source := by
    rw [Part.problems_block, blockProblems, Part.get?_field]
    rfl
  have hValidators : ((items "validators" source).mapIdx Part.validator).flatMap
      (Part.problems known) = validatorProblems (validatorEntries known source) := by
    simp only [flatMap_mapIdx, Part.problems_validator, validatorEntries_eq, validatorProblems,
      mapIdx_map]
  -- A part for a symbol says something only when its entry can be read at all, so here the entries
  -- are compared one by one.
  have hSymbols : ((items "symbols" source).mapIdx Part.symbol).flatMap (Part.problems known) =
      symbolProblems ((items "symbols" source).map symbolReading) := by
    rw [flatMap_mapIdx, symbolProblems, mapIdx_map]
    congr 1
    rw [List.mapIdx_eq_mapIdx_iff]
    intro i hLt
    exact Part.problems_symbol i (h.ofJson? (List.getElem_mem hLt))
  rw [reported_ofFields h.symbolEntries?, problems, parts, List.flatMap_append,
    List.flatMap_append, hValidators, hSymbols]
  simp [hLang, hTokenizer, hBlock]

theorem HasNamedSymbols.problems_part (h : HasNamedSymbols source) {p : Part}
    (hMem : p ∈ parts source) : p.problems known = [] ↔ p.IsValid known := by
  refine Part.problems_eq_nil_iff ?_
  rintro i entry rfl
  have hEntry : entry ∈ items "symbols" source := by
    simp only [parts, List.mem_append, List.mem_cons, List.mem_mapIdx, reduceCtorEq, or_false,
      List.not_mem_nil, Part.symbol.injEq, false_or, exists_false] at hMem
    obtain ⟨i, hLt, -, rfl⟩ := hMem
    exact List.getElem_mem hLt
  exact ⟨_, h.ofJson? hEntry⟩

/-! ## What is loaded -/

/-- The entries that are read, in their order. -/
theorem map_ofJson_of_forall₂ {l : List Json} {entries : List ValidatorEntry}
    (h : List.Forall₂ (ValidatorEntry.IsReadAs known) l entries) :
    l.map (ValidatorEntry.ofJson known) = entries.map .ok := by
  induction h with
  | nil => rfl
  | cons hFirst _ ih =>
      rw [List.map_cons, List.map_cons, ih, ValidatorEntry.ofJson_eq_ok_iff.mpr hFirst]

/-- Settings that are switched on come out of an entry. -/
theorem exists_isReadAs_of_activeSettings {s : ValidatorSettings}
    (hMem : s ∈ activeSettings (validatorEntries known source)) :
    ∃ v ∈ items "validators" source, ValidatorEntry.IsReadAs known v (.active s) := by
  obtain ⟨r, hRead, hIs⟩ := List.mem_filterMap.mp hMem
  rw [validatorEntries_eq] at hRead
  obtain ⟨v, hItem, rfl⟩ := List.mem_map.mp hRead
  refine ⟨v, hItem, ValidatorEntry.ofJson_eq_ok_iff.mp ?_⟩
  split at hIs
  · next hOk => rw [hOk, Option.some.inj hIs]
  · cases hIs

/-- Entries that are read have no problems. -/
theorem flatten_faultsOf_map_ok {ε α : Type} (problem : Nat → ε → ConfigurationProblem)
    (entries : List α) :
    ((entries.map Except.ok).mapIdx fun i e => (faultsOf e).map (problem i)).flatten = [] := by
  rw [mapIdx_map, List.flatten_eq_nil_iff]
  intro found hMem
  obtain ⟨i, hLt, rfl⟩ := List.mem_mapIdx.mp hMem
  rfl

theorem activeSettings_map_ok (entries : List ValidatorEntry) :
    activeSettings (entries.map .ok) = entries.filterMap ValidatorEntry.settings? := by
  rw [activeSettings, List.filterMap_map]
  congr 1
  funext e
  cases e <;> rfl

theorem disabledWarnings_map_ok (entries : List ValidatorEntry) :
    disabledWarnings (entries.map .ok) = (entries.mapIdx ValidatorEntry.warnings).flatten := by
  rw [disabledWarnings, mapIdx_map]
  congr 2
  funext i e
  cases e <;> rfl

/-- All entries of a source that is loaded are read, and give its validators and warnings. -/
theorem exists_entries_of_ofFields {c : Configuration} {warnings : List ConfigurationWarning}
    (h : ofFields known source = .ok (c, warnings)) : ∃ entries,
    List.Forall₂ (ValidatorEntry.IsReadAs known) (items "validators" source) entries ∧
      c.validators = entries.filterMap ValidatorEntry.settings? ∧
      warnings = (entries.mapIdx ValidatorEntry.warnings).flatten := by
  obtain ⟨symbols, _, _, -, -, hNone, rfl, rfl⟩ := of_ofFields_eq_ok h
  obtain ⟨-, -, -, hValidators, -⟩ := problems_eq_nil_iff.mp hNone
  have hEntries : ∀ entry ∈ items "validators" source,
      ∃ r, ValidatorEntry.IsReadAs known entry r := by
    intro entry hMem
    obtain ⟨i, hLt, rfl⟩ := List.getElem_of_mem hMem
    rw [validatorEntries_eq, validatorProblems, mapIdx_map, List.flatten_eq_nil_iff] at hValidators
    have hFaults := hValidators _ (List.mem_mapIdx.mpr ⟨i, hLt, rfl⟩)
    exact ValidatorEntry.faultsOf_ofJson_eq_nil_iff.mp (List.map_eq_nil_iff.mp hFaults)
  obtain ⟨entries, hRead⟩ := exists_forall₂ hEntries
  have hAll := validatorEntries_eq.trans (map_ofJson_of_forall₂ hRead)
  refine ⟨entries, hRead, ?_, ?_⟩
  · rw [standsFor, hAll, activeSettings_map_ok]
  · rw [hAll, disabledWarnings_map_ok]

/-- What a source comes to, part by part. It is rejected when a part breaks a rule, with the
problems that the parts have alone, one part after the other. Otherwise each entry for a validator
that is switched on gives its settings, and each other one a warning. -/
structure LoadsPartwise (known : Option (List Text)) (source : Json.Fields)
    (loaded : Except ConfigurationFault (Configuration × List ConfigurationWarning)) : Prop where
  rejected_iff : (∃ e, loaded = .error (.rejected e)) ↔ ∃ p ∈ parts source, ¬ p.IsValid known
  found : ∀ fault, loaded = .error fault →
    fault = .rejected (.invalid ((parts source).flatMap (Part.problems known)))
  alone : ∀ p ∈ parts source, p.problems known = [] ↔ p.IsValid known
  read : ∀ c warnings, loaded = .ok (c, warnings) → ∃ entries,
    List.Forall₂ (ValidatorEntry.IsReadAs known) (items "validators" source) entries ∧
      c.validators = entries.filterMap ValidatorEntry.settings? ∧
      warnings = (entries.mapIdx ValidatorEntry.warnings).flatten

theorem ofFields_loadsPartwise (h : HasNamedSymbols source) :
    LoadsPartwise known source (ofFields known source) := by
  have hReported : (parts source).flatMap (Part.problems known) =
      problems source (validatorEntries known source)
        ((items "symbols" source).map symbolReading) := by
    rw [← reported_eq_parts h, reported_ofFields h.symbolEntries?]
  have hNone : (parts source).flatMap (Part.problems known) = [] ↔
      ∀ p ∈ parts source, p.IsValid known := by
    rw [List.flatMap_eq_nil_iff]
    exact forall₂_congr fun p hMem => h.problems_part hMem
  have hCases := @ofFields_cases known source _ h.symbolEntries?
  rw [← hReported, Ne, hNone] at hCases
  refine ⟨?_, ?_, fun p => h.problems_part, fun c warnings => exists_entries_of_ofFields⟩
  · rcases hCases with ⟨hAll, _, _, -, -, hLoaded⟩ | ⟨hSome, hRejected⟩
    · rw [hLoaded]
      simpa using hAll
    · rw [hRejected]
      simpa using hSome
  · intro fault hFault
    rw [hReported]
    exact (of_ofFields_eq_error h.symbolEntries? hFault).2

end Configuration

/-! ## Loading again and again -/

/-- A call that can change the configuration in use. -/
inductive ConfigurationChange where
  | load (files : Text → FileContent) (known : Option (List Text)) (source : ConfigurationSource)
  | reset

/-- What is in use after the call, whatever was in use before it. A load that fails says nothing
about that. -/
def ConfigurationChange.result? : ConfigurationChange → Option ActiveConfiguration
  | .load files known source =>
      match source.load files known with
      | .ok (configuration, _) => some ⟨configuration, true⟩
      | .error _ => none
  | .reset => some .initial

namespace ActiveConfiguration

def apply (a : ActiveConfiguration) : ConfigurationChange → ActiveConfiguration
  | .load files known source => (a.load files known source).1
  | .reset => initial

theorem apply_eq (a : ActiveConfiguration) (change : ConfigurationChange) :
    a.apply change = change.result?.getD a := by
  cases change with
  | load files known source =>
      rw [apply, load, ConfigurationChange.result?]
      cases source.load files known <;> rfl
  | reset => rfl

/-- After any calls, what the last of them that did not fail has put into use is in use. -/
theorem foldl_apply (a : ActiveConfiguration) (changes : List ConfigurationChange) :
    changes.foldl apply a = (changes.filterMap ConfigurationChange.result?).getLast?.getD a := by
  induction changes generalizing a with
  | nil => rfl
  | cons change rest ih =>
      rw [List.foldl_cons, ih, apply_eq, List.filterMap_cons]
      cases change.result? with
      | none => rfl
      | some b => rw [List.getLast?_cons]; rfl

theorem load_of_error {a : ActiveConfiguration} {files : Text → FileContent}
    {known : Option (List Text)} {source : ConfigurationSource} {fault : ConfigurationFault}
    (h : (a.load files known source).2 = .error fault) :
    (a.load files known source).1 = a := by
  rw [load] at h ⊢
  cases hLoad : source.load files known with
  | ok loaded =>
      rw [hLoad] at h
      cases h
  | error fault => rfl

/-- Loading is all or nothing. After any calls the configuration in use is that of the last one
that did not fail, and a load that fails leaves the one in use. A load of data with named symbols
reports every part of it. -/
theorem load_all_or_nothing :
    (∀ (a : ActiveConfiguration) (changes : List ConfigurationChange),
      changes.foldl apply a =
        (changes.filterMap ConfigurationChange.result?).getLast?.getD a) ∧
    (∀ (a : ActiveConfiguration) files known source fault,
      (a.load files known source).2 = .error fault → (a.load files known source).1 = a) ∧
    ∀ files known source, Configuration.HasNamedSymbols source →
      Configuration.LoadsPartwise known source
        ((ConfigurationSource.data (.object source)).load files known) :=
  ⟨foldl_apply, fun _ _ _ _ _ => load_of_error, fun _ _ _ hNamed =>
    Configuration.ofFields_loadsPartwise hNamed⟩

/-- A source with something wrong in its language, in two entries for validators and in one for a
symbol. -/
def faultySource : Json.Fields :=
  [("lang", .str "xx"),
    ("validators", .list [.str "DoubledWord", .int 3,
      .object [("name", .str " Nothing "), ("enabled", .bool false)]]),
    ("symbols", .list [.object [("name", .str "COMMA"), ("value", .str "ab")]])]

/-- All of it is reported, and the configuration in use stays. -/
theorem load_all_or_nothing_faulty :
    Configuration.HasNamedSymbols faultySource ∧ ∀ (a : ActiveConfiguration) files,
      a.load files (some ["DoubledWord".toList]) (.data (.object faultySource)) =
        (a, .error (.rejected (.invalid [.language, .validator 1 .noObject,
          .validator 2 (.unknown "Nothing".toList), .symbol 0 .valueNoCharacter]))) := by
  have hNamed : Configuration.HasNamedSymbols faultySource := by
    intro v hGiven
    cases hGiven
    exact ⟨_, rfl, fun e hMem => by
      cases List.mem_singleton.mp hMem
      exact ⟨_, _, rfl, rfl⟩⟩
  refine ⟨hNamed, fun a files => ?_⟩
  obtain ⟨hRejected, hFound, -, -⟩ :=
    load_all_or_nothing.2.2 files (some ["DoubledWord".toList]) faultySource hNamed
  have hBroken : ¬ (Configuration.Part.validator 1 (.int 3)).IsValid
      (some ["DoubledWord".toList]) := by
    rintro ⟨r, hRead⟩
    cases hRead
  have hMem : Configuration.Part.validator 1 (.int 3) ∈ Configuration.parts faultySource :=
    List.mem_of_getElem? (i := 4) rfl
  obtain ⟨e, hError⟩ := hRejected.mpr ⟨_, hMem, hBroken⟩
  have hProblems : (Configuration.parts faultySource).flatMap
      (Configuration.Part.problems (some ["DoubledWord".toList])) = [.language,
        .validator 1 .noObject, .validator 2 (.unknown "Nothing".toList),
        .symbol 0 .valueNoCharacter] := by decide +kernel
  rw [load, hError, hFound _ hError, hProblems]

end ActiveConfiguration

end ProseLint
