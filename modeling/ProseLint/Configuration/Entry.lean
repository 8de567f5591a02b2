import ProseLint.Configuration.Basic
import ProseLint.Configuration.Problem

/-! The entries of a configuration source. An entry is read alone and comes with all that
is wrong with it. -/

namespace ProseLint

/-- What a valid entry of the list of validators stands for. -/
inductive ValidatorEntry where
  | active (settings : ValidatorSettings)
  | disabled (name : Text)

namespace ValidatorEntry

/-- The attributes that hold objects, as faults. -/
def attributeFaults (attributes : Json.Fields) : List ValidatorEntryFault :=
  attributes.filterMap fun a => match a.2 with
    | .object _ => some (.attributeObject a.1)
    | _ => none

def attributesOf (entry : Json.Fields) : Json.Fields × List ValidatorEntryFault :=
  match (Json.get? "attributes" entry).getD (.object []) with
  | .object attributes => (attributes, attributeFaults attributes)
  | _ => ([], [.attributesNoObject])

/-- Whether an entry is switched off. Only the value false does that. -/
def isDisabled (entry : Json.Fields) : Bool :=
  match Json.get? "enabled" entry with
  | some (.bool false) => true
  | _ => false

/-- The fault of a name that is not among the known ones. -/
def nameFaults (known : Option (List Text)) (name : Text) : List ValidatorEntryFault :=
  match known with
  | some names => if names.contains name then [] else [.unknown name]
  | none => []

/-- Reads an entry that is an object. -/
def ofFields (known : Option (List Text)) (entry : Json.Fields) :
    Except (List ValidatorEntryFault) ValidatorEntry :=
  match Json.get? "name" entry with
  | some (.str given) =>
      let name := Text.strip given.toList
      if name.isEmpty then .error [.noName]
      else
        let (attributes, faults) := attributesOf entry
        let faults := nameFaults known name ++ faults
        if faults.isEmpty then
          .ok (if isDisabled entry then .disabled name else .active ⟨name, attributes⟩)
        else .error faults
  | _ => .error [.noName]

/-- Reads an entry, which is an object or only a name. When there are known names, the
name must be one of them. -/
def ofJson (known : Option (List Text)) : Json → Except (List ValidatorEntryFault) ValidatorEntry
  | .object entry => ofFields known entry
  | .str name => ofFields known [("name", .str name)]
  | _ => .error [.noObject]

end ValidatorEntry

namespace SymbolEntry

/-- The fields that every entry must have. -/
def required : List String := ["name", "value"]

/-- Whether a value can be looked up as a name. Lists and objects cannot. -/
def isKey : Json → Bool
  | .list _ => false
  | .object _ => false
  | _ => true

/-- The fault of a value that names no symbol. -/
def nameFaults (name : Json) : List SymbolEntryFault :=
  match name with
  | .str s => if SymbolTable.latin.any (·.name == s) then [] else [.unknown s.toList]
  | other => [.unknown (Quoted.plain other)]

/-- The fault of a value that is not one character. -/
def valueFaults : Json → List SymbolEntryFault
  | .str s => if s.toList.length = 1 then [] else [.valueNoCharacter]
  | _ => [.valueNoCharacter]

/-- The fault of invalid characters that are no text. -/
def invalidFaults : Json → List SymbolEntryFault
  | .str _ => []
  | _ => [.invalidNoText]

def textOf : Json → Text
  | .str s => s.toList
  | _ => []

/-- Whether a field counts as true. -/
def flag (key : String) (entry : Json.Fields) : Bool :=
  ((Json.get? key entry).getD (.bool false)).truthy

/-- Reads an entry with a name and a value. No answer means that the name cannot even be
looked up. -/
def ofParts? (name value : Json) (entry : Json.Fields) :
    Option (Except (List SymbolEntryFault) Symbol) :=
  if isKey name then
    let invalid := (Json.get? "invalid_chars" entry).getD (.str "")
    let faults := nameFaults name ++ valueFaults value ++ invalidFaults invalid
    if faults.isEmpty then
      some (.ok ⟨String.ofList (textOf name), textOf value, textOf invalid,
        flag "before_space" entry, flag "after_space" entry⟩)
    else some (.error faults)
  else none

def ofJson? : Json → Option (Except (List SymbolEntryFault) Symbol)
  | .object entry =>
      match Json.get? "name" entry, Json.get? "value" entry with
      | some name, some value => ofParts? name value entry
      | _, _ =>
          some (.error ((required.filter fun key => !Json.hasKey key entry).map .missing))
  | _ => some (.error [.noObject])

end SymbolEntry

/-- The faults of a reading that failed. -/
def faultsOf {ε α : Type} : Except (List ε) α → List ε
  | .ok _ => []
  | .error faults => faults

end ProseLint
