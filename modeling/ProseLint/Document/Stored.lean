import ProseLint.Document.Tree
import ProseLint.Document.Sentence
import ProseLint.Json.Printer
import ProseLint.Json.Reader

/-! The stored form of documents. Sections are stored as a tree; reading them back restores
their order and nesting. Tokens are not stored. -/

namespace ProseLint

/-- Why a text is no stored document. -/
inductive StoredFault where
  | noValue
  | noObject (kind : String)
  | missing (field kind : String)
  | missingLine
  | noElement
  | wrongType
  | noPair
  deriving DecidableEq, Repr

namespace StoredFault

/-- The fault in words, as far as it has any. -/
def message : StoredFault → Option String
  | .noValue => some "Invalid JSON"
  | .noObject kind => some ("Expected dictionary for " ++ kind)
  | .missing field kind => some ("Missing required field '" ++ field ++ "' in " ++ kind)
  | _ => none

end StoredFault

namespace Stored

/-! ## Writing -/

def pairJson (a b : Int) : Json := .list [.int a, .int b]

def sentenceJson (s : Sentence) : Json :=
  .object [("content", .text s.content), ("line_number", .int s.line),
    ("start_position_offset", .int s.start), ("is_first_sentence", .bool s.isFirst),
    ("links", .list (s.links.map .text)),
    ("offset_map", .list (s.positions.map fun p => pairJson p.line p.offset)),
    ("inline_markup", .list (s.markup.map fun r => pairJson r.1 r.2))]

def sentencesJson (sentences : List Sentence) : Json := .list (sentences.map sentenceJson)

def elementJson (e : ListElement Sentence) : Json :=
  .object [("level", .int e.level), ("sentences", sentencesJson e.sentences)]

/-- The fields of a section, apart from the sections that it encloses. -/
def sectionFields (s : Section Sentence) : Json.Fields :=
  [("level", .int s.level), ("header_contents", sentencesJson s.header),
    ("paragraphs", .list (s.paragraphs.map sentencesJson)),
    ("list_blocks", .list (s.listBlocks.map fun b => .list (b.map elementJson)))]

/-- A stored section with the sections that it encloses. -/
def sectionJson (d : Document Sentence) (i : Nat) : Json :=
  match h : d.sections[i]? with
  | none => .null
  | some s =>
      let children := (d.childrenOf i).attach.map fun j => sectionJson d j.1
      .object (sectionFields s ++ [("subsections", .list children)])
termination_by d.sections.length - i
decreasing_by
  have hi := (List.getElem?_eq_some_iff.1 h).1
  have hj := j.2
  simp only [Document.childrenOf, List.mem_filter, Bool.and_eq_true, decide_eq_true_eq] at hj
  omega

def ruleJson (r : SuppressRule) : Json :=
  .object [("line_number", .int r.line), ("validator_names", .list (r.names.map .text))]

def documentJson (d : Document Sentence) : Json :=
  .object [("file_name", Json.option .text d.fileName),
    ("sections", .list (d.roots.map (sectionJson d))),
    ("suppress_rules", .list (d.rules.map ruleJson))]

/-! ## Reading -/

/-- What a value yields when it is walked through. -/
def items (v : Json) : Except StoredFault (List Json) :=
  match v.elements? with
  | some items => .ok items
  | none => .error .wrongType

/-- The items of a field, which may be absent. -/
def fieldItems (key : String) (fields : Json.Fields) : Except StoredFault (List Json) :=
  match Json.get? key fields with
  | some v => items v
  | none => .ok []

def int : Json → Except StoredFault Int
  | .int n => .ok n
  | _ => .error .wrongType

def text : Json → Except StoredFault Text
  | .str s => .ok s.toList
  | _ => .error .wrongType

def pair (v : Json) : Except StoredFault (Int × Int) := do
  match ← items v with
  | [a, b] => return (← int a, ← int b)
  | _ => throw .noPair

/-- A field that must be there. -/
def required (kind key : String) (fields : Json.Fields) : Except StoredFault Json :=
  match Json.get? key fields with
  | some v => .ok v
  | none => .error (.missing key kind)

/-- A whole number in a field, or its value when there is no field. -/
def intOr (default : Int) (key : String) (fields : Json.Fields) : Except StoredFault Int :=
  match Json.get? key fields with
  | some v => int v
  | none => .ok default

/-- A truth value in a field, which may be absent. -/
def flag (key : String) (fields : Json.Fields) : Except StoredFault Bool :=
  match Json.get? key fields with
  | some (.bool b) => .ok b
  | some _ => .error .wrongType
  | none => .ok false

/-- A sentence that was stored. -/
def sentence : Json → Except StoredFault Sentence
  | .object fields => do
      let content ← required "Sentence" "content" fields
      let line ← required "Sentence" "line_number" fields
      let content ← text content
      let line ← int line
      let start ← intOr 0 "start_position_offset" fields
      let isFirst ← flag "is_first_sentence" fields
      let links ← (← fieldItems "links" fields).mapM text
      let positions ← (← fieldItems "offset_map" fields).mapM pair
      let markup ← (← fieldItems "inline_markup" fields).mapM pair
      return .atPlace content line start isFirst links (positions.map fun p => ⟨p.1, p.2⟩) markup
  | _ => .error (.noObject "Sentence")

/-- Sentences that were stored. -/
def sentences (v : Json) : Except StoredFault (List Sentence) := do (← items v).mapM sentence

/-- The sentences of a field, which may be absent. -/
def fieldSentences (key : String) (fields : Json.Fields) : Except StoredFault (List Sentence) := do
  (← fieldItems key fields).mapM sentence

/-- A list element that was stored. -/
def element : Json → Except StoredFault (ListElement Sentence)
  | .object fields => do return ⟨← intOr 1 "level" fields, ← fieldSentences "sentences" fields⟩
  | _ => .error .noElement

/-- A list block that was stored. -/
def listBlock (v : Json) : Except StoredFault (List (ListElement Sentence)) := do
  (← items v).mapM element

/-- A section that was stored, given the one around it. -/
def ownSection (parent : Option Nat) (fields : Json.Fields) :
    Except StoredFault (Section Sentence) := do
  let level ← int (← required "Section" "level" fields)
  let header ← fieldSentences "header_contents" fields
  let paragraphs ← (← fieldItems "paragraphs" fields).mapM sentences
  let listBlocks ← (← fieldItems "list_blocks" fields).mapM listBlock
  return ⟨level, header, paragraphs, listBlocks, parent, []⟩

mutual

/-- A section and all it encloses, put behind the sections already read. -/
def addSection (parent : Option Nat) (done : List (Section Sentence)) :
    Json → Except StoredFault (List (Section Sentence))
  | .object fields => do
      let own ← ownSection parent fields
      addSubsections (some done.length) (Section.attach done own) fields
  | _ => .error (.noObject "Section")

/-- The sections that the fields of a section say it encloses. -/
def addSubsections (parent : Option Nat) (done : List (Section Sentence)) :
    List (String × Json) → Except StoredFault (List (Section Sentence))
  | [] => .ok done
  | field :: fields =>
      if field.1 == "subsections" then addFieldSections parent done field
      else addSubsections parent done fields

/-- The sections in the value of a field. A text or an object with something in it yields
no sections. -/
def addFieldSections (parent : Option Nat) (done : List (Section Sentence)) :
    String × Json → Except StoredFault (List (Section Sentence))
  | (_, .list items) => addSections parent done items
  | (_, v) => do
      match ← items v with
      | [] => return done
      | _ => throw (.noObject "Section")

/-- Sections in order, each with all it encloses. -/
def addSections (parent : Option Nat) (done : List (Section Sentence)) :
    List Json → Except StoredFault (List (Section Sentence))
  | [] => .ok done
  | v :: rest => do addSections parent (← addSection parent done v) rest

end

/-- A suppress rule that was stored. -/
def rule : Json → Except StoredFault SuppressRule
  | .object fields =>
      match Json.get? "line_number" fields with
      | none => .error .missingLine
      | some line => do
          let line ← int line
          return ⟨line, ← (← fieldItems "validator_names" fields).mapM text⟩
  | _ => .error .wrongType

/-- A document from its stored form. -/
def document : Json → Except StoredFault (Document Sentence)
  | .object fields => do
      let sections ← addSections none [] (← fieldItems "sections" fields)
      let rules ← (← fieldItems "suppress_rules" fields).mapM rule
      let fileName ← match Json.get? "file_name" fields with
        | none => pure none
        | some .null => pure none
        | some v => (text v).map some
      return ⟨sections, fileName, rules⟩
  | _ => .error (.noObject "Document")

end Stored

namespace Document

/-- The document as a text. -/
def serialize (d : Document Sentence) : Text := Json.render (.block 2) (Stored.documentJson d)

/-- The document that a text holds. -/
def deserialize (t : Text) : Except StoredFault (Document Sentence) :=
  match Json.read? t with
  | some v => Stored.document v
  | none => .error .noValue

end Document

end ProseLint
