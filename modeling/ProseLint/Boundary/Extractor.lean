import ProseLint.Boundary.EndRule
import ProseLint.Symbol.Table

/-! Cutting texts into sentences. -/

namespace ProseLint

/-- Why end symbols cannot be used. -/
inductive ExtractorFault where
  | noEndSymbol
  | wideEndSymbol
  deriving DecidableEq, Repr

def ExtractorFault.message : ExtractorFault → String
  | .noEndSymbol => "No end character is specified"
  | .wideEndSymbol => "The first end symbol must be one character"

/-- What cuts a text into sentences. The separator stands where a sentence goes on in the
next line of the source. -/
structure Extractor where
  endSymbols : List Text
  rightQuotations : List Text
  rule : EndRule
  separator : Option Char
  deriving DecidableEq, Repr

namespace Extractor

/-- Words with a full stop that does not end a sentence. -/
def standardWords : List Text :=
  ["Mr.", "Mrs.", "Dr.", "genn.ai", "Co., Ltd.", "Miss.", "a.m.", "U.S.A.", "Jan.", "Feb.",
    "Mar.", "Apr.", "May.", "Jun.", "Jul.", "Aug.", "Sep.", "Oct.", "Nov.", "Dec.", "B.C",
    "A.D."].map String.toList

/-- An extractor. The first end symbol must be a single character; a Latin one means that
lines are joined by a space. -/
def make (endSymbols rightQuotations words : List Text) : Except ExtractorFault Extractor :=
  let quotations := rightQuotations.filter (!·.isEmpty)
  match endSymbols with
  | [] => .error .noEndSymbol
  | [c] :: _ =>
      .ok ⟨endSymbols, quotations, .ofSymbols endSymbols quotations words,
        if EndRule.isBasicLatin c then some ' ' else none⟩
  | _ => .error .wideEndSymbol

/-- The end symbols used when nothing is configured. -/
def standardSymbols : List Text := [['.'], ['?'], ['!']]

/-- The closing quotations used when nothing is configured. -/
def standardQuotations : List Text := [['\''], ['"']]

/-- The extractor used when nothing is configured. -/
def standard : Extractor :=
  ⟨standardSymbols, standardQuotations,
    .ofSymbols standardSymbols standardQuotations standardWords, some ' '⟩

def ofSymbols (t : SymbolTable) : Except ExtractorFault Extractor :=
  make (t.values ["FULL_STOP", "QUESTION_MARK", "EXCLAMATION_MARK"])
    (t.values ["RIGHT_SINGLE_QUOTATION_MARK", "RIGHT_DOUBLE_QUOTATION_MARK"]) standardWords

/-- The sentences of a text that starts at position `i`, as spans, and where the rest
starts that no sentence end follows. -/
def rangesFrom (r : EndRule) (shields : List (Nat × Nat)) (i : Nat) (t : Text) :
    List (Nat × Nat) × Nat :=
  match t with
  | [] => ([], i)
  | c :: rest =>
      match r.endFrom? shields i (c :: rest) with
      | none => ([], i)
      | some last =>
          if last < i then ([], i)
          else
            let (ranges, remainder) :=
              rangesFrom r shields (last + 1) ((c :: rest).drop (last + 1 - i))
            ((i, last + 1) :: ranges, remainder)
termination_by t.length
decreasing_by
  simp only [List.length_drop, List.length_cons]
  omega

/-- The complete sentences of a text as spans, and where the unfinished rest starts. -/
def extract (e : Extractor) (t : Text) : List (Nat × Nat) × Nat :=
  rangesFrom e.rule (e.rule.shields t) 0 t

end Extractor

end ProseLint
