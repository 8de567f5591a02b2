import ProseLint.Text.Basic

/-! Case mappings given by runs of code points that move by a common distance. -/

namespace ProseLint

/-- Every `step`-th code point from `low` to `high` maps to the one `shift` further on. -/
structure CaseRun where
  low : Nat
  high : Nat
  step : Nat
  shift : Int

namespace CaseRun

def covers (r : CaseRun) (n : Nat) : Bool :=
  r.low ≤ n && n ≤ r.high && (n - r.low) % r.step == 0

/-- The mapping given by a table of runs. Characters outside every run stay. -/
def apply (runs : List CaseRun) (c : Char) : Char :=
  match runs.find? (·.covers c.toNat) with
  | some r => Char.ofNat (Int.toNat (c.toNat + r.shift))
  | none => c

end CaseRun

end ProseLint
