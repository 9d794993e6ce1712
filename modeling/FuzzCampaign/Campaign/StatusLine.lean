/-!
# The status line

While a campaign runs, a status line says how many workers are left, and on wish how often each
function was hit.

* `statusMessage`;
* `StatusLine`, `StatusLine.start`, `StatusLine.update`, `StatusLine.finish`.
-/

namespace FuzzCampaign

/-- The status of a campaign with workers left and lines on its coverage. -/
def statusMessage (remaining : Nat) (lines : List String) : String :=
  s!"Fuzzing, {remaining} processes remaining" ++ String.join (lines.map ("\n" ++ ·))

/-- The status shown at present, and whether it has lines on coverage. -/
structure StatusLine where
  message : String
  showsCoverage : Bool
  deriving DecidableEq, Repr

namespace StatusLine

/-- The status at the start; a passive campaign shows no coverage. -/
def start (remaining : Nat) (passive verboseCoverage : Bool) : StatusLine :=
  ⟨statusMessage remaining [], verboseCoverage && !passive⟩

/-- A new status. -/
def update (p : StatusLine) (remaining : Nat) (lines : List String) : StatusLine :=
  { p with message := statusMessage remaining (if p.showsCoverage then lines else []) }

/-- The status at the end. -/
def finish (p : StatusLine) : StatusLine := { p with message := "Finished" }

end StatusLine

end FuzzCampaign
