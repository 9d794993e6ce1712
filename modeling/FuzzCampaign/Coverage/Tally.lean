import FuzzCampaign.Coverage.File
import FuzzCampaign.Coverage.Summary

/-!
# Coverage of a campaign

The orchestrator keeps the latest snapshot of every worker; the coverage of the campaign is the sum
of these.

* `Tally`, `Tally.submit`;
* `Tally.full`, `Tally.perTransaction`, `Tally.functionLines`;
* `Tally.files`: what is stored, by file name.
-/

namespace FuzzCampaign

/-- The latest snapshot of every worker that has reported. -/
structure Tally where
  latest : SortedMap UInt64 Snapshot
  deriving Inhabited

namespace Tally

/-- No worker has reported. -/
def empty : Tally := ⟨.empty⟩

/-- Replace the snapshot of a worker. -/
def submit (a : Tally) (index : UInt64) (s : Snapshot) : Tally :=
  ⟨a.latest.insert index s⟩

/-- How many workers have reported. -/
def reporters (a : Tally) : Nat := a.latest.size

/-- The coverage of all runs. -/
def full (a : Tally) : Coverage := .merge (a.latest.values.map (·.full))

/-- The coverage of all last transactions. -/
def perTransaction (a : Tally) : Coverage := .merge (a.latest.values.map (·.perTransaction))

/-- A line for every function, the most hit first. -/
def functionLines (a : Tally) : Except Overflow (List String) := a.full.functionLines

/-- The file of the coverage of all runs. -/
def fullFile : String := "chainfuzz-coverage.cov"

/-- The file of the coverage of all last transactions. -/
def perTransactionFile : String := "chainfuzz-coverage-per-trans.cov"

/-- The files to store, by name; none if nothing was hit. -/
def files (a : Tally) : List (String × String) :=
  if a.full.isEmpty then []
  else [(fullFile, a.full.fileText), (perTransactionFile, a.perTransaction.fileText)]

end Tally

end FuzzCampaign
