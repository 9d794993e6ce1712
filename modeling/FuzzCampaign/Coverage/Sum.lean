import FuzzCampaign.Coverage.Record

/-!
# Merging coverage

Coverage of several workers is summed position by position. Zero counts leave no trace, sums stop
at the largest count, and where names differ the least one stays, so that the order of the parts
does not matter.

* `Coverage.merge`.
-/

namespace FuzzCampaign

namespace Coverage

/-- The sum of what stands at a position and further hits; of two names the lesser stays. -/
def joinHits (f : FunctionHits) : Option FunctionHits → FunctionHits
  | none => f
  | some g => ⟨if f.name < g.name then f.name else g.name, addSaturating g.hits f.hits⟩

/-- Add an entry, unless it has no hits. -/
def addRecord (c : Coverage) (e : String × Position × FunctionHits) : Coverage :=
  if e.2.2.hits = 0 then c else c.update e.1 e.2.1 (joinHits e.2.2)

/-- The position-wise sum of the parts. -/
def merge (parts : List Coverage) : Coverage :=
  (parts.flatMap records).foldl addRecord .empty

end Coverage

end FuzzCampaign
