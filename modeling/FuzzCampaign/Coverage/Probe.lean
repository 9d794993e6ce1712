import FuzzCampaign.Coverage.Record

/-!
# Coverage probes

A probe counts the hits of one worker, in its whole run and in its current transaction. The name
first recorded for a position stays.

* `Probe`, `Probe.start`;
* `Probe.hit`, `Probe.openTransaction`, `Probe.snapshot`;
* `Probe.farewell`: what a probe still has to report when it is given up.
-/

namespace FuzzCampaign

/-- The hits that one worker has counted since the block at which it started. -/
structure Probe where
  startingBlock : UInt64
  full : Coverage
  perTransaction : Coverage
  deriving DecidableEq

namespace Probe

/-- A probe that has counted nothing yet. -/
def start (block : UInt64) : Probe := ⟨block, .empty, .empty⟩

/-- Further hits of a function; the name first recorded stays. -/
def countHits (name : String) (n : UInt64) : Option FunctionHits → FunctionHits
  | none => ⟨name, addSaturating 0 n⟩
  | some f => ⟨f.name, addSaturating f.hits n⟩

/-- Count hits of a function; no hits leave no trace. -/
def hit (p : Probe) (file : String) (position : Position) (name : String) (n : UInt64) : Probe :=
  if n = 0 then p
  else { p with
    full := p.full.update file position (countHits name n)
    perTransaction := p.perTransaction.update file position (countHits name n) }

/-- Begin a transaction, which has no hits yet. -/
def openTransaction (p : Probe) : Probe := { p with perTransaction := .empty }

/-- What the probe has counted. -/
def snapshot (p : Probe) : Snapshot := ⟨p.full, p.perTransaction⟩

/-- The last snapshot of a probe that is given up, if it has counted anything. -/
def farewell (p : Probe) : Option Snapshot := if p.full.isEmpty then none else some p.snapshot

end Probe

end FuzzCampaign
