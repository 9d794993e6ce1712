import FuzzCampaign.Campaign.StatusLine
import FuzzCampaign.Campaign.Worker
import FuzzCampaign.Coverage.Tally

/-!
# The run of a campaign

The orchestrator starts every worker and sweeps over those that are left until none is: it takes
their coverage, looks after them, and handles those that are done, one after the other. If anything
goes wrong it ends the workers that are left.

* `Orchestrator`: the state of a campaign, with the world around it;
* `spawnAll`: the start of the workers;
* `look`, `complete`, `sweep`: one sweep over the workers that are left;
* `run`: a whole campaign and its report.
-/

namespace FuzzCampaign

/-- A worker that the orchestrator is responsible for, and since when it is known to be gone. -/
structure OpenWorker where
  index : UInt64
  seed : Seed
  goneSince? : Option Nat
  deriving DecidableEq

/-- The state of a campaign: the workers that are left, in order, the coverage and outcomes so far,
and the coverage files written last. -/
structure Orchestrator (σ : Type) where
  world : σ
  active : List OpenWorker
  aggregator : Tally
  finished : List Finding
  coverageFiles : List String

namespace Orchestrator

variable {σ α : Type}

/-- The state before the first worker. -/
def start (world : σ) : Orchestrator σ := ⟨world, [], .empty, [], []⟩

/-- An action on the world around the orchestrator. -/
def outside (act : Action σ α) : Action (Orchestrator σ) α :=
  ExceptT.mk fun o =>
    let (r, world) := act.run.run o.world
    (r, { o with world })

/-- A whole campaign as an action on the world around it. -/
def whole (act : Action (Orchestrator σ) α) : Action σ α :=
  ExceptT.mk fun world =>
    let (r, o) := act.run.run (start world)
    (r, o.world)

/-- Ask the world around the orchestrator. -/
def ask (question : StateM σ α) : Action (Orchestrator σ) α := outside (Action.ask question)

/-- The report of a campaign that has ended. -/
def report (o : Orchestrator σ) : Findings where
  workers := o.finished.mergeSort fun a b => a.index ≤ b.index
  coverageFiles := o.coverageFiles

end Orchestrator

namespace Campaign

open Orchestrator

variable {σ : Type}

/-! ## Start -/

/-- Start a worker. -/
def spawnWorker (host : CampaignHost σ) (plan : CampaignPlan) (test : TestCase)
    (index : UInt64) (seed : Seed) : Action (Orchestrator σ) Unit := do
  ask (host.printLine s!"Using seed '{seed.hex}' for process #{index}")
  match plan.taskOf test index seed with
  | .error e => throw (.abort e.message)
  | .ok task =>
    outside (Action.perform (host.spawn task))
    modify fun o => { o with active := o.active ++ [⟨index, seed, none⟩] }

/-- Start a worker for each seed, from an index on. -/
def spawnFrom (host : CampaignHost σ) (plan : CampaignPlan) (test : TestCase) :
    Nat → List Seed → Action (Orchestrator σ) Unit
  | _, [] => return ()
  | i, seed :: seeds => do
    spawnWorker host plan test (UInt64.ofNat i) seed
    spawnFrom host plan test (i + 1) seeds

/-- Start a worker for each seed. -/
def spawnAll (host : CampaignHost σ) (plan : CampaignPlan) (test : TestCase)
    (seeds : List Seed) : Action (Orchestrator σ) Unit :=
  spawnFrom host plan test 0 seeds

/-- So many fresh seeds. -/
def freshSeeds (host : CampaignHost σ) : Nat → StateM σ (List Seed)
  | 0 => return []
  | n + 1 => do
    let seed ← host.freshSeed
    return seed :: (← freshSeeds host n)

/-- The seeds of the workers: those supplied, and fresh ones for the others. -/
def seeds (host : CampaignHost σ) (plan : CampaignPlan) : StateM σ (List Seed) := do
  let count := plan.processCount.toNat
  return Seed.pad plan.seeds count (← freshSeeds host (count - plan.seeds.length))

/-! ## Sweeps -/

/-- Take the coverage of a worker; only the newest snapshot counts. Gives whether there was one. -/
def drain (host : CampaignHost σ) (index : UInt64) : Action (Orchestrator σ) Bool := do
  match (← ask (host.snapshots index)).getLast? with
  | none => return false
  | some s =>
    modify fun o => { o with aggregator := o.aggregator.submit index s }
    return true

/-- What a look at a worker shows: the worker as it is now, whether it is done, and whether it had
coverage. -/
structure Sighting where
  worker : OpenWorker
  done : Bool
  hadCoverage : Bool

/-- Look at a worker: take its coverage, and look after it unless it is done. -/
def look (host : CampaignHost σ) (plan : CampaignPlan) (w : OpenWorker) :
    Action (Orchestrator σ) Sighting := do
  let hadCoverage ← drain host w.index
  let goneSince (disconnected : Bool) : Action (Orchestrator σ) (Option Nat) :=
    outside (lookAfter host plan.deadWorkerGrace w.index disconnected w.goneSince?)
  match ← ask (host.completion w.index) with
  | .got () => return ⟨w, true, hadCoverage⟩
  | .empty => return ⟨{ w with goneSince? := ← goneSince false }, false, hadCoverage⟩
  | .disconnected => return ⟨{ w with goneSince? := ← goneSince true }, false, hadCoverage⟩

/-- Handle a worker that is done; gives whether it had coverage. A worker that cannot be handled is
ended at once. -/
def complete (host : CampaignHost σ) (plan : CampaignPlan) (rounds : Nat) (w : OpenWorker) :
    Action (Orchestrator σ) Bool := do
  modify fun o => { o with active := o.active.filter fun v => v.index ≠ w.index }
  let outcome ← Action.attempt (outside (conclude host plan rounds w.index))
  let hadCoverage ← drain host w.index
  match outcome with
  | .ok outcome =>
    modify fun o => { o with finished := o.finished ++ [⟨w.index, w.seed, outcome⟩] }
    return hadCoverage
  | .error e =>
    outside (shutdown host plan.reapTimeout rounds w.index)
    throw (.error e)

/-- Write the coverage so far, if there is any; a campaign goes on if that fails. -/
def persist (host : CampaignHost σ) (plan : CampaignPlan) : Action (Orchestrator σ) Unit := do
  let files := (← get).aggregator.files
  unless files.isEmpty do
    if let .ok () ← ask (host.store plan.coverageDir files) then
      let paths := files.map fun f => Path.join plan.coverageDir f.1
      modify fun o => { o with coverageFiles := paths }

/-- The status line at the start of a campaign. -/
def firstStatus (plan : CampaignPlan) : StatusLine :=
  .start plan.processCount.toNat plan.passive plan.verboseCoverage

/-- Show the status of the campaign after a sweep. -/
def showStatus (host : CampaignHost σ) (plan : CampaignPlan) :
    Action (Orchestrator σ) Unit := do
  let o ← get
  match o.aggregator.functionLines with
  | .error e => throw (.abort e.message)
  | .ok lines =>
    ask (host.showStatus ((firstStatus plan).update o.active.length lines).message)

/-- One sweep over the workers that are left. -/
def sweep (host : CampaignHost σ) (plan : CampaignPlan) (rounds : Nat) :
    Action (Orchestrator σ) Unit := do
  let sightings ← (← get).active.mapM (look host plan)
  modify fun o => { o with active := sightings.map (·.worker) }
  let completed := (sightings.filter (·.done)).map (·.worker)
  let late ← completed.mapM (complete host plan rounds)
  if sightings.any (·.hadCoverage) || late.any id then persist host plan
  showStatus host plan
  if completed.isEmpty then ask (host.sleep plan.pollInterval)

/-- A sweep, unless no worker is left. -/
def sweepRound (host : CampaignHost σ) (plan : CampaignPlan) (rounds : Nat) :
    Action (Orchestrator σ) (Option Unit) := do
  if (← get).active.isEmpty then return some ()
  else
    sweep host plan rounds
    return none

/-! ## The whole campaign -/

/-- End all workers that are left. -/
def endAll (host : CampaignHost σ) (plan : CampaignPlan) (rounds : Nat) :
    Action (Orchestrator σ) Unit := do
  let workers := (← get).active
  workers.forM fun w => outside (sendShutdown host w.index)
  modify fun o => { o with active := [] }
  workers.forM fun w => outside (reap host plan.reapTimeout rounds w.index)

/-- Start the workers and sweep until none is left; if anything fails, end those that are left. -/
def orchestrate (host : CampaignHost σ) (plan : CampaignPlan) (test : TestCase) (rounds : Nat)
    (seeds : List Seed) : Action (Orchestrator σ) Findings := do
  let course : Action (Orchestrator σ) Unit := do
    spawnAll host plan test seeds
    Action.repeatUntil (sweepRound host plan rounds) rounds
  ask (host.showStatus (firstStatus plan).message)
  match ← Action.attempt course with
  | .ok () =>
    ask (host.showStatus (firstStatus plan).finish.message)
    return (← get).report
  | .error e =>
    endAll host plan rounds
    ask (host.showStatus (firstStatus plan).finish.message)
    throw (.error e)

/-- Run a test in every worker. -/
def run (host : CampaignHost σ) (plan : CampaignPlan) (test : TestCase) (rounds : Nat) :
    Action σ Findings := do
  let hasLogsDir ← Action.ask (host.isDirectory plan.logsDir)
  match plan.validate hasLogsDir with
  | .error stop => throw stop
  | .ok () =>
    let seeds ← Action.ask (Campaign.seeds host plan)
    whole (orchestrate host plan test rounds seeds)

end Campaign

end FuzzCampaign
