import FuzzCampaign.Proofs.CoverageOrigin
import FuzzCampaign.Proofs.LatestCoverage

/-!
# Coverage where it was enabled

A plan says how many workers collect coverage, and a test whether it declares the argument for it.
Exactly where both say so a body is given a probe; elsewhere no coverage is sent, and none from
there is summed or stored.

* `CampaignPlan.Covers`: whether a worker collects coverage;
* `Bench.Begins`, **`Worker.run_congr`**: the benches at which a body is begun;
* `Worker.CoversExactly`, **`Worker.coversExactly`**: one worker;
* `Campaign.ShowsOnly`: the coverage that a campaign leaves behind;
* **`Campaign.run_coverage_where_enabled`**: every run of every campaign.
-/

namespace FuzzCampaign

variable {σ : Type}

/-- Whether a worker of a campaign collects coverage. -/
def CampaignPlan.Covers (plan : CampaignPlan) (test : TestCase) (index : UInt64) : Prop :=
  index < plan.coverageWorkers ∧ TestCase.coverageParam ∈ test.params

theorem CampaignPlan.covers_of_taskOf {plan : CampaignPlan} {test : TestCase} {i : UInt64}
    {seed : Seed} {task : WorkerTask} (h : plan.taskOf test i seed = .ok task) :
    task.Covers test ↔ plan.Covers test i := by
  unfold CampaignPlan.taskOf at h
  rcases hport : plan.portOf i with e | port
  · rw [hport] at h
    cases h
  · rw [hport] at h
    cases h
    exact and_congr_left' decide_eq_true_iff

theorem CampaignPlan.not_covers {plan : CampaignPlan} {test : TestCase}
    (h : plan.coverageWorkers = 0 ∨ TestCase.coverageParam ∉ test.params) (i : UInt64) :
    ¬plan.Covers test i := by
  rintro ⟨hi, hparam⟩
  rcases h with h | h
  · rw [h] at hi
    exact UInt64.not_lt_zero hi
  · exact h hparam

/-! ## One worker -/

/-- A bench as a body finds it: there is an argument if and only if `given`, and no probe in its
hands yet. -/
structure Bench.Begins (given : Prop) (b : Bench σ) : Prop where
  argument : b.argument?.isSome = true ↔ given
  hands : b.probe? = none

theorem Bench.Begins.takeProbe {given : Prop} {b : Bench σ} (h : b.Begins given)
    (host : WorkerHost σ) : ∃ start? : Option UInt64,
      ((Bench.takeProbe host TestCase.coverageParam).run b).1 = .ok start? ∧
      (start?.isSome = true ↔ given) := by
  obtain ⟨w, client, generator, watched, argument?, probe?⟩ := b
  obtain rfl : probe? = none := h.hands
  cases argument? with
  | none => exact ⟨none, rfl, h.argument⟩
  | some probe => exact ⟨some probe.startingBlock, rfl, h.argument⟩

namespace Worker

open FuzzCampaign.Action Conversation

section

variable {host : WorkerHost σ} {test : TestCase} {body body' : FuzzBody σ} {task : WorkerTask}

theorem runBody_congr {given : Prop} {client : RpcClient} {probe? : Option Probe}
    (h : ∀ b : Bench σ, b.Begins given →
      (body host task).run.run b = (body' host task).run.run b)
    (hprobe : probe?.isSome = true ↔ given) :
    runBody host test body task client probe? = runBody host test body' task client probe? := by
  refine bind_congr fun _ => bind_congr fun w => ?_
  dsimp only
  rw [h ⟨w, client, .ofSeed task.seed, [], probe?, none⟩ ⟨hprobe, rfl⟩]

/-- **A body is begun at no other benches**: what it would do there makes no difference. -/
theorem run_congr
    (h : ∀ b : Bench σ, b.Begins (task.Covers test) →
      (body host task).run.run b = (body' host task).run.run b) (retry : Patience) (rounds : Nat) :
    run host test body task retry rounds = run host test body' task retry rounds := by
  have hexecute : execute host test body task retry rounds =
      execute host test body' task retry rounds := by
    refine bind_congr fun r => ?_
    rcases r with e | _
    · rfl
    · refine bind_congr fun _ => ext_outcome fun s => ?_
      rw [outcome_bind, outcome_bind, outcome_attempt]
      have hprobe := gives_setUp_probe host (s := s) test task retry rounds
      -- only a set-up that ends well goes on to the body
      rcases hsetUp : (setUp host test task retry rounds).outcome s with
        ⟨(e | message | _) | x, s'⟩
      · rfl
      · rfl
      · rfl
      · dsimp only
        rw [runBody_congr h (gives_iff.1 hprobe x s' hsetUp)]
  unfold run
  rw [hexecute]

end

/-- Coverage is collected in a worker if and only if `covers`. -/
structure CoversExactly (host : WorkerHost σ) (test : TestCase)
    (body : FuzzBody (Recorded WorkerDeed σ)) (retry : Patience) (rounds : Nat) (task : WorkerTask)
    (covers : Prop) : Prop where
  /-- Whenever the body is run it begins with an argument if and only if `covers`: what it would do
  elsewhere makes no difference to the run. -/
  begun : ∀ body' : FuzzBody (Recorded WorkerDeed σ),
    (∀ b, b.Begins covers →
      (body host.recorded task).run.run b = (body' host.recorded task).run.run b) →
    run host.recorded test body task retry rounds = run host.recorded test body' task retry rounds
  /-- What it gets for its argument is a probe, or none. -/
  argument : ∀ b : Bench (Recorded WorkerDeed σ), b.Begins covers → ∃ start? : Option UInt64,
    ((Bench.takeProbe host.recorded TestCase.coverageParam).run b).1 = .ok start? ∧
      (start?.isSome = true ↔ covers)
  /-- Without a probe no coverage is sent. -/
  unsent : ¬covers → ∀ w, ∀ d ∈
    ((run host.recorded test body task retry rounds).outcome ⟨w, []⟩).2.deeds, ¬d.IsCoverage

theorem not_isCoverage_of_leads {c : Conversation} {l : List WorkerDeed} (hc : c.Silent)
    (h : c.Leads l) : ∀ d ∈ l, ¬d.IsCoverage := by
  induction c generalizing l with
  | ended r =>
    obtain rfl : l = [] := h
    exact List.forall_mem_nil _
  | saying m next ih =>
    obtain ⟨answer, rest, rfl, hrest⟩ := h
    refine List.forall_mem_cons.2 ⟨?_, ih answer (hc.2 answer) hrest⟩
    rintro ⟨s, r, heq⟩
    cases heq
    exact hc.1 s rfl
  | hearing next ih =>
    obtain ⟨answer, rest, rfl, hrest⟩ := h
    refine List.forall_mem_cons.2 ⟨?_, ih answer (hc answer) hrest⟩
    rintro ⟨s, r, heq⟩
    cases heq
  | debugging e next ih => exact ih hc h

/-- **A worker covers exactly where its task and its test say so.** -/
theorem coversExactly {host : WorkerHost σ} {test : TestCase}
    {body : FuzzBody (Recorded WorkerDeed σ)} {task : WorkerTask}
    (hbody : ProbeWork host.recorded (body host.recorded task)) (retry : Patience) (rounds : Nat) :
    CoversExactly host test body retry rounds task (task.Covers test) where
  begun body' h := run_congr h retry rounds
  argument b hb := hb.takeProbe host.recorded
  unsent hcovers w d hd hcoverage := by
    have hleads := leads_run hbody.benchWork test retry rounds w
    refine not_isCoverage_of_leads (silent_talk hbody hcovers retry rounds w) hleads d ?_ hcoverage
    obtain ⟨s, r, rfl⟩ := hcoverage
    exact List.mem_filter.2 ⟨hd, rfl⟩

end Worker

/-! ## Whole campaigns -/

namespace Campaign

open FuzzCampaign.Action Orchestrator

/-- All coverage that a campaign shows was sent by workers that collect it: what it has summed, what
it has stored, and what it reports as stored. -/
structure ShowsOnly {ρ : Type} (covers : UInt64 → Prop) (dir : String) (tally : Tally)
    (result : Except Stop Findings) (f : Floor ρ) : Prop where
  unsent : ∀ i st, f.stations i = some st → ¬covers i → st.sent = []
  summed : ∀ findings, result = .ok findings → tally.SentBy covers f
  stored : ∀ path text, f.disk path = some text → f.Stores covers dir path text
  listed : ∀ findings, result = .ok findings →
    ∀ path ∈ findings.coverageFiles, (f.disk path).isSome = true

variable {ρ : Type} {crew : WorkerTask → Conversation} {env : Surroundings ρ} {plan : CampaignPlan}
  {test : TestCase}

/-- A campaign whose other workers are silent. -/
theorem showsOnly_of_silent (covers : UInt64 → Prop)
    (hsilent : ∀ i seed task, plan.taskOf test i seed = .ok task → ¬covers i → (crew task).Silent)
    (rounds : Nat) (rest : ρ) {result : Except Stop Findings} {f : Floor ρ}
    (h : (run (Floor.host crew env) plan test rounds).outcome (.vacant rest) = (result, f)) :
    ShowsOnly covers plan.coverageDir
      (finalTally (Floor.host crew env) plan test rounds (.vacant rest)) result f := by
  have hupholds := Floor.upholds_accounts env hsilent
  have hvacant := Floor.accounts_vacant covers plan.coverageDir rest
  have hrun := yields_run_upheld hupholds rounds hvacant
  have haccounts : ∃ tally files, f.Accounts covers plan.coverageDir tally files ∧
      ∀ findings, result = .ok findings → files = findings.coverageFiles := by
    rcases result with stop | findings
    · obtain ⟨tally, files, haccounts⟩ := hrun.of_error h
      exact ⟨tally, files, haccounts, nofun⟩
    · obtain ⟨tally, haccounts⟩ := hrun.of_ok h
      exact ⟨tally, _, haccounts, fun _ heq => by cases heq; rfl⟩
  obtain ⟨tally, files, haccounts, hfiles⟩ := haccounts
  refine ⟨fun i st hst hcovers => ((haccounts.honest i st hst).silent hcovers).2, ?_,
    haccounts.disk, fun findings hresult => ?_⟩
  · rintro findings rfl
    have hending := upheld_ending hupholds rounds hvacant
    obtain ⟨-, hworld⟩ := ending_of_run _ _ _ _ _ h
    rw [Upheld, hworld] at hending
    exact hending.tally
  · rw [← hfiles findings hresult]
    exact haccounts.listed

theorem ShowsOnly.none {covers : UInt64 → Prop} {dir : String} {tally : Tally}
    {result : Except Stop Findings} {f : Floor ρ} (h : ShowsOnly covers dir tally result f)
    (hnone : ∀ i, ¬covers i) : (∀ path, f.disk path = none) ∧
      ∀ findings, result = .ok findings → findings.coverageFiles = [] := by
  have hdisk : ∀ path, f.disk path = .none := by
    intro path
    rcases hpath : f.disk path with _ | text
    · rfl
    · obtain ⟨t, ht, e, he, -⟩ := h.stored path text hpath
      rw [ht.files_eq_nil hnone] at he
      exact absurd he List.not_mem_nil
  refine ⟨hdisk, fun findings hresult => List.eq_nil_iff_forall_not_mem.2 fun path hpath => ?_⟩
  have hsome := h.listed findings hresult path hpath
  rw [hdisk] at hsome
  cases hsome

/-- **Coverage is collected exactly where it was enabled.** A body is given a probe if and only if
its worker is among those that collect coverage and its test declares the argument; without one
nothing that it does sends coverage. So a campaign of such workers, in whatever order they make
their steps and however it ends, sums and stores only coverage that was sent by workers that collect
it; if there are none, it writes no file and reports none. -/
theorem run_coverage_where_enabled (plan : CampaignPlan) (test : TestCase) (host : WorkerHost σ)
    (body : FuzzBody (Recorded WorkerDeed σ))
    (hbody : ∀ task, ProbeWork host.recorded (body host.recorded task)) (retry : Patience)
    (patience : Nat) :
    (∀ i seed task, plan.taskOf test i seed = .ok task →
      Worker.CoversExactly host test body retry patience task (plan.Covers test i)) ∧
    ∀ (ρ : Type) (env : Surroundings ρ) (worlds : WorkerTask → σ) (rounds : Nat) (rest : ρ)
      (result : Except Stop Findings) (f : Floor ρ),
      let floor := Floor.host
        (fun task => Worker.talk host test body retry patience task (worlds task)) env
      (run floor plan test rounds).outcome (.vacant rest) = (result, f) →
      ShowsOnly (plan.Covers test) plan.coverageDir
        (finalTally floor plan test rounds (.vacant rest)) result f ∧
      (plan.coverageWorkers = 0 ∨ TestCase.coverageParam ∉ test.params →
        (∀ path, f.disk path = none) ∧
          ∀ findings, result = .ok findings → findings.coverageFiles = []) := by
  refine ⟨fun i seed task htask => ?_, ?_⟩
  · rw [← propext (CampaignPlan.covers_of_taskOf htask)]
    exact Worker.coversExactly (hbody task) retry patience
  · intro ρ env worlds rounds rest result f floor h
    have hshows := showsOnly_of_silent (plan.Covers test) (fun i seed task htask hcovers =>
      Worker.silent_talk (hbody task) ((CampaignPlan.covers_of_taskOf htask).not.2 hcovers) retry
        patience (worlds task)) rounds rest h
    exact ⟨hshows, fun hnone => hshows.none (CampaignPlan.not_covers hnone)⟩

/-- A body that takes its argument and counts a hit. -/
def hittingBody : FuzzBody (Recorded WorkerDeed ScriptedWorker) :=
  scriptedBody (fun _ _ => return ())
    [("take", .take TestCase.coverageParam true), ("hit", .hit "c" "1:2-3:4" "f" 1)]

/-- A test that declares a probe. -/
def hittingTest : TestCase := ⟨"m", "t", [TestCase.coverageParam]⟩

/-- Two workers, of which so many collect coverage, and which make a step before every answer. -/
def twoHitting (covered : UInt64) : Except Stop Findings × Floor (List (List Move)) :=
  (run (Floor.host (fun task => Worker.talk ScriptedWorker.host hittingTest hittingBody .default 1
    task {}) (.scheduled (.answer false)))
    { processCount := 2, coverageWorkers := covered } hittingTest 5).outcome
      (.vacant (List.replicate 60 [.work 0, .carry 0, .work 1, .carry 1]))

theorem disk_twoHitting : (twoHitting 1).2.disk (Path.join "." Tally.fullFile) =
    some (Coverage.ofRecords [("c", ⟨1, 2, 3, 4⟩, ⟨"f", 1⟩)]).fileText := by
  decide +kernel

/-- Of two workers that count a hit, only that of the first is stored, and the second sends none; if
neither is to collect coverage, nothing is stored. -/
theorem run_coverage_where_enabled_oneOfTwo :
    (twoHitting 1).2.disk (Path.join "." Tally.fullFile) =
      some (Coverage.ofRecords [("c", ⟨1, 2, 3, 4⟩, ⟨"f", 1⟩)]).fileText ∧
    (∀ st, (twoHitting 1).2.stations 1 = some st → st.sent = []) ∧
    ∀ path, (twoHitting 0).2.disk path = none := by
  have hbody : ∀ task,
      ProbeWork ScriptedWorker.host.recorded (hittingBody ScriptedWorker.host.recorded task) :=
    fun _ => probeWork_scriptedBody (fun _ _ => Recorded.quiet_pure ()) _
  refine ⟨disk_twoHitting, ?_, ?_⟩
  · rcases hrun : twoHitting 1 with ⟨result, f⟩
    obtain ⟨-, hcampaign⟩ := run_coverage_where_enabled { processCount := 2, coverageWorkers := 1 }
      hittingTest ScriptedWorker.host hittingBody hbody .default 1
    intro st hst
    refine (hcampaign _ _ _ _ _ _ _ hrun).1.unsent 1 st hst ?_
    rintro ⟨hlt, -⟩
    exact absurd hlt (by decide)
  · rcases hrun : twoHitting 0 with ⟨result, f⟩
    obtain ⟨-, hcampaign⟩ := run_coverage_where_enabled { processCount := 2, coverageWorkers := 0 }
      hittingTest ScriptedWorker.host hittingBody hbody .default 1
    exact ((hcampaign _ _ _ _ _ _ _ hrun).2 (.inl rfl)).1

end Campaign

end FuzzCampaign
