import FuzzCampaign.Proofs.FaithfulReport
import FuzzCampaign.Proofs.LatestCoverage
import FuzzCampaign.Proofs.LogNames
import FuzzCampaign.Proofs.PlanValidity

/-!
# How workers are started

A campaign with a valid plan starts its workers one after the other until all are started or one
cannot be. Every worker is told what its place calls for, and no two get the same port or the same
log file.

* `attemptsIn`: the attempts to start workers in a record;
* `Campaign.Launches`: the attempts that a list of seeds calls for, with `Launches.taskOf`,
  `Launches.refused_last` and `Launches.complete`;
* `Campaign.yields_spawnFrom_launches`: the start of the workers;
* `SpawnPlan`: attempts that follow a plan;
* **`Campaign.run_spawn_plan`**: the attempts of all runs.
-/

namespace FuzzCampaign

/-! ## Attempts -/

/-- An attempt to start a worker. -/
def CampaignDeed.attempt? : CampaignDeed → Option (WorkerTask × Except CampaignError Unit)
  | .started task answer => some (task, answer)
  | _ => none

/-- The attempts to start workers, in order. -/
def attemptsIn (l : List CampaignDeed) : List (WorkerTask × Except CampaignError Unit) :=
  l.filterMap CampaignDeed.attempt?

theorem attemptsIn_append (l l' : List CampaignDeed) :
    attemptsIn (l ++ l') = attemptsIn l ++ attemptsIn l' :=
  List.filterMap_append

theorem attemptsIn_snoc_of_ne {l : List CampaignDeed} {d : CampaignDeed}
    (h : ∀ task answer, d ≠ .started task answer) : attemptsIn (l ++ [d]) = attemptsIn l := by
  rw [attemptsIn_append]
  cases d with
  | started task answer => exact absurd rfl (h task answer)
  | _ => exact List.append_nil _

theorem CampaignHost.tends_attempts {σ : Type} (host : CampaignHost σ)
    (attempts : List (WorkerTask × Except CampaignError Unit)) :
    host.recorded.Tends fun r => attemptsIn r.deeds = attempts :=
  host.tends_recorded (P := fun l => attemptsIn l = attempts) fun l d hd h => by
    rw [attemptsIn_snoc_of_ne, h]
    rintro task answer rfl
    cases hd

namespace Campaign

open FuzzCampaign.Action Orchestrator

/-- The attempts to start a worker for each seed, from an index on, up to the first that fails. -/
inductive Launches (plan : CampaignPlan) (test : TestCase) :
    Nat → List Seed → List (WorkerTask × Except CampaignError Unit) → Prop
  | done (n : Nat) : Launches plan test n [] []
  | refused {n : Nat} {seed : Seed} {seeds : List Seed} {task : WorkerTask} (e : CampaignError) :
    plan.taskOf test (UInt64.ofNat n) seed = .ok task →
      Launches plan test n (seed :: seeds) [(task, .error e)]
  | started {n : Nat} {seed : Seed} {seeds : List Seed} {task : WorkerTask}
    {attempts : List (WorkerTask × Except CampaignError Unit)} :
    plan.taskOf test (UInt64.ofNat n) seed = .ok task → Launches plan test (n + 1) seeds attempts →
      Launches plan test n (seed :: seeds) ((task, .ok ()) :: attempts)

section

variable {plan : CampaignPlan} {test : TestCase} {n k : Nat} {seeds : List Seed}
  {attempts : List (WorkerTask × Except CampaignError Unit)} {task : WorkerTask}
  {answer : Except CampaignError Unit}

theorem Launches.taskOf (h : Launches plan test n seeds attempts)
    (hk : attempts[k]? = some (task, answer)) :
    ∃ seed, seeds[k]? = some seed ∧ plan.taskOf test (UInt64.ofNat (n + k)) seed = .ok task := by
  induction h generalizing k with
  | done n => cases hk
  | @refused n seed _ _ _ htask =>
    cases k with
    | zero =>
      cases hk
      exact ⟨seed, rfl, htask⟩
    | succ k => cases hk
  | @started n seed _ _ _ htask _ ih =>
    cases k with
    | zero =>
      cases hk
      exact ⟨seed, rfl, htask⟩
    | succ k =>
      rw [← Nat.add_assoc, Nat.add_right_comm]
      exact ih hk

/-- Nothing is attempted after a failure. -/
theorem Launches.refused_last (h : Launches plan test n seeds attempts) {e : CampaignError}
    (hk : attempts[k]? = some (task, .error e)) : k + 1 = attempts.length := by
  induction h generalizing k with
  | done n => cases hk
  | refused _ _ =>
    cases k with
    | zero => rfl
    | succ k => cases hk
  | started _ _ ih =>
    cases k with
    | zero => cases hk
    | succ k => exact congrArg (· + 1) (ih hk)

theorem Launches.length_le (h : Launches plan test n seeds attempts) :
    attempts.length ≤ seeds.length := by
  induction h with
  | done n => exact Nat.le_refl _
  | refused _ _ => exact Nat.succ_le_succ (Nat.zero_le _)
  | started _ _ ih => exact Nat.succ_le_succ ih

theorem Launches.complete (h : Launches plan test n seeds attempts)
    (hok : ∀ p ∈ attempts, p.2 = .ok ()) : attempts.length = seeds.length := by
  induction h with
  | done n => rfl
  | refused e _ => cases hok _ (List.mem_singleton_self _)
  | started _ _ ih =>
    exact congrArg (· + 1) (ih fun p hp => hok p (List.mem_cons_of_mem _ hp))

end

/-! ## The start of the workers -/

section

variable {σ : Type} (host : CampaignHost σ) {plan : CampaignPlan} (rounds : Nat)
  {o : Orchestrator (Recorded CampaignDeed σ)}

/-- **The workers are started one after the other**, as far as they can be. -/
theorem yields_spawnFrom_launches {hasLogsDir : Bool} (hvalid : plan.validate hasLogsDir = .ok ())
    (test : TestCase) (n : Nat) (seeds : List Seed)
    (hcount : n + seeds.length ≤ plan.processCount.toNat) :
    Yields (spawnFrom host.recorded plan test n seeds) o
      (fun _ o' => ∃ l, attemptsIn o'.log = attemptsIn o.log ++ l ∧ Launches plan test n seeds l)
      fun _ o' => ∃ l, attemptsIn o'.log = attemptsIn o.log ++ l ∧
        Launches plan test n seeds l := by
  induction seeds generalizing n o with
  | nil => exact ⟨[], (List.append_nil _).symm, .done n⟩
  | cons seed seeds ih =>
    rw [List.length_cons] at hcount
    have hindex : UInt64.ofNat n < plan.processCount := by
      rw [UInt64.lt_iff_toNat_lt, UInt64.toNat_ofNat']
      exact Nat.lt_of_le_of_lt (Nat.mod_le ..) (by omega)
    obtain ⟨port, hport, -⟩ := CampaignPlan.portOf_of_valid hvalid hindex
    obtain ⟨task, htask⟩ : ∃ task, plan.taskOf test (UInt64.ofNat n) seed = .ok task :=
      ⟨_, CampaignPlan.taskOf_eq_ok_iff.2 ⟨port, hport, rfl⟩⟩
    rw [spawnFrom, yields_bind, spawnWorker, yields_bind]
    refine (yields_aside _ rfl).imp fun _ o₁ h₁ => ?_
    have hlog : o₁.log = o.log := by rw [h₁.log, List.append_nil]
    rw [htask]
    change Yields (outside (perform (host.recorded.spawn task)) >>= fun _ => _) o₁ _ _
    have hspawn : host.recorded.spawn task = Recorded.noting (.started task) (host.spawn task) :=
      rfl
    have hattempt : ∀ answer, attemptsIn (o₁.log ++ [.started task answer]) =
        attemptsIn o.log ++ [(task, answer)] := by
      intro answer
      rw [attemptsIn_append, hlog]
      rfl
    rw [yields_bind, yields_outside, yields_perform, hspawn, Recorded.run_noting]
    rcases ((host.spawn task).run o₁.world.world).1 with e | _
    · exact ⟨_, hattempt (.error e), .refused e htask⟩
    · have hnext : n + 1 + seeds.length ≤ plan.processCount.toNat := by omega
      have hmore : ∀ l, attemptsIn (o₁.log ++ [.started task (.ok ())]) ++ l =
          attemptsIn o.log ++ (task, .ok ()) :: l := by
        intro l
        rw [hattempt, List.append_assoc]
        rfl
      refine (ih (n + 1) hnext).mono ?_ ?_
      · rintro _ o' ⟨l, hl, hlaunches⟩
        exact ⟨_, hl.trans (hmore l), .started htask hlaunches⟩
      · rintro _ o' ⟨l, hl, hlaunches⟩
        exact ⟨_, hl.trans (hmore l), .started htask hlaunches⟩

theorem preserves_sweeps_attempts (plan : CampaignPlan)
    (attempts : List (WorkerTask × Except CampaignError Unit)) :
    Preserves (fun o => attemptsIn o.log = attempts)
      (repeatUntil (sweepRound host.recorded plan rounds) rounds) := by
  have hexception : ∀ i (r : Recorded CampaignDeed σ), attemptsIn r.deeds = attempts →
      attemptsIn ((host.recorded.exception i).run r).2.deeds = attempts :=
    fun i r h => (attemptsIn_snoc_of_ne (fun _ _ heq => by cases heq)).trans h
  exact preserves_repeatUntil (preserves_sweepRound
    ((host.tends_attempts attempts).upholds hexception plan) rounds) rounds

theorem yields_orchestrate_launches {hasLogsDir : Bool} (hvalid : plan.validate hasLogsDir = .ok ())
    (test : TestCase) (seeds : List Seed) (hcount : seeds.length ≤ plan.processCount.toNat)
    (w : σ) :
    Yields (orchestrate host.recorded plan test rounds seeds) (.start ⟨w, []⟩)
      (fun _ o => Launches plan test 0 seeds (attemptsIn o.log))
      fun _ o => Launches plan test 0 seeds (attemptsIn o.log) := by
  refine yields_orchestrate_of_course host plan rounds
    (C := fun o => Launches plan test 0 seeds (attemptsIn o.log))
    (B := fun _ o => Launches plan test 0 seeds (attemptsIn o.log))
    (fun o hgrows => ?_) (fun o o' h hgrows => ?_) (fun e o h => ?_) (fun _ _ => id) fun _ => id
  · have hnone : attemptsIn o.log = [] := by
      rw [hgrows.log]
      rfl
    rw [yields_bind]
    refine (yields_spawnFrom_launches host hvalid test 0 seeds (by omega)).mono ?_ ?_
    · rintro _ o₁ ⟨l, hl, hlaunches⟩
      rw [hnone, List.nil_append] at hl
      subst hl
      exact (preserves_sweeps_attempts host rounds plan _ o₁ rfl).mono
        (fun _ _ h => h ▸ hlaunches) fun _ _ h => h ▸ hlaunches
    · rintro _ o₁ ⟨l, hl, hlaunches⟩
      rw [hnone, List.nil_append] at hl
      exact hl ▸ hlaunches
  · rwa [hgrows.log, List.append_nil]
  · have hguards := (host.tends_attempts (attemptsIn o.log)).minds.guards plan
    refine (preserves_endAll hguards rounds o rfl).mono (fun _ o₁ h₁ o₂ hgrows => ?_) ?_
    · rw [hgrows.log, List.append_nil]
      exact Eq.symm h₁ ▸ h
    · exact fun _ o₁ h₁ => Eq.symm h₁ ▸ h

end

end Campaign

/-! ## Attempts that follow a plan -/

/-- A task that a plan and a test call for at this place. -/
structure WorkerTask.Fits (plan : CampaignPlan) (test : TestCase) (i : Nat) (task : WorkerTask) :
    Prop where
  index : task.index.toNat = i
  testName : task.test = test.fullName
  port : task.port.toNat = plan.basePort.toNat + i
  coverage : task.coverage = true ↔ i < plan.coverageWorkers.toNat
  tee : task.tee = true ↔ plan.passive = true ∧ i = 0
  seed : ∀ seed, plan.seeds[i]? = some seed → task.seed = seed
  network : task.network = plan.network
  logPath : task.logPath = Path.join plan.logsDir (test.logFile task.index)

/-- Attempts that follow a plan: there is one for each worker in the order of their indexes, up to
the first that fails, and no two workers share a port or a log file. -/
structure SpawnPlan (plan : CampaignPlan) (test : TestCase)
    (attempts : List (WorkerTask × Except CampaignError Unit)) : Prop where
  fits : ∀ (i : Nat) (task : WorkerTask) (answer : Except CampaignError Unit),
    attempts[i]? = some (task, answer) → task.Fits plan test i
  length_le : attempts.length ≤ plan.processCount.toNat
  complete : (∀ p ∈ attempts, p.2 = .ok ()) → attempts.length = plan.processCount.toNat
  refused_last : ∀ (i : Nat) (task : WorkerTask) (e : CampaignError),
    attempts[i]? = some (task, .error e) → i + 1 = attempts.length
  ports : (attempts.map (·.1.port)).Nodup
  logPaths : (attempts.map (·.1.logPath)).Nodup

/-- Values that show the place of their entries are different. -/
theorem nodup_map_of_place {α β : Type} {f : α → β} {l : List α}
    (h : ∀ (i j : Nat) (a b : α), l[i]? = some a → l[j]? = some b → f a = f b → i = j) :
    (l.map f).Nodup := by
  rw [List.nodup_iff_getElem?_ne_getElem?]
  intro i j hij hj heq
  rw [List.length_map] at hj
  rw [List.getElem?_map, List.getElem?_map, List.getElem?_eq_getElem hj,
    List.getElem?_eq_getElem (hij.trans hj), Option.map_some, Option.map_some,
      Option.some.injEq] at heq
  exact hij.ne (h i j _ _ (List.getElem?_eq_getElem _) (List.getElem?_eq_getElem _) heq)

section

variable {plan : CampaignPlan} {test : TestCase} {seeds : List Seed}
  {attempts : List (WorkerTask × Except CampaignError Unit)}

theorem Campaign.Launches.fits {hasLogsDir : Bool} (h : Launches plan test 0 seeds attempts)
    (hvalid : plan.validate hasLogsDir = .ok ()) (hcount : seeds.length = plan.processCount.toNat)
    (hseeds : ∀ (i : Nat) (seed : Seed), i < plan.processCount.toNat →
      plan.seeds[i]? = some seed → seeds[i]? = some seed) {i : Nat} {task : WorkerTask}
    {answer : Except CampaignError Unit}
    (hi : attempts[i]? = some (task, answer)) : task.Fits plan test i := by
  obtain ⟨seed, hseed, htask⟩ := h.taskOf hi
  obtain ⟨port, hport, rfl⟩ := CampaignPlan.taskOf_eq_ok_iff.1 htask
  rw [Nat.zero_add] at hport
  have hlt : i < plan.processCount.toNat := hcount ▸ (List.getElem?_eq_some_iff.1 hseed).1
  have htoNat : (UInt64.ofNat i).toNat = i := by
    rw [UInt64.toNat_ofNat', Nat.mod_eq_of_lt (hlt.trans plan.processCount.toNat_lt)]
  have hindex : UInt64.ofNat i < plan.processCount := by rwa [UInt64.lt_iff_toNat_lt, htoNat]
  obtain ⟨port', hport', hvalue⟩ := CampaignPlan.portOf_of_valid hvalid hindex
  cases hport.symm.trans hport'
  rw [htoNat] at hvalue
  rw [Nat.zero_add]
  refine ⟨htoNat, rfl, hvalue, ?_, ?_, fun seed' hseed' => ?_, rfl, ?_⟩
  · rw [CampaignPlan.isMeasured, decide_eq_true_eq, UInt64.lt_iff_toNat_lt, htoNat]
  · rw [CampaignPlan.copiesOutput, Bool.and_eq_true, decide_eq_true_eq, ← UInt64.toNat_inj, htoNat,
      UInt64.toNat_zero]
  · rw [hseeds i seed' hlt hseed'] at hseed
    exact (Option.some.inj hseed).symm
  · dsimp only

/-- **The attempts for the seeds of a valid plan follow it.** -/
theorem Campaign.Launches.spawnPlan {hasLogsDir : Bool} (h : Launches plan test 0 seeds attempts)
    (hvalid : plan.validate hasLogsDir = .ok ()) (hcount : seeds.length = plan.processCount.toNat)
    (hseeds : ∀ (i : Nat) (seed : Seed), i < plan.processCount.toNat →
      plan.seeds[i]? = some seed → seeds[i]? = some seed) : SpawnPlan plan test attempts := by
  have hfits : ∀ (i : Nat) (task : WorkerTask) (answer : Except CampaignError Unit),
      attempts[i]? = some (task, answer) → task.Fits plan test i :=
    fun _ _ _ => h.fits hvalid hcount hseeds
  refine ⟨hfits, hcount ▸ h.length_le, fun hok => hcount ▸ h.complete hok,
    fun _ _ _ => h.refused_last, nodup_map_of_place ?_, nodup_map_of_place ?_⟩
  · intro i j p q hp hq heq
    have hports := congrArg UInt16.toNat heq
    rw [(hfits i p.1 p.2 hp).port, (hfits j q.1 q.2 hq).port] at hports
    omega
  · intro i j p q hp hq heq
    have hi := hfits i p.1 p.2 hp
    have hj := hfits j q.1 q.2 hq
    simp only [hi.logPath, hj.logPath] at heq
    have hname := join_inj plan.logsDir (test.startsWith_logFile _) (test.startsWith_logFile _) heq
    rw [← hi.index, ← hj.index, test.logFile_inj hname]

end

namespace Campaign

open FuzzCampaign.Action

/-- **A campaign with a valid plan starts its workers by that plan**, in every world and however it
ends: one for each index in order, with the port, the seed and the log file of that index, until all
are started or one cannot be. -/
theorem run_spawn_plan {σ : Type} (host : CampaignHost σ) (plan : CampaignPlan) (rounds : Nat)
    (test : TestCase) (w : σ) {result : Except Stop Findings} {r : Recorded CampaignDeed σ}
    (hvalid : plan.validate ((host.isDirectory plan.logsDir).run w).1 = .ok ())
    (h : (run host.recorded plan test rounds).outcome ⟨w, []⟩ = (result, r)) :
    SpawnPlan plan test (attemptsIn r.deeds) := by
  have hcount := length_seedsOf host.recorded plan ⟨w, []⟩
  let seeds := seedsOf host.recorded plan ⟨w, []⟩
  have hrun : Yields (run host.recorded plan test rounds) ⟨w, []⟩
      (fun _ r => Launches plan test 0 seeds (attemptsIn r.deeds))
      fun _ r => Launches plan test 0 seeds (attemptsIn r.deeds) :=
    yields_run_of_valid host plan rounds hvalid fun w' =>
      yields_orchestrate_launches host rounds hvalid test seeds hcount.le w'
  have hfinal := hrun.final
  rw [h] at hfinal
  exact hfinal.spawnPlan hvalid hcount fun i seed hi hseed =>
    getElem?_seedsOf host.recorded plan ⟨w, []⟩ hi hseed

/-- A plan whose two workers get the last two ports, with a seed too many. -/
def lastPorts : CampaignPlan :=
  { processCount := 2,
    seeds := [⟨#v[1, 1, 1, 1, 1, 1, 1, 1]⟩, ⟨#v[2, 2, 2, 2, 2, 2, 2, 2]⟩, default],
    passive := true, coverageWorkers := 1, basePort := 65534 }

/-- A campaign with this plan in which every worker passes. -/
def onLastPorts : Except Stop Findings × Recorded CampaignDeed Nat :=
  (run (atOnce (fun _ => .got ()) fun _ => .got none).recorded lastPorts ⟨"m", "t", []⟩ 3).outcome
    ⟨0, []⟩

theorem attemptsIn_onLastPorts :
    (attemptsIn onLastPorts.2.deeds).map (fun p => (p.1.port, p.2)) =
      [(65534, .ok ()), (65535, .ok ())] := by
  decide +kernel

/-- The workers of that campaign are started by its plan, and so are those of a campaign whose
second worker cannot be started. -/
theorem run_spawn_plan_lastPorts :
    lastPorts.validate true = .ok () ∧
    (attemptsIn onLastPorts.2.deeds).map (fun p => (p.1.port, p.2)) =
      [(65534, .ok ()), (65535, .ok ())] ∧
    SpawnPlan lastPorts ⟨"m", "t", []⟩ (attemptsIn onLastPorts.2.deeds) ∧
    brokenOff.1 = .error (.error (.io "refused")) ∧
    SpawnPlan { processCount := 2 } ⟨"m", "t", []⟩ (attemptsIn brokenOff.2.deeds) := by
  have hvalid : lastPorts.validate true = .ok () := by decide +kernel
  refine ⟨hvalid, attemptsIn_onLastPorts, ?_, brokenOff_error, ?_⟩
  · rcases hrun : onLastPorts with ⟨result, r⟩
    exact run_spawn_plan (atOnce (fun _ => .got ()) fun _ => .got none) _ _ _ 0 hvalid hrun
  · rcases hrun : brokenOff with ⟨result, r⟩
    exact run_spawn_plan onlyFirst _ _ _ () (by decide +kernel) hrun

end Campaign

end FuzzCampaign
