import FuzzCampaign.Proofs.ReapedOnce
import FuzzCampaign.Proofs.ReapTime
import FuzzCampaign.Proofs.Roll
import FuzzCampaign.Proofs.Upkeep

/-!
# Reports are faithful

The report of a campaign is compared with the record: it lists the workers that were started, with
the seeds that they were started with, and their outcomes are those that the workers reported. A
worker that says that it is done and has no outcome ends the campaign.

* `tasksIn`: the tasks with which workers were to be started;
* `Unanswered`, `Explained`: outcomes that were looked for in vain;
* `CampaignHost.tends_recorded`: what a record keeps while workers are tended;
* `Campaign.yields_sweep_explained`, `Campaign.gives_orchestrate_reported`: the parts of a campaign;
* `Faithful`: a report that agrees with the record;
* **`Campaign.run_report_faithful`**: the reports of all runs.
-/

namespace FuzzCampaign

/-! ## Tasks and answers in a record -/

/-- The index and the seed of a task. -/
def WorkerTask.place (task : WorkerTask) : UInt64 × Seed := (task.index, task.seed)

theorem CampaignPlan.place_of_taskOf {plan : CampaignPlan} {test : TestCase} {i : UInt64}
    {seed : Seed} {task : WorkerTask} (h : plan.taskOf test i seed = .ok task) :
    task.place = (i, seed) := by
  rw [CampaignPlan.taskOf] at h
  rcases hport : plan.portOf i with e | port
  · rw [hport] at h
    cases h
  · rw [hport] at h
    cases h
    rfl

/-- The task with which a worker was to be started. -/
def CampaignDeed.task? : CampaignDeed → Option WorkerTask
  | .started task _ => some task
  | _ => none

/-- The tasks with which workers were to be started, in order. -/
def tasksIn (l : List CampaignDeed) : List WorkerTask := l.filterMap CampaignDeed.task?

/-- The outcome of the worker was looked for, and it was not there. -/
def Unanswered (i : UInt64) (l : List CampaignDeed) : Prop :=
  ∃ p, .informed i p ∈ l ∧ ∀ report, p ≠ .got report

/-- Whether a deed is a look for the outcome of the worker that found none. -/
def CampaignDeed.isVain (i : UInt64) : CampaignDeed → Bool
  | .informed j .empty => j = i
  | .informed j .disconnected => j = i
  | _ => false

theorem unanswered_iff_any {i : UInt64} {l : List CampaignDeed} :
    Unanswered i l ↔ l.any (CampaignDeed.isVain i) = true := by
  rw [List.any_eq_true]
  constructor
  · rintro ⟨_ | _ | _, hmem, hp⟩
    · exact absurd rfl (hp _)
    · exact ⟨_, hmem, decide_eq_true rfl⟩
    · exact ⟨_, hmem, decide_eq_true rfl⟩
  · rintro ⟨d, hmem, hd⟩
    rcases d with _ | _ | _ | _ | _ | ⟨j, _ | _ | _⟩ | _ | _ | _ | _ <;>
      simp [CampaignDeed.isVain] at hd
    · exact ⟨.empty, hd ▸ hmem, by simp⟩
    · exact ⟨.disconnected, hd ▸ hmem, by simp⟩

instance (i : UInt64) (l : List CampaignDeed) : Decidable (Unanswered i l) :=
  decidable_of_iff _ unanswered_iff_any.symm

/-- Every outcome that was looked for was there. -/
def Answered (l : List CampaignDeed) : Prop := ∀ i, ¬Unanswered i l

/-- An outcome that was not there is why the campaign stopped, or the rounds were not enough, where
that is possible. -/
def Explained (short : Prop) (stop : Stop) (l : List CampaignDeed) : Prop :=
  ∀ i, Unanswered i l → stop = .error (Campaign.noOutcome i) ∨ stop = .outOfRounds ∧ short

/-- Whether a deed is neither the start of a worker nor a look for its outcome. -/
def CampaignDeed.isRoutine : CampaignDeed → Bool
  | .started .. | .informed .. => false
  | _ => true

section

variable {l : List CampaignDeed} {d : CampaignDeed} {i : UInt64} {short : Prop} {stop : Stop}

theorem tasksIn_append (l l' : List CampaignDeed) : tasksIn (l ++ l') = tasksIn l ++ tasksIn l' :=
  List.filterMap_append

theorem tasksIn_snoc_of_ne (h : ∀ task answer, d ≠ .started task answer) :
    tasksIn (l ++ [d]) = tasksIn l := by
  rw [tasksIn_append]
  cases d with
  | started task answer => exact absurd rfl (h task answer)
  | _ => exact List.append_nil _

theorem Unanswered.of_snoc (h : Unanswered i (l ++ [d]))
    (hd : ∀ p, d = .informed i p → ∃ report, p = .got report) : Unanswered i l := by
  obtain ⟨p, hmem, hp⟩ := h
  rcases List.mem_append.1 hmem with hmem | hmem
  · exact ⟨p, hmem, hp⟩
  · obtain ⟨report, hreport⟩ := hd p (List.mem_singleton.1 hmem).symm
    exact absurd hreport (hp report)

theorem ne_informed_of_isRoutine (h : d.isRoutine = true) (i : UInt64) (p) : d ≠ .informed i p := by
  rintro rfl
  cases h

theorem answered_nil : Answered [] := nofun

theorem Answered.snoc (h : Answered l) (hd : ∀ i p, d = .informed i p → ∃ report, p = .got report) :
    Answered (l ++ [d]) :=
  fun i hi => h i (hi.of_snoc (hd i))

theorem Answered.explained (h : Answered l) : Explained short stop l :=
  fun i hi => absurd hi (h i)

theorem Explained.snoc (h : Explained short stop l) (hd : d.isRoutine = true) :
    Explained short stop (l ++ [d]) :=
  fun i hi => h i (hi.of_snoc fun p heq => absurd heq (ne_informed_of_isRoutine hd i p))

theorem explained_outOfRounds (h : short) : Explained short .outOfRounds l :=
  fun _ _ => .inr ⟨rfl, h⟩

end

section

variable {σ : Type} (host : CampaignHost σ)

/-- **What every routine deed keeps is kept while workers are tended.** -/
theorem CampaignHost.tends_recorded {P : List CampaignDeed → Prop}
    (hP : ∀ l d, d.isRoutine = true → P l → P (l ++ [d])) :
    host.recorded.Tends fun r => P r.deeds where
  printLine _ _ h := h
  showStatus _ _ h := h
  store _ _ _ h := h
  status _ _ h := hP _ _ rfl h
  kill _ _ h := hP _ _ rfl h
  send _ _ _ h := hP _ _ rfl h
  completion _ _ h := hP _ _ rfl h
  awaitFinished _ _ _ h := hP _ _ rfl h
  snapshots _ _ h := hP _ _ rfl h
  decide _ _ _ h := hP _ _ rfl h
  now _ h := hP _ _ rfl h
  sleep _ _ h := hP _ _ rfl h

theorem CampaignHost.tends_tasks (tasks : List WorkerTask) :
    host.recorded.Tends fun r => tasksIn r.deeds = tasks :=
  host.tends_recorded (P := fun l => tasksIn l = tasks) fun l d hd h => by
    rw [tasksIn_snoc_of_ne, h]
    rintro task answer rfl
    cases hd

theorem CampaignHost.tends_answered : host.recorded.Tends fun r => Answered r.deeds :=
  host.tends_recorded fun _ _ hd h =>
    h.snoc fun i p heq => absurd heq (ne_informed_of_isRoutine hd i p)

theorem CampaignHost.tends_explained (short : Prop) (stop : Stop) :
    host.recorded.Tends fun r => Explained short stop r.deeds :=
  host.tends_recorded fun _ _ hd h => h.snoc hd

end

namespace Campaign

open FuzzCampaign.Action Orchestrator

/-! ## The end of workers -/

/-- Every reaping ends, unless the rounds are not enough, where that is possible. -/
def ReapsUnless {σ : Type} (short : Prop) (host : CampaignHost σ) (timeout : Duration)
    (rounds : Nat) : Prop :=
  ∀ i s, Yields (reap host timeout rounds i) s (fun _ _ => True)
    fun stop _ => stop = .outOfRounds ∧ short

section

variable {σ : Type} {short : Prop} {host : CampaignHost σ} {plan : CampaignPlan}
  {timeout : Duration} {rounds : Nat}

theorem reapsUnless_true (host : CampaignHost σ) (timeout : Duration) (rounds : Nat) :
    ReapsUnless True host.recorded timeout rounds :=
  fun i r => (adds_reap host rounds i timeout r).mono (fun _ _ _ => trivial)
    fun _ _ ⟨_, _, hstop⟩ => ⟨hstop, trivial⟩

/-- If the clock goes on, enough rounds are those that last as long as a reaping may take. -/
theorem reapsUnless_false {clock : σ → Nat} (h : host.Ticks clock)
    (hrounds : timeout.nanoseconds + reapInterval.nanoseconds ≤
      rounds * reapInterval.nanoseconds) : ReapsUnless False host.recorded timeout rounds :=
  fun i r => (reap_ends h.recorded i hrounds r).mono (fun _ _ _ => trivial) fun _ _ => False.elim

/-- Only the rounds can break off the ending of a worker. -/
theorem yields_shutdown_stops (hreap : ReapsUnless short host timeout rounds) {P : σ → Prop}
    (hends : host.Ends P) (i : UInt64) {s : σ} (h : P s) :
    Yields (shutdown host timeout rounds i) s (fun _ => P)
      fun stop s' => P s' ∧ stop = .outOfRounds ∧ short := by
  have hstops : Yields (shutdown host timeout rounds i) s (fun _ _ => True)
      fun stop _ => stop = .outOfRounds ∧ short := by
    rw [shutdown, yields_bind]
    exact hreap i _
  exact ((preserves_shutdown hends rounds i timeout s h).and hstops).imp fun _ _ h' => h'.1

theorem yields_endAll_stops (hreap : ReapsUnless short host plan.reapTimeout rounds)
    (o : Orchestrator σ) : Yields (endAll host plan rounds) o (fun _ _ => True)
      fun stop _ => stop = .outOfRounds ∧ short := by
  have htell : ∀ (w : OpenWorker) (o : Orchestrator σ), Yields
      (outside (sendShutdown host w.index)) o (fun _ _ => True)
      fun stop _ => stop = .outOfRounds ∧ short :=
    fun _ _ => yields_outside.2 ((yields_ask _).2 trivial)
  change Yields ((o.active.forM fun w => outside (sendShutdown host w.index)) >>= _) o _ _
  rw [yields_bind]
  refine (yields_forM (fun _ _ => True) (fun w _ o _ => htell w o) o.active trivial).imp
    fun _ _ _ => ?_
  refine yields_forM (fun _ _ => True) (fun w _ o _ => ?_) o.active trivial
  exact yields_outside.2 (hreap w.index o.world)

end

variable {σ : Type} {short : Prop} (host : CampaignHost σ) (plan : CampaignPlan) (rounds : Nat)
  {o : Orchestrator (Recorded CampaignDeed σ)}

/-! ## Outcomes that are looked for -/

/-- An outcome that is not there is the only one that was looked for in vain. -/
theorem yields_conclude_explained (short : Prop) (i : UInt64) {r : Recorded CampaignDeed σ}
    (h : Answered r.deeds) :
    Yields (conclude host.recorded plan rounds i) r (fun _ r' => Answered r'.deeds)
      fun stop r' => Explained short stop r'.deeds := by
  have htends := host.tends_answered
  have hgot : ∀ report, Answered (r.deeds ++ [.informed i (.got report)]) := fun report =>
    h.snoc (d := .informed i (.got report)) fun _ _ heq =>
      ⟨report, (CampaignDeed.informed.inj heq).2.symm⟩
  have hnone : ∀ p, Explained short (.error (noOutcome i)) (r.deeds ++ [.informed i p]) := by
    rintro p j ⟨q, hmem, hq⟩
    rcases List.mem_append.1 hmem with hmem | hmem
    · exact absurd ⟨q, hmem, hq⟩ (h j)
    · cases List.mem_singleton.1 hmem
      exact .inl rfl
  have hask : host.recorded.exception i = Recorded.noting (.informed i) (host.exception i) := rfl
  rw [conclude, yields_bind, yields_ask, hask, Recorded.run_noting]
  rcases ((host.exception i).run r.world).1 with (_ | e) | _ | _
  · refine (preserves_bind (preserves_lift _) (fun _ => preserves_bind
      (preserves_reap htends.minds.toEnds rounds i plan.reapTimeout) fun _ => preserves_pure _) _
      (hgot none)).mono (fun _ _ => id) fun _ _ h => h.explained
  · exact (preserves_concludeFailed htends plan rounds i e _ (hgot (some e))).mono
      (fun _ _ => id) fun _ _ h => h.explained
  · exact hnone .empty
  · exact hnone .disconnected

section

variable (hreap : ReapsUnless short host.recorded plan.reapTimeout rounds)
include hreap

/-- A worker that is handled has its outcome, or the handling stops because it has none. -/
theorem yields_complete_explained (w : OpenWorker) (h : Answered o.log) :
    Yields (complete host.recorded plan rounds w) o (fun _ o' => Answered o'.log)
      fun stop o' => Explained short stop o'.log := by
  refine yields_complete_of host plan rounds
    (yields_conclude_explained host plan rounds short w.index h) ?_ ?_ ?_
  · intro v r o' snapshots hr hgrows
    change Answered o'.log
    rw [hgrows.log]
    exact hr.snoc fun i p heq => by cases heq
  · intro e r o' snapshots hr hgrows
    have hr' : Explained short (.error e) o'.log := by
      rw [hgrows.log]
      exact hr.snoc rfl
    have hends := (host.tends_explained short (.error e)).minds.toEnds
    refine yields_outside.2 ((yields_shutdown_stops hreap hends w.index hr').mono
      (fun _ _ h₂ => h₂) ?_)
    rintro _ r₂ ⟨-, rfl, hshort⟩
    exact explained_outOfRounds hshort
  · exact fun stop r _ hr => hr

/-- **A sweep stops because of an outcome that is not there**, if it looks for one. -/
theorem yields_sweep_explained (h : Answered o.log) :
    Yields (sweep host.recorded plan rounds) o (fun _ o' => Answered o'.log)
      fun stop o' => Explained short stop o'.log := by
  have hguards := host.tends_answered.minds.guards plan
  have hlooks : Preserves (fun o => Answered o.log) (o.active.mapM (look host.recorded plan)) :=
    preserves_mapM (preserves_look hguards) _
  change Yields (o.active.mapM (look host.recorded plan) >>= _) o _ _
  rw [yields_bind]
  refine (hlooks o h).mono (fun sightings o₁ h₁ => ?_) fun _ _ h₁ => h₁.explained
  rw [yields_bind]
  change Yields (_ >>= _) { o₁ with active := sightings.map Sighting.worker } _ _
  rw [yields_bind]
  refine (yields_mapM (fun _ _ o => Answered o.log)
    (fun made w left o h => yields_complete_explained host plan rounds hreap w h) _ [] h₁).imp
    fun late o₂ h₂ => ?_
  exact (preserves_afterwards hguards _ _ o₂ h₂).mono (fun _ _ => id) fun _ _ h₃ => h₃.explained

theorem yields_sweeps_explained (h : Answered o.log) :
    Yields (repeatUntil (sweepRound host.recorded plan rounds) rounds) o
      (fun _ o' => Answered o'.log) fun stop o' => Explained short stop o'.log := by
  refine yields_repeatUntil (fun o : Orchestrator (Recorded CampaignDeed σ) => Answered o.log)
    (fun o h => ?_) (fun _ h => h.explained) rounds h
  rw [sweepRound, yields_bind, yields_get]
  split_ifs
  · exact h
  · exact yields_bind.2 ((yields_sweep_explained host plan rounds hreap h).imp fun _ _ h => h)

/-- **A campaign ends because of an outcome that is not there**, if it looks for one. -/
theorem yields_orchestrate_explained (test : TestCase) (seeds : List Seed) (w : σ) :
    Yields (orchestrate host.recorded plan test rounds seeds) (.start ⟨w, []⟩)
      (fun _ o => Answered o.log) fun stop o => Explained short stop o.log := by
  -- the start of a worker is no look for its outcome
  have hspawn : ∀ (i : UInt64) (seed : Seed) task, plan.taskOf test i seed = .ok task →
      ∀ r : Recorded CampaignDeed σ, Answered r.deeds →
        Answered ((host.recorded.spawn task).run r).2.deeds :=
    fun _ _ _ _ _ h => h.snoc fun _ _ heq => by cases heq
  refine yields_orchestrate_of_course host plan rounds (C := fun o => Answered o.log)
    (B := fun stop o => Explained short stop o.log) (fun o hgrows => ?_)
    (fun o o' h hgrows => ?_) (fun e o h => ?_) (fun _ _ => id) fun _ => id
  · have hnone : Answered o.log := by
      rw [hgrows.log]
      exact answered_nil
    rw [yields_bind]
    exact (preserves_spawnFrom host.recorded plan test host.tends_answered.printLine hspawn
      o.aggregator o.coverageFiles 0 seeds o ⟨hnone, rfl, rfl⟩).mono
      (fun _ _ h₁ => yields_sweeps_explained host plan rounds hreap h₁.1)
      fun _ _ h₁ => h₁.1.explained
  · rw [hgrows.log, List.append_nil]
    exact h
  · have hguards := (host.tends_explained short (.error e)).minds.guards plan
    refine ((preserves_endAll hguards rounds o h).and
      (yields_endAll_stops hreap o)).mono (fun _ o₁ h₁ o₂ hgrows => ?_) ?_
    · rw [hgrows.log, List.append_nil]
      exact h₁.1
    · rintro _ o₁ ⟨-, rfl, hshort⟩
      exact explained_outOfRounds hshort

/-- However a run ends, an outcome that was looked for in vain explains it. -/
theorem yields_run_explained (test : TestCase) (w : σ) :
    Yields (run host.recorded plan test rounds) ⟨w, []⟩ (fun _ r => Answered r.deeds)
      fun stop r => Explained short stop r.deeds :=
  yields_run host plan rounds (fun _ _ _ _ => answered_nil.explained) fun w' =>
    yields_orchestrate_explained host plan rounds hreap test _ w'

end

/-! ## Tasks and outcomes of a report -/

theorem gives_spawnFrom_tasks (test : TestCase) (n : Nat) (seeds : List Seed) :
    Gives (spawnFrom host.recorded plan test n seeds) o fun _ o' =>
      (tasksIn o'.log).map WorkerTask.place =
        (tasksIn o.log).map WorkerTask.place ++ places n seeds := by
  induction seeds generalizing n o with
  | nil =>
    rw [spawnFrom, gives_pure]
    exact (List.append_nil _).symm
  | cons seed seeds ih =>
    rw [spawnFrom, gives_bind, spawnWorker, gives_bind]
    refine (yields_aside _ rfl).imp fun _ o₁ h₁ => ?_
    rcases htask : plan.taskOf test (UInt64.ofNat n) seed with e | task
    · trivial
    · rw [gives_bind, gives_outside, gives_perform]
      rintro ⟨⟩ hspawn
      refine (ih (n + 1)).imp ?_
      rintro _ o' htasks
      have hlog : o₁.log = o.log := by rw [h₁.log, List.append_nil]
      rw [htasks]
      change (tasksIn (o₁.log ++ [.started task _])).map WorkerTask.place ++ _ = _
      rw [tasksIn_append, hlog, List.map_append, List.append_assoc, places_cons,
        ← CampaignPlan.place_of_taskOf htask]
      rfl

theorem gives_sweeps_tasks (tasks : List WorkerTask) (h : tasksIn o.log = tasks) :
    Gives (repeatUntil (sweepRound host.recorded plan rounds) rounds) o fun _ o' =>
      tasksIn o'.log = tasks := by
  have hexception : ∀ i (r : Recorded CampaignDeed σ), tasksIn r.deeds = tasks →
      tasksIn ((host.recorded.exception i).run r).2.deeds = tasks := by
    intro i r h
    refine (tasksIn_snoc_of_ne ?_).trans h
    nofun
  have hround := preserves_sweepRound ((host.tends_tasks tasks).upholds hexception plan) rounds
  exact (preserves_repeatUntil hround rounds o h).gives

theorem gives_orchestrate_reported (test : TestCase) (seeds : List Seed)
    (hlength : seeds.length ≤ word64) (w : σ) :
    Gives (orchestrate host.recorded plan test rounds seeds) (.start ⟨w, []⟩) fun findings o =>
      (∀ g ∈ findings.workers, reportsOf g.index o.log = [g.outcome.report?]) ∧
        (tasksIn o.log).map WorkerTask.place = places 0 seeds := by
  refine yields_orchestrate_of_course host plan rounds (C := fun o =>
    (o.Accounts plan.reapTimeout ∧ o.active = []) ∧
      (tasksIn o.log).map WorkerTask.place = places 0 seeds) (B := fun _ _ => True)
    (fun o hgrows => ?_) ?_ (fun _ _ _ => gives_true.imp fun _ _ _ _ _ => trivial)
    (fun _ _ => id) fun _ => id
  · have haccounts := yields_course host plan rounds test seeds hlength (beginning_of_grows hgrows)
    refine haccounts.gives.and ?_
    have hstart : tasksIn o.log = [] := by
      rw [hgrows.log]
      rfl
    rw [gives_bind]
    refine (gives_spawnFrom_tasks host plan test 0 seeds).imp fun _ o₁ h₁ => ?_
    rw [hstart] at h₁
    refine (gives_sweeps_tasks host plan rounds _ rfl).imp fun _ o₂ h₂ => ?_
    rw [h₂, h₁]
    rfl
  · rintro o o' ⟨⟨haccounts, -⟩, htasks⟩ hgrows
    rw [hgrows.log, List.append_nil]
    refine ⟨fun g hg => ?_, htasks⟩
    rw [o'.mem_report, hgrows.finished] at hg
    obtain ⟨before, hfinished, hreports⟩ := (haccounts.reaped g hg).exists_reportsOf
    rw [hreports]
    exact hfinished.2

theorem reported_of_run {test : TestCase} {w : σ} {findings : Findings}
    {r : Recorded CampaignDeed σ}
    (h : (run host.recorded plan test rounds).outcome ⟨w, []⟩ = (.ok findings, r)) :
    (∀ g ∈ findings.workers, reportsOf g.index r.deeds = [g.outcome.report?]) ∧
      (tasksIn r.deeds).map WorkerTask.place =
        places 0 (seedsOf host.recorded plan ⟨w, []⟩) := by
  have hlength := length_seedsOf_le host.recorded plan ⟨w, []⟩
  have hrun : Gives (run host.recorded plan test rounds) ⟨w, []⟩ fun findings r =>
      (∀ g ∈ findings.workers, reportsOf g.index r.deeds = [g.outcome.report?]) ∧
        (tasksIn r.deeds).map WorkerTask.place =
          places 0 (seedsOf host.recorded plan ⟨w, []⟩) :=
    yields_run host plan rounds (fun _ _ _ _ => trivial) fun w' =>
      gives_orchestrate_reported host plan rounds test _ hlength w'
  exact hrun.of_ok h

end Campaign

/-! ## Reports -/

/-- A report that agrees with the record. It lists all workers in the order of their indexes, with
the seeds that they were started with, which are those supplied as far as these go; and the outcome
of each is the one that the worker reported first. -/
structure Faithful (plan : CampaignPlan) (findings : Findings) (log : List CampaignDeed) :
    Prop where
  indexes : findings.workers.map (·.index) =
    (List.range plan.processCount.toNat).map UInt64.ofNat
  started : (tasksIn log).map WorkerTask.place = findings.workers.map Finding.place
  supplied : ∀ g ∈ findings.workers, ∀ seed, plan.seeds[g.index.toNat]? = some seed → g.seed = seed
  passed : ∀ g ∈ findings.workers,
    g.outcome = .passed ↔ (reportsOf g.index log).head? = some none
  failed : ∀ g ∈ findings.workers, ∀ e,
    (∃ attached, g.outcome = .failed e attached) ↔ (reportsOf g.index log).head? = some (some e)
  allPassed : findings.allPassed = true ↔
    ∀ i < plan.processCount, ∀ e, (reportsOf i log).head? ≠ some (some e)

theorem Verdict.report?_eq_none {v : Verdict} : v.report? = none ↔ v = .passed := by
  cases v <;> simp [Verdict.report?]

theorem Verdict.report?_eq_some {v : Verdict} {e : Envelope} :
    v.report? = some e ↔ ∃ attached, v = .failed e attached := by
  cases v <;> simp [Verdict.report?]

theorem Verdict.isPassed_iff {v : Verdict} : v.isPassed = true ↔ v = .passed := by
  cases v <;> simp [Verdict.isPassed]

section

variable {plan : CampaignPlan} {findings : Findings} {log : List CampaignDeed}
  (hindexes : findings.workers.map (·.index) =
    (List.range plan.processCount.toNat).map UInt64.ofNat)
include hindexes

theorem lt_processCount_iff {i : UInt64} :
    i < plan.processCount ↔ ∃ g ∈ findings.workers, g.index = i := by
  rw [← List.mem_map, hindexes, List.mem_map, UInt64.lt_iff_toNat_lt]
  constructor
  · exact fun hi => ⟨i.toNat, List.mem_range.2 hi, UInt64.ofNat_toNat⟩
  · rintro ⟨k, hk, rfl⟩
    exact Nat.lt_of_le_of_lt (Nat.mod_le ..) (List.mem_range.1 hk)

theorem allPassed_iff
    (hreports : ∀ g ∈ findings.workers, reportsOf g.index log = [g.outcome.report?]) :
    findings.allPassed = true ↔
      ∀ i < plan.processCount, ∀ e, (reportsOf i log).head? ≠ some (some e) := by
  rw [Findings.allPassed, List.all_eq_true]
  constructor
  · intro hall i hi e
    obtain ⟨g, hg, rfl⟩ := (lt_processCount_iff hindexes).1 hi
    rw [hreports g hg, Verdict.isPassed_iff.1 (hall g hg)]
    nofun
  · intro hnone g hg
    have hlt := (lt_processCount_iff hindexes).2 ⟨g, hg, rfl⟩
    have hg' := hnone g.index hlt
    rw [hreports g hg] at hg'
    rcases hv : g.outcome with _ | ⟨e, attached⟩
    · rfl
    · rw [hv] at hg'
      exact absurd rfl (hg' e)

end

namespace Campaign

open FuzzCampaign.Action

variable {σ : Type} (host : CampaignHost σ) (plan : CampaignPlan) (rounds : Nat)

theorem getElem?_of_mem_places {seeds : List Seed} (hlength : seeds.length ≤ word64) {i : UInt64}
    {seed : Seed} (h : (i, seed) ∈ places 0 seeds) : seeds[i.toNat]? = some seed := by
  obtain ⟨⟨_, k⟩, hmem, heq⟩ := List.mem_map.1 h
  cases heq
  have hk := List.mk_mem_zipIdx_iff_getElem?.1 hmem
  have hlt := (List.getElem?_eq_some_iff.1 hk).1
  have htoNat : (UInt64.ofNat k).toNat = k := by
    unfold word64 at hlength
    rw [UInt64.toNat_ofNat', Nat.mod_eq_of_lt (by omega)]
  rw [htoNat]
  exact hk

theorem getElem?_seedsOf (s : σ) {k : Nat} {seed : Seed} (hk : k < plan.processCount.toNat)
    (h : plan.seeds[k]? = some seed) : (seedsOf host plan s)[k]? = some seed := by
  change (Seed.pad plan.seeds plan.processCount.toNat ((freshSeeds host _).run _).1)[k]? = _
  have hlt := (List.getElem?_eq_some_iff.1 h).1
  rw [Seed.pad, List.getElem?_append_left (by rw [List.length_take]; omega),
    List.getElem?_take_of_lt hk, h]

/-- **The report of a run that ends well is faithful.** -/
theorem faithful_of_run {test : TestCase} {w : σ} {findings : Findings}
    {r : Recorded CampaignDeed σ}
    (h : (run host.recorded plan test rounds).outcome ⟨w, []⟩ = (.ok findings, r)) :
    Faithful plan findings r.deeds := by
  have hplaces := place_of_run host.recorded plan rounds h
  have hcount := length_seedsOf host.recorded plan ⟨w, []⟩
  obtain ⟨hreports, htasks⟩ := reported_of_run host plan rounds h
  have hindexes : findings.workers.map (·.index) =
      (List.range plan.processCount.toNat).map UInt64.ofNat := by
    rw [List.range_eq_range', ← hcount, ← map_fst_places, ← hplaces, List.map_map]
    rfl
  refine ⟨hindexes, htasks.trans hplaces.symm, fun g hg seed hseed => ?_, fun g hg => ?_,
    fun g hg e => ?_, allPassed_iff hindexes hreports⟩
  · have hmem : g.place ∈ places 0 (seedsOf host.recorded plan ⟨w, []⟩) :=
      hplaces ▸ List.mem_map_of_mem hg
    have hlt := UInt64.lt_iff_toNat_lt.1 ((lt_processCount_iff hindexes).2 ⟨g, hg, rfl⟩)
    have hown := getElem?_of_mem_places (length_seedsOf_le host.recorded plan _) hmem
    rw [getElem?_seedsOf host.recorded plan _ hlt hseed] at hown
    exact (Option.some.inj hown).symm
  · rw [hreports g hg, List.head?_cons, Option.some_inj, Verdict.report?_eq_none]
  · rw [hreports g hg, List.head?_cons, Option.some_inj, Verdict.report?_eq_some]

/-- **Reports are faithful.** If a run returns a report, then the report agrees with the record. A
worker without an outcome is in no report; once its outcome was looked for in vain the run returns
the error that says so, and it does return if the clock goes on and the rounds are enough for a
reaping. -/
theorem run_report_faithful (test : TestCase) (w : σ) {result : Except Stop Findings}
    {r : Recorded CampaignDeed σ}
    (h : (run host.recorded plan test rounds).outcome ⟨w, []⟩ = (result, r)) :
    (∀ findings, result = .ok findings → Faithful plan findings r.deeds) ∧
    (∀ i < plan.processCount, reportsOf i r.deeds = [] → ∀ findings, result ≠ .ok findings) ∧
    ∀ i, Unanswered i r.deeds →
      (result = .error (.error (noOutcome i)) ∨ result = .error .outOfRounds) ∧
      ∀ clock, host.Ticks clock → plan.reapTimeout.nanoseconds + reapInterval.nanoseconds ≤
        rounds * reapInterval.nanoseconds → result = .error (.error (noOutcome i)) := by
  have hexplained : ∀ short, ReapsUnless short host.recorded plan.reapTimeout rounds → ∀ i,
      Unanswered i r.deeds →
        result = .error (.error (noOutcome i)) ∨ result = .error .outOfRounds ∧ short := by
    intro short hreap i hi
    have hrun := yields_run_explained host plan rounds hreap test w
    rcases result with stop | findings
    · exact (hrun.of_error h i hi).imp (congrArg _) (And.imp_left (congrArg _))
    · exact absurd hi (hrun.of_ok h i)
  refine ⟨fun findings hok => ?_, fun i hi hnone findings hok => ?_, fun i hi => ⟨?_, ?_⟩⟩
  · subst hok
    exact faithful_of_run host plan rounds h
  · subst hok
    have hfaithful := faithful_of_run host plan rounds h
    obtain ⟨g, hg, rfl⟩ := (lt_processCount_iff hfaithful.indexes).1 hi
    have hreports := (reported_of_run host plan rounds h).1 g hg
    rw [hnone] at hreports
    cases hreports
  · exact (hexplained True (reapsUnless_true host _ _) i hi).imp_right And.left
  · intro clock hticks hrounds
    exact (hexplained False (reapsUnless_false hticks hrounds) i hi).resolve_right And.right

/-! ### Workers that do not wait -/

/-- A world with a clock in which every worker exits at once, says when it is asked that it is done
or not, and has an outcome or none. -/
def atOnce (completion : UInt64 → Poll Unit) (outcome : UInt64 → Poll (Option Envelope)) :
    CampaignHost Nat where
  colours := false
  isDirectory _ := pure true
  freshSeed := pure default
  printLine _ := pure ()
  showStatus _ := pure ()
  store _ _ := pure (.ok ())
  spawn _ := pure (.ok ())
  status _ := pure (.ok (some "exit status: 0"))
  kill _ := pure ()
  send _ _ := pure (.ok ())
  completion i := pure (completion i)
  awaitFinished i _ := pure (completion i)
  exception i := pure (outcome i)
  snapshots _ := pure []
  decide _ _ _ := pure .timedOut
  now := get
  sleep d := modify (· + d.nanoseconds)

section

variable (completion : UInt64 → Poll Unit) (outcome : UInt64 → Poll (Option Envelope))

theorem sleep_atOnce (d : Duration) (s : Nat) :
    (((atOnce completion outcome).sleep d).run s).2 = s + d.nanoseconds := by
  have hsleep : (atOnce completion outcome).sleep d = modify (· + d.nanoseconds) := rfl
  rw [hsleep, StateT.run_modify]
  generalize d.nanoseconds = n
  rfl

theorem ticks_atOnce : (atOnce completion outcome).Ticks fun time => time where
  now_eq _ := rfl
  now _ := Nat.le_refl _
  status _ _ := Nat.le_refl _
  sleep d s := Nat.le_of_eq (sleep_atOnce completion outcome d s).symm

end

/-- A plan for two workers, the first of which gets a seed, that allows no time. -/
def hastyPlan : CampaignPlan :=
  { processCount := 2, seeds := [⟨#v[1, 2, 3, 4, 5, 6, 7, 8]⟩], reapTimeout := .ofMillis 20,
    deadWorkerGrace := .ofMillis 0 }

/-- A campaign with this plan. -/
def runTwo (completion : UInt64 → Poll Unit) (outcome : UInt64 → Poll (Option Envelope)) :
    Except Stop Findings × Recorded CampaignDeed Nat :=
  (run (atOnce completion outcome).recorded hastyPlan ⟨"m", "t", []⟩ 3).outcome ⟨0, []⟩

/-- The failure of a test. -/
def anyFailure : Envelope := ⟨Envelope.currentVersion, "Error", "no", .testBody, []⟩

/-- A campaign in which the first worker passes and the second fails. -/
def oneFails : Except Stop Findings × Recorded CampaignDeed Nat :=
  runTwo (fun _ => .got ()) fun i => .got (if i = 0 then none else some anyFailure)

/-- A campaign in which no worker has an outcome. -/
def noneReports : Except Stop Findings × Recorded CampaignDeed Nat :=
  runTwo (fun _ => .got ()) fun _ => .empty

theorem isOk_oneFails : oneFails.1.isOk = true := by decide +kernel

theorem reportsOf_oneFails : reportsOf 1 oneFails.2.deeds = [some anyFailure] := by
  decide +kernel

theorem unanswered_noneReports : Unanswered 0 noneReports.2.deeds := by decide +kernel

/-- A report with a failure is faithful, and a worker without an outcome is named. -/
theorem run_report_faithful_two :
    (∃ findings, oneFails.1 = .ok findings ∧ Faithful hastyPlan findings oneFails.2.deeds ∧
      findings.allPassed = false) ∧
    Unanswered 0 noneReports.2.deeds ∧ noneReports.1 = .error (.error (noOutcome 0)) := by
  refine ⟨?_, unanswered_noneReports, ?_⟩
  · have hok := isOk_oneFails
    have hreports := reportsOf_oneFails
    rcases hrun : oneFails with ⟨_ | findings, r⟩
    · rw [hrun] at hok
      cases hok
    · have hfaithful := (run_report_faithful _ _ _ _ _ hrun).1 findings rfl
      rw [hrun] at hreports
      refine ⟨findings, rfl, hfaithful, eq_false_of_ne_true fun hall => ?_⟩
      refine hfaithful.allPassed.1 hall 1 (by decide) anyFailure ?_
      rw [hreports]
      rfl
  · have hvain := unanswered_noneReports
    rcases hrun : noneReports with ⟨result, r⟩
    rw [hrun] at hvain
    exact ((run_report_faithful _ _ _ _ _ hrun).2.2 0 hvain).2 _ (ticks_atOnce _ _) (by decide)

/-- **A worker without an outcome need not be named**: in a campaign with a valid plan, the first
worker says that it is done and has no outcome, but in the same sweep the second is found dead,
which is what the campaign returns. -/
theorem silent_worker_unnamed :
    hastyPlan.validate true = .ok () ∧
    let ended := runTwo (fun i => if i = 0 then .got () else .empty) fun _ => .empty
    signalsOf 0 ended.2.deeds = 1 ∧ reportsOf 0 ended.2.deeds = [] ∧
      ended.1 = .error (.error (.workerDied 1 "exit status: 0")) := by
  refine ⟨?_, ?_, ?_, ?_⟩ <;> decide +kernel

end Campaign

end FuzzCampaign
