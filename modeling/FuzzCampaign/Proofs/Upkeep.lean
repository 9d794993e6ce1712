import FuzzCampaign.Proofs.Course
import FuzzCampaign.Proofs.Invariance

/-!
# Invariants of a campaign

A property of the world, of the coverage that was taken and of the names of the files that were
stored is kept by a whole campaign, however it ends, if every answer of the world keeps it. The
coverage changes only when snapshots are taken, and the names only when files are stored; all other
questions are those of a world in which neither is done.

* `CampaignHost.uncovered`: the world in which no coverage is taken and nothing is stored;
  **`Campaign.conclude_uncovered`**: it is enough to handle a worker;
* `Tally.gather`, `Tally.paths`: the coverage after snapshots were taken, and the names of its
  files;
* `CampaignHost.Guards`: a world whose answers keep a property while workers are watched and ended;
  `CampaignHost.Upholds`: the same while they are tended; `CampaignHost.UpholdsAll`: the same of all
  answers;
* `Campaign.preserves_look`, `preserves_sweepRound`, `preserves_endAll`: the parts of a campaign;
* `Campaign.upheld_ending`, **`Campaign.yields_run_upheld`**, `Campaign.preserves_run`: whole
  campaigns.
-/

namespace FuzzCampaign

variable {σ : Type}

/-- The world in which no coverage is taken and nothing is stored. -/
def CampaignHost.uncovered (host : CampaignHost σ) : CampaignHost σ := { host with
  store := fun _ _ => return .ok ()
  snapshots := fun _ => return [] }

/-- The coverage after snapshots of a worker were taken, of which only the newest counts. -/
def Tally.gather (tally : Tally) (index : UInt64) (l : List Snapshot) : Tally :=
  match l.getLast? with
  | none => tally
  | some s => tally.submit index s

/-- The names under which the files of a tally are stored. -/
def Tally.paths (tally : Tally) (dir : String) : List String :=
  tally.files.map fun f => Path.join dir f.1

/-! ## Worlds that keep a property -/

namespace CampaignHost

/-- Every answer keeps `I` while workers are watched and ended: a property of the world, of the
coverage that was taken and of the names of the files that were stored. -/
structure Guards (plan : CampaignPlan) (I : σ → Tally → List String → Prop)
    (host : CampaignHost σ) : Prop where
  minds : ∀ tally files, host.uncovered.Minds fun s => I s tally files
  gather : ∀ tally files i s, I s tally files →
    I ((host.snapshots i).run s).2 (tally.gather i ((host.snapshots i).run s).1) files
  store : ∀ tally files s, I s tally files → tally.files ≠ [] →
    match (host.store plan.coverageDir tally.files).run s with
    | (.ok (), s') => I s' tally (tally.paths plan.coverageDir)
    | (.error _, s') => I s' tally files

/-- Every answer keeps `I` while workers are tended that were started. -/
structure Upholds (plan : CampaignPlan) (I : σ → Tally → List String → Prop)
    (host : CampaignHost σ) : Prop extends Guards plan I host where
  tends : ∀ tally files, host.uncovered.Tends fun s => I s tally files
  exception : ∀ tally files i s, I s tally files → I ((host.exception i).run s).2 tally files

/-- Every answer keeps `I`. -/
structure UpholdsAll (plan : CampaignPlan) (test : TestCase) (I : σ → Tally → List String → Prop)
    (host : CampaignHost σ) : Prop extends Upholds plan I host where
  isDirectory : ∀ path s, I s .empty [] → I ((host.isDirectory path).run s).2 .empty []
  freshSeed : ∀ s, I s .empty [] → I (host.freshSeed.run s).2 .empty []
  /-- Workers are started before any coverage is taken. -/
  spawn : ∀ i seed task, plan.taskOf test i seed = .ok task → ∀ s, I s .empty [] →
    I ((host.spawn task).run s).2 .empty []

variable {P : σ → Prop} {host : CampaignHost σ}

theorem Minds.guards (h : host.Minds P) (plan : CampaignPlan) :
    host.Guards plan fun s _ _ => P s where
  minds _ _ := { h with store := fun _ _ _ hs => hs, snapshots := fun _ _ hs => hs }
  gather _ _ i s hs := h.snapshots i s hs
  store tally _ s hs _ := by
    have hstore := h.store plan.coverageDir tally.files s hs
    rcases hrun : (host.store plan.coverageDir tally.files).run s with ⟨e | _, s'⟩
    · rw [hrun] at hstore
      exact hstore
    · rw [hrun] at hstore
      exact hstore

theorem Tends.upholds (h : host.Tends P)
    (hexception : ∀ i s, P s → P ((host.exception i).run s).2) (plan : CampaignPlan) :
    host.Upholds plan fun s _ _ => P s :=
  { h.minds.guards plan with
    tends := fun _ _ => { h with store := fun _ _ _ hs => hs, snapshots := fun _ _ hs => hs }
    exception := fun _ _ => hexception }

theorem Preserves.upholdsAll (h : host.Preserves P) (plan : CampaignPlan) (test : TestCase) :
    host.UpholdsAll plan test fun s _ _ => P s :=
  { h.tends.upholds h.exception plan with
    isDirectory := h.isDirectory
    freshSeed := h.freshSeed
    spawn := fun _ _ task _ => h.spawn task }

end CampaignHost

/-- The property holds of the world, the coverage and the files of a campaign. -/
def Orchestrator.Upheld (I : σ → Tally → List String → Prop) (o : Orchestrator σ) : Prop :=
  I o.world o.aggregator o.coverageFiles

namespace Campaign

open FuzzCampaign.Action Orchestrator

/-! ## Without coverage -/

section

variable (host : CampaignHost σ) (plan : CampaignPlan) (rounds : Nat) (i : UInt64)

theorem awaitFinished_uncovered :
    awaitFinished host.uncovered plan rounds i = awaitFinished host plan rounds i := by
  unfold awaitFinished
  generalize (none : Option Nat) = since?
  induction rounds generalizing since? with
  | zero => rfl
  | succ rounds ih =>
    simp only [awaitFrom, ih]
    rfl

/-- **Whoever handles a worker takes no coverage and stores nothing.** -/
theorem conclude_uncovered :
    conclude host.uncovered plan rounds i = conclude host plan rounds i := by
  rw [conclude_eq, conclude_eq]
  unfold concludeUnchecked concludeFailedUnchecked
  simp only [awaitFinished_uncovered]
  rfl

end

variable {plan : CampaignPlan} {test : TestCase} {host : CampaignHost σ}
  {I : σ → Tally → List String → Prop}

theorem upheld_outside {α : Type} {act : Action σ α}
    (hact : ∀ tally files, Preserves (fun s => I s tally files) act) :
    Preserves (Upheld I) (outside act) :=
  fun o ho => yields_outside.2 (hact o.aggregator o.coverageFiles o.world ho)

/-! ## Workers that are started -/

/-- What the start of a worker keeps is kept while all are started, and no coverage is taken. -/
theorem preserves_spawnFrom {P : σ → Prop} (host : CampaignHost σ) (plan : CampaignPlan)
    (test : TestCase) (hprint : ∀ text s, P s → P ((host.printLine text).run s).2)
    (hspawn : ∀ i seed task, plan.taskOf test i seed = .ok task → ∀ s, P s →
      P ((host.spawn task).run s).2) (tally : Tally) (files : List String) (n : Nat)
    (seeds : List Seed) :
    Preserves (fun o => P o.world ∧ o.aggregator = tally ∧ o.coverageFiles = files)
      (spawnFrom host plan test n seeds) := by
  induction seeds generalizing n with
  | nil => exact preserves_pure _
  | cons seed seeds ih =>
    refine preserves_bind (preserves_bind ?_ fun _ => ?_) fun _ => ih (n + 1)
    · exact fun o ho => ⟨hprint _ _ ho.1, ho.2⟩
    · rcases htask : plan.taskOf test (UInt64.ofNat n) seed with e | task
      · exact preserves_throw _
      · refine preserves_bind (fun o ho => ?_) fun _ _ ho => ho
        have hworld := hspawn _ _ _ htask o.world ho.1
        rw [yields_outside, yields_perform]
        rcases hrun : (host.spawn task).run o.world with ⟨e | _, s⟩
        · rw [hrun] at hworld
          exact ⟨hworld, ho.2⟩
        · rw [hrun] at hworld
          exact ⟨hworld, ho.2⟩

/-! ## Workers that are watched and ended -/

section

variable (h : host.Guards plan I) (rounds : Nat)
include h

theorem preserves_drain (i : UInt64) : Preserves (Upheld I) (drain host i) := by
  intro o ho
  have hgather := h.gather o.aggregator o.coverageFiles i o.world ho
  rw [drain, Orchestrator.ask, yields_bind, yields_outside, yields_ask]
  unfold Tally.gather at hgather
  rcases hlast : ((host.snapshots i).run o.world).1.getLast? with _ | s
  · rw [hlast] at hgather
    exact hgather
  · rw [hlast] at hgather
    exact hgather

theorem preserves_look (w : OpenWorker) : Preserves (Upheld I) (look host plan w) := by
  refine preserves_bind (preserves_drain h w.index) fun had => ?_
  refine preserves_bind (upheld_outside fun tally files =>
    preserves_ask ((h.minds tally files).completion w.index)) fun r => ?_
  have hlook : ∀ disconnected, Preserves (Upheld I) (outside
      (lookAfter host plan.deadWorkerGrace w.index disconnected w.goneSince?)) :=
    fun disconnected => upheld_outside fun tally files =>
      preserves_lookAfter (h.minds tally files) _ _ disconnected _
  rcases r with _ | _ | _
  · exact preserves_pure _
  · exact preserves_bind (hlook false) fun _ => preserves_pure _
  · exact preserves_bind (hlook true) fun _ => preserves_pure _

theorem preserves_persist : Preserves (Upheld I) (persist host plan) := by
  intro o ho
  change Yields (if o.aggregator.files.isEmpty then pure () else _) o _ _
  split_ifs with hempty
  · exact ho
  · have hstore := h.store o.aggregator o.coverageFiles o.world ho
      fun hnil => hempty (List.isEmpty_iff.2 hnil)
    rw [Orchestrator.ask, yields_bind, yields_outside, yields_ask]
    rcases hrun : (host.store plan.coverageDir o.aggregator.files).run o.world with ⟨e | _, s⟩
    · rw [hrun] at hstore
      exact hstore
    · rw [hrun] at hstore
      exact hstore

theorem preserves_showStatus : Preserves (Upheld I) (showStatus host plan) := by
  refine preserves_bind (fun _ ho => ho) fun o => ?_
  rcases o.aggregator.functionLines with e | lines
  · exact preserves_throw _
  · exact upheld_outside fun tally files => preserves_ask ((h.minds tally files).showStatus _)

theorem preserves_afterwards (had idle : Bool) : Preserves (Upheld I) (do
    if had then persist host plan
    showStatus host plan
    if idle then Orchestrator.ask (host.sleep plan.pollInterval)) := by
  have hend : Preserves (Upheld I) (do
      showStatus host plan
      if idle then Orchestrator.ask (host.sleep plan.pollInterval)) := by
    refine preserves_bind (preserves_showStatus h) fun _ => ?_
    split_ifs
    · exact upheld_outside fun tally files => preserves_ask ((h.minds tally files).sleep _)
    · exact preserves_pure _
  by_cases hhad : had = true
  · rw [if_pos hhad]
    exact preserves_bind (preserves_persist h) fun _ => hend
  · rw [if_neg hhad]
    exact hend

theorem preserves_endAll : Preserves (Upheld I) (endAll host plan rounds) := by
  refine preserves_bind (fun _ ho => ho) fun o => ?_
  refine preserves_bind (preserves_forM (fun w : OpenWorker => upheld_outside fun tally files =>
    preserves_sendShutdown (h.minds tally files).toEnds w.index) _) fun _ => ?_
  refine preserves_bind (fun _ ho => ho) fun _ => ?_
  exact preserves_forM (fun w : OpenWorker => upheld_outside fun tally files =>
    preserves_reap (h.minds tally files).toEnds rounds w.index plan.reapTimeout) _

end

/-! ## Sweeps -/

section

variable (h : host.Upholds plan I) (rounds : Nat)
include h

theorem preserves_complete (w : OpenWorker) :
    Preserves (Upheld I) (complete host plan rounds w) := by
  have hconclude : ∀ tally files,
      Preserves (fun s => I s tally files) (conclude host plan rounds w.index) := by
    intro tally files
    rw [← conclude_uncovered]
    exact preserves_conclude (h.tends tally files) plan rounds w.index (h.exception tally files)
  refine preserves_bind (fun _ ho => ho) fun _ => ?_
  refine preserves_bind (preserves_attempt (upheld_outside hconclude)) fun outcome => ?_
  refine preserves_bind (preserves_drain h.toGuards w.index) fun had => ?_
  rcases outcome with e | v
  · refine preserves_bind (upheld_outside fun tally files =>
      preserves_shutdown (h.minds tally files).toEnds rounds w.index _) fun _ => ?_
    exact preserves_throw _
  · exact preserves_bind (fun _ ho => ho) fun _ => preserves_pure _

theorem preserves_sweep : Preserves (Upheld I) (sweep host plan rounds) := by
  refine preserves_bind (fun _ ho => ho) fun o => ?_
  refine preserves_bind (preserves_mapM (preserves_look h.toGuards) _) fun sightings => ?_
  refine preserves_bind (fun _ ho => ho) fun _ => ?_
  refine preserves_bind (preserves_mapM (preserves_complete h rounds) _) fun late => ?_
  exact preserves_afterwards h.toGuards _ _

theorem preserves_sweepRound : Preserves (Upheld I) (sweepRound host plan rounds) := by
  refine preserves_bind (fun _ ho => ho) fun o => ?_
  split_ifs
  · exact preserves_pure _
  · exact preserves_bind (preserves_sweep h rounds) fun _ => preserves_pure _

end

/-! ## The whole campaign -/

/-- **What holds while workers are started, and is kept while they are tended**, holds when an
orchestrator ends. -/
theorem yields_orchestrate_of_started (h : host.Upholds plan I) (rounds : Nat) {P : σ → Prop}
    (hP : ∀ s, P s → I s .empty [])
    (hprint : ∀ text s, P s → P ((host.printLine text).run s).2)
    (hshow : ∀ text s, P s → P ((host.showStatus text).run s).2)
    (hspawn : ∀ i seed task, plan.taskOf test i seed = .ok task → ∀ s, P s →
      P ((host.spawn task).run s).2) (seeds : List Seed) {s : σ} (hs : P s) :
    Yields (orchestrate host plan test rounds seeds) (.start s)
      (fun findings o => findings = o.report ∧ o.Upheld I) fun _ o => o.Upheld I := by
  have hstatus : ∀ text, Preserves (Upheld I) (Orchestrator.ask (host.showStatus text)) :=
    fun text => upheld_outside fun tally files =>
      preserves_ask ((h.minds tally files).showStatus text)
  have hcourse : ∀ o : Orchestrator σ,
      P o.world ∧ o.aggregator = .empty ∧ o.coverageFiles = [] → Yields (do
        spawnAll host plan test seeds
        repeatUntil (sweepRound host plan rounds) rounds) o (fun _ => Upheld I)
        fun _ => Upheld I := by
    have hupheld : ∀ o : Orchestrator σ,
        P o.world ∧ o.aggregator = .empty ∧ o.coverageFiles = [] → o.Upheld I := by
      rintro o ⟨ho, htally, hfiles⟩
      rw [Upheld, htally, hfiles]
      exact hP _ ho
    intro o ho
    rw [yields_bind]
    refine (preserves_spawnFrom host plan test hprint hspawn .empty [] 0 seeds o ho).mono
      (fun _ o' h' => ?_) fun _ o' h' => hupheld o' h'
    exact preserves_repeatUntil (preserves_sweepRound h rounds) rounds o' (hupheld o' h')
  rw [orchestrate, yields_bind]
  refine Yields.mono (Q := fun _ o => P o.world ∧ o.aggregator = .empty ∧ o.coverageFiles = [])
    (E := fun _ _ => False) ⟨hshow (firstStatus plan).message s hs, rfl, rfl⟩ (fun _ o₁ h₁ => ?_)
    fun _ _ => False.elim
  rw [yields_bind, yields_attempt]
  refine (hcourse o₁ h₁).mono (fun _ o₂ h₂ => ?_) fun stop o₂ h₂ => ?_
  · change Yields (_ >>= _) o₂ _ _
    rw [yields_bind]
    exact (hstatus _ o₂ h₂).imp fun _ o₃ h₃ => ⟨rfl, h₃⟩
  · rcases stop with e | message | _
    · change Yields (_ >>= _) o₂ _ _
      rw [yields_bind]
      refine (preserves_endAll h.toGuards rounds o₂ h₂).imp fun _ o₃ h₃ => ?_
      rw [yields_bind]
      exact (hstatus _ o₃ h₃).imp fun _ o₄ h₄ => h₄
    · exact h₂
    · exact h₂

section

variable (h : host.UpholdsAll plan test I) (rounds : Nat)
include h

/-- **What every answer keeps, an orchestrator keeps.** -/
theorem yields_orchestrate_upheld (seeds : List Seed) {s : σ} (hs : I s .empty []) :
    Yields (orchestrate host plan test rounds seeds) (.start s)
      (fun findings o => findings = o.report ∧ o.Upheld I) fun _ o => o.Upheld I :=
  yields_orchestrate_of_started h.toUpholds rounds (fun _ => id) (h.minds .empty []).printLine
    (h.minds .empty []).showStatus h.spawn seeds hs

theorem upheld_opening {s : σ} (hs : I s .empty []) : I (opening host plan s).2 .empty [] := by
  have hfresh : ∀ n s, I s .empty [] → I ((freshSeeds host n).run s).2 .empty [] := by
    intro n
    induction n with
    | zero => exact fun _ hs => hs
    | succ n ih => exact fun s hs => ih _ (h.freshSeed s hs)
  exact hfresh _ _ (h.isDirectory plan.logsDir s hs)

theorem upheld_ending {s : σ} (hs : I s .empty []) : (ending host plan test rounds s).2.Upheld I :=
  Yields.final ((yields_orchestrate_upheld h rounds (seedsOf host plan s)
    (upheld_opening h hs)).mono (fun _ _ ho => ho.2) fun _ _ => id)

/-- **What every answer keeps, a campaign keeps**, however it ends. -/
theorem yields_run_upheld {s : σ} (hs : I s .empty []) :
    Yields (run host plan test rounds) s
      (fun findings s' => ∃ tally, I s' tally findings.coverageFiles)
      fun _ s' => ∃ tally files, I s' tally files := by
  rw [run, yields_bind, yields_ask]
  rcases plan.validate ((host.isDirectory plan.logsDir).run s).1 with stop | _
  · exact ⟨.empty, [], h.isDirectory plan.logsDir s hs⟩
  · change Yields (Action.ask (seeds host plan) >>= fun seeds =>
      whole (orchestrate host plan test rounds seeds)) _ _ _
    rw [yields_bind, yields_ask, yields_whole]
    refine (yields_orchestrate_upheld h rounds _ (upheld_opening h hs)).mono ?_ ?_
    · rintro _ o ⟨rfl, ho⟩
      exact ⟨o.aggregator, ho⟩
    · exact fun _ o ho => ⟨o.aggregator, o.coverageFiles, ho⟩

end

theorem preserves_run {P : σ → Prop} (h : host.Preserves P) (plan : CampaignPlan) (rounds : Nat)
    (test : TestCase) : Preserves P (run host plan test rounds) :=
  fun _ hs => (yields_run_upheld (h.upholdsAll plan test) rounds hs).mono
    (fun _ _ ⟨_, hs'⟩ => hs') fun _ _ ⟨_, _, hs'⟩ => hs'

end Campaign

end FuzzCampaign
