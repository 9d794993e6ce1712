import FuzzCampaign.Proofs.Course

/-!
# The roll of a campaign

Every worker that was started is on the roll of its campaign with its index and its seed, first
while it is left and then with its outcome. A sweep keeps the roll, whatever the world answers, so
the report of a campaign lists all workers that were started and no others.

* `Orchestrator.roll`, `Orchestrator.SameCrew`;
* `Campaign.gives_complete_roll`, **`Campaign.gives_sweep_roll`**: a sweep keeps the roll;
* `Campaign.gives_spawnFrom_roll`: the workers that are put on it;
* `Orchestrator.place_report`: a report in the order of the indexes;
* **`Campaign.place_of_run`**: the report of a run.
-/

namespace FuzzCampaign

/-! ## Who is on the roll -/

namespace Orchestrator

variable {σ : Type} {o o' o'' : Orchestrator σ}

/-- The workers that were started, by index and seed: those that are left, and those with an
outcome. -/
def roll (o : Orchestrator σ) : List (UInt64 × Seed) :=
  o.active.map OpenWorker.place ++ o.finished.map Finding.place

/-- No worker is started or gets an outcome. -/
structure SameCrew (o o' : Orchestrator σ) : Prop where
  active : o'.active = o.active
  finished : o'.finished = o.finished

theorem SameCrew.trans (h : o.SameCrew o') (h' : o'.SameCrew o'') : o.SameCrew o'' :=
  ⟨h'.active.trans h.active, h'.finished.trans h.finished⟩

theorem SameCrew.roll_eq (h : o.SameCrew o') : o'.roll = o.roll := by
  rw [roll, roll, h.active, h.finished]

theorem nodup_active (h : (o.roll.map (·.1)).Nodup) : (o.active.map (·.index)).Nodup := by
  rw [roll, List.map_append, List.map_map] at h
  exact (List.nodup_append.1 h).1

theorem place_report (hactive : o.active = []) {seeds : List Seed}
    (hlength : seeds.length ≤ word64) (h : o.roll.Perm (Campaign.places 0 seeds)) :
    o.report.workers.map Finding.place = Campaign.places 0 seeds := by
  rw [roll, hactive, List.map_nil, List.nil_append] at h
  have hnodup : (o.finished.map (·.index)).Nodup := by
    have hplaces := (h.map (·.1)).nodup_iff.2 (Campaign.nodup_places seeds hlength)
    rwa [List.map_map] at hplaces
  have hreport : (o.report.workers.map Finding.place).Perm (Campaign.places 0 seeds) :=
    ((List.mergeSort_perm _ _).map _).trans h
  exact Campaign.eq_of_increasing (·.1) (List.pairwise_map.2 (o.pairwise_report hnodup))
    (Campaign.pairwise_places seeds hlength) fun _ => hreport.mem_iff

end Orchestrator

namespace Campaign

open FuzzCampaign.Action Orchestrator

variable {σ : Type} (host : CampaignHost σ) (plan : CampaignPlan) (rounds : Nat)
  {o : Orchestrator σ}

/-! ## Sweeps -/

theorem gives_outside_crew {α : Type} (act : Action σ α) :
    Gives (outside act) o fun _ o' => o.SameCrew o' :=
  gives_outside.2 (gives_true.imp fun _ _ _ => ⟨rfl, rfl⟩)

theorem gives_drain_crew (i : UInt64) : Gives (drain host i) o fun _ o' => o.SameCrew o' := by
  rw [drain, gives_bind]
  refine (gives_outside_crew _).imp fun l o₁ h₁ => ?_
  rcases l.getLast? with _ | s
  · exact h₁
  · exact h₁.trans ⟨rfl, rfl⟩

theorem gives_look_crew (w : OpenWorker) :
    Gives (look host plan w) o fun s o' => s.worker.place = w.place ∧ o.SameCrew o' := by
  rw [look, gives_bind]
  refine (gives_drain_crew host w.index).imp fun had o₁ h₁ => ?_
  rw [gives_bind]
  refine (gives_outside_crew _).imp fun r o₂ h₂ => ?_
  rcases r with _ | _ | _
  · exact ⟨rfl, h₁.trans h₂⟩
  · exact gives_bind.2 ((gives_outside_crew _).imp fun _ _ h₃ => ⟨rfl, (h₁.trans h₂).trans h₃⟩)
  · exact gives_bind.2 ((gives_outside_crew _).imp fun _ _ h₃ => ⟨rfl, (h₁.trans h₂).trans h₃⟩)

/-- A worker that is handled gets its outcome with the index and the seed that it was started
with. -/
theorem gives_complete_crew (w : OpenWorker) :
    Gives (complete host plan rounds w) o fun _ o' =>
      o'.active = (o.active.filter fun v => v.index ≠ w.index) ∧
        ∃ v, o'.finished = o.finished ++ [⟨w.index, w.seed, v⟩] := by
  rw [complete, gives_bind, gives_modify, gives_bind]
  refine gives_attempt ((gives_outside_crew _).imp fun v o₁ h₁ => ?_) fun e o₁ => ?_
  · rw [gives_bind]
    refine (gives_drain_crew host w.index).imp fun had o₂ h₂ => ?_
    have hcrew := h₁.trans h₂
    exact ⟨hcrew.active, v, congrArg (· ++ _) hcrew.finished⟩
  · exact gives_bind_never fun _ _ => gives_bind_never fun _ _ => trivial

/-- **A worker that is handled stays on the roll.** -/
theorem gives_complete_roll (hn : (o.roll.map (·.1)).Nodup) {w : OpenWorker} (hw : w ∈ o.active) :
    Gives (complete host plan rounds w) o fun _ o' => o'.roll.Perm o.roll ∧
      o'.active = o.active.filter fun v => v.index ≠ w.index := by
  refine (gives_complete_crew host plan rounds w).imp ?_
  rintro _ o' ⟨hactive, v, hfinished⟩
  refine ⟨?_, hactive⟩
  have hperm := (perm_cons_filter (nodup_active hn) hw).map OpenWorker.place
  rw [roll, roll, hactive, hfinished, List.map_append]
  refine List.Perm.trans ?_ (hperm.append_right _).symm
  rw [← List.append_assoc]
  exact List.perm_append_singleton ..

/-- Workers that are done are left to handle, and the roll is as it was. -/
def OnRoll (places : List (UInt64 × Seed)) (left : List OpenWorker) (o : Orchestrator σ) : Prop :=
  o.roll.Perm places ∧ (∀ w ∈ left, w ∈ o.active) ∧ (left.map (·.index)).Nodup

theorem gives_complete_next_roll {places : List (UInt64 × Seed)} (hn : (places.map (·.1)).Nodup)
    {w : OpenWorker} {left : List OpenWorker} (h : OnRoll places (w :: left) o) :
    Gives (complete host plan rounds w) o fun _ o' => OnRoll places left o' := by
  obtain ⟨hroll, hleft, hnodup⟩ := h
  rw [List.map_cons, List.nodup_cons] at hnodup
  have hdiffer := (hroll.map (·.1)).nodup_iff.2 hn
  refine (gives_complete_roll host plan rounds hdiffer (hleft w List.mem_cons_self)).imp ?_
  rintro _ o' ⟨hroll', hactive⟩
  refine ⟨hroll'.trans hroll, fun u hu => ?_, hnodup.2⟩
  have hne : u.index ≠ w.index := fun heq => hnodup.1 (heq ▸ List.mem_map_of_mem hu)
  rw [hactive]
  exact List.mem_filter.2 ⟨hleft u (List.mem_cons_of_mem _ hu), decide_eq_true hne⟩

theorem gives_persist_crew : Gives (persist host plan) o fun _ o' => o.SameCrew o' := by
  rw [persist, gives_bind, gives_get]
  by_cases hempty : o.aggregator.files.isEmpty = true
  · rw [if_pos hempty]
    exact ⟨rfl, rfl⟩
  · rw [if_neg hempty, gives_bind]
    refine (gives_outside_crew _).imp fun r o₁ h₁ => ?_
    rcases r with e | _
    · exact h₁
    · exact h₁.trans ⟨rfl, rfl⟩

theorem gives_showStatus_crew : Gives (showStatus host plan) o fun _ o' => o.SameCrew o' := by
  rw [showStatus, gives_bind, gives_get]
  rcases o.aggregator.functionLines with e | lines
  · trivial
  · exact gives_outside_crew _

theorem gives_afterwards_crew (had idle : Bool) : Gives (do
    if had then persist host plan
    showStatus host plan
    if idle then Orchestrator.ask (host.sleep plan.pollInterval)) o fun _ o' => o.SameCrew o' := by
  have hend : ∀ o₁ : Orchestrator σ, o.SameCrew o₁ → Gives (do
      showStatus host plan
      if idle then Orchestrator.ask (host.sleep plan.pollInterval)) o₁
      fun _ o' => o.SameCrew o' := by
    intro o₁ h₁
    rw [gives_bind]
    refine (gives_showStatus_crew host plan).imp fun _ o₂ h₂ => ?_
    split_ifs
    · exact (gives_outside_crew _).imp fun _ _ h₃ => (h₁.trans h₂).trans h₃
    · exact h₁.trans h₂
  by_cases hhad : had = true
  · rw [if_pos hhad]
    exact gives_bind.2 ((gives_persist_crew host plan).imp fun _ o₁ h₁ => hend o₁ h₁)
  · rw [if_neg hhad]
    exact hend o ⟨rfl, rfl⟩

/-- **A sweep keeps the roll.** -/
theorem gives_sweep_roll {places : List (UInt64 × Seed)} (hn : (places.map (·.1)).Nodup)
    (h : o.roll.Perm places) :
    Gives (sweep host plan rounds) o fun _ o' => o'.roll.Perm places := by
  rw [sweep, gives_bind, gives_get, gives_bind]
  -- the workers that were looked at and those that were not have the places of those that are left
  refine (gives_mapM (fun (made : List Sighting) left o' => o.SameCrew o' ∧
    made.map (·.worker.place) ++ left.map OpenWorker.place = o.active.map OpenWorker.place)
    (fun made w left o' ⟨hcrew, hplaces⟩ => (gives_look_crew host plan w).imp
      fun s o'' ⟨hplace, hcrew'⟩ => ⟨hcrew.trans hcrew', by simpa [hplace] using hplaces⟩)
    o.active ⟨⟨rfl, rfl⟩, rfl⟩).imp fun sightings o₁ ⟨hcrew, hplaces⟩ => ?_
  rw [gives_bind, gives_modify]
  rw [List.map_nil, List.append_nil] at hplaces
  have hroll : roll { o₁ with active := sightings.map (·.worker) } = o.roll := by
    rw [roll, roll, List.map_map, hcrew.finished]
    exact congrArg (· ++ _) hplaces
  have hnodup : ((sightings.map (·.worker)).map (·.index)).Nodup := by
    refine nodup_active (o := { o₁ with active := sightings.map (·.worker) }) ?_
    rw [hroll]
    exact (h.map (·.1)).nodup_iff.2 hn
  have hstart : OnRoll places ((sightings.filter (·.done)).map (·.worker))
      { o₁ with active := sightings.map (·.worker) } := by
    refine ⟨hroll ▸ h, fun w hw => ?_, ?_⟩
    · exact List.map_subset _ (List.filter_subset_self _) hw
    · exact hnodup.sublist ((List.filter_sublist.map _).map _)
  rw [gives_bind]
  refine (gives_mapM (fun _ left o' => OnRoll places left o')
    (fun made w left o' h' => gives_complete_next_roll host plan rounds hn h') _ hstart).imp
    fun late o₂ h₂ => ?_
  exact (gives_afterwards_crew host plan _ _).imp fun _ o₃ h₃ => h₃.roll_eq ▸ h₂.1

theorem gives_sweeps_roll {places : List (UInt64 × Seed)} (hn : (places.map (·.1)).Nodup)
    (h : o.roll.Perm places) :
    Gives (repeatUntil (sweepRound host plan rounds) rounds) o fun _ o' =>
      o'.roll.Perm places ∧ o'.active = [] := by
  refine gives_repeatUntil (fun o' => o'.roll.Perm places) (fun o' h' => ?_) rounds h
  rw [sweepRound, gives_bind, gives_get]
  split_ifs with hempty
  · exact ⟨h', List.isEmpty_iff.1 hempty⟩
  · exact gives_bind.2 ((gives_sweep_roll host plan rounds hn h').imp fun _ _ h => h)

/-! ## The start -/

/-- The workers that are started are put on the roll, one for each seed. -/
theorem gives_spawnFrom_roll (test : TestCase) (n : Nat) (seeds : List Seed)
    (hfinished : o.finished = []) :
    Gives (spawnFrom host plan test n seeds) o fun _ o' =>
      o'.roll = o.roll ++ places n seeds ∧ o'.finished = [] := by
  induction seeds generalizing n o with
  | nil =>
    rw [spawnFrom, gives_pure]
    exact ⟨(List.append_nil _).symm, hfinished⟩
  | cons seed seeds ih =>
    rw [spawnFrom, gives_bind, spawnWorker, gives_bind]
    refine (gives_outside_crew _).imp fun _ o₁ h₁ => ?_
    rcases plan.taskOf test (UInt64.ofNat n) seed with e | task
    · trivial
    · rw [gives_bind]
      refine (gives_outside_crew _).imp fun _ o₂ h₂ => ?_
      have hcrew := h₁.trans h₂
      have hnone : o₂.finished = [] := hcrew.finished.trans hfinished
      refine (ih (n + 1) (o := { o₂ with active := o₂.active ++ [⟨UInt64.ofNat n, seed, none⟩] })
        hnone).imp ?_
      rintro _ o' ⟨hroll, hfinished'⟩
      refine ⟨?_, hfinished'⟩
      rw [hroll, roll, roll, hcrew.active, hnone, hfinished]
      simp [OpenWorker.place]

/-! ## The whole campaign -/

theorem gives_orchestrate_roll (test : TestCase) (seeds : List Seed)
    (hlength : seeds.length ≤ word64) (s : σ) :
    Gives (orchestrate host plan test rounds seeds) (.start s) fun findings _ =>
      findings.workers.map Finding.place = places 0 seeds := by
  have hn := nodup_places seeds hlength
  rw [orchestrate, gives_bind]
  refine (gives_outside_crew _).imp fun _ o₁ h₁ => ?_
  rw [gives_bind]
  refine gives_attempt ?_ fun e o => gives_bind_never fun _ _ => gives_bind_never fun _ _ => trivial
  rw [gives_bind]
  refine (gives_spawnFrom_roll host plan test 0 seeds h₁.finished).imp ?_
  rintro _ o₂ ⟨hroll, -⟩
  rw [h₁.roll_eq] at hroll
  refine (gives_sweeps_roll host plan rounds hn (List.Perm.of_eq hroll)).imp ?_
  rintro _ o₃ ⟨hroll₃, hactive⟩
  rw [gives_bind]
  refine (gives_outside_crew _).imp fun _ o₄ h₄ => ?_
  exact place_report (h₄.active.trans hactive) hlength (h₄.roll_eq ▸ hroll₃)

/-- **The report of a run lists the workers that were started**, in the order of their indexes and
with the seeds that they were started with. -/
theorem place_of_run {test : TestCase} {s s' : σ} {findings : Findings}
    (h : (run host plan test rounds).outcome s = (.ok findings, s')) :
    findings.workers.map Finding.place = places 0 (seedsOf host plan s) := by
  obtain ⟨hvalue, -⟩ := ending_of_run _ _ _ _ _ h
  have hgives := gives_orchestrate_roll host plan rounds test _ (length_seedsOf_le host plan s)
    (opening host plan s).2
  exact gives_iff.1 hgives findings _ (Prod.ext hvalue rfl)

end Campaign

end FuzzCampaign
