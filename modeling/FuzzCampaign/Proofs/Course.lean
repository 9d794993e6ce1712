import FuzzCampaign.Proofs.Tracking

/-!
# The course of a campaign

* `Orchestrator.Tracks`: every worker that was started is left or has a verdict;
* `Orchestrator.Ready`: the state between two sweeps; **`Campaign.gives_sweep`**: a sweep keeps it;
* `Campaign.gives_spawnAll`: the start of the workers reaches it;
* **`Campaign.gives_orchestrate`**: what holds of a campaign that ends well;
* `Campaign.ending`: the orchestrator at the end of a run; **`Campaign.ready_of_run`**.
-/

namespace FuzzCampaign

/-- The stages agree with what the orchestrator lists: every worker that was started is left or has
a verdict, and one with a verdict is closed. -/
structure Orchestrator.Tracks {crew : WorkerTask → Conversation}
    {answers : UInt64 → Envelope → Bool → Prop} (k : Conduct crew answers) {ρ : Type}
    (plan : CampaignPlan) (test : TestCase) (spawned : List (UInt64 × Seed)) (t : Register)
    (o : Orchestrator (Floor ρ)) : Prop where
  agrees : o.Agrees k t
  task : ∀ i row, t i = some row →
    ∃ seed, (i, seed) ∈ spawned ∧ plan.taskOf test i seed = .ok row.task
  places : (o.active.map OpenWorker.place ++ o.finished.map Finding.place).Perm spawned
  closed : ∀ g ∈ o.finished, t.stage? g.index = some (.closed g.outcome)

theorem CampaignPlan.index_of_taskOf {plan : CampaignPlan} {test : TestCase} {i : UInt64}
    {seed : Seed} {task : WorkerTask} (h : plan.taskOf test i seed = .ok task) :
    task.index = i := by
  unfold CampaignPlan.taskOf at h
  rcases hport : plan.portOf i with e | port
  · rw [hport] at h
    cases h
  · rw [hport] at h
    cases h
    rfl

namespace Orchestrator

variable {crew : WorkerTask → Conversation} {answers : UInt64 → Envelope → Bool → Prop}
  {k : Conduct crew answers} {ρ : Type} {plan : CampaignPlan} {test : TestCase}
  {spawned : List (UInt64 × Seed)} {t : Register} {o o' : Orchestrator (Floor ρ)} {i : UInt64}
  {row row' : Row}

theorem Tracks.nodup (h : o.Tracks k plan test spawned t) (hn : (spawned.map (·.1)).Nodup) :
    (o.active.map (·.index) ++ o.finished.map (·.index)).Nodup := by
  have hindexes : o.active.map (·.index) ++ o.finished.map (·.index) =
      (o.active.map OpenWorker.place ++ o.finished.map Finding.place).map (·.1) := by
    simp only [List.map_append, List.map_map]
    rfl
  rw [hindexes]
  exact (h.places.map _).nodup_iff.2 hn

theorem Tracks.spawn (h : o.Tracks k plan test spawned t) {task : WorkerTask} {seed : Seed}
    (htask : plan.taskOf test task.index seed = .ok task)
    (hnew : task.index ∉ spawned.map (·.1)) {f : Floor ρ}
    (hf : f.Agrees k (Function.update t task.index (some ⟨task, .watched, none⟩)) o.world.disk) :
    Tracks k plan test (spawned ++ [(task.index, seed)])
      (Function.update t task.index (some ⟨task, .watched, none⟩))
      { o with world := f, active := o.active ++ [⟨task.index, seed, none⟩] } := by
  have hnone : t task.index = none := by
    rcases hrow : t task.index with _ | row
    · rfl
    · obtain ⟨seed', hmem, -⟩ := h.task _ row hrow
      exact absurd (List.mem_map_of_mem hmem) hnew
  have hdisk := hf.disk
  refine ⟨⟨by simpa only [hdisk] using hf, fun j => ?_⟩, fun j row hj => ?_, ?_, fun g hg => ?_⟩
  · by_cases hj : j = task.index
    · subst hj
      rw [h.agrees.latest, hnone, Function.update_self]
      rfl
    · rw [Function.update_of_ne hj]
      exact h.agrees.latest j
  · by_cases hji : j = task.index
    · subst hji
      rw [Function.update_self] at hj
      cases hj
      exact ⟨seed, by simp, htask⟩
    · rw [Function.update_of_ne hji] at hj
      obtain ⟨seed', hmem, htask'⟩ := h.task j row hj
      exact ⟨seed', List.mem_append_left _ hmem, htask'⟩
  · rw [List.map_append, List.append_assoc]
    have hcomm : (List.map OpenWorker.place [⟨task.index, seed, none⟩] ++
        o.finished.map Finding.place).Perm
        (o.finished.map Finding.place ++ [(task.index, seed)]) := List.perm_append_comm
    refine (hcomm.append_left _).trans ?_
    rw [← List.append_assoc]
    exact h.places.append_right _
  · have hmem : g.place ∈ spawned :=
      h.places.mem_iff.1 (List.mem_append_right _ (List.mem_map_of_mem hg))
    have hne : g.index ≠ task.index := fun heq => hnew (heq ▸ List.mem_map_of_mem hmem)
    rw [Register.stage?_update, if_neg hne]
    exact h.closed g hg

theorem Tracks.nodup_active (h : o.Tracks k plan test spawned t) (hn : (spawned.map (·.1)).Nodup) :
    (o.active.map (·.index)).Nodup :=
  (List.nodup_append.1 (h.nodup hn)).1

theorem Tracks.ne_of_finished (h : o.Tracks k plan test spawned t) (hn : (spawned.map (·.1)).Nodup)
    {w : OpenWorker} (hw : w ∈ o.active) {g : Finding} (hg : g ∈ o.finished) : g.index ≠ w.index :=
  fun heq => (List.nodup_append.1 (h.nodup hn)).2.2 w.index (List.mem_map_of_mem hw) g.index
    (List.mem_map_of_mem hg) heq.symm

theorem Tracks.index (h : o.Tracks k plan test spawned t) (hi : t i = some row) :
    row.task.index = i := by
  obtain ⟨seed, -, htask⟩ := h.task i row hi
  exact CampaignPlan.index_of_taskOf htask

theorem Tracks.task_update (h : o.Tracks k plan test spawned t) (hi : t i = some row)
    (htask : row'.task = row.task) (j : UInt64) (row'' : Row)
    (hj : Function.update t i (some row') j = some row'') :
    ∃ seed, (j, seed) ∈ spawned ∧ plan.taskOf test j seed = .ok row''.task := by
  by_cases hji : j = i
  · subst hji
    rw [Function.update_self] at hj
    cases hj
    rw [htask]
    exact h.task j row hi
  · rw [Function.update_of_ne hji] at hj
    exact h.task j row'' hj

theorem Tracks.advance (h : o.Tracks k plan test spawned t) (hn : (spawned.map (·.1)).Nodup)
    {w : OpenWorker} (hw : w ∈ o.active) (hi : t w.index = some row) (htask : row'.task = row.task)
    (hagrees : o'.Agrees k (Function.update t w.index (some row')))
    (hactive : o'.active = o.active) (hfinished : o'.finished = o.finished) :
    o'.Tracks k plan test spawned (Function.update t w.index (some row')) := by
  refine ⟨hagrees, h.task_update hi htask, ?_, fun g hg => ?_⟩
  · rw [hactive, hfinished]
    exact h.places
  · rw [hfinished] at hg
    rw [Register.stage?_update, if_neg (h.ne_of_finished hn hw hg)]
    exact h.closed g hg

theorem Tracks.finish (h : o.Tracks k plan test spawned t) (hn : (spawned.map (·.1)).Nodup)
    {w : OpenWorker} (hw : w ∈ o.active) (hi : t w.index = some row) (htask : row'.task = row.task)
    {v : Verdict} (hstage : row'.stage = .closed v)
    (hagrees : o'.Agrees k (Function.update t w.index (some row')))
    (hactive : o'.active = o.active.filter fun u => u.index ≠ w.index)
    (hfinished : o'.finished = o.finished ++ [⟨w.index, w.seed, v⟩]) :
    o'.Tracks k plan test spawned (Function.update t w.index (some row')) := by
  refine ⟨hagrees, h.task_update hi htask, ?_, fun g hg => ?_⟩
  · rw [hactive, hfinished, List.map_append]
    have hperm := (perm_cons_filter (h.nodup_active hn) hw).map OpenWorker.place
    refine List.Perm.trans ?_ ((hperm.append_right _).symm.trans h.places)
    simp only [List.map_cons, List.map_nil, List.cons_append]
    rw [← List.append_assoc]
    exact List.perm_append_singleton ..
  · rw [hfinished] at hg
    rw [Register.stage?_update]
    rcases List.mem_append.1 hg with hg | hg
    · rw [if_neg (h.ne_of_finished hn hw hg)]
      exact h.closed g hg
    · obtain rfl := List.mem_singleton.1 hg
      rw [if_pos rfl, hstage]

variable (k plan test spawned) (env : Surroundings ρ)

/-- The state between two sweeps: every worker that is left is watched, and the coverage files are
up to date, if nothing keeps the orchestrator from writing. -/
def Ready (o : Orchestrator (Floor ρ)) : Prop :=
  ∃ t, o.Tracks k plan test spawned t ∧ (∀ w ∈ o.active, t.stage? w.index = some .watched) ∧
    (env.Writes → o.Stored plan.coverageDir)

/-- The state of a sweep that has seen some workers, and not yet those that are left to see. -/
def Seeing (made : List Campaign.Sighting) (left : List OpenWorker) (o : Orchestrator (Floor ρ)) :
    Prop :=
  ∃ t, o.Tracks k plan test spawned t ∧
    o.active.map OpenWorker.place = (made.map (·.worker) ++ left).map OpenWorker.place ∧
    (∀ s ∈ made, t.stage? s.worker.index = some (Campaign.stageAfter s.done)) ∧
    (∀ w ∈ left, t.stage? w.index = some .watched) ∧
    (env.Writes → made.any (·.hadCoverage) = false → o.Stored plan.coverageDir)

/-- The state of a sweep that handles the workers that are done, some of which are left to handle;
`had` says whether there was coverage earlier in the sweep. -/
def Handling (had : Bool) (made : List Bool) (left : List OpenWorker) (o : Orchestrator (Floor ρ)) :
    Prop :=
  ∃ t, o.Tracks k plan test spawned t ∧ (left.map (·.index)).Nodup ∧
    (∀ w ∈ left, w ∈ o.active ∧ t.stage? w.index = some .signalled) ∧
    (∀ w ∈ o.active, w ∈ left ∨ t.stage? w.index = some .watched) ∧
    (env.Writes → (had || made.any id) = false → o.Stored plan.coverageDir)

variable {k plan test spawned env}

/-- The floor changes in a way that the orchestrator does not see. -/
theorem Tracks.floor_eq (h : o.Tracks k plan test spawned t) {f : Floor ρ}
    (hf : f.Agrees k t o.world.disk) :
    Tracks k plan test spawned t { o with world := f } :=
  ⟨h.agrees.floor_eq hf, h.task, h.places, h.closed⟩

/-- A question that has nothing to do with the workers and files. -/
theorem Ready.aside (h : o.Ready k plan test spawned env) {α : Type} (q : StateM ρ α) :
    Ready k plan test spawned env { o with world := ((Floor.aside env q).run o.world).2 } := by
  obtain ⟨t, htracks, hwatched, hstored⟩ := h
  have hf := htracks.agrees.floor.aside env q
  refine ⟨t, htracks.floor_eq hf, hwatched, fun hwrites => ?_⟩
  exact Unstored.stored ⟨hf.disk, rfl, fun _ => rfl⟩ (hstored hwrites)

theorem Ready.exists_station (hn : (spawned.map (·.1)).Nodup) (h : o.Ready k plan test spawned env)
    {g : Finding} (hg : g ∈ o.finished) : ∃ task st, plan.taskOf test g.index g.seed = .ok task ∧
      o.world.stations g.index = some st ∧ k.holds task (.closed g.outcome) st ∧
      o.aggregator.latest.get? g.index = (gatheredIn st.diary).getLast? := by
  obtain ⟨t, htracks, -, -⟩ := h
  obtain ⟨row, hi, hstage⟩ := Register.exists_of_stage? (htracks.closed g hg)
  obtain ⟨seed, hmem, htask⟩ := htracks.task g.index row hi
  have hplace : g.place ∈ spawned :=
    htracks.places.mem_iff.1 (List.mem_append_right _ (List.mem_map_of_mem hg))
  have hseed : g.seed = seed := congrArg Prod.snd (List.inj_on_of_nodup_map hn hplace hmem rfl)
  obtain ⟨st, hst, hholds, hlast⟩ := htracks.agrees.floor.station hi
  rw [← hseed] at htask
  refine ⟨row.task, st, htask, hst, hstage ▸ hholds, ?_⟩
  rw [htracks.agrees.latest, hi]
  exact hlast

theorem Ready.mem_of_latest (h : o.Ready k plan test spawned env) {s : Snapshot}
    (hs : o.aggregator.latest.get? i = some s) : ∃ seed, (i, seed) ∈ spawned := by
  obtain ⟨t, htracks, -, -⟩ := h
  rw [htracks.agrees.latest] at hs
  obtain ⟨row, hi, -⟩ := Option.bind_eq_some_iff.1 hs
  obtain ⟨seed, hmem, -⟩ := htracks.task i row hi
  exact ⟨seed, hmem⟩

/-- When no worker is left, every worker that was started has a verdict. -/
theorem Ready.finished_perm (h : o.Ready k plan test spawned env) (hactive : o.active = []) :
    (o.finished.map Finding.place).Perm spawned := by
  obtain ⟨t, htracks, -, -⟩ := h
  have hplaces := htracks.places
  rwa [hactive, List.map_nil, List.nil_append] at hplaces

/-- When no worker is left, every worker has one verdict. -/
theorem Ready.index_inj (hn : (spawned.map (·.1)).Nodup) (h : o.Ready k plan test spawned env)
    (hactive : o.active = []) {g g' : Finding} (hg : g ∈ o.finished) (hg' : g' ∈ o.finished)
    (hindex : g.index = g'.index) : g = g' := by
  have hnodup := ((h.finished_perm hactive).map (·.1)).nodup_iff.2 hn
  rw [List.map_map] at hnodup
  exact List.inj_on_of_nodup_map hnodup hg hg' hindex

theorem Ready.exists_finding (h : o.Ready k plan test spawned env) (hactive : o.active = [])
    {i : UInt64} {st : Station} (hst : o.world.stations i = some st) :
    ∃ g ∈ o.finished, g.index = i := by
  have hperm := h.finished_perm hactive
  obtain ⟨t, htracks, -, -⟩ := h
  have hrel := htracks.agrees.floor.rows i
  rw [hst] at hrel
  rcases hi : t i with _ | row
  · rw [hi] at hrel
    cases hrel
  · obtain ⟨seed, hmem, -⟩ := htracks.task i row hi
    obtain ⟨g, hg, hplace⟩ := List.mem_map.1 (hperm.mem_iff.2 hmem)
    exact ⟨g, hg, congrArg Prod.fst hplace⟩

/-- Once all workers are seen, those that are done are left to handle. -/
theorem Seeing.handling {sightings : List Campaign.Sighting} (hn : (spawned.map (·.1)).Nodup)
    (h : o.Seeing k plan test spawned env sightings []) :
    Handling k plan test spawned env (sightings.any (·.hadCoverage)) []
      ((sightings.filter (·.done)).map (·.worker))
      { o with active := sightings.map (·.worker) } := by
  obtain ⟨t, htracks, hplaces, hmade, -, hstored⟩ := h
  rw [List.append_nil] at hplaces
  have htracks' : Tracks k plan test spawned t { o with active := sightings.map (·.worker) } := by
    refine ⟨⟨htracks.agrees.floor, htracks.agrees.latest⟩, htracks.task, ?_, htracks.closed⟩
    change ((sightings.map (·.worker)).map OpenWorker.place ++ _).Perm _
    rw [← hplaces]
    exact htracks.places
  refine ⟨t, htracks', ?_, ?_, ?_, fun hwrites hany => hstored hwrites (by simpa using hany)⟩
  · exact (htracks'.nodup_active hn).sublist
      (List.Sublist.map OpenWorker.index (List.Sublist.map Campaign.Sighting.worker
        List.filter_sublist))
  · intro w hw
    obtain ⟨s, hs, rfl⟩ := List.mem_map.1 hw
    obtain ⟨hs, hdone⟩ := List.mem_filter.1 hs
    refine ⟨List.mem_map_of_mem hs, ?_⟩
    rw [hmade s hs, hdone]
    rfl
  · intro w hw
    obtain ⟨s, hs, rfl⟩ := List.mem_map.1 hw
    by_cases hdone : s.done = true
    · exact .inl (List.mem_map_of_mem (List.mem_filter.2 ⟨hs, hdone⟩))
    · refine .inr ?_
      rw [hmade s hs, eq_false_of_ne_true hdone]
      rfl

end Orchestrator

namespace Campaign

open FuzzCampaign.Action Orchestrator

variable {crew : WorkerTask → Conversation} {answers : UInt64 → Envelope → Bool → Prop}
  {k : Conduct crew answers} {ρ : Type} {env : Surroundings ρ} {plan : CampaignPlan}
  {test : TestCase} {spawned : List (UInt64 × Seed)} {o : Orchestrator (Floor ρ)} {rounds : Nat}

/-! ## Sweeps -/

theorem gives_look_next (hn : (spawned.map (·.1)).Nodup) {made : List Sighting} {w : OpenWorker}
    {left : List OpenWorker} (h : o.Seeing k plan test spawned env made (w :: left)) :
    Gives (look (Floor.host crew env) plan w) o fun s o' =>
      o'.Seeing k plan test spawned env (made ++ [s]) left := by
  obtain ⟨t, htracks, hplaces, hmade, hleft, hstored⟩ := h
  obtain ⟨row, hi, hs⟩ := Register.exists_of_stage? (hleft w List.mem_cons_self)
  have hindexes : o.active.map (·.index) = (made.map (·.worker) ++ w :: left).map (·.index) := by
    simpa [List.map_map, Function.comp_def, OpenWorker.place] using
      congrArg (List.map (·.1)) hplaces
  have hnodup := htracks.nodup_active hn
  rw [hindexes] at hnodup
  have hw : w.index ∈ o.active.map (·.index) := by
    rw [hindexes]
    simp
  obtain ⟨w', hw', hindex⟩ := List.mem_map.1 hw
  refine (gives_look plan htracks.agrees hi hs).imp ?_
  rintro s o' ⟨row', hagrees, htask, hstage, hplace, hactive, hfinished, hun⟩
  have hsindex : s.worker.index = w.index := congrArg Prod.fst hplace
  rw [← hindex] at hi hagrees
  refine ⟨_, htracks.advance hn hw' hi htask hagrees hactive hfinished, ?_, ?_, ?_, ?_⟩
  · rw [hactive, hplaces]
    simp [hplace]
  · intro s' hs'
    rw [Register.stage?_update, hindex]
    rcases List.mem_append.1 hs' with hs' | hs'
    · rw [if_neg, hmade s' hs']
      intro heq
      rw [List.map_append, List.nodup_append] at hnodup
      exact hnodup.2.2 s'.worker.index (by simpa using ⟨s', hs', rfl⟩) w.index (by simp) heq
    · obtain rfl := List.mem_singleton.1 hs'
      rw [if_pos hsindex, hstage]
  · intro u hu
    rw [Register.stage?_update, hindex, if_neg, hleft u (List.mem_cons_of_mem _ hu)]
    intro heq
    rw [List.map_append, List.nodup_append, List.map_cons, List.nodup_cons] at hnodup
    exact hnodup.2.1.1 (heq ▸ List.mem_map_of_mem hu)
  · intro hwrites hany
    rw [List.any_append, Bool.or_eq_false_iff] at hany
    have hhad : s.hadCoverage = false := by simpa using hany.2
    exact (hhad ▸ hun).stored (hstored hwrites hany.1)

theorem gives_complete_next (hn : (spawned.map (·.1)).Nodup)
    (ha : DecidesAmong crew answers env plan)
    {had : Bool} {made : List Bool} {w : OpenWorker} {left : List OpenWorker}
    (h : o.Handling k plan test spawned env had made (w :: left)) :
    Gives (complete (Floor.host crew env) plan rounds w) o fun b o' =>
      o'.Handling k plan test spawned env had (made ++ [b]) left := by
  obtain ⟨t, htracks, hnodup, hleft, hwatched, hstored⟩ := h
  obtain ⟨hw, hsignalled⟩ := hleft w List.mem_cons_self
  obtain ⟨row, hi, hs⟩ := Register.exists_of_stage? hsignalled
  rw [List.map_cons, List.nodup_cons] at hnodup
  refine (gives_complete plan rounds ha htracks.agrees hi hs (htracks.index hi)).imp ?_
  rintro b o' ⟨row', v, hagrees, htask, hstage, hactive, hfinished, hun⟩
  refine ⟨_, htracks.finish hn hw hi htask hstage hagrees hactive hfinished, hnodup.2, ?_, ?_, ?_⟩
  · intro u hu
    have hne : u.index ≠ w.index := fun heq => hnodup.1 (heq ▸ List.mem_map_of_mem hu)
    obtain ⟨hu', hstage'⟩ := hleft u (List.mem_cons_of_mem _ hu)
    rw [Register.stage?_update, if_neg hne, hactive]
    exact ⟨List.mem_filter.2 ⟨hu', by simpa using hne⟩, hstage'⟩
  · intro u hu
    rw [hactive, List.mem_filter] at hu
    have hne : u.index ≠ w.index := by simpa using hu.2
    rw [Register.stage?_update, if_neg hne]
    rcases hwatched u hu.1 with hu' | hu'
    · rcases List.mem_cons.1 hu' with rfl | hu'
      · exact absurd rfl hne
      · exact .inl hu'
    · exact .inr hu'
  · intro hwrites hany
    rw [List.any_append, ← Bool.or_assoc, Bool.or_eq_false_iff] at hany
    have hb : b = false := by simpa using hany.2
    exact (hb ▸ hun).stored (hstored hwrites hany.1)

theorem keeps_aside {α : Type} {q : StateM (Floor ρ) α} (q' : StateM ρ α)
    (hq : q = Floor.aside env q') :
    Keeps (Ready k plan test spawned env) (Orchestrator.ask q) := by
  intro o h
  rw [Orchestrator.ask, gives_outside, gives_ask, hq]
  exact h.aside q'

theorem keeps_showStatus :
    Keeps (Ready k plan test spawned env) (showStatus (Floor.host crew env) plan) := by
  intro o h
  rw [showStatus, gives_bind, gives_get]
  rcases o.aggregator.functionLines with e | lines
  · trivial
  · exact keeps_aside (env.host.showStatus _) rfl o h

/-- The files are stored after a sweep that had coverage. -/
theorem gives_stored {had : Bool} {made : List Bool}
    (h : o.Handling k plan test spawned env had made []) :
    Gives (do if had || made.any id then persist (Floor.host crew env) plan) o fun _ o' =>
      o'.Ready k plan test spawned env := by
  obtain ⟨t, htracks, -, -, hwatched, hstored⟩ := h
  have hwatched' : ∀ w ∈ o.active, t.stage? w.index = some .watched := fun w hw =>
    (hwatched w hw).resolve_left List.not_mem_nil
  by_cases hhad : (had || made.any id) = true
  · rw [if_pos hhad]
    refine (gives_persist plan htracks.agrees).imp ?_
    rintro - o' ⟨hagrees, hactive, hfinished, hstored⟩
    refine ⟨t, ⟨hagrees, htracks.task, ?_, ?_⟩, ?_, hstored⟩
    · rw [hactive, hfinished]
      exact htracks.places
    · rw [hfinished]
      exact htracks.closed
    · rw [hactive]
      exact hwatched'
  · rw [if_neg hhad]
    exact ⟨t, htracks, hwatched', fun hwrites => hstored hwrites (eq_false_of_ne_true hhad)⟩

/-- **A sweep keeps track of the workers.** -/
theorem gives_sweep (hn : (spawned.map (·.1)).Nodup) (ha : DecidesAmong crew answers env plan)
    (h : o.Ready k plan test spawned env) :
    Gives (sweep (Floor.host crew env) plan rounds) o fun _ o' =>
      o'.Ready k plan test spawned env := by
  obtain ⟨t, htracks, hwatched, hstored⟩ := h
  have hseeing : o.Seeing k plan test spawned env [] o.active :=
    ⟨t, htracks, rfl, nofun, hwatched, fun hwrites _ => hstored hwrites⟩
  change Gives (o.active.mapM (look (Floor.host crew env) plan) >>= _) o _
  rw [gives_bind]
  refine (gives_mapM (fun made left o => o.Seeing k plan test spawned env made left)
    (fun made w left o h => gives_look_next hn h) o.active hseeing).imp fun sightings o₁ h₁ => ?_
  rw [gives_bind]
  change Gives (_ >>= _) { o₁ with active := sightings.map Sighting.worker } _
  rw [gives_bind]
  refine (gives_mapM (fun made left o => o.Handling k plan test spawned env
    (sightings.any (·.hadCoverage)) made left)
    (fun made w left o h => gives_complete_next hn ha h) _ (h₁.handling hn)).imp
      fun late o₂ h₂ => ?_
  have hend : Keeps (Ready k plan test spawned env) (do
      showStatus (Floor.host crew env) plan
      if ((sightings.filter (·.done)).map (·.worker)).isEmpty then
        Orchestrator.ask ((Floor.host crew env).sleep plan.pollInterval)) := by
    refine keeps_bind keeps_showStatus fun _ => ?_
    split_ifs
    · exact keeps_aside (env.host.sleep _) rfl
    · exact keeps_pure _
  have hready := gives_stored h₂
  by_cases hhad : (sightings.any (·.hadCoverage) || late.any id) = true
  · rw [if_pos hhad] at hready ⊢
    exact gives_bind.2 (hready.imp fun _ o₃ h₃ => hend o₃ h₃)
  · rw [if_neg hhad] at hready ⊢
    exact hend o₂ hready

/-! ## The whole campaign -/

theorem gives_sweeps (hn : (spawned.map (·.1)).Nodup) (ha : DecidesAmong crew answers env plan)
    (h : o.Ready k plan test spawned env) :
    Gives (repeatUntil (sweepRound (Floor.host crew env) plan rounds) rounds) o fun _ o' =>
      o'.Ready k plan test spawned env ∧ o'.active = [] := by
  refine gives_repeatUntil (Ready k plan test spawned env) (fun o h => ?_) rounds h
  change Gives (if o.active.isEmpty then pure (some ()) else do
    sweep (Floor.host crew env) plan rounds
    return none) o _
  split_ifs with hempty
  · exact ⟨h, List.isEmpty_iff.1 hempty⟩
  · exact gives_bind.2 ((gives_sweep hn ha h).imp fun _ _ h => h)

theorem gives_spawnWorker (h : o.Ready k plan test spawned env) {i : UInt64} {seed : Seed}
    (hi : i ∉ spawned.map (·.1)) :
    Gives (spawnWorker (Floor.host crew env) plan test i seed) o fun _ o' =>
      o'.Ready k plan test (spawned ++ [(i, seed)]) env := by
  rw [spawnWorker, gives_bind]
  refine (keeps_aside (env.host.printLine _) rfl o h).imp fun _ o₁ h₁ => ?_
  rcases htask : plan.taskOf test i seed with e | task
  · trivial
  · rw [gives_bind, gives_outside, gives_perform]
    rcases hspawn : ((Floor.host crew env).spawn task).run o₁.world with ⟨r, f⟩
    rintro ⟨⟩ rfl
    obtain ⟨t, htracks, hwatched, hstored⟩ := h₁
    have hf := (htracks.agrees.floor.spawn hspawn).1 rfl
    obtain rfl := CampaignPlan.index_of_taskOf htask
    refine ⟨_, htracks.spawn htask hi hf, fun w hw => ?_, fun hwrites => ?_⟩
    · rw [Register.stage?_update]
      rcases List.mem_append.1 hw with hw | hw
      · have hmem : w.place ∈ spawned :=
          htracks.places.mem_iff.1 (List.mem_append_left _ (List.mem_map_of_mem hw))
        have hne : w.index ≠ task.index := fun heq => hi (heq ▸ List.mem_map_of_mem hmem)
        rw [if_neg hne]
        exact hwatched w hw
      · obtain rfl := List.mem_singleton.1 hw
        rw [if_pos rfl]
    · exact Unstored.stored ⟨hf.disk, rfl, fun _ => rfl⟩ (hstored hwrites)

theorem gives_spawnFrom (n : Nat) (seeds : List Seed)
    (hn : ((spawned ++ places n seeds).map (·.1)).Nodup) (h : o.Ready k plan test spawned env) :
    Gives (spawnFrom (Floor.host crew env) plan test n seeds) o fun _ o' =>
      o'.Ready k plan test (spawned ++ places n seeds) env := by
  induction seeds generalizing spawned n o with
  | nil =>
    rw [spawnFrom, gives_pure]
    simpa [places] using h
  | cons seed seeds ih =>
    have hplaces : spawned ++ places n (seed :: seeds) =
        spawned ++ [(UInt64.ofNat n, seed)] ++ places (n + 1) seeds := by simp
    rw [hplaces] at hn ⊢
    have hi : UInt64.ofNat n ∉ spawned.map (·.1) := by
      rw [List.map_append, List.map_append, List.nodup_append, List.nodup_append] at hn
      intro hmem
      exact hn.1.2.2 _ hmem (UInt64.ofNat n) (by simp) rfl
    rw [spawnFrom, gives_bind]
    exact (gives_spawnWorker h hi).imp fun _ o₁ h₁ => ih (n + 1) hn h₁

theorem map_fst_places (seeds : List Seed) :
    (places 0 seeds).map (·.1) = (List.range' 0 seeds.length).map UInt64.ofNat := by
  rw [← List.zipIdx_map_snd 0 seeds, places, List.map_map, List.map_map]
  rfl

theorem pairwise_places (seeds : List Seed) (hlength : seeds.length ≤ word64) :
    (places 0 seeds).Pairwise fun p q => p.1 < q.1 := by
  rw [← List.pairwise_map (R := fun a b : UInt64 => a < b), map_fst_places, List.pairwise_map]
  refine List.Pairwise.imp_of_mem (fun {a b} ha hb hab => ?_) (List.pairwise_lt_range' (s := 0))
  have ha' := List.mem_range'_1.1 ha
  have hb' := List.mem_range'_1.1 hb
  unfold word64 at hlength
  rw [UInt64.lt_iff_toNat_lt, UInt64.toNat_ofNat', UInt64.toNat_ofNat']
  omega

theorem nodup_places (seeds : List Seed) (hlength : seeds.length ≤ word64) :
    ((places 0 seeds).map (·.1)).Nodup :=
  List.pairwise_map.2 ((pairwise_places seeds hlength).imp fun h => UInt64.ne_of_lt h)

/-- Lists in increasing order of the same entries are the same. -/
theorem eq_of_increasing {α : Type} (key : α → UInt64) {l l' : List α}
    (h : l.Pairwise fun a b => key a < key b) (h' : l'.Pairwise fun a b => key a < key b)
    (hmem : ∀ a, a ∈ l ↔ a ∈ l') : l = l' := by
  have hne : ∀ a b, key a < key b → a ≠ b := fun a b hlt heq =>
    UInt64.ne_of_lt hlt (congrArg key heq)
  refine List.Perm.eq_of_pairwise (fun a b _ _ hab hba => ?_) h h'
    ((List.perm_ext_iff_of_nodup (h.imp (hne _ _)) (h'.imp (hne _ _))).2 hmem)
  exact absurd (UInt64.lt_trans hab hba) (UInt64.lt_irrefl _)

/-- **A campaign that ends well** has kept track of all its workers, and none of them is left. -/
theorem gives_orchestrate (test : TestCase) (rounds : Nat) (seeds : List Seed)
    (hlength : seeds.length ≤ word64) (ha : DecidesAmong crew answers env plan) {f : Floor ρ}
    {d : String → Option String} (hf : f.Agrees k (fun _ => none) d) :
    Gives (orchestrate (Floor.host crew env) plan test rounds seeds) (.start f) fun findings o =>
      findings = o.report ∧ o.active = [] ∧ o.Ready k plan test (places 0 seeds) env := by
  have hn := nodup_places seeds hlength
  have hstart : (Orchestrator.start f).Ready k plan test [] env := by
    have hdisk := hf.disk
    subst hdisk
    refine ⟨fun _ => none, ⟨⟨hf, fun _ => rfl⟩, ?_, .refl [], nofun⟩, nofun, ?_⟩
    · intro i row h
      cases h
    · intro _ hfiles
      exact absurd rfl hfiles
  rw [orchestrate, gives_bind]
  refine (keeps_aside (env.host.showStatus _) rfl _ hstart).imp fun _ o₁ h₁ => ?_
  rw [gives_bind]
  refine gives_attempt ?_ fun e o => gives_bind_never fun _ _ => gives_bind_never fun _ _ => trivial
  rw [gives_bind]
  refine (gives_spawnFrom 0 seeds (by simpa using hn) h₁).imp fun _ o₂ h₂ => ?_
  rw [List.nil_append] at h₂
  refine (gives_sweeps hn ha h₂).imp fun _ o₃ ⟨h₃, hactive⟩ => ?_
  rw [gives_bind, Orchestrator.ask, gives_outside, gives_ask]
  exact ⟨rfl, hactive, h₃.aside _⟩

/-! ## From the start of a run to its end -/

section

variable {σ : Type} (host : CampaignHost σ) (plan : CampaignPlan) (test : TestCase) (rounds : Nat)
  (s : σ)

/-- The seeds of a run, and the world in which the first worker is started. -/
def opening : List Seed × σ := (seeds host plan).run ((host.isDirectory plan.logsDir).run s).2

/-- The seeds of a run. -/
def seedsOf : List Seed := (opening host plan s).1

/-- How the orchestrator of a run ends, and its state then. -/
def ending : Except Stop Findings × Orchestrator σ :=
  (orchestrate host plan test rounds (seedsOf host plan s)).outcome
    (.start (opening host plan s).2)

theorem ending_of_run {findings : Findings} {s' : σ}
    (h : (run host plan test rounds).outcome s = (.ok findings, s')) :
    (ending host plan test rounds s).1 = .ok findings ∧
      (ending host plan test rounds s).2.world = s' := by
  rw [run, outcome_bind, outcome_ask] at h
  dsimp only at h
  rcases hvalid : plan.validate ((host.isDirectory plan.logsDir).run s).1 with stop | _
  · rw [hvalid] at h
    cases h
  · rw [hvalid] at h
    change (Action.ask (seeds host plan) >>= fun seeds =>
      whole (orchestrate host plan test rounds seeds)).outcome _ = _ at h
    rw [outcome_bind, outcome_ask] at h
    change (whole (orchestrate host plan test rounds (seedsOf host plan s))).outcome
      (opening host plan s).2 = _ at h
    rw [outcome_whole] at h
    exact ⟨congrArg Prod.fst h, congrArg Prod.snd h⟩

theorem length_freshSeeds (n : Nat) : ((freshSeeds host n).run s).1.length = n := by
  induction n generalizing s with
  | zero => rfl
  | succ n ih => exact congrArg Nat.succ (ih _)

theorem length_seedsOf : (seedsOf host plan s).length = plan.processCount.toNat := by
  have hfresh := length_freshSeeds host ((host.isDirectory plan.logsDir).run s).2
    (plan.processCount.toNat - plan.seeds.length)
  change (Seed.pad plan.seeds plan.processCount.toNat ((freshSeeds host _).run _).1).length = _
  unfold Seed.pad
  rw [List.length_append, List.length_take, List.length_take, hfresh]
  omega

theorem length_seedsOf_le : (seedsOf host plan s).length ≤ word64 := by
  rw [length_seedsOf]
  exact Nat.le_of_lt plan.processCount.toNat_lt

end

theorem agrees_opening (env : Surroundings ρ) (plan : CampaignPlan) (rest : ρ) :
    (opening (Floor.host crew env) plan (.vacant rest)).2.Agrees k (fun _ => none)
      fun _ => none := by
  have hfresh : ∀ (n : Nat) (f : Floor ρ), f.Agrees k (fun _ => none) (fun _ => none) →
      ((freshSeeds (Floor.host crew env) n).run f).2.Agrees k (fun _ => none) fun _ => none := by
    intro n
    induction n with
    | zero => exact fun _ h => h
    | succ n ih => exact fun f h => ih _ (h.aside _ _)
  exact hfresh _ _ ((Floor.agrees_vacant rest).aside _ _)

/-- **A run that ends well**, from a floor without workers. -/
theorem ready_of_run (k : Conduct crew answers) (ha : DecidesAmong crew answers env plan) {rest : ρ}
    {findings : Findings} {f : Floor ρ}
    (h : (run (Floor.host crew env) plan test rounds).outcome (.vacant rest) = (.ok findings, f)) :
    ∃ o, o = (ending (Floor.host crew env) plan test rounds (.vacant rest)).2 ∧ o.world = f ∧
      findings = o.report ∧ o.active = [] ∧
      o.Ready k plan test (places 0 (seedsOf (Floor.host crew env) plan (.vacant rest))) env := by
  obtain ⟨hvalue, hworld⟩ := ending_of_run _ _ _ _ _ h
  have hgives := gives_orchestrate (k := k) test rounds _
    (length_seedsOf_le (Floor.host crew env) plan (.vacant rest)) ha
    (agrees_opening env plan rest)
  exact ⟨_, rfl, hworld, gives_iff.1 hgives findings _ (Prod.ext hvalue rfl)⟩

end Campaign

end FuzzCampaign
