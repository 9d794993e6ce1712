import FuzzCampaign.Proofs.Conduct
import Mathlib.Data.List.Nodup
import Mathlib.Data.List.Perm.Basic

/-!
# The orchestrator keeps track of its workers

Between two sweeps every worker that was started is either watched, or closed with the verdict that
was recorded for it; the tally holds the coverage that was taken last from each, and if nothing
keeps the orchestrator from writing, the files on disk are those of the tally.

* `OpenWorker.place`, `Campaign.places`: the workers by index and seed;
* `Orchestrator.Agrees`, `Orchestrator.Tracks`: what the orchestrator knows is so;
* `Orchestrator.Stored`: the coverage files are up to date;
* `Campaign.gives_look`, `gives_complete`, `gives_sweep`: what a sweep keeps;
* **`Campaign.gives_orchestrate`**: a campaign that ends well.
-/

namespace FuzzCampaign

/-! ## Places -/

/-- The index and the seed of a worker that is left. -/
def OpenWorker.place (w : OpenWorker) : UInt64 × Seed := (w.index, w.seed)

/-- The index and the seed of a worker with an outcome. -/
def Finding.place (g : Finding) : UInt64 × Seed := (g.index, g.seed)

/-- The indexes and seeds of the workers, from an index on. -/
def Campaign.places (n : Nat) (seeds : List Seed) : List (UInt64 × Seed) :=
  (seeds.zipIdx n).map fun e => (UInt64.ofNat e.2, e.1)

@[simp] theorem Campaign.places_cons (n : Nat) (seed : Seed) (seeds : List Seed) :
    Campaign.places n (seed :: seeds) = (UInt64.ofNat n, seed) :: Campaign.places (n + 1) seeds :=
  rfl

theorem perm_cons_filter {l : List OpenWorker} (hl : (l.map (·.index)).Nodup) {w : OpenWorker}
    (hw : w ∈ l) : l.Perm (w :: l.filter fun v => v.index ≠ w.index) := by
  have hfilter : w ∉ l.filter fun v => v.index ≠ w.index := by simp
  refine (List.perm_ext_iff_of_nodup (List.Nodup.of_map _ hl)
    (List.nodup_cons.2 ⟨hfilter, (List.Nodup.of_map _ hl).filter _⟩)).2 fun v => ?_
  constructor
  · intro hv
    by_cases h : v.index = w.index
    · exact List.mem_cons.2 (.inl (List.inj_on_of_nodup_map hl hv hw h))
    · exact List.mem_cons_of_mem _ (List.mem_filter.2 ⟨hv, by simpa using h⟩)
  · intro hv
    rcases List.mem_cons.1 hv with rfl | hv
    · exact hw
    · exact (List.mem_filter.1 hv).1

/-- The stage of a worker. -/
def Register.stage? (t : Register) (i : UInt64) : Option Stage := (t i).map (·.stage)

theorem Register.stage?_update (t : Register) (i j : UInt64) (row : Row) :
    Register.stage? (Function.update t i (some row)) j =
      if j = i then some row.stage else t.stage? j := by
  unfold Register.stage?
  by_cases h : j = i
  · subst h
    simp
  · simp [h]

theorem Register.exists_of_stage? {t : Register} {i : UInt64} {stage : Stage}
    (h : t.stage? i = some stage) : ∃ row, t i = some row ∧ row.stage = stage :=
  Option.map_eq_some_iff.1 h

namespace Orchestrator

variable {crew : WorkerTask → Conversation} {answers : UInt64 → Envelope → Bool → Prop}
  (k : Conduct crew answers) {ρ : Type} (env : Surroundings ρ)

/-- The floor is as the orchestrator knows it, and the tally holds the latest coverage. -/
structure Agrees (t : Register) (o : Orchestrator (Floor ρ)) : Prop where
  floor : o.world.Agrees k t o.world.disk
  latest : ∀ i, o.aggregator.latest.get? i = (t i).bind (·.last?)

/-- The files of the tally are on disk, and the report names them. -/
def Stored (dir : String) (o : Orchestrator (Floor ρ)) : Prop :=
  o.aggregator.files ≠ [] → (∃ d, o.world.disk = Floor.filed dir o.aggregator.files d) ∧
    o.coverageFiles = o.aggregator.files.map fun f => Path.join dir f.1

/-- From `o` to `o'` nothing was stored, and there was coverage only if `had` says so. -/
structure Unstored (had : Bool) (o o' : Orchestrator (Floor ρ)) : Prop where
  disk : o'.world.disk = o.world.disk
  files : o'.coverageFiles = o.coverageFiles
  tally : had = false → o'.aggregator = o.aggregator

variable {k} {env} {t : Register} {o o' : Orchestrator (Floor ρ)}

theorem mem_report {σ : Type} (o : Orchestrator σ) {g : Finding} :
    g ∈ o.report.workers ↔ g ∈ o.finished :=
  List.mem_mergeSort

theorem pairwise_report {σ : Type} (o : Orchestrator σ) (h : (o.finished.map (·.index)).Nodup) :
    o.report.workers.Pairwise fun a b => a.index < b.index := by
  have hnodup : (o.report.workers.map (·.index)).Nodup :=
    ((List.mergeSort_perm _ _).map _).nodup_iff.2 h
  have hsorted : o.report.workers.Pairwise fun a b => decide (a.index ≤ b.index) = true := by
    refine List.pairwise_mergeSort (fun a b c hab hbc => ?_) (fun a b => ?_) o.finished
    · exact decide_eq_true (UInt64.le_trans (of_decide_eq_true hab) (of_decide_eq_true hbc))
    · simpa using UInt64.le_total a.index b.index
  refine (hsorted.and (List.pairwise_map.1 hnodup)).imp fun {a b} ⟨hle, hne⟩ => ?_
  exact UInt64.lt_of_le_of_ne (of_decide_eq_true hle) hne

theorem Unstored.stored {dir : String} (h : Unstored false o o') (ho : Stored dir o) :
    Stored dir o' := by
  unfold Stored
  rw [h.tally rfl, h.disk, h.files]
  exact ho

/-- The floor changed, and with it what the orchestrator knows of one worker. -/
theorem Agrees.update (h : o.Agrees k t) {i : UInt64} {row : Row} (hi : t i = some row)
    (row' : Row) (hlast : row'.last? = row.last?) {f : Floor ρ}
    (hf : f.Agrees k (Function.update t i (some row')) o.world.disk) :
    Agrees k (Function.update t i (some row')) { o with world := f } := by
  refine ⟨?_, fun j => ?_⟩
  · have hdisk := hf.disk
    simpa only [hdisk] using hf
  · by_cases hj : j = i
    · subst hj
      rw [h.latest, hi, Function.update_self]
      simp [hlast]
    · rw [Function.update_of_ne hj]
      exact h.latest j

theorem Agrees.floor_eq (h : o.Agrees k t) {f : Floor ρ} (hf : f.Agrees k t o.world.disk) :
    Agrees k t { o with world := f } := by
  have hdisk := hf.disk
  exact ⟨by simpa only [hdisk] using hf, h.latest⟩

end Orchestrator

namespace Campaign

open FuzzCampaign.Action Orchestrator

variable {crew : WorkerTask → Conversation} {answers : UInt64 → Envelope → Bool → Prop}
  {k : Conduct crew answers} {ρ : Type} {env : Surroundings ρ} {t : Register}
  {o : Orchestrator (Floor ρ)} {i : UInt64} {row : Row} (plan : CampaignPlan) (rounds : Nat)

/-! ## Coverage -/

/-- A drain gives the tally the newest snapshot that is queued. -/
theorem gives_drain (h : o.Agrees k t) (hi : t i = some row) (stage : Stage)
    (hstep : ∀ st, k.holds row.task row.stage st → k.holds row.task stage st.takeSnapshots) :
    Gives (drain (Floor.host crew env) i) o fun had o' =>
      ∃ last?, o'.Agrees k (Function.update t i (some { row with stage, last? })) ∧
        o'.active = o.active ∧ o'.finished = o.finished ∧ Unstored had o o' := by
  rw [drain, Orchestrator.ask, gives_bind, gives_outside, gives_ask]
  have hfloor := h.floor.takeSnapshots hi env (env.host.snapshots i) stage hstep
  rcases htake : ((Floor.host crew env).snapshots i).run o.world with ⟨l, f⟩
  change (Floor.takeSnapshots env i (env.host.snapshots i)).run o.world = (l, f) at htake
  rw [htake] at hfloor
  change f.Agrees k (Function.update t i (some { row with
    stage, last? := l.getLast?.or row.last? })) o.world.disk at hfloor
  have hlatest : ∀ j, j ≠ i → o.aggregator.latest.get? j =
      (Function.update t i (some { row with stage, last? := l.getLast?.or row.last? }) j).bind
        (·.last?) := by
    intro j hj
    rw [Function.update_of_ne hj]
    exact h.latest j
  have hdisk := hfloor.disk
  dsimp only
  rcases hl : l.getLast? with _ | s
  · rw [hl, Option.none_or] at hfloor
    exact ⟨row.last?, h.update hi { row with stage } rfl hfloor, rfl, rfl,
      ⟨hdisk, rfl, fun _ => rfl⟩⟩
  · rw [hl, Option.some_or] at hfloor hlatest
    refine ⟨some s, ⟨?_, fun j => ?_⟩, rfl, rfl, ⟨hdisk, rfl, nofun⟩⟩
    · simpa only [hdisk] using hfloor
    · change (o.aggregator.latest.insert i s).get? j = _
      rw [SortedMap.get?_insert]
      by_cases hj : j = i
      · subst hj
        simp
      · rw [if_neg fun heq => hj (Std.LawfulEqCmp.eq_of_compare heq)]
        exact hlatest j hj

/-! ## One worker of a sweep -/

/-- The stage of a worker after a look at it. -/
def stageAfter (done : Bool) : Stage := if done then .signalled else .watched

theorem gives_look (h : o.Agrees k t) {w : OpenWorker} (hi : t w.index = some row)
    (hs : row.stage = .watched) :
    Gives (look (Floor.host crew env) plan w) o fun s o' => ∃ row',
      o'.Agrees k (Function.update t w.index (some row')) ∧ row'.task = row.task ∧
        row'.stage = stageAfter s.done ∧ s.worker.place = w.place ∧ o'.active = o.active ∧
        o'.finished = o.finished ∧ Unstored s.hadCoverage o o' := by
  rw [look, gives_bind]
  refine (gives_drain h hi row.stage fun st hholds => hs.symm ▸ k.gather (hs ▸ hholds)).imp ?_
  rintro had o₁ ⟨last?, hagrees, hactive, hfinished, hunstored⟩
  rw [Orchestrator.ask, gives_bind, gives_outside, gives_ask]
  rcases hlook : ((Floor.host crew env).completion w.index).run o₁.world with ⟨r, f⟩
  have hi₁ : Function.update t w.index (some { row with last? }) w.index =
      some { row with last? } := Function.update_self ..
  have hcompletion := hagrees.floor.completion hi₁ .signalled
    (fun st hholds => k.signal (hs ▸ hholds)) hlook
  rw [Function.update_idem] at hcompletion
  -- a worker that said nothing is looked after, which it does not notice
  have hgone : ∀ {disconnected : Bool} {since? : Option Nat},
      f.Agrees k (Function.update t w.index (some { row with last? })) o₁.world.disk →
      Gives (outside (lookAfter (Floor.host crew env) plan.deadWorkerGrace w.index disconnected
        since?)) { o₁ with world := f } fun _ o' =>
        o'.Agrees k (Function.update t w.index (some { row with last? })) ∧
          o'.active = o.active ∧ o'.finished = o.finished ∧ Unstored had o o' := by
    intro disconnected since? hf
    rw [gives_outside]
    refine (keeps_lookAfter_floor _ w.index disconnected since? f hf).imp fun _ f' hf' => ?_
    exact ⟨hagrees.floor_eq hf', hactive, hfinished,
      ⟨hf'.disk.trans hunstored.disk, hunstored.files, hunstored.tally⟩⟩
  rcases r with _ | _ | _
  · have hf := hcompletion.1 rfl
    refine ⟨{ row with stage := .signalled, last? }, ?_, rfl, rfl, rfl, hactive, hfinished,
      ⟨hf.disk.trans hunstored.disk, hunstored.files, hunstored.tally⟩⟩
    have hupdate := hagrees.update hi₁ { row with stage := .signalled, last? } rfl (f := f)
      (by rwa [Function.update_idem])
    rwa [Function.update_idem] at hupdate
  · rw [gives_bind]
    refine (hgone (hcompletion.2 (by simp))).imp fun _ o₂ ⟨h₂, hactive₂, hfinished₂, hun⟩ => ?_
    exact ⟨{ row with last? }, h₂, rfl, hs, rfl, hactive₂, hfinished₂, hun⟩
  · rw [gives_bind]
    refine (hgone (hcompletion.2 (by simp))).imp fun _ o₂ ⟨h₂, hactive₂, hfinished₂, hun⟩ => ?_
    exact ⟨{ row with last? }, h₂, rfl, hs, rfl, hactive₂, hfinished₂, hun⟩

/-- Every decision on a worker's failure is among the answers. -/
def DecidesAmong (crew : WorkerTask → Conversation) (answers : UInt64 → Envelope → Bool → Prop)
    (env : Surroundings ρ) (plan : CampaignPlan) : Prop :=
  ∀ i e f, Gives (decideAttach (Floor.host crew env) plan i e) f fun attach _ => answers i e attach

theorem gives_complete (ha : DecidesAmong crew answers env plan) (h : o.Agrees k t) {w : OpenWorker}
    (hi : t w.index = some row) (hs : row.stage = .signalled) (hindex : row.task.index = w.index) :
    Gives (complete (Floor.host crew env) plan rounds w) o fun had o' => ∃ row' v,
      o'.Agrees k (Function.update t w.index (some row')) ∧ row'.task = row.task ∧
        row'.stage = .closed v ∧ o'.active = o.active.filter (fun u => u.index ≠ w.index) ∧
        o'.finished = o.finished ++ [⟨w.index, w.seed, v⟩] ∧ Unstored had o o' := by
  rw [complete, gives_bind]
  change Gives _ { o with active := o.active.filter fun u => u.index ≠ w.index } _
  rw [gives_bind]
  refine gives_attempt ?_ fun e o' => gives_bind_never fun had o'' => gives_bind_never fun _ _ =>
    trivial
  rw [gives_outside]
  refine (gives_conclude plan rounds h.floor hi hs (hindex ▸ ha w.index)).imp fun v f hf => ?_
  have hi' : Function.update t w.index (some { row with stage := .settled v }) w.index =
      some { row with stage := .settled v } := Function.update_self ..
  have hupdate : Orchestrator.Agrees k (Function.update t w.index (some { row with
      stage := .settled v })) { o with
        world := f, active := o.active.filter fun u => u.index ≠ w.index } := by
    have hup := h.update hi { row with stage := .settled v } rfl hf
    exact ⟨hup.floor, hup.latest⟩
  rw [gives_bind]
  refine (gives_drain hupdate hi' (.closed v) fun st => k.close).imp ?_
  rintro had o' ⟨last?, hagrees, hactive, hfinished, hun⟩
  rw [Function.update_idem] at hagrees
  rw [gives_bind]
  refine ⟨{ row with stage := .closed v, last? }, v, ⟨hagrees.floor, hagrees.latest⟩, rfl, rfl,
    hactive, ?_, ⟨hun.disk.trans hf.disk, hun.files, hun.tally⟩⟩
  exact congrArg (· ++ [⟨w.index, w.seed, v⟩]) hfinished

/-! ## Coverage files -/

theorem store_succeeds (crew : WorkerTask → Conversation) (hwrites : env.Writes) (dir : String)
    (files : List (String × String)) (f : Floor ρ) :
    (((Floor.host crew env).store dir files).run f).1 = .ok () := by
  have haside : ((Floor.aside env (env.host.store dir files)).run f).1 = .ok () := hwrites ..
  rcases hstore : ((Floor.host crew env).store dir files).run f with ⟨r, f'⟩
  rcases Floor.onSuccess_cases env hstore with ⟨e, -, hq⟩ | ⟨rfl, -⟩
  · rw [hq] at haside
    cases haside
  · rfl

/-- What the orchestrator knows does not depend on what it writes; if nothing keeps it from writing,
the files are up to date afterwards. -/
theorem gives_persist (h : o.Agrees k t) :
    Gives (persist (Floor.host crew env) plan) o fun _ o' => o'.Agrees k t ∧
      o'.active = o.active ∧ o'.finished = o.finished ∧
      (env.Writes → o'.Stored plan.coverageDir) := by
  rw [persist, gives_bind, gives_get]
  by_cases hempty : o.aggregator.files.isEmpty = true
  · rw [if_pos hempty]
    refine ⟨h, rfl, rfl, fun _ hne => absurd ?_ hne⟩
    exact List.isEmpty_iff.1 hempty
  · rw [if_neg hempty, Orchestrator.ask, gives_bind, gives_outside, gives_ask]
    have hok := fun hwrites : env.Writes => store_succeeds crew hwrites plan.coverageDir
      o.aggregator.files o.world
    rcases hstore : ((Floor.host crew env).store plan.coverageDir o.aggregator.files).run o.world
      with ⟨e | _, f⟩
    · have hf := (h.floor.store hstore).2 nofun
      refine ⟨h.floor_eq hf, rfl, rfl, fun hwrites => ?_⟩
      rw [hstore] at hok
      cases hok hwrites
    · have hf := (h.floor.store hstore).1 rfl
      refine ⟨⟨?_, h.latest⟩, rfl, rfl, fun _ _ => ⟨⟨o.world.disk, hf.disk⟩, rfl⟩⟩
      have hdisk := hf.disk
      simpa only [hdisk] using hf

end Campaign

end FuzzCampaign
