import FuzzCampaign.Proofs.Course
import FuzzCampaign.Proofs.Tending

/-!
# Every worker is reaped once

The record of a campaign is kept with what the orchestrator knows. While the campaign goes on, every
worker that was started is left, and was not reaped so far, or it has a verdict and was reaped after
it. When the campaign breaks off, the workers without a verdict are told to end before they are
reaped.

* `Accounted`: the record of a campaign that goes on; `Accounted.tended`, `Accounted.finish`;
* `Remaining`: the record of a campaign that breaks off; `Remaining.unreaped`, `Remaining.reap`;
* `Orchestrator.Beginning`, `Watches`, `Looks`, `Settles`: the states of a campaign;
* `Campaign.yields_complete_of`: the rule for a worker that is handled;
* `Campaign.yields_spawnFrom`, **`yields_sweep`**, `yields_endAll`: the parts of a campaign;
* `Campaign.yields_orchestrate_of_course`, `yields_run`: a campaign from its parts;
* **`Campaign.run_reaps_once`**: however a run returns, every worker was reaped once.
-/

namespace FuzzCampaign

/-! ## The record of a campaign that goes on -/

/-- Every worker that was started is left and was not reaped so far, or it has a verdict and was
reaped after it. -/
structure Accounted (timeout : Duration) (left : List UInt64) (finished : List Finding)
    (log : List CampaignDeed) : Prop where
  starts : (startedIn log).Perm (left ++ finished.map (·.index))
  nodup : (startedIn log).Nodup
  calm : ∀ i ∈ left, Calm i log
  unreported : ∀ i ∈ left, reportsOf i log = []
  reaped : ∀ g ∈ finished, Reaped timeout g.index (Finished g.index g.outcome) log

section

variable {timeout : Duration} {left : List UInt64} {finished : List Finding} {i j : UInt64}
  {log l : List CampaignDeed}

theorem Accounted.nodup_all (h : Accounted timeout left finished log) :
    (left ++ finished.map (·.index)).Nodup :=
  h.starts.nodup_iff.1 h.nodup

theorem Accounted.nodup_left (h : Accounted timeout left finished log) : left.Nodup :=
  (List.nodup_append.1 h.nodup_all).1

theorem Accounted.ne_of_finished (h : Accounted timeout left finished log) (hi : i ∈ left)
    {g : Finding} (hg : g ∈ finished) : g.index ≠ i :=
  fun heq => (List.nodup_append.1 h.nodup_all).2.2 i hi g.index (List.mem_map_of_mem hg) heq.symm

theorem Accounted.append (h : Accounted timeout left finished log) (hstart : startedIn l = [])
    (hcalm : ∀ i ∈ left, Calm i l ∧ reportsOf i l = [])
    (halone : ∀ g ∈ finished, LeftAlone g.index l) :
    Accounted timeout left finished (log ++ l) := by
  have hstarts : startedIn (log ++ l) = startedIn log := by
    rw [startedIn_append, hstart, List.append_nil]
  refine ⟨?_, ?_, fun i hi => ?_, fun i hi => ?_, fun g hg => ?_⟩
  · rw [hstarts]
    exact h.starts
  · rw [hstarts]
    exact h.nodup
  · exact (h.calm i hi).append (hcalm i hi).1
  · rw [reportsOf_append, h.unreported i hi, (hcalm i hi).2]
    rfl
  · exact (h.reaped g hg).append (halone g hg)

/-- Something is done with a worker that is left, which is not reaped. -/
theorem Accounted.tended (h : Accounted timeout left finished log) (hi : i ∈ left) {n : Nat}
    (hl : Tended i n [] l) : Accounted timeout left finished (log ++ l) := by
  refine h.append hl.only.startedIn_eq (fun j hj => ?_) fun g hg => ?_
  · by_cases hji : j = i
    · subst hji
      exact ⟨hl.toCalm, hl.reports_eq⟩
    · have halone := hl.only.leftAlone hji
      exact ⟨halone.calm, halone.reportsOf_eq⟩
  · exact hl.only.leftAlone (h.ne_of_finished hi hg)

theorem Accounted.finish (h : Accounted timeout left finished log) (hi : i ∈ left)
    (hsignal : signalsOf i log = 1) {v : Verdict} (hl : Concluded timeout i v l)
    (snapshots : List Snapshot) (seed : Seed) :
    Accounted timeout (left.erase i) (finished ++ [⟨i, seed, v⟩])
      (log ++ (l ++ [.gathered i snapshots])) := by
  obtain ⟨before, ds, n, rfl, hbefore, hn, hds⟩ := hl
  have honly : OnlyAbout i (before ++ ds ++ [.gathered i snapshots]) :=
    (hbefore.only.append hds.onlyAbout).append (onlyAbout_nil.cons rfl (.inr rfl))
  have hstarts : startedIn (log ++ (before ++ ds ++ [.gathered i snapshots])) = startedIn log := by
    rw [startedIn_append, honly.startedIn_eq, List.append_nil]
  have hother : ∀ j ∈ left.erase i, j ∈ left ∧ j ≠ i := fun j hj =>
    ⟨List.mem_of_mem_erase hj, (h.nodup_left.mem_erase_iff.1 hj).1⟩
  refine ⟨?_, ?_, fun j hj => ?_, fun j hj => ?_, fun g hg => ?_⟩
  · rw [hstarts, List.map_append]
    refine h.starts.trans (((List.perm_cons_erase hi).append_right _).trans ?_)
    rw [← List.append_assoc]
    exact (List.perm_append_singleton ..).symm
  · rw [hstarts]
    exact h.nodup
  · obtain ⟨hj, hji⟩ := hother j hj
    exact (h.calm j hj).append (honly.leftAlone hji).calm
  · obtain ⟨hj, hji⟩ := hother j hj
    rw [reportsOf_append, h.unreported j hj, (honly.leftAlone hji).reportsOf_eq]
    rfl
  · rcases List.mem_append.1 hg with hg | hg
    · exact (h.reaped g hg).append (honly.leftAlone (h.ne_of_finished hi hg))
    · obtain rfl := List.mem_singleton.1 hg
      refine ⟨log ++ before, ds, [.gathered i snapshots], by simp,
        (h.calm i hi).append hbefore.toCalm, hds, leftAlone_gathered i snapshots, ?_, ?_⟩
      · rw [signalsOf_append, hsignal, hbefore.signals_eq, hn]
      · rw [reportsOf_append, h.unreported i hi, hbefore.reports_eq]
        rfl

/-- Every worker that was started was reaped once, and `how` holds of what came before. -/
def AllReaped (timeout : Duration) (how : UInt64 → List CampaignDeed → Prop)
    (log : List CampaignDeed) : Prop :=
  (startedIn log).Nodup ∧ ∀ i ∈ startedIn log, ReapedOnce timeout i (how i) log

/-- The report has a verdict of the worker, with which all was taken that the worker had to say. -/
def Findings.Concludes (findings : Findings) (i : UInt64) (log : List CampaignDeed) : Prop :=
  ∃ g ∈ findings.workers, g.index = i ∧ Finished i g.outcome log

/-- When no worker is left, every worker was reaped after its verdict. -/
theorem Accounted.allReaped (h : Accounted timeout [] finished log) {findings : Findings}
    (hmem : ∀ g ∈ finished, g ∈ findings.workers) : AllReaped timeout findings.Concludes log := by
  refine ⟨h.nodup, fun i hi => ?_⟩
  obtain ⟨g, hg, rfl⟩ := List.mem_map.1 (h.starts.mem_iff.1 hi)
  exact ((h.reaped g hg).imp fun _ hfin => ⟨g, hmem g hg, rfl, hfin⟩).once

/-! ## The record of a campaign that breaks off -/

/-- A worker has a verdict, or was told to end. -/
def Ended (i : UInt64) (log : List CampaignDeed) : Prop :=
  (∃ v, Finished i v log) ∨ ∃ answer, .commanded i .shutdown answer ∈ log

/-- Every worker that was started is left and was not reaped so far, or it was reaped, with a
verdict or after it was told to end. -/
structure Remaining (timeout : Duration) (left : List UInt64) (log : List CampaignDeed) : Prop where
  nodup_starts : (startedIn log).Nodup
  nodup : left.Nodup
  calm : ∀ i ∈ left, Calm i log
  reaped : ∀ i ∈ startedIn log, i ∈ left ∨ Reaped timeout i (Ended i) log

theorem Accounted.remaining (h : Accounted timeout left finished log) :
    Remaining timeout left log := by
  refine ⟨h.nodup, h.nodup_left, h.calm, fun i hi => ?_⟩
  rcases List.mem_append.1 (h.starts.mem_iff.1 hi) with hleft | hfinished
  · exact .inl hleft
  · obtain ⟨g, hg, rfl⟩ := List.mem_map.1 hfinished
    exact .inr ((h.reaped g hg).imp fun _ hfin => .inl ⟨g.outcome, hfin⟩)

theorem Remaining.unreaped (h : Remaining timeout left log) (hi : i ∈ left) (hl : Unreaped i l) :
    Remaining timeout left (log ++ l) := by
  have hstarts : startedIn (log ++ l) = startedIn log := by
    rw [startedIn_append, hl.only.startedIn_eq, List.append_nil]
  refine ⟨hstarts ▸ h.nodup_starts, h.nodup, fun j hj => (h.calm j hj).append ?_, fun j hj => ?_⟩
  · by_cases hji : j = i
    · exact hji ▸ hl.toCalm
    · exact (hl.only.leftAlone hji).calm
  · rw [hstarts] at hj
    by_cases hji : j = i
    · exact .inl (hji ▸ hi)
    · exact (h.reaped j hj).imp_right fun hreaped => hreaped.append (hl.only.leftAlone hji)

theorem Remaining.reap (h : Remaining timeout left log) (hi : i ∈ left) (hend : Ended i log)
    (hl : Reaping timeout i l) : Remaining timeout (left.erase i) (log ++ l) := by
  have hstarts : startedIn (log ++ l) = startedIn log := by
    rw [startedIn_append, hl.onlyAbout.startedIn_eq, List.append_nil]
  refine ⟨hstarts ▸ h.nodup_starts, h.nodup.erase i, fun j hj => ?_, fun j hj => ?_⟩
  · have hji := (h.nodup.mem_erase_iff.1 hj).1
    exact (h.calm j (List.mem_of_mem_erase hj)).append (hl.onlyAbout.leftAlone hji).calm
  · rw [hstarts] at hj
    by_cases hji : j = i
    · subst hji
      exact .inr ⟨log, l, [], by simp, h.calm j hi, hl, leftAlone_nil, hend⟩
    · rcases h.reaped j hj with hleft | hreaped
      · exact .inl (h.nodup.mem_erase_iff.2 ⟨hji, hleft⟩)
      · exact .inr (hreaped.append (hl.onlyAbout.leftAlone hji))

theorem unreaped_shutdown (i : UInt64) (answer : Except CampaignError Unit) :
    Unreaped i [.commanded i .shutdown answer] :=
  (tended_singleton (d := .commanded i .shutdown answer) rfl (.inr rfl) rfl).toUnreaped

theorem Remaining.shutdown (h : Remaining timeout left log) (hi : i ∈ left)
    {answer : Except CampaignError Unit} (hl : Reaping timeout i l) :
    Remaining timeout (left.erase i) (log ++ .commanded i .shutdown answer :: l) := by
  have htold := h.unreaped hi (unreaped_shutdown i answer)
  have hreaped := htold.reap hi (.inr ⟨answer, by simp⟩) hl
  rw [List.append_assoc] at hreaped
  exact hreaped

theorem Remaining.allReaped (h : Remaining timeout [] log) : AllReaped timeout Ended log :=
  ⟨h.nodup_starts, fun i hi => ((h.reaped i hi).resolve_left List.not_mem_nil).once⟩

end

/-! ## The states of a campaign -/

namespace Orchestrator

variable {σ : Type} {timeout : Duration} {o o' o'' : Orchestrator (Recorded CampaignDeed σ)}
  {l l' : List CampaignDeed}

/-- The record of the world around an orchestrator. -/
def log (o : Orchestrator (Recorded CampaignDeed σ)) : List CampaignDeed := o.world.deeds

/-- The indexes of the workers that are left. -/
def indexes (o : Orchestrator σ) : List UInt64 := o.active.map (·.index)

/-- Worker `i` is no longer one of those that are left. -/
def without (o : Orchestrator σ) (i : UInt64) : Orchestrator σ :=
  { o with active := o.active.filter fun v => v.index ≠ i }

/-- From `o` to `o'` deeds were added to the record, and no worker was started or got a verdict. -/
structure Grows (o : Orchestrator (Recorded CampaignDeed σ)) (l : List CampaignDeed)
    (o' : Orchestrator (Recorded CampaignDeed σ)) : Prop where
  log : o'.log = o.log ++ l
  active : o'.active = o.active
  finished : o'.finished = o.finished

/-- The workers are accounted for while the campaign goes on. -/
def Accounts (timeout : Duration) (o : Orchestrator (Recorded CampaignDeed σ)) : Prop :=
  Accounted timeout o.indexes o.finished o.log

/-- If the campaign breaks off with an error, then the workers can be ended that are left. -/
def Breaks (timeout : Duration) (stop : Stop) (o : Orchestrator (Recorded CampaignDeed σ)) : Prop :=
  ∀ e, stop = .error e → Remaining timeout o.indexes o.log

/-- While the workers are started nothing else is done. -/
structure Beginning (spawned : List UInt64) (o : Orchestrator (Recorded CampaignDeed σ)) :
    Prop where
  log : ∀ d ∈ o.log, ∃ task answer, d = .started task answer
  starts : startedIn o.log = spawned
  indexes : o.indexes = spawned
  finished : o.finished = []

/-- Between two sweeps no worker that is left has signalled. -/
def Watches (timeout : Duration) (o : Orchestrator (Recorded CampaignDeed σ)) : Prop :=
  o.Accounts timeout ∧ ∀ i ∈ o.indexes, signalsOf i o.log = 0

/-- Some workers have been looked at in a sweep, others are left to look at. -/
def Looks (timeout : Duration) (made : List Campaign.Sighting) (left : List OpenWorker)
    (o : Orchestrator (Recorded CampaignDeed σ)) : Prop :=
  o.Accounts timeout ∧ o.indexes = (made.map (·.worker) ++ left).map (·.index) ∧
    (∀ s ∈ made, signalsOf s.worker.index o.log = s.done.toNat) ∧
    ∀ w ∈ left, signalsOf w.index o.log = 0

/-- Some workers that are done are left to handle in a sweep. -/
def Settles (timeout : Duration) (left : List OpenWorker)
    (o : Orchestrator (Recorded CampaignDeed σ)) : Prop :=
  o.Accounts timeout ∧ (left.map (·.index)).Nodup ∧
    (∀ w ∈ left, w.index ∈ o.indexes ∧ signalsOf w.index o.log = 1) ∧
    ∀ i ∈ o.indexes, i ∈ left.map (·.index) ∨ signalsOf i o.log = 0

theorem breaks_abort (message : String) : o.Breaks timeout (.abort message) := by
  intro e he
  cases he

theorem breaks_outOfRounds : o.Breaks timeout .outOfRounds := by
  intro e he
  cases he

theorem indexes_without (h : o.indexes.Nodup) (i : UInt64) :
    (o.without i).indexes = o.indexes.erase i := by
  rw [h.erase_eq_filter, indexes, indexes, without, List.filter_map]
  refine congrArg _ (List.filter_congr fun v _ => ?_)
  by_cases heq : v.index = i <;> simp [heq]

theorem Grows.refl : o.Grows [] o := ⟨(List.append_nil _).symm, rfl, rfl⟩

theorem grows_outside {r : Recorded CampaignDeed σ} (h : r.deeds = o.log ++ l) :
    o.Grows l { o with world := r } := ⟨h, rfl, rfl⟩

theorem Grows.trans (h : o.Grows l o') (h' : o'.Grows l' o'') : o.Grows (l ++ l') o'' := by
  refine ⟨?_, h'.active.trans h.active, h'.finished.trans h.finished⟩
  rw [h'.log, h.log, List.append_assoc]

theorem Grows.indexes (h : o.Grows l o') : o'.indexes = o.indexes :=
  congrArg (List.map OpenWorker.index) h.active

theorem Grows.accounts (h : o.Grows l o')
    (hl : Accounted timeout o.indexes o.finished (o.log ++ l)) : o'.Accounts timeout := by
  unfold Accounts
  rw [h.indexes, h.finished, h.log]
  exact hl

theorem Grows.breaks (h : o.Grows l o') (hl : Remaining timeout o.indexes (o.log ++ l))
    (stop : Stop) : o'.Breaks timeout stop := by
  intro e _
  rw [h.indexes, h.log]
  exact hl

theorem Beginning.watches {spawned : List UInt64} (h : o.Beginning spawned) (timeout : Duration)
    (hn : spawned.Nodup) : o.Watches timeout := by
  have hlog := h.log
  refine ⟨⟨?_, ?_, fun i _ => calm_of_started hlog, fun i _ => ?_, ?_⟩, fun i _ => ?_⟩
  · rw [h.starts, h.indexes, h.finished, List.map_nil, List.append_nil]
  · rw [h.starts]
    exact hn
  · refine List.filterMap_eq_nil_iff.2 fun d hd => ?_
    obtain ⟨task, answer, rfl⟩ := hlog d hd
    rfl
  · rw [h.finished]
    exact List.forall_mem_nil _
  · refine List.countP_eq_zero.2 fun d hd => ?_
    obtain ⟨task, answer, rfl⟩ := hlog d hd
    exact Bool.false_ne_true

theorem Watches.grows (h : o.Watches timeout) (hgrows : o.Grows l o')
    (hl : ∀ d ∈ l, ∃ pause, d = .slept pause) : o'.Watches timeout := by
  have halone : ∀ i, LeftAlone i l := by
    intro i d hd habout
    obtain ⟨pause, rfl⟩ := hl d hd
    cases habout
  have hstart : startedIn l = [] := List.filterMap_eq_nil_iff.2 fun d hd => by
    obtain ⟨pause, rfl⟩ := hl d hd
    rfl
  refine ⟨hgrows.accounts (h.1.append hstart (fun i _ => ⟨(halone i).calm, (halone i).reportsOf_eq⟩)
    fun g _ => halone g.index), fun i hi => ?_⟩
  rw [hgrows.indexes] at hi
  rw [hgrows.log, signalsOf_append, h.2 i hi, (halone i).signalsOf_eq]

/-- Once all workers are looked at, those that are done are left to handle. -/
theorem Looks.settles {sightings : List Campaign.Sighting}
    (h : o.Looks timeout sightings []) :
    Settles timeout ((sightings.filter (·.done)).map (·.worker))
      { o with active := sightings.map (·.worker) } := by
  obtain ⟨haccounts, hindexes, hmade, -⟩ := h
  rw [List.append_nil] at hindexes
  have hnodup := haccounts.nodup_left
  rw [hindexes] at hnodup
  refine ⟨?_, ?_, fun w hw => ?_, fun i hi => ?_⟩
  · unfold Accounts at haccounts
    rw [hindexes] at haccounts
    exact haccounts
  · exact hnodup.sublist (List.Sublist.map OpenWorker.index
      (List.Sublist.map Campaign.Sighting.worker List.filter_sublist))
  · obtain ⟨s, hs, rfl⟩ := List.mem_map.1 hw
    obtain ⟨hs, hdone⟩ := List.mem_filter.1 hs
    refine ⟨List.mem_map_of_mem (List.mem_map_of_mem hs), ?_⟩
    refine (hmade s hs).trans ?_
    rw [hdone]
    rfl
  · obtain ⟨w, hw, rfl⟩ := List.mem_map.1 hi
    obtain ⟨s, hs, rfl⟩ := List.mem_map.1 hw
    by_cases hdone : s.done = true
    · exact .inl (List.mem_map_of_mem (List.mem_map_of_mem (List.mem_filter.2 ⟨hs, hdone⟩)))
    · refine .inr ((hmade s hs).trans ?_)
      rw [eq_false_of_ne_true hdone]
      rfl

end Orchestrator

namespace Action

variable {σ α : Type} {act : Action (Recorded CampaignDeed σ) α} {Q : α → List CampaignDeed → Prop}
  {E : Stop → List CampaignDeed → Prop}

theorem Adds.outside (h : Adds act Q E) (o : Orchestrator (Recorded CampaignDeed σ)) :
    Yields (Orchestrator.outside act) o (fun a o' => ∃ l, o.Grows l o' ∧ Q a l)
      fun stop o' => ∃ l, o.Grows l o' ∧ E stop l := by
  rw [yields_outside]
  refine (h o.world).mono ?_ ?_
  · rintro a w ⟨l, hl, hq⟩
    exact ⟨l, Orchestrator.grows_outside hl, hq⟩
  · rintro stop w ⟨l, hl, he⟩
    exact ⟨l, Orchestrator.grows_outside hl, he⟩

/-- What is done outside and cannot stop. -/
theorem Adds.outside_sure (h : Adds act Q fun _ _ => False)
    (o : Orchestrator (Recorded CampaignDeed σ))
    {E : Stop → Orchestrator (Recorded CampaignDeed σ) → Prop} :
    Yields (Orchestrator.outside act) o (fun a o' => ∃ l, o.Grows l o' ∧ Q a l) E := by
  refine (h.outside o).mono (fun _ _ => id) ?_
  rintro stop o' ⟨_, _, hstop⟩
  exact hstop.elim

end Action

namespace Campaign

open FuzzCampaign.Action Orchestrator

variable {σ : Type} (host : CampaignHost σ) (plan : CampaignPlan) (rounds : Nat)
  {o : Orchestrator (Recorded CampaignDeed σ)}
  {E : Stop → Orchestrator (Recorded CampaignDeed σ) → Prop}

/-! ## One worker of a sweep -/

theorem yields_drain (i : UInt64) :
    Yields (drain host.recorded i) o (fun _ o' => ∃ snapshots, o.Grows [.gathered i snapshots] o')
      E := by
  rw [drain, Orchestrator.ask, yields_bind, yields_outside, yields_ask]
  rcases ((host.recorded.snapshots i).run o.world).1.getLast? with _ | s
  · exact ⟨_, rfl, rfl, rfl⟩
  · exact ⟨_, rfl, rfl, rfl⟩

theorem yields_look (w : OpenWorker) :
    Yields (look host.recorded plan w) o (fun s o' => ∃ l, o.Grows l o' ∧
      s.worker.index = w.index ∧ Tended w.index s.done.toNat [] l)
      fun _ o' => ∃ l, o.Grows l o' ∧ Unreaped w.index l := by
  rw [look, yields_bind]
  refine (yields_drain host w.index).imp ?_
  rintro had o₁ ⟨snapshots, hgrows⟩
  have hgathered := tended_singleton (i := w.index) (d := .gathered w.index snapshots) rfl
    (.inr rfl) rfl
  rw [yields_bind]
  refine ((adds_noting (Q := fun r l => l = [.polled w.index r]) fun _ => rfl).outside_sure
    o₁).imp ?_
  rintro r o₂ ⟨_, hgrows₂, rfl⟩
  have hpolled := hgrows.trans hgrows₂
  -- a worker that said nothing is looked after
  have hlook : ∀ disconnected, CampaignDeed.isSignal w.index (.polled w.index r) = false →
      Yields (outside (lookAfter host.recorded plan.deadWorkerGrace w.index disconnected
        w.goneSince?)) o₂ (fun _ o' => ∃ l, o.Grows l o' ∧ Tended w.index 0 [] l)
        fun _ o' => ∃ l, o.Grows l o' ∧ Unreaped w.index l := by
    intro disconnected hr
    have htended : ∀ l, Glance w.index l →
        Tended w.index 0 [] ([.gathered w.index snapshots] ++ [.polled w.index r] ++ l) := by
      intro l hl
      have h := hl.tended (d := .polled w.index r) rfl rfl rfl
      rw [hr] at h
      rw [List.append_assoc]
      exact hgathered.append h
    refine ((adds_lookAfter host w.index plan.deadWorkerGrace disconnected w.goneSince?).outside
      o₂).mono ?_ ?_
    · rintro since? o₃ ⟨l, hgrows₃, hl⟩
      exact ⟨_, hpolled.trans hgrows₃, htended l hl⟩
    · rintro stop o₃ ⟨l, hgrows₃, hl⟩
      exact ⟨_, hpolled.trans hgrows₃, (htended l hl).toUnreaped⟩
  rcases r with _ | _ | _
  · have hsignal := tended_singleton (i := w.index) (d := .polled w.index (.got ())) rfl (.inr rfl)
      rfl
    refine ⟨_, hpolled, rfl, ?_⟩
    simpa [CampaignDeed.isSignal, CampaignDeed.report?] using hgathered.append hsignal
  · rw [yields_bind]
    refine (hlook false rfl).imp fun since? o₃ h => ?_
    obtain ⟨l, hgrows₃, hl⟩ := h
    exact ⟨l, hgrows₃, rfl, hl⟩
  · rw [yields_bind]
    refine (hlook true rfl).imp fun since? o₃ h => ?_
    obtain ⟨l, hgrows₃, hl⟩ := h
    exact ⟨l, hgrows₃, rfl, hl⟩

theorem yields_look_next {made : List Sighting} {w : OpenWorker} {left : List OpenWorker}
    (h : o.Looks plan.reapTimeout made (w :: left)) :
    Yields (look host.recorded plan w) o
      (fun s o' => o'.Looks plan.reapTimeout (made ++ [s]) left)
      fun stop o' => o'.Breaks plan.reapTimeout stop := by
  obtain ⟨haccounts, hindexes, hmade, hleft⟩ := h
  have hw : w.index ∈ o.indexes := by
    rw [hindexes]
    simp
  have hnodup := haccounts.nodup_left
  rw [hindexes, List.map_append, List.map_cons, List.nodup_append, List.nodup_cons] at hnodup
  refine (yields_look host plan w).mono ?_ ?_
  · rintro s o' ⟨l, hgrows, hs, hl⟩
    refine ⟨hgrows.accounts (haccounts.tended hw hl), ?_, fun s' hs' => ?_, fun u hu => ?_⟩
    · rw [hgrows.indexes, hindexes]
      simp [hs]
    · rw [hgrows.log, signalsOf_append]
      rcases List.mem_append.1 hs' with hs' | hs'
      · have hne : s'.worker.index ≠ w.index := by
          refine hnodup.2.2 s'.worker.index ?_ w.index (by simp)
          simpa using ⟨s', hs', rfl⟩
        rw [hmade s' hs', (hl.only.leftAlone hne).signalsOf_eq, Nat.add_zero]
      · obtain rfl := List.mem_singleton.1 hs'
        rw [hs, hleft w List.mem_cons_self, hl.signals_eq, Nat.zero_add]
    · have hne : u.index ≠ w.index := fun heq => hnodup.2.1.1 (heq ▸ List.mem_map_of_mem hu)
      rw [hgrows.log, signalsOf_append, hleft u (List.mem_cons_of_mem _ hu),
        (hl.only.leftAlone hne).signalsOf_eq]
  · rintro stop o' ⟨l, hgrows, hl⟩
    exact hgrows.breaks (haccounts.remaining.unreaped hw hl) stop

/-- **What handling a worker comes to** follows from what its verdict comes to, from the coverage
that is gathered then and, after an error, from ending the worker. -/
theorem yields_complete_of {w : OpenWorker}
    {P : Verdict → Recorded CampaignDeed σ → Prop} {F : Stop → Recorded CampaignDeed σ → Prop}
    {Q : Orchestrator (Recorded CampaignDeed σ) → Prop}
    (hconclude : Yields (conclude host.recorded plan rounds w.index) o.world P F)
    (hdone : ∀ v r o' snapshots, P v r →
      Grows { o.without w.index with world := r } [.gathered w.index snapshots] o' →
      Q { o' with finished := o'.finished ++ [⟨w.index, w.seed, v⟩] })
    (hended : ∀ e r o' snapshots, F (.error e) r →
      Grows { o.without w.index with world := r } [.gathered w.index snapshots] o' →
      Yields (outside (shutdown host.recorded plan.reapTimeout rounds w.index)) o'
        (fun _ => E (.error e)) E)
    (hstopped : ∀ stop r, (∀ e, stop ≠ .error e) → F stop r →
      E stop { o.without w.index with world := r }) :
    Yields (complete host.recorded plan rounds w) o (fun _ => Q) E := by
  rw [complete, yields_bind]
  change Yields _ (o.without w.index) _ _
  rw [yields_bind, yields_attempt, yields_outside]
  refine hconclude.mono (fun v r hv => ?_) fun stop r hstop => ?_
  · rw [yields_bind]
    refine (yields_drain host w.index).imp ?_
    rintro had o' ⟨snapshots, hgrows⟩
    exact hdone v r o' snapshots hv hgrows
  · -- only after an error is the worker still ended
    rcases stop with e | message | _
    · change Yields (_ >>= _) { o.without w.index with world := r } _ _
      rw [yields_bind]
      refine (yields_drain host w.index).imp ?_
      rintro had o' ⟨snapshots, hgrows⟩
      exact yields_bind.2 (hended e r o' snapshots hstop hgrows)
    · exact hstopped _ r (fun _ heq => by cases heq) hstop
    · exact hstopped _ r (fun _ heq => by cases heq) hstop

/-- A worker that is done is reaped and gets its verdict, or it is told to end and reaped. -/
theorem yields_complete (w : OpenWorker) (haccounts : o.Accounts plan.reapTimeout)
    (hw : w.index ∈ o.indexes) (hsignal : signalsOf w.index o.log = 1) :
    Yields (complete host.recorded plan rounds w) o
      (fun _ o' => o'.Accounts plan.reapTimeout ∧ o'.indexes = o.indexes.erase w.index ∧
        ∀ j, j ≠ w.index → signalsOf j o'.log = signalsOf j o.log)
      fun stop o' => o'.Breaks plan.reapTimeout stop := by
  have hindexes := indexes_without haccounts.nodup_left w.index
  refine yields_complete_of host plan rounds (adds_conclude host plan rounds w.index o.world)
    ?_ ?_ ?_
  · rintro v r o' snapshots ⟨l, hlog, hl⟩ hgathered
    have hgrows := (grows_outside (o := o.without w.index) hlog).trans hgathered
    have hfinish := haccounts.finish hw hsignal hl snapshots w.seed
    have hfinished : o'.finished = o.finished := hgrows.finished
    have honly : OnlyAbout w.index (l ++ [.gathered w.index snapshots]) := by
      obtain ⟨before, ds, n, rfl, hbefore, -, hds⟩ := hl
      exact (hbefore.only.append hds.onlyAbout).append (onlyAbout_nil.cons rfl (.inr rfl))
    refine ⟨?_, hgrows.indexes.trans hindexes, fun j hj => ?_⟩
    · change Accounted plan.reapTimeout o'.indexes (o'.finished ++ [⟨w.index, w.seed, v⟩]) o'.log
      rw [hgrows.indexes, hindexes, hgrows.log, hfinished]
      exact hfinish
    · change signalsOf j o'.log = _
      rw [hgrows.log, signalsOf_append, (honly.leftAlone hj).signalsOf_eq]
      rfl
  · rintro e r o₁ snapshots ⟨l, hlog, hl⟩ hgathered
    have hgrows := (grows_outside (o := o.without w.index) hlog).trans hgathered
    have htended := tended_singleton (i := w.index) (d := .gathered w.index snapshots) rfl
      (.inr rfl) rfl
    refine ((adds_shutdown host rounds w.index plan.reapTimeout).outside o₁).mono ?_ ?_
    · rintro _ o₂ ⟨_, hgrows₂, answer, ds, rfl, hds⟩
      refine (hgrows.trans hgrows₂).breaks ?_ _
      rw [hindexes, ← List.append_assoc]
      exact (haccounts.remaining.unreaped hw (hl.unreaped.append htended.toUnreaped)).shutdown
        hw hds
    · rintro stop o₂ ⟨_, _, rfl⟩
      exact breaks_outOfRounds
  · rintro (e | message | _) r hne -
    · exact absurd rfl (hne e)
    · exact breaks_abort message
    · exact breaks_outOfRounds

theorem yields_complete_next {w : OpenWorker} {left : List OpenWorker}
    (h : o.Settles plan.reapTimeout (w :: left)) :
    Yields (complete host.recorded plan rounds w) o
      (fun _ o' => o'.Settles plan.reapTimeout left)
      fun stop o' => o'.Breaks plan.reapTimeout stop := by
  obtain ⟨haccounts, hnodup, hleft, hothers⟩ := h
  obtain ⟨hw, hsignal⟩ := hleft w List.mem_cons_self
  rw [List.map_cons, List.nodup_cons] at hnodup
  refine (yields_complete host plan rounds w haccounts hw hsignal).imp ?_
  rintro had o' ⟨haccounts', hindexes, hsignals⟩
  refine ⟨haccounts', hnodup.2, fun u hu => ?_, fun i hi => ?_⟩
  · have hne : u.index ≠ w.index := fun heq => hnodup.1 (heq ▸ List.mem_map_of_mem hu)
    obtain ⟨hu', hsignal'⟩ := hleft u (List.mem_cons_of_mem _ hu)
    rw [hsignals u.index hne, hindexes]
    exact ⟨haccounts.nodup_left.mem_erase_iff.2 ⟨hne, hu'⟩, hsignal'⟩
  · rw [hindexes] at hi
    obtain ⟨hne, hi⟩ := haccounts.nodup_left.mem_erase_iff.1 hi
    rw [hsignals i hne]
    exact (hothers i hi).imp_left fun hmem => (List.mem_cons.1 hmem).resolve_left hne

/-! ## Sweeps -/

theorem yields_aside {α : Type} {q : StateM (Recorded CampaignDeed σ) α} (q' : StateM σ α)
    (hq : q = Recorded.aside q') :
    Yields (Orchestrator.ask q) o (fun _ o' => o.Grows [] o') E := by
  rw [hq, Orchestrator.ask, yields_outside]
  exact ⟨(List.append_nil _).symm, rfl, rfl⟩

theorem yields_persist :
    Yields (persist host.recorded plan) o (fun _ o' => o.Grows [] o') E := by
  rw [persist, yields_bind, yields_get]
  by_cases hempty : o.aggregator.files.isEmpty = true
  · rw [if_pos hempty]
    exact Grows.refl
  · rw [if_neg hempty, yields_bind]
    refine (yields_aside _ rfl).imp fun r o₁ h₁ => ?_
    rcases r with e | _
    · exact h₁
    · exact ⟨h₁.log, h₁.active, h₁.finished⟩

theorem yields_showStatus :
    Yields (showStatus host.recorded plan) o (fun _ o' => o.Grows [] o')
      fun stop o' => ∃ message, stop = .abort message ∧ o.Grows [] o' := by
  rw [showStatus, yields_bind, yields_get]
  rcases o.aggregator.functionLines with e | lines
  · exact ⟨e.message, rfl, Grows.refl⟩
  · exact yields_aside _ rfl

/-- When the workers that are done have been handled, nothing is done but a pause. -/
theorem yields_afterwards (had idle : Bool) :
    Yields (do
      if had then persist host.recorded plan
      showStatus host.recorded plan
      if idle then Orchestrator.ask (host.recorded.sleep plan.pollInterval)) o
      (fun _ o' => ∃ l, o.Grows l o' ∧ ∀ d ∈ l, ∃ pause, d = .slept pause)
      fun stop o' => ∃ message, stop = .abort message ∧ o.Grows [] o' := by
  have hend : ∀ o₁, o.Grows [] o₁ → Yields (do
      showStatus host.recorded plan
      if idle then Orchestrator.ask (host.recorded.sleep plan.pollInterval)) o₁
      (fun _ o' => ∃ l, o.Grows l o' ∧ ∀ d ∈ l, ∃ pause, d = .slept pause)
      fun stop o' => ∃ message, stop = .abort message ∧ o.Grows [] o' := by
    intro o₁ h₁
    rw [yields_bind]
    refine (yields_showStatus host plan).mono (fun _ o₂ h₂ => ?_) ?_
    · split_ifs
      · exact ⟨[.slept plan.pollInterval], (h₁.trans h₂).trans ⟨rfl, rfl, rfl⟩,
          List.forall_mem_singleton.2 ⟨_, rfl⟩⟩
      · exact ⟨[], h₁.trans h₂, List.forall_mem_nil _⟩
    · rintro stop o₂ ⟨message, hstop, h₂⟩
      exact ⟨message, hstop, h₁.trans h₂⟩
  by_cases hhad : had = true
  · rw [if_pos hhad]
    exact yields_bind.2 ((yields_persist host plan).imp fun _ o₁ h₁ => hend o₁ h₁)
  · rw [if_neg hhad]
    exact hend o Grows.refl

/-- **A sweep accounts for the workers.** -/
theorem yields_sweep (h : o.Watches plan.reapTimeout) :
    Yields (sweep host.recorded plan rounds) o (fun _ o' => o'.Watches plan.reapTimeout)
      fun stop o' => o'.Breaks plan.reapTimeout stop := by
  have hlooks : o.Looks plan.reapTimeout [] o.active :=
    ⟨h.1, rfl, List.forall_mem_nil _, fun w hw => h.2 w.index (List.mem_map_of_mem hw)⟩
  change Yields (o.active.mapM (look host.recorded plan) >>= _) o _ _
  rw [yields_bind]
  refine (yields_mapM (fun made left o => o.Looks plan.reapTimeout made left)
    (fun made w left o h => yields_look_next host plan h) o.active [] hlooks).imp
    fun sightings o₁ h₁ => ?_
  rw [yields_bind]
  change Yields (_ >>= _) { o₁ with active := sightings.map Sighting.worker } _ _
  rw [yields_bind]
  refine (yields_mapM (fun _ left o => o.Settles plan.reapTimeout left)
    (fun made w left o h => yields_complete_next host plan rounds h) _ [] h₁.settles).imp
    fun late o₂ h₂ => ?_
  have hwatches : o₂.Watches plan.reapTimeout :=
    ⟨h₂.1, fun i hi => (h₂.2.2.2 i hi).resolve_left List.not_mem_nil⟩
  refine (yields_afterwards host plan _ _).mono ?_ ?_
  · rintro _ o₃ ⟨l, hgrows, hl⟩
    exact hwatches.grows hgrows hl
  · rintro _ o₃ ⟨message, rfl, -⟩
    exact breaks_abort message

theorem yields_sweeps (h : o.Watches plan.reapTimeout) :
    Yields (repeatUntil (sweepRound host.recorded plan rounds) rounds) o
      (fun _ o' => o'.Accounts plan.reapTimeout ∧ o'.active = [])
      fun stop o' => o'.Breaks plan.reapTimeout stop := by
  refine yields_repeatUntil (Watches plan.reapTimeout) (fun o h => ?_)
    (fun _ _ => breaks_outOfRounds) rounds h
  change Yields (if o.active.isEmpty then pure (some ()) else do
    sweep host.recorded plan rounds
    return none) o _ _
  split_ifs with hempty
  · exact ⟨h.1, List.isEmpty_iff.1 hempty⟩
  · exact yields_bind.2 ((yields_sweep host plan rounds h).imp fun _ _ h => h)

/-! ## The start of the workers -/

theorem yields_spawnWorker {test : TestCase} {spawned : List UInt64} (h : o.Beginning spawned)
    (i : UInt64) (seed : Seed) :
    Yields (spawnWorker host.recorded plan test i seed) o
      (fun _ o' => o'.Beginning (spawned ++ [i]))
      fun stop o' => ∀ e, stop = .error e → o'.Beginning spawned := by
  rw [spawnWorker, yields_bind]
  refine (yields_aside _ rfl).imp fun _ o₁ h₁ => ?_
  rcases htask : plan.taskOf test i seed with e | task
  · intro e' he
    cases he
  · obtain rfl := CampaignPlan.index_of_taskOf htask
    have hlog : o₁.log = o.log := by rw [h₁.log, List.append_nil]
    have hstarted : ∀ answer, ∀ d ∈ o₁.log ++ [.started task answer],
        ∃ task answer, d = .started task answer := by
      intro answer d hd
      rw [hlog] at hd
      rcases List.mem_append.1 hd with hd | hd
      · exact h.log d hd
      · exact ⟨task, answer, List.mem_singleton.1 hd⟩
    change Yields (outside (perform (host.recorded.spawn task)) >>= fun _ => _) o₁ _ _
    rw [yields_bind, yields_outside, yields_perform]
    have hspawn : host.recorded.spawn task = Recorded.noting (.started task) (host.spawn task) :=
      rfl
    rw [hspawn, Recorded.run_noting]
    rcases ((host.spawn task).run o₁.world.world).1 with e | _
    · refine fun _ _ => ⟨hstarted (.error e), ?_, h₁.indexes.trans h.indexes,
        h₁.finished.trans h.finished⟩
      change startedIn (o₁.log ++ [.started task (.error e)]) = spawned
      rw [startedIn_append, hlog, h.starts]
      exact List.append_nil _
    · refine ⟨hstarted (.ok ()), ?_, ?_, h₁.finished.trans h.finished⟩
      · change startedIn (o₁.log ++ [.started task (.ok ())]) = spawned ++ [task.index]
        rw [startedIn_append, hlog, h.starts]
        rfl
      · change (o₁.active ++ [(⟨task.index, seed, none⟩ : OpenWorker)]).map (·.index) = _
        rw [List.map_append, h₁.active]
        exact congrArg (· ++ [task.index]) h.indexes

theorem yields_spawnFrom {test : TestCase} (n : Nat) (seeds : List Seed) {spawned : List UInt64}
    (h : o.Beginning spawned) :
    Yields (spawnFrom host.recorded plan test n seeds) o
      (fun _ o' => o'.Beginning (spawned ++ (places n seeds).map (·.1)))
      fun stop o' => ∀ e, stop = .error e →
        ∃ made, made <+: spawned ++ (places n seeds).map (·.1) ∧ o'.Beginning made := by
  induction seeds generalizing o n spawned with
  | nil =>
    rw [spawnFrom, yields_pure]
    simpa [places] using h
  | cons seed seeds ih =>
    have hplaces : spawned ++ (places n (seed :: seeds)).map (·.1) =
        spawned ++ [UInt64.ofNat n] ++ (places (n + 1) seeds).map (·.1) := by simp
    rw [spawnFrom, yields_bind, hplaces]
    refine (yields_spawnWorker host plan h (UInt64.ofNat n) seed).mono
      (fun _ o₁ h₁ => ih (n + 1) h₁) ?_
    intro stop o₁ h₁ e he
    exact ⟨spawned, (List.prefix_append ..).trans (List.prefix_append ..), h₁ e he⟩

/-! ## The end of the workers -/

/-- **All workers that are left are told to end and reaped.** -/
theorem yields_endAll (h : Remaining plan.reapTimeout o.indexes o.log) :
    Yields (endAll host.recorded plan rounds) o
      (fun _ o' => Remaining plan.reapTimeout [] o'.log) fun stop _ => stop = .outOfRounds := by
  -- first they are told to end, one after the other
  have htell : Yields (o.active.forM fun w => outside (sendShutdown host.recorded w.index)) o
      (fun _ o' => Remaining plan.reapTimeout o.indexes o'.log ∧
        ∀ w ∈ o.active, ∃ answer, .commanded w.index .shutdown answer ∈ o'.log)
      fun stop _ => stop = .outOfRounds := by
    refine (yields_forM (fun left o' => Remaining plan.reapTimeout o.indexes o'.log ∧
      (∀ w ∈ left, w ∈ o.active) ∧ ∀ w ∈ o.active, w ∈ left ∨
        ∃ answer, .commanded w.index .shutdown answer ∈ o'.log) ?_ o.active ?_).imp ?_
    · rintro w left o₁ ⟨hremaining, hleft, htold⟩
      refine ((adds_sendShutdown host w.index).outside_sure o₁).imp ?_
      rintro _ o₂ ⟨_, hgrows, answer, rfl⟩
      have hw : w.index ∈ o.indexes := List.mem_map_of_mem (hleft w List.mem_cons_self)
      rw [hgrows.log]
      refine ⟨hremaining.unreaped hw (unreaped_shutdown w.index answer),
        fun u hu => hleft u (List.mem_cons_of_mem _ hu), fun u hu => ?_⟩
      rcases htold u hu with hmem | ⟨answer', hmem⟩
      · rcases List.mem_cons.1 hmem with rfl | hmem
        · exact .inr ⟨answer, List.mem_append_right _ (List.mem_singleton_self _)⟩
        · exact .inl hmem
      · exact .inr ⟨answer', List.mem_append_left _ hmem⟩
    · exact ⟨h, fun _ hw => hw, fun _ hw => .inl hw⟩
    · rintro _ o' ⟨hremaining, -, htold⟩
      exact ⟨hremaining, fun w hw => (htold w hw).resolve_left List.not_mem_nil⟩
  change Yields ((o.active.forM fun w => outside (sendShutdown host.recorded w.index)) >>= _) o _ _
  rw [yields_bind]
  refine htell.imp ?_
  rintro _ o₁ ⟨hremaining, htold⟩
  change Yields
    (o.active.forM fun w => outside (reap host.recorded plan.reapTimeout rounds w.index))
    { o₁ with active := [] } _ _
  -- then they are reaped in the same order
  refine (yields_forM (fun left o' => Remaining plan.reapTimeout (left.map (·.index)) o'.log ∧
    ∀ w ∈ left, ∃ answer, .commanded w.index .shutdown answer ∈ o'.log) ?_ o.active ?_).imp ?_
  · rintro w left o₂ ⟨hremaining, htold⟩
    refine ((adds_reap host rounds w.index plan.reapTimeout).outside o₂).mono ?_ ?_
    · rintro _ o₃ ⟨ds, hgrows, hds⟩
      rw [hgrows.log]
      have hreaped := hremaining.reap List.mem_cons_self (.inr (htold w List.mem_cons_self)) hds
      rw [List.map_cons, List.erase_cons_head] at hreaped
      refine ⟨hreaped, fun u hu => ?_⟩
      obtain ⟨answer, hmem⟩ := htold u (List.mem_cons_of_mem _ hu)
      exact ⟨answer, List.mem_append_left _ hmem⟩
    · rintro stop o₃ ⟨_, _, hstop⟩
      exact hstop
  · exact ⟨hremaining, htold⟩
  · exact fun _ _ h => h.1

/-! ## The whole campaign -/

/-- Before the workers are started. -/
theorem beginning_of_grows {w : σ} (h : (Orchestrator.start ⟨w, []⟩).Grows [] o) :
    o.Beginning [] := by
  have hlog : o.log = [] := h.log
  refine ⟨?_, ?_, h.indexes, h.finished⟩
  · rw [hlog]
    exact List.forall_mem_nil _
  · rw [hlog]
    rfl

/-- From the start of the workers to the end of the last one. -/
theorem yields_course (test : TestCase) (seeds : List Seed) (hlength : seeds.length ≤ word64)
    (h : o.Beginning []) :
    Yields (do
      spawnAll host.recorded plan test seeds
      repeatUntil (sweepRound host.recorded plan rounds) rounds) o
      (fun _ o' => o'.Accounts plan.reapTimeout ∧ o'.active = [])
      fun stop o' => o'.Breaks plan.reapTimeout stop := by
  have hn := nodup_places seeds hlength
  rw [yields_bind]
  refine (yields_spawnFrom host plan 0 seeds h).mono (fun _ o₁ h₁ => ?_) fun stop o₁ h₁ e he => ?_
  · exact yields_sweeps host plan rounds (h₁.watches plan.reapTimeout hn)
  · obtain ⟨made, hprefix, hmade⟩ := h₁ e he
    exact (hmade.watches plan.reapTimeout (hn.sublist hprefix.sublist)).1.remaining

/-- **A campaign comes to what its course comes to.** If that is an error, then the workers that are
left are ended before it is returned. -/
theorem yields_orchestrate_of_course {test : TestCase} {seeds : List Seed} {w : σ}
    {C : Orchestrator (Recorded CampaignDeed σ) → Prop}
    {B : Stop → Orchestrator (Recorded CampaignDeed σ) → Prop}
    {Q : Findings → Orchestrator (Recorded CampaignDeed σ) → Prop}
    (hcourse : ∀ o, (Orchestrator.start ⟨w, []⟩).Grows [] o → Yields (do
      spawnAll host.recorded plan test seeds
      repeatUntil (sweepRound host.recorded plan rounds) rounds) o (fun _ => C) B)
    (hreport : ∀ o o', C o → o.Grows [] o' → Q o'.report o')
    (hend : ∀ e o, B (.error e) o → Yields (endAll host.recorded plan rounds) o
      (fun _ o' => ∀ o'', o'.Grows [] o'' → E (.error e) o'') E)
    (habort : ∀ message o, B (.abort message) o → E (.abort message) o)
    (hrounds : ∀ o, B .outOfRounds o → E .outOfRounds o) :
    Yields (orchestrate host.recorded plan test rounds seeds) (.start ⟨w, []⟩) Q E := by
  rw [orchestrate, yields_bind]
  refine (yields_aside _ rfl).imp fun _ o₁ h₁ => ?_
  rw [yields_bind, yields_attempt]
  refine (hcourse o₁ h₁).mono (fun _ o₂ h₂ => ?_) fun stop o₂ h₂ => ?_
  · change Yields (_ >>= _) o₂ _ _
    rw [yields_bind]
    exact (yields_aside _ rfl).imp fun _ o₃ h₃ => hreport o₂ o₃ h₂ h₃
  · rcases stop with e | message | _
    · change Yields (_ >>= _) o₂ _ _
      rw [yields_bind]
      refine (hend e o₂ h₂).imp fun _ o₃ h₃ => ?_
      rw [yields_bind]
      exact (yields_aside _ rfl).imp fun _ o₄ h₄ => h₃ o₄ h₄
    · exact habort message o₂ h₂
    · exact hrounds o₂ h₂

theorem yields_orchestrate (test : TestCase) (seeds : List Seed) (hlength : seeds.length ≤ word64)
    (w : σ) :
    Yields (orchestrate host.recorded plan test rounds seeds) (.start ⟨w, []⟩)
      (fun findings o => AllReaped plan.reapTimeout findings.Concludes o.log)
      fun stop o => ∀ e, stop = .error e → AllReaped plan.reapTimeout Ended o.log := by
  refine yields_orchestrate_of_course host plan rounds
    (fun o h => yields_course host plan rounds test seeds hlength (beginning_of_grows h)) ?_ ?_
    (fun _ _ _ _ => nofun) fun _ _ _ => nofun
  · rintro o o' ⟨haccounts, hactive⟩ hgrows
    unfold Accounts at haccounts
    rw [Orchestrator.indexes, hactive] at haccounts
    rw [hgrows.log, List.append_nil]
    refine haccounts.allReaped fun g hg => ?_
    rw [← hgrows.finished] at hg
    exact o'.mem_report.2 hg
  · intro e o hbreaks
    refine (yields_endAll host plan rounds (hbreaks e rfl)).mono
      (fun _ o₁ h₁ o₂ hgrows e' _ => ?_) ?_
    · rw [hgrows.log, List.append_nil]
      exact h₁.allReaped
    · rintro _ _ rfl e' he
      cases he

theorem quiet_seeds : Recorded.Quiet (seeds host.recorded plan) := by
  have hfresh : ∀ n, Recorded.Quiet (freshSeeds host.recorded n) := by
    intro n
    induction n with
    | zero => exact Recorded.quiet_pure []
    | succ n ih =>
      rw [freshSeeds]
      refine Recorded.quiet_bind (Recorded.quiet_aside host.freshSeed) fun seed => ?_
      exact Recorded.quiet_bind ih fun seeds => Recorded.quiet_pure _
  rw [seeds]
  exact Recorded.quiet_bind (hfresh _) fun fresh => Recorded.quiet_pure _

theorem yields_run_of_valid {test : TestCase} {w : σ}
    {Q : Findings → Recorded CampaignDeed σ → Prop} {E : Stop → Recorded CampaignDeed σ → Prop}
    (hvalid : plan.validate ((host.isDirectory plan.logsDir).run w).1 = .ok ())
    (horchestrate : ∀ w', Yields
      (orchestrate host.recorded plan test rounds (seedsOf host.recorded plan ⟨w, []⟩))
      (.start ⟨w', []⟩) (fun findings o => Q findings o.world) fun stop o => E stop o.world) :
    Yields (run host.recorded plan test rounds) ⟨w, []⟩ Q E := by
  change plan.validate ((host.recorded.isDirectory plan.logsDir).run ⟨w, []⟩).1 = .ok () at hvalid
  rw [run, yields_bind, yields_ask, hvalid]
  change Yields (Action.ask (seeds host.recorded plan) >>= fun seeds =>
    whole (orchestrate host.recorded plan test rounds seeds)) _ _ _
  rw [yields_bind, yields_ask, yields_whole]
  have hquiet := quiet_seeds host plan ((host.recorded.isDirectory plan.logsDir).run ⟨w, []⟩).2
  change (opening host.recorded plan ⟨w, []⟩).2.deeds = [] at hquiet
  change Yields (orchestrate host.recorded plan test rounds (seedsOf host.recorded plan ⟨w, []⟩))
    (.start (opening host.recorded plan ⟨w, []⟩).2) _ _
  rcases hopening : (opening host.recorded plan ⟨w, []⟩).2 with ⟨w', deeds⟩
  rw [hopening] at hquiet
  subst hquiet
  exact horchestrate w'

/-- A run comes to what its orchestrator comes to, from an empty record, unless the plan cannot be
run. -/
theorem yields_run {test : TestCase} {w : σ} {Q : Findings → Recorded CampaignDeed σ → Prop}
    {E : Stop → Recorded CampaignDeed σ → Prop}
    (hinvalid : ∀ hasLogsDir stop w', plan.validate hasLogsDir = .error stop → E stop ⟨w', []⟩)
    (horchestrate : ∀ w', Yields
      (orchestrate host.recorded plan test rounds (seedsOf host.recorded plan ⟨w, []⟩))
      (.start ⟨w', []⟩) (fun findings o => Q findings o.world) fun stop o => E stop o.world) :
    Yields (run host.recorded plan test rounds) ⟨w, []⟩ Q E := by
  rcases hvalid : plan.validate ((host.isDirectory plan.logsDir).run w).1 with stop | _
  · have hvalid' : plan.validate ((host.recorded.isDirectory plan.logsDir).run ⟨w, []⟩).1 =
        .error stop := hvalid
    rw [run, yields_bind, yields_ask, hvalid']
    exact hinvalid _ stop _ hvalid
  · exact yields_run_of_valid host plan rounds hvalid horchestrate

/-- **Every worker is reaped once**, however a run returns. If it returns a report, then each worker
that was started had signalled all its completions and has its verdict in the report; if it returns
an error, then each worker that is not so far was told to end before it was reaped. -/
theorem run_reaps_once (test : TestCase) (w : σ) :
    (∀ findings r, (run host.recorded plan test rounds).outcome ⟨w, []⟩ = (.ok findings, r) →
      AllReaped plan.reapTimeout findings.Concludes r.deeds) ∧
    ∀ e r, (run host.recorded plan test rounds).outcome ⟨w, []⟩ = (.error (.error e), r) →
      AllReaped plan.reapTimeout Ended r.deeds := by
  have hrun : Yields (run host.recorded plan test rounds) ⟨w, []⟩
      (fun findings r => AllReaped plan.reapTimeout findings.Concludes r.deeds)
      fun stop r => ∀ e, stop = .error e → AllReaped plan.reapTimeout Ended r.deeds := by
    refine yields_run host plan rounds (fun _ _ _ _ _ _ => ⟨List.nodup_nil, List.forall_mem_nil _⟩)
      fun w' => ?_
    exact yields_orchestrate host plan rounds test _
      (length_seedsOf_le host.recorded plan ⟨w, []⟩) w'
  exact ⟨fun _ _ h => hrun.of_ok h, fun e _ h => hrun.of_error h e rfl⟩

/-- A world in which only the first worker can be started, and exits when it is told to. -/
def onlyFirst : CampaignHost Unit where
  colours := false
  isDirectory _ := pure true
  freshSeed := pure default
  printLine _ := pure ()
  showStatus _ := pure ()
  store _ _ := pure (.ok ())
  spawn task := pure (if task.index = 0 then .ok () else .error (.io "refused"))
  status _ := pure (.ok (some "exit status: 0"))
  kill _ := pure ()
  send _ _ := pure (.ok ())
  completion _ := pure .empty
  awaitFinished _ _ := pure .empty
  exception _ := pure .empty
  snapshots _ := pure []
  decide _ _ _ := pure .timedOut
  now := pure 0
  sleep _ := pure ()

/-- A campaign of two workers, the second of which cannot be started. -/
def brokenOff : Except Stop Findings × Recorded CampaignDeed Unit :=
  (run onlyFirst.recorded { processCount := 2 } ⟨"m", "t", []⟩ 1).outcome ⟨(), []⟩

theorem brokenOff_error : brokenOff.1 = .error (.error (.io "refused")) := by decide +kernel

theorem startedIn_brokenOff : startedIn brokenOff.2.deeds = [0] := by decide +kernel

/-- The first worker is told to end and reaped when the second cannot be started. -/
theorem run_reaps_once_brokenOff :
    brokenOff.1 = .error (.error (.io "refused")) ∧ startedIn brokenOff.2.deeds = [0] ∧
      ReapedOnce (.ofSeconds 10) 0 (Ended 0) brokenOff.2.deeds := by
  have herror := brokenOff_error
  have hstarted := startedIn_brokenOff
  rcases hrun : brokenOff with ⟨r, s⟩
  rw [hrun] at herror hstarted
  subst herror
  have hreaped := (run_reaps_once onlyFirst { processCount := 2 } 1 ⟨"m", "t", []⟩ ()).2 _ _ hrun
  refine ⟨rfl, hstarted, hreaped.2 0 ?_⟩
  rw [hstarted]
  exact List.mem_singleton_self 0

end Campaign

end FuzzCampaign
