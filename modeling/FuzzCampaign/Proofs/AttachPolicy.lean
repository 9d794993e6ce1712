import FuzzCampaign.Proofs.FaithfulReport
import FuzzCampaign.Proofs.Incidents
import FuzzCampaign.Proofs.SweepRule

/-!
# Who decides on a debugger

A debugger is attached to a failed worker if and only if the user was asked about it and said so.
The record of a campaign is one of incidents, one after the other.

* `CampaignHost.minds_attended`: what is done elsewhere changes no incident;
* `Campaign.yields_conclude_attended`: a worker that is done;
* `Orchestrator.Serves`, `Campaign.sweepRule_serves`: the incidents of a campaign that goes on;
* `AttachPolicy`: questions, answers, decisions and reports fit together;
* **`Campaign.run_attach_policy`**: they do in every run.
-/

namespace FuzzCampaign

/-- An incident that the campaign may break off with `stop`: a decision was sent, unless the
question was abandoned, and then the worker counts as dead, or the rounds were not enough, where
that is possible. -/
structure Incident.Ends (short : Prop) (stop : Stop) (h : Incident) : Prop where
  sent : h.sent? ≠ none ∨ h.reply? = some .abandoned
  died : h.reply? = some .abandoned →
    (∃ status, stop = .error (.workerDied h.index status)) ∨ stop = .outOfRounds ∧ short

theorem Incident.Proper.ends {plan : CampaignPlan} {h : Incident} (hproper : h.Proper plan)
    (hsent : h.sent? ≠ none) (short : Prop) (stop : Stop) : h.Ends short stop :=
  ⟨.inl hsent, fun habandoned => absurd habandoned (hproper.sent hsent).1⟩

theorem CampaignHost.minds_attended {σ : Type} (host : CampaignHost σ) (plan : CampaignPlan)
    (hs : List Incident) : host.recorded.Minds fun r => Attended plan hs r.deeds where
  printLine _ _ h := h
  showStatus _ _ h := h
  store _ _ _ h := h
  status _ _ h := h.idle rfl
  kill _ _ h := h.idle rfl
  shutdown _ _ h := h.idle rfl
  completion _ _ h := h.idle rfl
  awaitFinished _ _ _ h := h.idle rfl
  snapshots _ _ h := h.idle rfl
  now _ h := h.idle rfl
  sleep _ _ h := h.idle rfl

namespace Campaign

open FuzzCampaign.Action Orchestrator

variable {σ : Type} (host : CampaignHost σ) (plan : CampaignPlan) (rounds : Nat)
  {hs : List Incident}
  {i : UInt64} {e : Envelope} {r : Recorded CampaignDeed σ}

/-! ## One worker -/

theorem yields_decideAttach_attended
    (h : Attended plan (hs ++ [⟨i, e, none, none, false⟩]) r.deeds) :
    Yields (decideAttach host.recorded plan i e) r
      (fun attach r' => ∃ reply?, Attended plan (hs ++ [⟨i, e, reply?, none, false⟩]) r'.deeds ∧
        attach = decide (reply? = some (.answer true)) ∧ reply? ≠ some .abandoned ∧
        (reply? = none → plan.prompts i e = false))
      fun stop r' => Attended plan (hs ++ [⟨i, e, some .abandoned, none, false⟩]) r'.deeds ∧
        ∃ status, stop = .error (.workerDied i status) := by
  have hask : plan.prompts i e = true → ∀ r', r'.deeds = r.deeds →
      Yields (askUser host.recorded i e) r'
      (fun attach r' => ∃ reply?, Attended plan (hs ++ [⟨i, e, reply?, none, false⟩]) r'.deeds ∧
        attach = decide (reply? = some (.answer true)) ∧ reply? ≠ some .abandoned ∧
        (reply? = none → plan.prompts i e = false))
      fun stop r' => Attended plan (hs ++ [⟨i, e, some .abandoned, none, false⟩]) r'.deeds ∧
        ∃ status, stop = .error (.workerDied i status) := by
    intro hprompts r' hr'
    have hasked : ∀ reply, Attended plan (hs ++ [⟨i, e, some reply, none, false⟩])
        (r'.deeds ++ [.asked i e reply]) := fun reply => by
      rw [hr']
      exact h.snoc (.asked hprompts)
    have hdecide : host.recorded.decide i e (host.recorded.stillRuns i) =
        Recorded.noting (.asked i e) (host.decide i e (host.stillRuns i)) := rfl
    rw [askUser, yields_bind, yields_ask, hdecide, Recorded.run_noting]
    rcases ((host.decide i e (host.stillRuns i)).run r'.world).1 with attach | _ | _
    · exact ⟨some (.answer attach), hasked _, by simp, by simp, by simp⟩
    · have hstatus : host.recorded.status i = Recorded.noting (.looked i) (host.status i) := rfl
      rw [yields_bind, yields_ask, hstatus, Recorded.run_noting]
      rcases ((host.status i).run _).1 with _ | _ | status
      · exact ⟨(hasked .abandoned).idle rfl, _, rfl⟩
      · exact ⟨(hasked .abandoned).idle rfl, _, rfl⟩
      · exact ⟨(hasked .abandoned).idle rfl, _, rfl⟩
    · exact ⟨some .timedOut, hasked _, rfl, by simp, by simp⟩
  have hnone : plan.prompts i e = false → ∀ r' : Recorded CampaignDeed σ, r'.deeds = r.deeds →
      ∃ reply?, Attended plan (hs ++ [⟨i, e, reply?, none, false⟩]) r'.deeds ∧
        false = decide (reply? = some (.answer true)) ∧ reply? ≠ some .abandoned ∧
        (reply? = none → plan.prompts i e = false) :=
    fun hprompts r' hr' => ⟨none, hr' ▸ h, rfl, by simp, fun _ => hprompts⟩
  rw [decideAttach]
  by_cases hasks : plan.asksAbout i = true
  · rw [if_pos hasks, yields_bind, yields_ask]
    by_cases hdebug : e.canDebug = true
    · rw [if_pos hdebug]
      exact hask (by rw [CampaignPlan.prompts, hasks, hdebug]; rfl) _ rfl
    · rw [if_neg hdebug]
      exact hnone (by simp [CampaignPlan.prompts, hdebug]) _ rfl
  · rw [if_neg hasks]
    exact hnone (by simp [CampaignPlan.prompts, hasks]) _ rfl

/-- The second completion closes the incident. -/
theorem yields_awaitFinished_attended {reply? : Option PromptReply}
    {answer : Except CampaignError Unit}
    (h : Attended plan (hs ++ [⟨i, e, reply?, some answer, false⟩]) r.deeds) :
    Yields (awaitFinished host.recorded plan rounds i) r
      (fun _ r' => Attended plan (hs ++ [⟨i, e, reply?, some answer, true⟩]) r'.deeds)
      fun _ r' => Attended plan (hs ++ [⟨i, e, reply?, some answer, false⟩]) r'.deeds := by
  have hminds := host.minds_attended plan (hs ++ [⟨i, e, reply?, some answer, false⟩])
  rw [awaitFinished]
  generalize (none : Option Nat) = since?
  induction rounds generalizing since? r with
  | zero => exact h
  | succ rounds ih =>
    have hawait : host.recorded.awaitFinished i plan.pollInterval =
        Recorded.noting (.polled i) (host.awaitFinished i plan.pollInterval) := rfl
    rw [awaitFrom, yields_bind, awaitRound, yields_bind, yields_ask, hawait, Recorded.run_noting]
    rcases ((host.awaitFinished i plan.pollInterval).run r.world).1 with _ | _ | _
    · exact h.snoc .closed
    · rw [yields_bind]
      refine (preserves_lookAfter hminds i _ _ _ _ (h.idle rfl)).imp fun since? r' h' => ?_
      exact ih h' since?
    · rw [yields_bind]
      refine (preserves_lookAfter hminds i _ _ _ _ (h.idle rfl)).imp fun since? r' h' => ?_
      rw [yields_bind, yields_ask]
      exact ih (hminds.sleep _ _ h') since?

theorem yields_concludeFailed_attended (short : Prop)
    (h : Attended plan (hs ++ [⟨i, e, none, none, false⟩]) r.deeds) :
    Yields (concludeFailed host.recorded plan rounds i e) r
      (fun v r' => ∃ g : Incident, Attended plan (hs ++ [g]) r'.deeds ∧ g.index = i ∧
        g.closed = true ∧ v = .failed e g.attach)
      fun stop r' => ∃ g : Incident, Attended plan (hs ++ [g]) r'.deeds ∧ g.Ends short stop := by
  have hends : ∀ {g : Incident} {log : List CampaignDeed} {stop : Stop},
      Attended plan (hs ++ [g]) log → g.sent? ≠ none → g.Ends short stop := fun hlog hsent =>
    (hlog.proper _ (List.mem_append_right _ (List.mem_singleton_self _))).ends hsent _ _
  rw [concludeFailed_eq, concludeFailedUnchecked, yields_bind]
  refine (yields_decideAttach_attended host plan h).mono ?_ ?_
  · rintro attach r₁ ⟨reply?, h₁, hattach, habandoned, hnone⟩
    have hsent : ∀ answer, Attended plan (hs ++ [⟨i, e, reply?, some answer, false⟩])
        (r₁.deeds ++ [.commanded i (.decision attach) answer]) := fun answer =>
      h₁.snoc (.decided hattach habandoned hnone)
    have hsend : host.recorded.send i (.decision attach) =
        Recorded.noting (.commanded i (.decision attach)) (host.send i (.decision attach)) := rfl
    rw [yields_bind, sendDecision, yields_bind, yields_ask, hsend, Recorded.run_noting]
    rcases ((host.send i (.decision attach)).run r₁.world).1 with error | _
    · exact ⟨_, hsent (.error error), hends (hsent (.error error)) (Option.some_ne_none _)⟩
    · rw [yields_pure, yields_bind]
      refine (yields_awaitFinished_attended host plan rounds (hsent (.ok ()))).mono ?_ ?_
      · intro _ r₂ h₂
        rw [yields_bind]
        refine (preserves_reap (host.minds_attended plan _).toEnds rounds i plan.reapTimeout r₂
          h₂).mono ?_ ?_
        · exact fun _ r₃ h₃ => ⟨_, h₃, rfl, rfl, by rw [hattach]; rfl⟩
        · exact fun stop r₃ h₃ => ⟨_, h₃, hends h₃ (Option.some_ne_none _)⟩
      · exact fun stop r₂ h₂ => ⟨_, h₂, hends h₂ (Option.some_ne_none _)⟩
  · rintro stop r₁ ⟨h₁, status, rfl⟩
    exact ⟨_, h₁, .inr rfl, fun _ => .inl ⟨status, rfl⟩⟩

/-- **A worker that says that it is done** has at most one incident, which is closed when it gets
its verdict. -/
theorem yields_conclude_attended (short : Prop) (h : Attended plan hs r.deeds)
    (hclosed : ∀ g ∈ hs, g.closed = true) (hi : ∀ g ∈ hs, g.index ≠ i) :
    Yields (conclude host.recorded plan rounds i) r
      (fun v r' => ∃ new : List Incident, Attended plan (hs ++ new) r'.deeds ∧
        (∀ g ∈ new, g.index = i ∧ g.closed = true) ∧
        ∀ e attached, v = .failed e attached → ∃ g ∈ new, attached = g.attach)
      fun stop r' => ∃ new : List Incident, Attended plan (hs ++ new) r'.deeds ∧
        ∀ g ∈ new, g.Ends short stop := by
  have hexception : host.recorded.exception i =
      Recorded.noting (.informed i) (host.exception i) := rfl
  rw [conclude_eq, concludeUnchecked, yields_bind, yields_ask, hexception, Recorded.run_noting]
  rcases ((host.exception i).run r.world).1 with (_ | e) | _ | _
  · have hpassed : Attended plan (hs ++ []) (r.deeds ++ [.informed i (.got none)]) := by
      rw [List.append_nil]
      exact h.idle rfl
    rw [yields_bind]
    refine (preserves_reap (host.minds_attended plan _).toEnds rounds i _ _ hpassed).mono ?_ ?_
    · exact fun _ r₁ h₁ => ⟨[], h₁, List.forall_mem_nil _, fun _ _ hv => by cases hv⟩
    · exact fun _ r₁ h₁ => ⟨[], h₁, List.forall_mem_nil _⟩
  · have hfailed := yields_concludeFailed_attended host plan rounds short
      (r := ⟨((host.exception i).run r.world).2, _⟩) (h.snoc (.opened (e := e) hclosed hi))
    rw [concludeFailed_eq] at hfailed
    refine hfailed.mono ?_ ?_
    · rintro v r₁ ⟨g, h₁, hindex, hg, rfl⟩
      refine ⟨[g], h₁, List.forall_mem_singleton.2 ⟨hindex, hg⟩, fun _ _ hv => ?_⟩
      cases hv
      exact ⟨g, List.mem_singleton_self g, rfl⟩
    · rintro stop r₁ ⟨g, h₁, hg⟩
      exact ⟨[g], h₁, List.forall_mem_singleton.2 hg⟩
  · exact ⟨[], by rw [List.append_nil]; exact h.idle rfl, List.forall_mem_nil _⟩
  · exact ⟨[], by rw [List.append_nil]; exact h.idle rfl, List.forall_mem_nil _⟩

end Campaign

/-! ## A campaign that goes on -/

namespace Orchestrator

variable {σ : Type} {plan : CampaignPlan} {hs : List Incident}
  {o o' : Orchestrator (Recorded CampaignDeed σ)}

/-- While a campaign goes on all incidents are closed, those that are left have none, and the
verdicts are those of the incidents. -/
structure Serves (plan : CampaignPlan) (hs : List Incident)
    (o : Orchestrator (Recorded CampaignDeed σ)) : Prop where
  nodup : o.indexes.Nodup
  log : Attended plan hs o.log
  closed : ∀ h ∈ hs, h.closed = true
  fresh : ∀ i ∈ o.indexes, ∀ h ∈ hs, h.index ≠ i
  found : ∀ g ∈ o.finished, ∀ e attached, g.outcome = .failed e attached →
    ∃ h ∈ hs, h.index = g.index ∧ attached = h.attach

/-- What the record shows when a campaign stops. -/
def Halts (plan : CampaignPlan) (short : Prop) (stop : Stop)
    (o : Orchestrator (Recorded CampaignDeed σ)) : Prop :=
  ∃ hs, Attended plan hs o.log ∧ ∀ h ∈ hs, h.Ends short stop

theorem Serves.ends (h : o.Serves plan hs) (short : Prop) (stop : Stop) :
    ∀ g ∈ hs, g.Ends short stop := fun g hg =>
  have hproper := h.log.proper g hg
  hproper.ends (hproper.closed (h.closed g hg)) _ _

theorem Serves.halts (h : o.Serves plan hs) (short : Prop) (stop : Stop) :
    o.Halts plan short stop := ⟨hs, h.log, h.ends short stop⟩

/-- Nothing was done that counts. -/
theorem Serves.same (h : o.Serves plan hs) (hlog : Attended plan hs o'.log)
    (hindexes : o'.indexes = o.indexes) (hfinished : o'.finished = o.finished) :
    o'.Serves plan hs := by
  refine ⟨?_, hlog, h.closed, ?_, ?_⟩
  · rw [hindexes]
    exact h.nodup
  · rw [hindexes]
    exact h.fresh
  · rw [hfinished]
    exact h.found

end Orchestrator

namespace Campaign

open FuzzCampaign.Action Orchestrator

variable {σ : Type} (host : CampaignHost σ) (plan : CampaignPlan) (rounds : Nat)
  {o : Orchestrator (Recorded CampaignDeed σ)} {short : Prop}

theorem yields_look_serves {hs : List Incident} (h : o.Serves plan hs) (w : OpenWorker) :
    Yields (look host.recorded plan w) o (fun s o' => o'.Serves plan hs ∧
      s.worker.index = w.index ∧ o'.indexes = o.indexes) (Halts plan short) := by
  refine ((yields_look host plan w).and
    (preserves_look ((host.minds_attended plan hs).guards plan) w o h.log)).mono ?_ ?_
  · rintro s o' ⟨⟨l, hgrows, hs, -⟩, hlog⟩
    exact ⟨h.same hlog hgrows.indexes hgrows.finished, hs, hgrows.indexes⟩
  · rintro stop o' ⟨-, hlog⟩
    exact ⟨hs, hlog, h.ends short stop⟩

/-- A worker that is done is handled, or the campaign stops. -/
theorem yields_complete_serves (hreap : ReapsUnless short host.recorded plan.reapTimeout rounds)
    {hs : List Incident} (h : o.Serves plan hs) {w : OpenWorker} (hw : w.index ∈ o.indexes) :
    Yields (complete host.recorded plan rounds w) o
      (fun _ o' => (∃ hs', o'.Serves plan hs') ∧ o'.indexes = o.indexes.erase w.index)
      (Halts plan short) := by
  have hindexes := indexes_without h.nodup w.index
  have hleft : ∀ i ∈ o.indexes.erase w.index, i ∈ o.indexes ∧ i ≠ w.index := fun i hi =>
    ⟨List.mem_of_mem_erase hi, (h.nodup.mem_erase_iff.1 hi).1⟩
  -- to gather coverage is idle
  have hidle : ∀ {hs' snapshots} {o₁ o' : Orchestrator (Recorded CampaignDeed σ)},
      o₁.Grows [.gathered w.index snapshots] o' → Attended plan hs' o₁.log →
      Attended plan hs' o'.log := by
    intro hs' snapshots o₁ o' hgrows hlog
    rw [hgrows.log]
    exact hlog.idle rfl
  refine yields_complete_of host plan rounds
    (yields_conclude_attended host plan rounds short h.log h.closed (h.fresh w.index hw)) ?_ ?_ ?_
  · rintro v r o' snapshots ⟨new, hlog, hnew, hfailed⟩ hgrows
    have hindexes' : o'.indexes = o.indexes.erase w.index := hgrows.indexes.trans hindexes
    have hlog' := hidle hgrows hlog
    refine ⟨⟨hs ++ new, ?_, hlog', ?_, ?_, ?_⟩, hindexes'⟩
    · change o'.indexes.Nodup
      rw [hindexes']
      exact h.nodup.erase _
    · exact List.forall_mem_append.2 ⟨h.closed, fun g hg => (hnew g hg).2⟩
    · intro i hi
      change i ∈ o'.indexes at hi
      rw [hindexes'] at hi
      refine List.forall_mem_append.2 ⟨h.fresh i (hleft i hi).1, fun g hg => ?_⟩
      rw [(hnew g hg).1]
      exact (hleft i hi).2.symm
    · change ∀ g ∈ o'.finished ++ [⟨w.index, w.seed, v⟩], _
      rw [hgrows.finished]
      refine List.forall_mem_append.2 ⟨fun g hg e attached hv => ?_,
        List.forall_mem_singleton.2 fun e attached hv => ?_⟩
      · obtain ⟨k, hk, hsame⟩ := h.found g hg e attached hv
        exact ⟨k, List.mem_append_left _ hk, hsame⟩
      · obtain ⟨k, hk, hsame⟩ := hfailed e attached hv
        exact ⟨k, List.mem_append_right _ hk, (hnew k hk).1, hsame⟩
  · rintro e r o' snapshots ⟨new, hlog, hnew⟩ hgrows
    have hends := List.forall_mem_append.2 ⟨h.ends short (.error e), hnew⟩
    have hlog' := hidle hgrows hlog
    have hkept := (host.minds_attended plan (hs ++ new)).toEnds
    refine yields_outside.2 ((yields_shutdown_stops hreap hkept w.index hlog').mono
      (fun _ _ hlog₂ => ⟨hs ++ new, hlog₂, hends⟩) ?_)
    rintro _ r₂ ⟨hlog₂, rfl, hshort⟩
    exact ⟨hs ++ new, hlog₂, fun g hg => ⟨(hends g hg).sent, fun _ => .inr ⟨rfl, hshort⟩⟩⟩
  · rintro stop r - ⟨new, hlog, hnew⟩
    exact ⟨hs ++ new, hlog, List.forall_mem_append.2 ⟨h.ends short stop, hnew⟩⟩

/-- A campaign that goes on has its incidents, and they show why it stops. -/
theorem sweepRule_serves (hreap : ReapsUnless short host.recorded plan.reapTimeout rounds) :
    SweepRule host.recorded plan rounds (fun o => ∃ hs, o.Serves plan hs) (Halts plan short) where
  nodup := fun _ ⟨_, h⟩ => h.nodup
  onLook := fun o w ⟨hs, h⟩ =>
    (yields_look_serves host plan h w).imp fun _ _ h' => ⟨⟨hs, h'.1⟩, h'.2⟩
  onUpdate := fun _ _ ⟨hs, h⟩ hindexes => ⟨hs, h.same h.log hindexes rfl⟩
  onComplete := fun _ _ ⟨_, h⟩ hw => yields_complete_serves host plan rounds hreap h hw
  onEnd := by
    rintro o had idle ⟨hs, h⟩
    refine ((yields_afterwards host plan had idle).and
      (preserves_afterwards ((host.minds_attended plan hs).guards plan) had idle o h.log)).mono
        ?_ ?_
    · rintro _ o' ⟨⟨l, hgrows, -⟩, hlog⟩
      exact ⟨hs, h.same hlog hgrows.indexes hgrows.finished⟩
    · rintro stop o' ⟨-, hlog⟩
      exact ⟨hs, hlog, h.ends short stop⟩
  onRounds := fun _ ⟨_, h⟩ => h.halts short _

theorem yields_spawnFrom_serves {test : TestCase} {seeds : List Seed}
    (hlength : seeds.length ≤ word64) {w : σ} (h : (Orchestrator.start ⟨w, []⟩).Grows [] o) :
    Yields (spawnFrom host.recorded plan test 0 seeds) o (fun _ o' => o'.Serves plan [])
      (Halts plan short) := by
  have hlog : Attended plan [] o.log := by
    rw [h.log]
    exact .nil
  have hspawned :=
    preserves_spawnFrom host.recorded plan test (host.minds_attended plan []).printLine
    (fun _ _ _ _ _ h => h.idle rfl) o.aggregator o.coverageFiles 0 seeds o ⟨hlog, rfl, rfl⟩
  refine ((yields_spawnFrom host plan 0 seeds (beginning_of_grows h)).and hspawned).mono ?_ ?_
  · rintro _ o' ⟨hbeginning, hlog', -⟩
    refine ⟨?_, hlog', List.forall_mem_nil _, fun _ _ => List.forall_mem_nil _, ?_⟩
    · rw [hbeginning.indexes]
      exact nodup_places seeds hlength
    · rw [hbeginning.finished]
      exact List.forall_mem_nil _
  · exact fun _ o' h' => ⟨[], h'.2.1, List.forall_mem_nil _⟩

/-- What the record of a run shows. -/
theorem yields_run_serves (hreap : ReapsUnless short host.recorded plan.reapTimeout rounds)
    (test : TestCase) (w : σ) :
    Yields (run host.recorded plan test rounds) ⟨w, []⟩
      (fun findings r => ∃ hs, Attended plan hs r.deeds ∧ (∀ h ∈ hs, h.closed = true) ∧
        ∀ g ∈ findings.workers, ∀ e attached, g.outcome = .failed e attached →
          ∃ h ∈ hs, h.index = g.index ∧ attached = h.attach)
      fun stop r => ∃ hs, Attended plan hs r.deeds ∧ ∀ h ∈ hs, h.Ends short stop := by
  have hlength := length_seedsOf_le host.recorded plan ⟨w, []⟩
  refine yields_run host plan rounds (fun _ _ _ _ => ⟨[], .nil, List.forall_mem_nil _⟩) fun w' => ?_
  refine yields_orchestrate_of_course host plan rounds
    (C := fun o => (∃ hs, o.Serves plan hs) ∧ o.active = []) (B := Halts plan short)
    (fun o hgrows => ?_) ?_ (fun e o h => ?_) (fun _ _ h => h) fun _ h => h
  · rw [yields_bind]
    refine (yields_spawnFrom_serves host plan hlength hgrows).imp fun _ o₁ h₁ => ?_
    exact (sweepRule_serves host plan rounds hreap).yields_sweeps ⟨[], h₁⟩
  · rintro o o' ⟨⟨hs, h⟩, -⟩ hgrows
    refine ⟨hs, ?_, h.closed, fun g hg => h.found g ?_⟩
    · change Attended plan hs o'.log
      rw [hgrows.log, List.append_nil]
      exact h.log
    · rwa [o'.mem_report, hgrows.finished] at hg
  · obtain ⟨hs, hlog, hends⟩ := h
    refine ((preserves_endAll ((host.minds_attended plan hs).guards plan) rounds o hlog).and
      (yields_endAll_stops hreap o)).mono (fun _ o₁ h₁ o₂ hgrows => ⟨hs, ?_, hends⟩) ?_
    · change Attended plan hs o₂.log
      rw [hgrows.log, List.append_nil]
      exact h₁.1
    · rintro _ o₁ ⟨hlog₁, rfl, hshort⟩
      exact ⟨hs, hlog₁, fun h hh => ⟨(hends h hh).sent, fun _ => .inr ⟨rfl, hshort⟩⟩⟩

end Campaign

/-! ## The policy -/

/-- Failures, questions, answers and decisions fit together in a record. -/
structure AttachPolicy (plan : CampaignPlan) (log : List CampaignDeed) : Prop where
  /-- The user is asked at most once about a worker. -/
  once : ∀ i, (questionsOf i log).length ≤ 1
  /-- The user is asked about the failures of tests, and of the first worker only in a passive
  campaign. -/
  asked : ∀ i e, (∃ reply, .asked i e reply ∈ log) ↔ .informed i (.got (some e)) ∈ log ∧
    e.origin = .testBody ∧ (plan.passive = false ∨ i = 0)
  /-- A worker that gets a decision has failed, and is to wait for a debugger if and only if the
  user said so. -/
  decided : ∀ i attach answer, .commanded i (.decision attach) answer ∈ log →
    (∃ e, .informed i (.got (some e)) ∈ log) ∧
      (attach = true ↔ ∃ e, .asked i e (.answer true) ∈ log)
  answered : ∀ i e attach, .asked i e (.answer attach) ∈ log → decisionsOf i log = [attach]
  timedOut : ∀ i e, .asked i e .timedOut ∈ log → decisionsOf i log = [false]
  /-- A worker whose failure the user is not asked about is told to go on. -/
  unasked : ∀ i e, .informed i (.got (some e)) ∈ log →
    (e.origin = .harness ∨ plan.passive = true ∧ i ≠ 0) → decisionsOf i log = [false]
  abandoned : ∀ i e, .asked i e .abandoned ∈ log → decisionsOf i log = []
  /-- Once a failure was taken, no other worker is attended to before the second completion. -/
  apart : ∀ before between after i e d j,
    log = before ++ .informed i (.got (some e)) :: (between ++ d :: after) →
      d.attends? = some j → j ≠ i → .polled i (.got ()) ∈ between

section

variable {plan : CampaignPlan} {hs : List Incident} {log : List CampaignDeed}
  (hlog : Attended plan hs log)
include hlog

theorem Attended.exists_of_asked {i : UInt64} {e : Envelope} {reply : PromptReply}
    (h : .asked i e reply ∈ log) :
    ∃ g ∈ hs, g.index = i ∧ g.report = e ∧ g.reply? = some reply := by
  obtain ⟨g, hg, rfl, -⟩ := hlog.exists_of_attends h rfl
  obtain ⟨rfl, hreply⟩ := (hlog.asked_iff hg).1 h
  exact ⟨g, hg, rfl, rfl, hreply⟩

theorem Attended.exists_of_informed {i : UInt64} {e : Envelope}
    (h : .informed i (.got (some e)) ∈ log) : ∃ g ∈ hs, g.index = i ∧ g.report = e := by
  obtain ⟨g, hg, rfl, -⟩ := hlog.exists_of_attends h rfl
  exact ⟨g, hg, rfl, ((hlog.informed_iff hg).1 h).symm⟩

theorem Attended.attach_iff {g : Incident} (hg : g ∈ hs) :
    g.attach = true ↔ ∃ e, .asked g.index e (.answer true) ∈ log := by
  rw [Incident.attach_iff]
  constructor
  · exact fun hreply => ⟨g.report, (hlog.asked_iff hg).2 ⟨rfl, hreply⟩⟩
  · rintro ⟨e, he⟩
    exact ((hlog.asked_iff hg).1 he).2

theorem Attended.length_questionsOf_le (i : UInt64) : (questionsOf i log).length ≤ 1 := by
  rcases hquestions : questionsOf i log with _ | ⟨⟨e, reply⟩, rest⟩
  · exact Nat.zero_le 1
  · have hmem : (e, reply) ∈ questionsOf i log := hquestions ▸ List.mem_cons_self
    obtain ⟨g, hg, rfl, -, hreply⟩ := hlog.exists_of_asked (mem_questionsOf.1 hmem)
    rw [← hquestions, hlog.questionsOf_eq hg, hreply]
    exact Nat.le_refl 1

variable (hsent : ∀ g ∈ hs, g.sent? ≠ none ∨ g.reply? = some .abandoned)
include hsent

theorem Attended.decisionsOf_of_ne {g : Incident} (hg : g ∈ hs)
    (hreply : g.reply? ≠ some .abandoned) : decisionsOf g.index log = [g.attach] := by
  rw [hlog.decisionsOf_eq hg]
  rcases hanswer : g.sent? with _ | answer
  · exact absurd hanswer ((hsent g hg).resolve_right hreply)
  · rfl

/-- **Incidents that follow the plan follow the policy.** -/
theorem Attended.attachPolicy : AttachPolicy plan log where
  once := hlog.length_questionsOf_le
  asked := by
    intro i e
    rw [← CampaignPlan.prompts_iff]
    constructor
    · rintro ⟨reply, hasked⟩
      obtain ⟨g, hg, rfl, rfl, hreply⟩ := hlog.exists_of_asked hasked
      exact ⟨(hlog.informed_iff hg).2 rfl, (hlog.proper g hg).asked (by simp [hreply])⟩
    · rintro ⟨hinformed, hprompts⟩
      obtain ⟨g, hg, rfl, rfl⟩ := hlog.exists_of_informed hinformed
      rcases hreply : g.reply? with _ | reply
      · have hdecision := (hsent g hg).resolve_right (by simp [hreply])
        have hnone := ((hlog.proper g hg).sent hdecision).2 hreply
        rw [hprompts] at hnone
        cases hnone
      · exact ⟨reply, (hlog.asked_iff hg).2 ⟨rfl, hreply⟩⟩
  decided := by
    intro i attach answer hcommanded
    obtain ⟨g, hg, rfl, hdeeds⟩ := hlog.exists_of_attends hcommanded rfl
    refine ⟨⟨g.report, (hlog.informed_iff hg).2 rfl⟩, ?_⟩
    rw [← hlog.attach_iff hg]
    simp only [Incident.deeds, List.mem_cons, List.mem_append, List.mem_map] at hdeeds
    rcases hdeeds with heq | ⟨_, _, heq⟩ | ⟨_, _, heq⟩
    · cases heq
    · cases heq
    · cases heq
      rfl
  answered := by
    intro i e attach hasked
    obtain ⟨g, hg, rfl, -, hreply⟩ := hlog.exists_of_asked hasked
    rw [hlog.decisionsOf_of_ne hsent hg (by simp [hreply]), Incident.attach, hreply]
    cases attach <;> rfl
  timedOut := by
    intro i e hasked
    obtain ⟨g, hg, rfl, -, hreply⟩ := hlog.exists_of_asked hasked
    rw [hlog.decisionsOf_of_ne hsent hg (by simp [hreply]), Incident.attach, hreply]
    rfl
  unasked := by
    intro i e hinformed hquiet
    obtain ⟨g, hg, rfl, rfl⟩ := hlog.exists_of_informed hinformed
    have hreply : g.reply? = none := by
      by_contra hreply
      obtain ⟨horigin, hfirst⟩ := CampaignPlan.prompts_iff.1 ((hlog.proper g hg).asked hreply)
      rcases hquiet with hharness | ⟨hpassive, hne⟩
      · rw [hharness] at horigin
        cases horigin
      · rcases hfirst with hfirst | hfirst
        · rw [hpassive] at hfirst
          cases hfirst
        · exact hne hfirst
    rw [hlog.decisionsOf_of_ne hsent hg (by simp [hreply]), Incident.attach, hreply]
    rfl
  abandoned := by
    intro i e hasked
    obtain ⟨g, hg, rfl, -, hreply⟩ := hlog.exists_of_asked hasked
    rw [hlog.decisionsOf_eq hg]
    rcases hanswer : g.sent? with _ | answer
    · rfl
    · exact absurd hreply ((hlog.proper g hg).sent (by simp [hanswer])).1
  apart := fun _ _ _ _ _ _ _ heq hd hne => hlog.apart heq hd hne

end

namespace Campaign

open FuzzCampaign.Action Orchestrator

variable {σ : Type} (host : CampaignHost σ) (plan : CampaignPlan) (rounds : Nat)

/-- **The attach policy.** Whatever the workers report and the user answers, failures, questions,
answers and decisions fit together, and a failure in the report is marked as debugged if and only if
the user said so. Once a question was abandoned the run returns the error that its worker died, and
it does return if the clock goes on and the rounds are enough for a reaping. -/
theorem run_attach_policy (test : TestCase) (w : σ) {result : Except Stop Findings}
    {r : Recorded CampaignDeed σ}
    (h : (run host.recorded plan test rounds).outcome ⟨w, []⟩ = (result, r)) :
    AttachPolicy plan r.deeds ∧
    (∀ findings, result = .ok findings → ∀ g ∈ findings.workers, ∀ e attached,
      g.outcome = .failed e attached →
        (attached = true ↔ ∃ e, .asked g.index e (.answer true) ∈ r.deeds)) ∧
    ∀ i e, .asked i e .abandoned ∈ r.deeds →
      ((∃ status, result = .error (.error (.workerDied i status))) ∨ result = .error .outOfRounds) ∧
      ∀ clock, host.Ticks clock → plan.reapTimeout.nanoseconds + reapInterval.nanoseconds ≤
        rounds * reapInterval.nanoseconds →
          ∃ status, result = .error (.error (.workerDied i status)) := by
  have hdied : ∀ short, ReapsUnless short host.recorded plan.reapTimeout rounds → ∀ i e,
      .asked i e .abandoned ∈ r.deeds →
        (∃ status, result = .error (.error (.workerDied i status))) ∨
        result = .error .outOfRounds ∧ short := by
    intro short hreap i e hasked
    have hrun := yields_run_serves host plan rounds hreap test w
    rcases result with stop | findings
    · obtain ⟨hs, hlog, hends⟩ := hrun.of_error h
      obtain ⟨g, hg, rfl, -, hreply⟩ := hlog.exists_of_asked hasked
      refine ((hends g hg).died hreply).imp ?_ (And.imp_left (congrArg _))
      exact fun ⟨status, hstop⟩ => ⟨status, congrArg _ hstop⟩
    · obtain ⟨hs, hlog, hclosed, -⟩ := hrun.of_ok h
      obtain ⟨g, hg, rfl, -, hreply⟩ := hlog.exists_of_asked hasked
      have hproper := hlog.proper g hg
      exact absurd hreply (hproper.sent (hproper.closed (hclosed g hg))).1
  have hrun :=
    yields_run_serves host plan rounds (reapsUnless_true host plan.reapTimeout rounds) test w
  refine ⟨?_, fun findings hok g hg e attached hv => ?_, fun i e hasked => ⟨?_, ?_⟩⟩
  · rcases result with stop | findings
    · obtain ⟨hs, hlog, hends⟩ := hrun.of_error h
      exact hlog.attachPolicy fun g hg => (hends g hg).sent
    · obtain ⟨hs, hlog, hclosed, -⟩ := hrun.of_ok h
      exact hlog.attachPolicy fun g hg => .inl ((hlog.proper g hg).closed (hclosed g hg))
  · subst hok
    obtain ⟨hs, hlog, -, hfound⟩ := hrun.of_ok h
    obtain ⟨k, hk, hindex, rfl⟩ := hfound g hg e attached hv
    rw [hlog.attach_iff hk, hindex]
  · exact (hdied True (reapsUnless_true host _ _) i e hasked).imp_right And.left
  · intro clock hticks hrounds
    exact (hdied False (reapsUnless_false hticks hrounds) i e hasked).resolve_right And.right

/-- A world in which every worker is done at once, and the user answers as given. -/
def answering (outcome : UInt64 → Poll (Option Envelope)) (reply : UInt64 → PromptReply) :
    CampaignHost Nat :=
  { atOnce (fun _ => .got ()) outcome with decide := fun i _ _ => pure (reply i) }

theorem ticks_answering (outcome : UInt64 → Poll (Option Envelope)) (reply : UInt64 → PromptReply) :
    (answering outcome reply).Ticks fun time => time :=
  have h := ticks_atOnce (fun _ => .got ()) outcome
  ⟨h.now_eq, h.now, h.status, h.sleep⟩

/-- A campaign in which all workers fail. -/
def allFail (count : UInt64) (reply : UInt64 → PromptReply) :
    Except Stop Findings × Recorded CampaignDeed Nat :=
  (run (answering (fun _ => .got (some anyFailure)) reply).recorded
    { hastyPlan with processCount := count } ⟨"m", "t", []⟩ 3).outcome ⟨0, []⟩

/-- The user wants to debug the first worker, does not answer for the second, and the third exits
while the question stands. -/
def replies (i : UInt64) : PromptReply :=
  if i = 0 then .answer true else if i = 1 then .timedOut else .abandoned

theorem isOk_allFail : (allFail 2 replies).1.isOk = true := by decide +kernel

theorem reportsOf_allFail : reportsOf 0 (allFail 2 replies).2.deeds = [some anyFailure] := by
  decide +kernel

theorem question_allFail :
    questionsOf 0 (allFail 2 replies).2.deeds = [(anyFailure, .answer true)] := by
  decide +kernel

theorem questionsOf_allFail :
    questionsOf 0 (allFail 3 replies).2.deeds = [(anyFailure, .answer true)] ∧
    questionsOf 1 (allFail 3 replies).2.deeds = [(anyFailure, .timedOut)] ∧
    questionsOf 2 (allFail 3 replies).2.deeds = [(anyFailure, .abandoned)] := by
  decide +kernel

/-- Three failures of which the third ends the campaign, and two of which the first is in the report
as debugged. -/
theorem run_attach_policy_three :
    (decisionsOf 0 (allFail 3 replies).2.deeds = [true] ∧
      decisionsOf 1 (allFail 3 replies).2.deeds = [false] ∧
      decisionsOf 2 (allFail 3 replies).2.deeds = [] ∧
      ∃ status, (allFail 3 replies).1 = .error (.error (.workerDied 2 status))) ∧
    ∃ findings, (allFail 2 replies).1 = .ok findings ∧
      ∃ g ∈ findings.workers, g.index = 0 ∧ g.outcome = .failed anyFailure true := by
  have hmem : ∀ {i e reply} {r : Recorded CampaignDeed Nat}, questionsOf i r.deeds = [(e, reply)] →
      .asked i e reply ∈ r.deeds :=
    fun h => mem_questionsOf.1 (h ▸ List.mem_singleton_self _)
  constructor
  · have hquestions := questionsOf_allFail
    rcases hrun : allFail 3 replies with ⟨result, r⟩
    rw [hrun] at hquestions
    obtain ⟨h₀, h₁, h₂⟩ := hquestions
    obtain ⟨hpolicy, -, hdied⟩ := run_attach_policy _ _ _ _ _ hrun
    exact ⟨hpolicy.answered 0 _ _ (hmem h₀), hpolicy.timedOut 1 _ (hmem h₁),
      hpolicy.abandoned 2 _ (hmem h₂), (hdied 2 _ (hmem h₂)).2 _ (ticks_answering _ _) (by decide)⟩
  · have hok := isOk_allFail
    have hreports := reportsOf_allFail
    have hquestion := question_allFail
    rcases hrun : allFail 2 replies with ⟨_ | findings, r⟩
    · rw [hrun] at hok
      cases hok
    · rw [hrun] at hreports hquestion
      have hfaithful := faithful_of_run _ _ _ hrun
      obtain ⟨g, hg, hindex⟩ := (lt_processCount_iff (i := 0) hfaithful.indexes).1 (by decide)
      obtain ⟨attached, hv⟩ := (hfaithful.failed g hg anyFailure).2 (by rw [hindex, hreports]; rfl)
      have hattached := (run_attach_policy _ _ _ _ _ hrun).2.1 findings rfl g hg _ _ hv
      rw [hattached.2 ⟨_, hindex ▸ hmem hquestion⟩] at hv
      exact ⟨findings, rfl, g, hg, hindex, hv⟩

end Campaign

end FuzzCampaign
