import FuzzCampaign.Proofs.BenchWork
import FuzzCampaign.Scripted.Worker

/-!
# The node of a worker, over its whole life

Whatever goes wrong, a worker starts its node, sends the coverage of its body, reports one outcome
as far as its link lets it, and stops the node last, if there is one.

* `LinkStep`, `Follows`: the steps of a report, until one of them fails;
* **`Worker.makes_reportOutcome`**: a report makes its steps;
* `Worker.Lifetime`: the record of a whole run;
* **`Worker.run_lifetime`**: every run has such a record.
-/

namespace FuzzCampaign

variable {σ : Type}

/-! ## The report -/

/-- A step of a report on the link. -/
inductive LinkStep
  | say (m : Dispatch)
  | listen
  deriving DecidableEq

def LinkStep.message? : LinkStep → Option Dispatch
  | .say m => some m
  | .listen => none

/-- The step that was made on the link, if it was one. -/
def WorkerDeed.step? : WorkerDeed → Option LinkStep
  | .said m _ => some (.say m)
  | .heard _ => some .listen
  | _ => none

/-- The error that was answered, if it was one. -/
def WorkerDeed.failure? : WorkerDeed → Option CampaignError
  | .said _ (.error e) | .heard (.error e) => some e
  | _ => none

/-- The message that was handed over, if it was one. -/
def WorkerDeed.message? (d : WorkerDeed) : Option Dispatch := d.step?.bind (·.message?)

/-- The steps were made in order, all of them or up to the first that failed. -/
inductive Follows : List LinkStep → List WorkerDeed → Except CampaignError Unit → Prop
  | done : Follows [] [] (.ok ())
  | broken {step rest d e} (hstep : d.step? = some step) (hfailed : d.failure? = some e) :
    Follows (step :: rest) [d] (.error e)
  | next {step rest d deeds r} (hstep : d.step? = some step) (hok : d.failure? = none)
    (hrest : Follows rest deeds r) : Follows (step :: rest) (d :: deeds) r

namespace Follows

variable {steps : List LinkStep} {deeds : List WorkerDeed} {r : Except CampaignError Unit}

theorem steps_isPrefix (h : Follows steps deeds r) :
    deeds.map (·.step?) <+: steps.map some := by
  induction h with
  | done => exact List.prefix_refl []
  | broken hstep _ => exact List.cons_prefix_cons.2 ⟨hstep, List.nil_prefix⟩
  | next hstep _ _ ih => exact List.cons_prefix_cons.2 ⟨hstep, ih⟩

theorem steps_eq (h : Follows steps deeds r) (hok : ∀ d ∈ deeds, d.failure? = none) :
    deeds.map (·.step?) = steps.map some ∧ r = .ok () := by
  induction h with
  | done => exact ⟨rfl, rfl⟩
  | broken _ hfailed =>
    rw [hok _ List.mem_cons_self] at hfailed
    cases hfailed
  | next hstep _ _ ih =>
    obtain ⟨hsteps, hr⟩ := ih fun d hd => hok d (List.mem_cons_of_mem _ hd)
    exact ⟨by rw [List.map_cons, hstep, hsteps, List.map_cons], hr⟩

/-- Nothing follows a step that failed, and its error is the outcome. -/
theorem of_failed (h : Follows steps deeds r) {before after : List WorkerDeed} {d : WorkerDeed}
    (hdeeds : deeds = before ++ d :: after) {e : CampaignError} (hd : d.failure? = some e) :
    after = [] ∧ r = .error e := by
  induction h generalizing before with
  | done => exact absurd hdeeds (by simp)
  | broken _ hfailed =>
    rcases before with _ | ⟨d', before⟩
    · cases hdeeds
      rw [hd] at hfailed
      cases hfailed
      exact ⟨rfl, rfl⟩
    · exact absurd (congrArg List.length hdeeds) (by simp)
  | next _ hok _ ih =>
    rcases before with _ | ⟨d', before⟩
    · cases hdeeds
      rw [hok] at hd
      cases hd
    · exact ih (List.cons.inj hdeeds).2

theorem exists_step (h : Follows steps deeds r) {d : WorkerDeed} (hd : d ∈ deeds) :
    ∃ step, d.step? = some step := by
  have hmem := h.steps_isPrefix.subset (List.mem_map_of_mem hd)
  obtain ⟨step, -, hstep⟩ := List.mem_map.1 hmem
  exact ⟨step, hstep.symm⟩

theorem exists_first {step : LinkStep} (h : Follows (step :: steps) deeds r) :
    ∃ d rest, deeds = d :: rest ∧ d.step? = some step := by
  cases h with
  | broken hstep _ => exact ⟨_, _, rfl, hstep⟩
  | next hstep _ _ => exact ⟨_, _, rfl, hstep⟩

end Follows

/-- However it ends, an action makes these steps until one fails; the failure is its own. -/
def Action.Makes {α : Type} (act : Action (Recorded WorkerDeed σ) α) (steps : List LinkStep) :
    Prop :=
  Action.Adds act (fun _ talk => Follows steps talk (.ok ())) fun stop talk =>
    ∃ e, stop = .error e ∧ Follows steps talk (.error e)

namespace Action

variable {host : WorkerHost σ} {α : Type} {steps : List LinkStep}

theorem makes_pure (a : α) : Makes (pure a : Action (Recorded WorkerDeed σ) α) [] :=
  adds_pure .done

theorem makes_step {β : Type} {q : StateM σ (Except CampaignError β)}
    {deed : Except CampaignError β → WorkerDeed} {step : LinkStep}
    {f : β → Action (Recorded WorkerDeed σ) α} (hstep : ∀ r, (deed r).step? = some step)
    (hok : ∀ b, (deed (.ok b)).failure? = none) (hfailed : ∀ e, (deed (.error e)).failure? = some e)
    (hf : ∀ b, Makes (f b) steps) :
    Makes (perform (Recorded.noting deed q) >>= f) (step :: steps) := by
  refine adds_perform_bind (fun b => (hf b).mono (fun _ talk h => ?_) fun stop talk h => ?_)
    fun e => ?_
  · exact .next (hstep _) (hok b) h
  · obtain ⟨e, he, hfollows⟩ := h
    exact ⟨e, he, .next (hstep _) (hok b) hfollows⟩
  · exact ⟨e, rfl, .broken (hstep _) (hfailed e)⟩

theorem makes_say {m : Dispatch} {act : Action (Recorded WorkerDeed σ) α} (h : Makes act steps) :
    Makes (do
      perform (host.recorded.send m)
      act) (.say m :: steps) :=
  makes_step (fun _ => rfl) (fun _ => rfl) (fun _ => rfl) fun _ => h

theorem makes_listen {f : Command → Action (Recorded WorkerDeed σ) α}
    (h : ∀ c, Makes (f c) steps) :
    Makes (do
      let c ← perform host.recorded.receive
      f c) (.listen :: steps) :=
  makes_step (fun _ => rfl) (fun _ => rfl) (fun _ => rfl) h

end Action

namespace Worker

open FuzzCampaign.Action

/-- The steps of a report. -/
def reportSteps : Option Envelope → List LinkStep
  | none => [.say (.exception none), .say .finished]
  | some e => [.say (.exception (some e)), .say .finished, .listen, .say .finished]

/-- **A report makes its steps**, until one of them fails. -/
theorem makes_reportOutcome (host : WorkerHost σ) (report : Option Envelope) :
    Makes (reportOutcome host.recorded report) (reportSteps report) := by
  rw [← perform_conversation]
  cases report with
  | none =>
    simp only [conversation, perform_say]
    exact makes_say (makes_say (makes_pure _))
  | some e =>
    simp only [conversation, perform_say, perform_listen]
    refine makes_say (makes_say (makes_listen fun c => ?_))
    cases wantsDebugger c with
    | true =>
      rw [closing, Conversation.perform, perform_say]
      exact adds_aside_bind fun _ => makes_say (makes_pure _)
    | false =>
      rw [closing, perform_say]
      exact makes_say (makes_pure _)

/-! ## The whole run -/

/-- Whether something is the end of the node. -/
def isStop : WorkerDeed → Bool
  | .stopped => true
  | _ => false

/-- The record of a worker that has ended. -/
structure Lifetime (report : Option Envelope) (answer : Except CampaignError Unit)
    (coverage talk deeds : List WorkerDeed) (result : Except Stop WorkerEnd) : Prop where
  /-- A node that was started is stopped last. -/
  deeds_eq : deeds = .launched answer :: (coverage ++ talk) ++
    if answer.isOk then [.stopped] else []
  stops_eq : deeds.countP isStop = if answer.isOk then 1 else 0
  /-- Coverage comes before the report. -/
  coverage_only : ∀ d ∈ coverage, d.IsCoverage
  messages_isPrefix : deeds.filterMap (·.message?) <+:
    coverage.filterMap (·.message?) ++ reportMessages report
  exceptions_eq : exceptionsOf (deeds.filterMap (·.message?)) = [report]
  /-- The steps of the report are made in order, with a command between the completions. -/
  steps_isPrefix : talk.map (·.step?) <+: (reportSteps report).map some
  /-- If none of them fails, all are made. -/
  steps_eq : (∀ d ∈ talk, d.failure? = none) →
    talk.map (·.step?) = (reportSteps report).map some ∧ ∃ v, result = .ok v
  /-- Only the last one can fail. -/
  of_failed : ∀ before d after e, talk = before ++ d :: after → d.failure? = some e →
    after = [] ∧ result = .error (.error e)
  /-- A worker that failed has a command when it stops its node, or its link has failed. -/
  released : ∀ e, report = some e → (∃ c, .heard (.ok c) ∈ talk) ∨ ∃ d ∈ talk, d.failure? ≠ none

section

variable {report : Option Envelope} {coverage talk : List WorkerDeed}
    {r : Except CampaignError Unit}

theorem isStop_of_step {d : WorkerDeed} {step : LinkStep} (h : d.step? = some step) :
    isStop d = false := by
  cases d with
  | stopped => cases h
  | _ => rfl

theorem isStop_of_coverage {d : WorkerDeed} (h : d.IsCoverage) : isStop d = false := by
  obtain ⟨s, r, rfl⟩ := h
  rfl

theorem messages_of_steps (deeds : List WorkerDeed) :
    deeds.filterMap (·.message?) = (deeds.map (·.step?)).filterMap (·.bind (·.message?)) := by
  rw [List.filterMap_map]
  rfl

theorem messages_reportSteps (report : Option Envelope) :
    ((reportSteps report).map some).filterMap (·.bind (·.message?)) = reportMessages report := by
  cases report <;> rfl

theorem exceptionsOf_reportMessages (report : Option Envelope) :
    exceptionsOf (reportMessages report) = [report] := by
  cases report <;> rfl

theorem messages_isPrefix (h : Follows (reportSteps report) talk r) :
    talk.filterMap (·.message?) <+: reportMessages report := by
  rw [messages_of_steps, ← messages_reportSteps]
  exact h.steps_isPrefix.filterMap _

/-- **One outcome is reported**, wherever the report breaks off. -/
theorem exceptions_of_follows (h : Follows (reportSteps report) talk r) :
    exceptionsOf (talk.filterMap (·.message?)) = [report] := by
  have hprefix : exceptionsOf (talk.filterMap (·.message?)) <+: [report] := by
    rw [← exceptionsOf_reportMessages]
    exact (messages_isPrefix h).filterMap _
  have hfirst : ∃ steps, reportSteps report = .say (.exception report) :: steps := by
    cases report <;> exact ⟨_, rfl⟩
  obtain ⟨steps, hsteps⟩ := hfirst
  rw [hsteps] at h
  obtain ⟨d, rest, rfl, hd⟩ := h.exists_first
  have hmessage : d.message? = some (.exception report) := by
    rw [WorkerDeed.message?, hd]
    rfl
  rw [List.filterMap_cons_some hmessage, exceptionsOf_cons] at hprefix ⊢
  have hnil := List.prefix_nil.1 (List.cons_prefix_cons.1 hprefix).2
  exact congrArg (report :: ·) hnil

/-- A worker with a failure goes on to its last step only with a command. -/
theorem released_of_follows {e : Envelope} (h : Follows (reportSteps (some e)) talk r) :
    (∃ c, .heard (.ok c) ∈ talk) ∨ ∃ d ∈ talk, d.failure? ≠ none := by
  by_cases hok : ∀ d ∈ talk, d.failure? = none
  · have hlisten : some LinkStep.listen ∈ talk.map (·.step?) := by
      rw [(h.steps_eq hok).1]
      simp [reportSteps]
    obtain ⟨d, hd, hstep⟩ := List.mem_map.1 hlisten
    refine .inl ?_
    cases d with
    | heard answer =>
      cases answer with
      | ok c => exact ⟨c, hd⟩
      | error e => cases hok _ hd
    | _ => cases hstep
  · obtain ⟨d, hd⟩ := Classical.not_forall.1 hok
    exact .inr ⟨d, Classical.not_imp.1 hd⟩

theorem lifetime_of_follows {result : Except Stop WorkerEnd} (answer : Except CampaignError Unit)
    (hcoverage : ∀ d ∈ coverage, d.IsCoverage) (h : Follows (reportSteps report) talk r)
    (hok : r = .ok () → ∃ v, result = .ok v)
    (herror : ∀ e, r = .error e → result = .error (.error e)) :
    Lifetime report answer coverage talk
      (.launched answer :: (coverage ++ talk) ++ if answer.isOk then [.stopped] else [])
      result := by
  have hend : List.filterMap WorkerDeed.message? (if answer.isOk then [.stopped] else []) = [] := by
    split_ifs <;> rfl
  have hmessages : List.filterMap WorkerDeed.message? (.launched answer :: (coverage ++ talk) ++
      if answer.isOk then [.stopped] else []) =
      coverage.filterMap (·.message?) ++ talk.filterMap (·.message?) := by
    rw [List.filterMap_append, hend, List.append_nil, List.filterMap_cons_none rfl,
      List.filterMap_append]
  refine ⟨rfl, ?_, hcoverage, ?_, ?_, h.steps_isPrefix, fun hall => ?_,
    fun before d after e hd he => ?_, fun e he => ?_⟩
  · have hstops : (coverage ++ talk).countP isStop = 0 := by
      refine List.countP_eq_zero.2 fun d hd => ?_
      rcases List.mem_append.1 hd with hd | hd
      · simp [isStop_of_coverage (hcoverage d hd)]
      · obtain ⟨step, hstep⟩ := h.exists_step hd
        simp [isStop_of_step hstep]
    rw [List.cons_append, List.countP_cons_of_neg (by simp [isStop]), List.countP_append, hstops]
    split_ifs <;> rfl
  · rw [hmessages]
    exact (List.prefix_append_right_inj _).2 (messages_isPrefix h)
  · rw [hmessages, exceptionsOf_append, exceptions_of_follows h]
    have hnone : exceptionsOf (coverage.filterMap (·.message?)) = [] := by
      refine List.filterMap_eq_nil_iff.2 fun m hm => ?_
      obtain ⟨d, hd, hm⟩ := List.mem_filterMap.1 hm
      obtain ⟨s, r, rfl⟩ := hcoverage d hd
      cases hm
      rfl
    rw [hnone, List.nil_append]
  · obtain ⟨hsteps, hr⟩ := h.steps_eq hall
    exact ⟨hsteps, hok hr⟩
  · obtain ⟨hafter, hr⟩ := h.of_failed hd he
    exact ⟨hafter, herror e hr⟩
  · subst he
    exact released_of_follows h

end

/-- A node that was started is stopped, whatever came of the report. -/
theorem yields_stop (host : WorkerHost σ) (answer : Except CampaignError Unit)
    (result : Except CampaignError WorkerEnd) (r : Recorded WorkerDeed σ) :
    Yields (do
      if answer.isOk then ask host.recorded.stopNode
      lift result) r
      (fun v r' => result = .ok v ∧
        r'.deeds = r.deeds ++ if answer.isOk then [.stopped] else [])
      fun stop r' => (∃ e, stop = .error e ∧ result = .error e) ∧
        r'.deeds = r.deeds ++ if answer.isOk then [.stopped] else [] := by
  by_cases hanswer : answer.isOk = true
  · rw [if_pos hanswer, if_pos hanswer, yields_bind, yields_ask, yields_lift]
    cases result with
    | ok v => exact ⟨rfl, rfl⟩
    | error e => exact ⟨⟨e, rfl, rfl⟩, rfl⟩
  · rw [if_neg hanswer, if_neg hanswer, List.append_nil]
    cases result with
    | ok v => exact ⟨rfl, rfl⟩
    | error e => exact ⟨⟨e, rfl, rfl⟩, rfl⟩

/-- **The node and the link of a worker, over its whole life.** Whatever its world answers and
however its body ends, a worker that returns has started its node, sent the coverage of its body,
reported one outcome until its link failed, and stopped the node last, if there was one. A worker
that does not return is still connecting to its node. -/
theorem run_lifetime (host : WorkerHost σ) (test : TestCase)
    (body : FuzzBody (Recorded WorkerDeed σ)) (task : WorkerTask) (retry : Patience) (rounds : Nat)
    (w : σ) (hbody : BenchWork host.recorded (body host.recorded task)) :
    let ending := (run host.recorded test body task retry rounds).outcome ⟨w, []⟩
    (ending.1 = .error .outOfRounds ∧ ending.2.deeds = [.launched (.ok ())]) ∨
      ∃ report answer coverage talk,
        Lifetime report answer coverage talk ending.2.deeds ending.1 := by
  have hrun : Yields (run host.recorded test body task retry rounds) ⟨w, []⟩
      (fun v r' => ∃ report answer coverage talk,
        Lifetime report answer coverage talk r'.deeds (.ok v))
      fun stop r' => (stop = .outOfRounds ∧ r'.deeds = [.launched (.ok ())]) ∨
        ∃ report answer coverage talk,
          Lifetime report answer coverage talk r'.deeds (.error stop) := by
    unfold run
    rw [yields_bind]
    refine (yields_execute hbody test retry rounds ⟨w, []⟩).mono ?_ fun stop r' h => .inl h
    rintro ⟨hasNode, report⟩ r₁ ⟨answer, coverage, hdeeds, hnode, hcoverage⟩
    change hasNode = answer.isOk at hnode
    subst hnode
    have hwhole : ∀ {talk : List WorkerDeed} {r₂ r₃ : Recorded WorkerDeed σ},
        r₂.deeds = r₁.deeds ++ talk →
        r₃.deeds = r₂.deeds ++ (if answer.isOk then [.stopped] else []) →
        r₃.deeds = .launched answer :: (coverage ++ talk) ++
          if answer.isOk then [.stopped] else [] := by
      intro talk r₂ r₃ h₂ h₃
      rw [h₃, h₂, hdeeds]
      simp
    rw [yields_bind, yields_attempt]
    refine (makes_reportOutcome host report r₁).mono ?_ ?_
    · rintro v r₂ ⟨talk, hdeeds₂, hfollows⟩
      refine (yields_stop host answer (.ok v) r₂).mono ?_ ?_
      · rintro v' r₃ ⟨hv, hdeeds₃⟩
        cases hv
        refine ⟨report, answer, coverage, talk, ?_⟩
        rw [hwhole hdeeds₂ hdeeds₃]
        exact lifetime_of_follows answer hcoverage hfollows (fun _ => ⟨v, rfl⟩) nofun
      · rintro stop r₃ ⟨⟨e, -, hv⟩, -⟩
        cases hv
    · rintro stop r₂ ⟨talk, hdeeds₂, e, rfl, hfollows⟩
      refine (yields_stop host answer (.error e) r₂).mono ?_ ?_
      · rintro v r₃ ⟨hv, -⟩
        cases hv
      · rintro stop r₃ ⟨⟨e', rfl, he⟩, hdeeds₃⟩
        cases he
        refine .inr ⟨report, answer, coverage, talk, ?_⟩
        rw [hwhole hdeeds₂ hdeeds₃]
        refine lifetime_of_follows answer hcoverage hfollows nofun fun e he => ?_
        cases he
        rfl
  intro ending
  rcases hending : ending with ⟨stop | v, r'⟩
  · rcases hrun.of_error hending with ⟨rfl, hdeeds⟩ | h
    · exact .inl ⟨rfl, hdeeds⟩
    · exact .inr h
  · exact .inr (hrun.of_ok hending)

/-- A body that counts a hit and fails. -/
def failingBody : FuzzBody (Recorded WorkerDeed ScriptedWorker) :=
  scriptedBody (fun _ _ => return ())
    [("take", .take TestCase.coverageParam true), ("hit", .hit "c" "1:2-3:4" "f" 1),
      ("fail", .fail ⟨"wrong", []⟩)]

/-- A task with coverage. -/
def measuredTask : WorkerTask := { (default : WorkerTask) with coverage := true }

/-- A world whose orchestrator wants no debugger. -/
def detaching : ScriptedWorker := { commands := [.decision false] }

/-- The run of a worker whose test fails. -/
def failingRun : Except Stop WorkerEnd × Recorded WorkerDeed ScriptedWorker :=
  (run ScriptedWorker.host.recorded ⟨"m", "t", [TestCase.coverageParam]⟩ failingBody measuredTask
    .default 1).outcome ⟨detaching, []⟩

theorem failingRun_steps : failingRun.1.isOk = true ∧
    failingRun.2.deeds.map (·.step?.isSome) = [false, true, true, true, true, true, false] := by
  decide +kernel

/-- The worker sends its coverage, reports its failure and stops its node last. -/
theorem run_lifetime_failing :
    failingRun.2.deeds.map (·.step?.isSome) = [false, true, true, true, true, true, false] ∧
    ∃ report answer coverage talk,
      Lifetime report answer coverage talk failingRun.2.deeds failingRun.1 := by
  obtain ⟨hok, hsteps⟩ := failingRun_steps
  have hrun := run_lifetime ScriptedWorker.host ⟨"m", "t", [TestCase.coverageParam]⟩ failingBody
    measuredTask .default 1 detaching
    (probeWork_scriptedBody (fun _ _ => Recorded.quiet_pure ()) _).benchWork
  have hending : failingRun = (run ScriptedWorker.host.recorded
    ⟨"m", "t", [TestCase.coverageParam]⟩ failingBody measuredTask .default 1).outcome
      ⟨detaching, []⟩ := rfl
  simp only [← hending] at hrun
  rcases hrun with ⟨hstop, -⟩ | h
  · rw [hstop] at hok
    cases hok
  · exact ⟨hsteps, h⟩

end Worker

end FuzzCampaign
