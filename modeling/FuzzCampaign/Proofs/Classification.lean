import FuzzCampaign.Proofs.Preparation
import FuzzCampaign.Scripted.Worker

/-!
# What a worker reports

A worker runs the body of its test at most once, after all steps of the preparation, and reports one
outcome. The outcome tells what happened: nothing is reported of a body that returned, a failure of
the body is reported as its own, and the failure of a step as one of the worker around it.

* `Worker.BodyRan`, `Worker.notes_runBody`: the body and its report;
* `Worker.Reached`, `Worker.adds_execute`: what a worker has done when it reports;
* `Conversation.Closing`, `Worker.Reports`, `Worker.concludes_reportOutcome`: the report;
* `Worker.Completed`, `Worker.adds_run`: a worker that has reported;
* `Worker.Classified`, **`Worker.run_classified`**: the outcome of every run, against its record.
-/

namespace FuzzCampaign

variable {σ : Type}

/-! ## The body -/

namespace Bench

theorem asides_farewell (host : WorkerHost σ) (s? : Option Snapshot)
    (b : Bench (Recorded WorkerAct σ)) :
    ∃ l, ((match s? with
      | some s => discard (report host.noted s)
      | none => return ()).run b).2.world.deeds = b.world.deeds ++ l ∧ ∀ a ∈ l, a.IsAside := by
  cases s? with
  | none => exact ⟨[], (List.append_nil _).symm, List.forall_mem_nil _⟩
  | some s =>
    let answer := ((host.send (.coverage s)).run b.world.world).1
    exact ⟨[.said (.coverage s) answer], rfl, List.forall_mem_singleton.2 trivial⟩

end Bench

namespace Worker

open FuzzCampaign.Action Recorded SetUpStep

/-- The body ran once, between log lines and coverage, and this is its report. -/
def BodyRan (test : TestCase) (l : List WorkerAct) (report : Option Envelope) : Prop :=
  ∃ before ending after watched, l = before ++ .ran ending :: after ∧
    (∀ a ∈ before ++ after, a.IsAside) ∧ report = reportOf test watched ending

variable (host : WorkerHost σ) (test : TestCase) (body : FuzzBody σ) (task : WorkerTask)

/-- At the bench the body runs, and its probe is given up. -/
theorem exists_asides_atBench (b : Bench (Recorded WorkerAct σ)) :
    let x := (atBench host.noted (body.noted host host.noted task)).run b
    ∃ l, x.2.world.deeds = b.world.deeds ++ .ran x.1 :: l ∧ ∀ a ∈ l, a.IsAside := by
  let ended := (body host task).run.run (b.within b.world.world)
  let b₁ : Bench (Recorded WorkerAct σ) :=
    ended.2.within ⟨ended.2.world, b.world.deeds ++ [.ran ended.1]⟩
  obtain ⟨l, hdeeds, hasides⟩ :=
    Bench.asides_farewell host (b₁.probe?.bind (·.farewell)) { b₁ with probe? := none }
  let b₂ := ((Bench.dropProbe host.noted).run b₁).2
  have hdeeds₂ : b₂.world.deeds = b.world.deeds ++ [.ran ended.1] ++ l := hdeeds
  obtain ⟨l', hdeeds', hasides'⟩ :=
    Bench.asides_farewell host (b₂.argument?.bind (·.farewell)) { b₂ with argument? := none }
  refine ⟨l ++ l', hdeeds'.trans ?_, List.forall_mem_append.2 ⟨hasides, hasides'⟩⟩
  change b₂.world.deeds ++ l' = b.world.deeds ++ .ran ended.1 :: (l ++ l')
  rw [hdeeds₂]
  simp

theorem notes_runBody (client : RpcClient) (probe? : Option Probe) :
    Notes (runBody host.noted test (body.noted host) task client probe?) fun report l =>
      BodyRan test l report := by
  rw [runBody_eq]
  intro r
  obtain ⟨before, hdeeds₁, hwritten₁⟩ := notes_writeLog host task.tee (beginLine test task) r
  let r₁ := ((Bench.writeLog host.noted task.tee (beginLine test task)).run r).2
  let b : Bench (Recorded WorkerAct σ) := ⟨r₁, client, .ofSeed task.seed, [], probe?, none⟩
  let x := (atBench host.noted (body.noted host host.noted task)).run b
  obtain ⟨l, hdeeds₂, hasides⟩ := exists_asides_atBench host body task b
  obtain ⟨l', hdeeds₃, hwritten₃⟩ := notes_writeLog host task.tee
    (endLine (reportOf test x.2.watched x.1)) x.2.world
  have hx : x.2.world.deeds = r.deeds ++ before ++ .ran x.1 :: l := by
    rw [← hdeeds₁]
    exact hdeeds₂
  refine ⟨before ++ .ran x.1 :: (l ++ l'), hdeeds₃.trans ?_, before, x.1, l ++ l', x.2.watched, rfl,
    ?_, rfl⟩
  · rw [hx]
    simp
  · simp only [List.forall_mem_append]
    exact ⟨hwritten₁.asides, hasides, hwritten₃.asides⟩

/-! ## Up to the report -/

/-- What a worker has done when it reports: all steps and then the body, or the steps up to the
first that failed. -/
inductive Reached (test : TestCase) (task : WorkerTask) (retry : Patience) :
    List WorkerAct → Option Envelope → Prop
  | failed {steps : List WorkerAct} {e : CampaignError} :
    Proceeds test task retry (SetUpStep.all test task) steps (.error (.error e)) →
    Reached test task retry steps (some (.ofHarnessError test.fullName e))
  | ran {steps l : List WorkerAct} {report : Option Envelope} :
    Proceeds test task retry (SetUpStep.all test task) steps (.ok ()) → BodyRan test l report →
    Reached test task retry (steps ++ l) report

/-- Up to its report, a worker has made its steps, and run the body if all of them succeeded. -/
theorem adds_execute (retry : Patience) (rounds : Nat) :
    Adds (execute host.noted test (body.noted host) task retry rounds)
      (fun x l => Reached test task retry l x.2) fun stop l => stop = .outOfRounds ∧
        Proceeds test task retry (SetUpStep.all test task) l (.error .outOfRounds) := by
  have hlaunched : Proceeds test task retry [.launch]
      [.launched task.network task.port (.ok ()), .guarded] (.ok ()) := .single .launched
  refine adds_noting_bind fun r => ?_
  rcases r with e | _
  · exact adds_pure (.failed (.broken (.notLaunched e)))
  · rw [WorkerHost.noted_guardNode]
    refine adds_noting_bind fun _ => ?_
    refine (adds_attempt (Q := fun x l => Proceeds test task retry (SetUpStep.all test task)
      (.launched task.network task.port (.ok ()) :: .guarded :: l) (endOf x))
      (E := fun stop l => stop = .outOfRounds ∧ Proceeds test task retry (SetUpStep.all test task)
        (.launched task.network task.port (.ok ()) :: .guarded :: l) (.error .outOfRounds))
      ((passes_setUp host test task retry rounds).mono ?_ ?_)).bind ?_ fun _ _ => id
    · exact fun x l h => hlaunched.append h.1
    · intro stop l h
      have hall := hlaunched.append h
      rcases h.stop_cases with ⟨e, rfl⟩ | rfl
      · exact hall
      · exact ⟨rfl, hall⟩
    · intro x l h
      rcases x with e | ⟨client, probe⟩
      · refine adds_pure ?_
        rw [List.append_nil]
        exact .failed h
      · refine (adds_ask (E := fun _ _ => False)
          (notes_runBody host test body task client probe)).bind ?_ fun _ _ => False.elim
        intro report l' hran
        refine adds_pure ?_
        rw [List.append_nil]
        exact .ran h hran

end Worker

/-! ## The report -/

namespace Conversation

open FuzzCampaign.Action

/-- It says nothing but that the worker is done, and ends by itself. -/
def Closing : Conversation → Prop
  | .ended r => ∀ stop, r = .error stop → ∃ e, stop = .error e
  | .saying m next => m = .finished ∧ ∀ answer, Closing (next answer)
  | .hearing next => ∀ answer, Closing (next answer)
  | .debugging _ next => Closing next

theorem closing_say {c : Conversation} (h : c.Closing) : (say .finished c).Closing := by
  refine ⟨rfl, fun answer => ?_⟩
  cases answer with
  | ok _ => exact h
  | error e => exact fun stop hstop => ⟨e, (Except.error.inj hstop).symm⟩

theorem closing_listen {next : Command → Conversation} (h : ∀ c, (next c).Closing) :
    (listen next).Closing := by
  intro answer
  cases answer with
  | ok c => exact h c
  | error e => exact fun stop hstop => ⟨e, (Except.error.inj hstop).symm⟩

theorem concludes_closing (host : WorkerHost σ) {c : Conversation} (h : c.Closing) :
    Concludes (c.perform host.noted) fun l => ∀ a ∈ l, a.IsClosing := by
  induction c with
  | ended r =>
    cases r with
    | ok v => exact adds_pure (List.forall_mem_nil _)
    | error stop => exact adds_throw ⟨h stop rfl, List.forall_mem_nil _⟩
  | saying m next ih =>
    obtain ⟨rfl, hnext⟩ := h
    exact concludes_noting_bind fun answer => (ih answer (hnext answer)).imp
      fun _ hl => List.forall_mem_cons.2 ⟨trivial, hl⟩
  | hearing next ih =>
    exact concludes_noting_bind fun answer => (ih answer (h answer)).imp
      fun _ hl => List.forall_mem_cons.2 ⟨trivial, hl⟩
  | debugging e next ih =>
    rw [perform, Worker.debug, WorkerHost.noted_converse]
    exact concludes_noting_bind fun _ => (ih h).imp
      fun _ hl => List.forall_mem_cons.2 ⟨trivial, hl⟩

end Conversation

namespace Worker

open Conversation FuzzCampaign.Action Recorded SetUpStep

/-- A report: the outcome, whether it gets through or not, and what follows it. -/
def Reports (report : Option Envelope) (l : List WorkerAct) : Prop :=
  ∃ answer rest, l = .said (.exception report) answer :: rest ∧ ∀ a ∈ rest, a.IsClosing

theorem exists_closing (report : Option Envelope) :
    ∃ rest, conversation report = say (.exception report) rest ∧ rest.Closing := by
  cases report with
  | none => exact ⟨_, rfl, closing_say nofun⟩
  | some e =>
    refine ⟨_, rfl, closing_say (closing_listen fun c => ?_)⟩
    cases wantsDebugger c with
    | true => exact closing_say nofun
    | false => exact closing_say nofun

theorem concludes_reportOutcome (host : WorkerHost σ) (report : Option Envelope) :
    Concludes (reportOutcome host.noted report) (Reports report) := by
  obtain ⟨rest, hconversation, hclosing⟩ := exists_closing report
  rw [← perform_conversation, hconversation, perform_say]
  refine adds_perform_bind (fun answer => ?_) fun e => ⟨⟨e, rfl⟩, _, [], rfl, List.forall_mem_nil _⟩
  exact (concludes_closing host hclosing).imp fun l hl => ⟨_, l, rfl, hl⟩

/-! ## The whole run -/

/-- The outcome of a run, against its record: the steps, which came to `r`, and the rest. -/
structure Classified (r : Except CampaignError Unit) (steps rest : List WorkerAct)
    (report : Option Envelope) : Prop where
  /-- The steps neither run the body nor use the link. -/
  prepared : ∀ a ∈ steps, a.IsPreparing
  /-- The body runs once if all steps succeeded, and otherwise not at all. -/
  once : (endingsIn rest).length = r.isOk.toNat
  /-- After a step that failed there is only the report. -/
  broken_off : ∀ error, r = .error error → Reports report rest
  /-- One outcome is reported. -/
  reported : outcomesIn rest = [report]
  /-- Nothing is reported exactly of a body that returned. -/
  passed : report = none ↔ endingsIn rest = [.ok ()]
  /-- A failure is one of the body exactly if the body failed. -/
  ofBody : (∃ e, report = some e ∧ e.origin = .testBody) ↔
    ∃ failure, endingsIn rest = [.error failure]
  kind_eq : ∀ e failure, report = some e → endingsIn rest = [.error failure] →
    e.kind = match failure with
      | .panic _ => "panic"
      | .error _ => "error"
  /-- The failure of a step is one of the worker around the body, and has its kind and wording. -/
  ofHarness : ∀ error, r = .error error →
    ∃ e, report = some e ∧ e.origin = .harness ∧ e.kind = error.kind ∧ e.message = error.message

section

variable {test : TestCase} {task : WorkerTask} {retry : Patience} {steps l talk : List WorkerAct}
  {report : Option Envelope}

theorem Reports.endingsIn_eq (h : Reports report talk) : endingsIn talk = [] := by
  obtain ⟨answer, rest, rfl, hclosing⟩ := h
  have hrest : endingsIn rest = [] := endingsIn_of_neutral fun a ha => (hclosing a ha).neutral
  exact hrest

theorem Reports.outcomesIn_eq (h : Reports report talk) : outcomesIn talk = [report] := by
  obtain ⟨answer, rest, rfl, hclosing⟩ := h
  have hrest : outcomesIn rest = [] := outcomesIn_of_neutral fun a ha => (hclosing a ha).neutral
  exact congrArg (report :: ·) hrest

/-- A worker whose preparation failed. -/
theorem classified_of_failed {error : CampaignError}
    (hsteps : Proceeds test task retry (SetUpStep.all test task) steps (.error (.error error)))
    (htalk : Reports (some (.ofHarnessError test.fullName error)) talk) :
    Classified (.error error) steps talk (some (.ofHarnessError test.fullName error)) where
  prepared := hsteps.preparing
  once := by rw [htalk.endingsIn_eq]; rfl
  broken_off _ _ := htalk
  reported := htalk.outcomesIn_eq
  passed := by rw [htalk.endingsIn_eq]; exact ⟨nofun, nofun⟩
  ofBody := by
    rw [htalk.endingsIn_eq]
    constructor
    · rintro ⟨e, he, horigin⟩
      cases he
      cases horigin
    · rintro ⟨failure, h⟩
      cases h
  kind_eq _ _ _ h := by rw [htalk.endingsIn_eq] at h; cases h
  ofHarness _ h := by cases h; exact ⟨_, rfl, rfl, rfl, rfl⟩

theorem classified_of_ran
    (hsteps : Proceeds test task retry (SetUpStep.all test task) steps (.ok ()))
    (hran : BodyRan test l report) (htalk : Reports report talk) :
    Classified (.ok ()) steps (l ++ talk) report := by
  obtain ⟨before, ending, after, watched, rfl, hasides, rfl⟩ := hran
  obtain ⟨hbefore, hafter⟩ := List.forall_mem_append.1 hasides
  have hneutral : ∀ {acts : List WorkerAct}, (∀ a ∈ acts, a.IsAside) →
      endingsIn acts = [] ∧ outcomesIn acts = [] := fun h =>
    ⟨endingsIn_of_neutral fun a ha => (h a ha).neutral,
      outcomesIn_of_neutral fun a ha => (h a ha).neutral⟩
  have hendings : endingsIn (before ++ .ran ending :: after ++ talk) = [ending] := by
    rw [endingsIn_append, endingsIn_append, htalk.endingsIn_eq, (hneutral hbefore).1]
    exact congrArg (fun l => ending :: (l ++ [])) (hneutral hafter).1
  have houtcomes : outcomesIn (before ++ .ran ending :: after ++ talk) =
      [reportOf test watched ending] := by
    rw [outcomesIn_append, outcomesIn_append, htalk.outcomesIn_eq, (hneutral hbefore).2]
    exact congrArg (· ++ _) (hneutral hafter).2
  refine
    { prepared := hsteps.preparing
      once := by rw [hendings]; rfl
      broken_off := nofun
      reported := houtcomes
      passed := ?passed
      ofBody := ?ofBody
      kind_eq := ?kind
      ofHarness := nofun }
  case passed =>
    rw [hendings]
    rcases ending with failure | _
    · exact ⟨nofun, nofun⟩
    · exact ⟨fun _ => rfl, fun _ => rfl⟩
  case ofBody =>
    rw [hendings]
    rcases ending with failure | _
    · refine ⟨fun _ => ⟨failure, rfl⟩, fun _ => ⟨_, rfl, ?_⟩⟩
      cases failure <;> rfl
    · constructor
      · rintro ⟨e, he, -⟩
        cases he
      · rintro ⟨failure, h⟩
        cases h
  case kind =>
    rw [hendings]
    intro e failure he hfailure
    cases hfailure
    cases he
    cases failure <;> rfl

/-- A worker that has reported: what it had done before, and its report. -/
def Completed (test : TestCase) (task : WorkerTask) (retry : Patience) (acts : List WorkerAct) :
    Prop :=
  ∃ report l talk, acts = l ++ talk ∧ Reached test task retry l report ∧ Reports report talk

theorem Completed.classified {acts : List WorkerAct} (h : Completed test task retry acts) :
    ∃ r steps rest report, acts = steps ++ rest ∧
      Proceeds test task retry (SetUpStep.all test task) steps (endOf r) ∧
      Classified r steps rest report := by
  obtain ⟨report, l, talk, rfl, hreached, htalk⟩ := h
  cases hreached with
  | @failed _ e hsteps =>
    exact ⟨.error e, l, talk, _, rfl, hsteps, classified_of_failed hsteps htalk⟩
  | @ran steps l' _ hsteps hran =>
    exact ⟨.ok (), steps, l' ++ talk, report, List.append_assoc _ _ _, hsteps,
      classified_of_ran hsteps hran htalk⟩

end

/-- The end of the node comes after the report. -/
theorem concludes_stop (host : WorkerHost σ) (hasNode : Bool)
    (result : Except CampaignError WorkerEnd) :
    Concludes (do
      if hasNode then ask host.noted.stopNode
      lift result) fun l => ∀ a ∈ l, a.IsClosing := by
  cases hasNode with
  | true =>
    change Concludes (ask host.noted.stopNode >>= fun _ => lift result) _
    rw [WorkerHost.noted_stopNode]
    exact concludes_noting_bind fun _ => concludes_lift result (List.forall_mem_singleton.2 trivial)
  | false => exact concludes_lift result (List.forall_mem_nil _)

theorem Reports.append {report : Option Envelope} {l l' : List WorkerAct} (h : Reports report l)
    (h' : ∀ a ∈ l', a.IsClosing) : Reports report (l ++ l') := by
  obtain ⟨answer, rest, rfl, hclosing⟩ := h
  exact ⟨answer, rest ++ l', rfl, List.forall_mem_append.2 ⟨hclosing, h'⟩⟩

/-- A worker reports what it has done, or it is still connecting. -/
theorem adds_run (host : WorkerHost σ) (test : TestCase) (body : FuzzBody σ) (task : WorkerTask)
    (retry : Patience) (rounds : Nat) :
    Adds (run host.noted test (body.noted host) task retry rounds)
      (fun _ l => Completed test task retry l) fun stop l => (stop = .outOfRounds ∧
        Proceeds test task retry (SetUpStep.all test task) l (.error .outOfRounds)) ∨
        Completed test task retry l := by
  refine (adds_execute host test body task retry rounds).bind ?_ fun _ _ => .inl
  rintro ⟨hasNode, report⟩ l hreached
  refine (adds_attempt (Q := fun _ talk => Reports report talk) (E := fun _ _ => False)
    ((concludes_reportOutcome host report).mono (fun _ _ => id) ?_)).bind ?_ fun _ _ => False.elim
  · rintro stop talk ⟨⟨e, rfl⟩, htalk⟩
    exact htalk
  · intro result talk htalk
    have hcompleted : ∀ l', (∀ a ∈ l', a.IsClosing) →
        Completed test task retry (l ++ (talk ++ l')) := fun l' hl' =>
      ⟨report, l, talk ++ l', rfl, hreached, htalk.append hl'⟩
    exact (concludes_stop host hasNode result).mono (fun _ l' => hcompleted l')
      fun _ l' h => .inr (hcompleted l' h.2)

/-- **What a worker reports is what happened.** In every world, for every test, task and body, and
however often it tries to connect, a worker makes its steps in order up to the first that fails. It
runs the body once if all of them succeeded, and otherwise goes over to its report; it reports one
outcome, which tells a body that returned, a body that failed and a step that failed apart. A worker
that does not report is still connecting to its node. -/
theorem run_classified (host : WorkerHost σ) (test : TestCase) (body : FuzzBody σ)
    (task : WorkerTask) (retry : Patience) (rounds : Nat) (w : σ) :
    let ending := (run host test body task retry rounds).outcome w
    ∃ acts, (run host.noted test (body.noted host) task retry rounds).outcome ⟨w, []⟩ =
        (ending.1, ⟨ending.2, acts⟩) ∧
      ((ending.1 = .error .outOfRounds ∧
          Proceeds test task retry (SetUpStep.all test task) acts (.error .outOfRounds)) ∨
        ∃ r steps rest report, acts = steps ++ rest ∧
          Proceeds test task retry (SetUpStep.all test task) steps (endOf r) ∧
          Classified r steps rest report) := by
  obtain ⟨acts, hacts⟩ := outcome_run_noted host test body task retry rounds w
  have hrun := adds_run host test body task retry rounds ⟨w, []⟩
  intro ending
  change _ = (ending.1, Recorded.mk ending.2 acts) at hacts
  refine ⟨acts, hacts, ?_⟩
  rcases hending : ending with ⟨stop | v, w'⟩
  · rw [hending] at hacts
    obtain ⟨l, hl, h⟩ := hrun.of_error hacts
    obtain rfl : acts = l := hl
    rcases h with ⟨rfl, hsteps⟩ | hreported
    · exact .inl ⟨rfl, hsteps⟩
    · exact .inr hreported.classified
  · rw [hending] at hacts
    obtain ⟨l, hl, hreported⟩ := hrun.of_ok hacts
    obtain rfl : acts = l := hl
    exact .inr hreported.classified

/-- A node that does not know how to reset its chain is used as it is; any other error of the reset
keeps the body from running. -/
example :
    let endings (code : UInt64) := endingsIn ((run ScriptedWorker.host.noted ⟨"m", "t", []⟩
      ((ScriptedWorker.body []).noted ScriptedWorker.host) default .default 1).outcome
      ⟨{ replies := [("anvil_reset", [.error code "no"])], commands := [.shutdown] }, []⟩).2.deeds
    (endings 32601).length = 1 ∧ (endings 32602).length = 0 := by decide +kernel

end Worker

end FuzzCampaign
