import FuzzCampaign.Proofs.Course

/-!
# Worker and orchestrator agree on how a test ended

Every worker of a crew sends its coverage and then reports the outcome of its test. Whatever the
order of steps, what a worker has said and heard determines, together with what the orchestrator did
with it, how far both have come; so if the campaign ends well, both have the same outcome.

* `handshake`: what happens between a worker and the orchestrator, without the coverage;
* `handshakeOf`: the whole handshake of a worker with a verdict;
* `Talks`: how far both have come; **`Worker.talks_work`** and the steps of the orchestrator;
* `Worker.conduct`: workers that report an outcome;
* **`Campaign.run_handshakes_agree`**: both sides agree.
-/

namespace FuzzCampaign

/-! ## Handshakes -/

/-- Whether an event is about coverage. -/
def LinkEvent.isCoverage : LinkEvent → Bool
  | .said (.coverage _) => true
  | .gathered _ => true
  | _ => false

/-- What happened at a station, without the coverage. -/
def handshake (diary : List LinkEvent) : List LinkEvent := diary.filter fun e => !e.isCoverage

theorem handshake_snoc (d : List LinkEvent) (e : LinkEvent) :
    handshake (d ++ [e]) = handshake d ++ if e.isCoverage then [] else [e] := by
  unfold handshake
  cases h : e.isCoverage <;> simp [h]

theorem handshake_takeSnapshots (st : Station) :
    handshake st.takeSnapshots.diary = handshake st.diary := by
  simp [Station.takeSnapshots, Station.note, handshake_snoc, LinkEvent.isCoverage]

/-- Coverage left out, the parts of a diary that are not about coverage stay. -/
theorem filterMap_handshake {α : Type} {f : LinkEvent → Option α}
    (hf : ∀ e, e.isCoverage = true → f e = none) (d : List LinkEvent) :
    (handshake d).filterMap f = d.filterMap f := by
  unfold handshake
  rw [List.filterMap_filter]
  congr 1
  funext e
  cases he : e.isCoverage with
  | true => simp [hf e he]
  | false => simp

theorem countP_handshake {p : LinkEvent → Bool} (hp : ∀ e, e.isCoverage = true → p e = false)
    (d : List LinkEvent) : (handshake d).countP p = d.countP p := by
  unfold handshake
  rw [List.countP_filter]
  congr 1
  funext e
  cases he : e.isCoverage with
  | true => simp [hp e he]
  | false => simp

theorem LinkEvent.coverage_cases {e : LinkEvent} (h : e.isCoverage = true) :
    (∃ s, e = .said (.coverage s)) ∨ ∃ l, e = .gathered l := by
  rcases e with m | _ | _ | _ | l | _
  · cases m with
    | coverage s => exact .inl ⟨s, rfl⟩
    | _ => cases h
  all_goals first | exact .inr ⟨l, rfl⟩ | cases h

theorem commandedIn_handshake (d : List LinkEvent) : commandedIn (handshake d) = commandedIn d :=
  filterMap_handshake (fun e he => by
    obtain ⟨s, rfl⟩ | ⟨l, rfl⟩ := e.coverage_cases he <;> rfl) d

theorem heardIn_handshake (d : List LinkEvent) : heardIn (handshake d) = heardIn d :=
  filterMap_handshake (fun e he => by
    obtain ⟨s, rfl⟩ | ⟨l, rfl⟩ := e.coverage_cases he <;> rfl) d

theorem informedIn_handshake (d : List LinkEvent) : informedIn (handshake d) = informedIn d :=
  filterMap_handshake (fun e he => by
    obtain ⟨s, rfl⟩ | ⟨l, rfl⟩ := e.coverage_cases he <;> rfl) d

theorem signalsIn_handshake (d : List LinkEvent) : signalsIn (handshake d) = signalsIn d :=
  countP_handshake (fun e he => by
    obtain ⟨s, rfl⟩ | ⟨l, rfl⟩ := e.coverage_cases he <;> rfl) d

theorem exceptionsOf_handshake (d : List LinkEvent) :
    exceptionsOf (saidIn (handshake d)) = exceptionsOf (saidIn d) := by
  unfold exceptionsOf saidIn
  rw [List.filterMap_filterMap, List.filterMap_filterMap]
  refine filterMap_handshake (fun e he => ?_) d
  obtain ⟨s, rfl⟩ | ⟨l, rfl⟩ := e.coverage_cases he <;> rfl

theorem finishedIn_handshake (d : List LinkEvent) :
    finishedIn (saidIn (handshake d)) = finishedIn (saidIn d) := by
  unfold finishedIn saidIn
  rw [List.countP_filterMap, List.countP_filterMap]
  refine countP_handshake (fun e he => ?_) d
  obtain ⟨s, rfl⟩ | ⟨l, rfl⟩ := e.coverage_cases he <;> rfl

/-- The first part of a report. -/
def told (report : Option Envelope) : List LinkEvent := [.said (.exception report), .said .finished]

/-- What follows on a failure until the decision is sent. -/
def decided (e : Envelope) (attach : Bool) : List LinkEvent :=
  told (some e) ++ [.signalled, .informed (some e), .commanded (.decision attach)]

/-- The whole handshake of a worker with a verdict. -/
def handshakeOf : Verdict → List LinkEvent
  | .passed => told none ++ [.signalled, .informed none]
  | .failed e attach =>
    decided e attach ++ [.heard (.decision attach), .said .finished, .signalled]

/-! ## How far both sides have come -/

namespace Worker

open Conversation

/-- What a worker still does once it has told how its test ended. -/
def awaiting : Option Envelope → Conversation
  | none => .ended (.ok .passed)
  | some e => listen fun c => closing e (wantsDebugger c)

theorem conversation_eq (report : Option Envelope) :
    conversation report = say (.exception report) (say .finished (awaiting report)) := by
  cases report <;> rfl

/-- The verdict of the orchestrator holds. -/
def IsFinal (v : Verdict) (stage : Stage) : Prop := stage = .settled v ∨ stage = .closed v

/-- How far a worker with an outcome and the orchestrator have come: the stage of the orchestrator,
what the worker still does, and what has happened. -/
inductive Talks : Option Envelope → Stage → Conversation → List LinkEvent → Prop
  | opening (report l) : Talks report .watched (afterCoverage l (conversation report)) []
  | reported (report) :
    Talks report .watched (say .finished (awaiting report)) [.said (.exception report)]
  | done (report) : Talks report .watched (awaiting report) (told report)
  | signalled (report) :
    Talks report .signalled (awaiting report) (told report ++ [.signalled])
  | passed {stage} (h : IsFinal .passed stage) :
    Talks none stage (.ended (.ok .passed)) (handshakeOf .passed)
  | informed (e) :
    Talks (some e) (.informed e) (awaiting (some e))
      (told (some e) ++ [.signalled, .informed (some e)])
  | decided (e attach) :
    Talks (some e) (.decided e attach) (awaiting (some e)) (decided e attach)
  | heard (e attach) :
    Talks (some e) (.decided e attach) (closing e attach)
      (FuzzCampaign.decided e attach ++ [.heard (.decision attach)])
  | debugged (e) :
    Talks (some e) (.decided e true) (say .finished (.ended (.ok (.failed true))))
      (FuzzCampaign.decided e true ++ [.heard (.decision true)])
  | replied (e attach) :
    Talks (some e) (.decided e attach) (.ended (.ok (.failed attach)))
      (FuzzCampaign.decided e attach ++ [.heard (.decision attach), .said .finished])
  | failed {stage} (e attach) (h : IsFinal (.failed e attach) stage) :
    Talks (some e) stage (.ended (.ok (.failed attach))) (handshakeOf (.failed e attach))

variable {report : Option Envelope} {stage : Stage} {st : Station} {arrived : List Dispatch}

theorem work_of_say {m : Dispatch} {next : Conversation} (ht : st.talk = say m next) :
    st.work.talk = next ∧ handshake st.work.diary =
      handshake st.diary ++ if (LinkEvent.said m).isCoverage then [] else [.said m] := by
  rw [Station.work_of_saying ht]
  exact ⟨rfl, handshake_snoc _ _⟩

/-- A worker that told how its test ended does nothing before it gets a command. -/
theorem work_of_awaiting (ht : st.talk = awaiting report) (hc : st.link.commands = []) :
    st.work = st := by
  cases report with
  | none => exact Station.work_of_ended ht
  | some e => exact Station.work_of_no_command ht hc

theorem commands_eq_nil (hs : st.Sound arrived) (hc : commandedIn (handshake st.diary) = []) :
    st.link.commands = [] := by
  rw [commandedIn_handshake, hs.commanded_eq] at hc
  exact (List.append_eq_nil_iff.1 hc).2

theorem commands_eq_decision (hs : st.Sound arrived) {e : Envelope} {attach : Bool}
    (hd : handshake st.diary = FuzzCampaign.decided e attach) :
    st.link.commands = [.decision attach] := by
  have hcommanded := hs.commanded_eq
  rw [← commandedIn_handshake, ← heardIn_handshake, hd] at hcommanded
  exact hcommanded.symm

/-- **A step of the worker keeps to the handshake.** -/
theorem talks_work (hs : st.Sound arrived) (h : Talks report stage st.talk (handshake st.diary)) :
    Talks report stage st.work.talk (handshake st.work.diary) := by
  generalize ht : st.talk = talk at h
  generalize hd : handshake st.diary = d at h
  -- where the worker does nothing, everything stays as it is
  have hstay : st.work = st → Talks report stage talk d →
      Talks report stage st.work.talk (handshake st.work.diary) := by
    intro heq h
    rw [heq, ht, hd]
    exact h
  cases h with
  | opening _ l =>
    cases l with
    | nil =>
      rw [afterCoverage, conversation_eq] at ht
      obtain ⟨htalk, hdiary⟩ := work_of_say ht
      rw [htalk, hdiary, hd]
      exact .reported report
    | cons s l =>
      rw [Station.work_of_saying ht]
      change Talks _ _ _ (handshake (st.diary ++ [.said (.coverage s)]))
      rw [handshake_snoc, hd]
      exact .opening report l
  | reported _ =>
    obtain ⟨htalk, hdiary⟩ := work_of_say ht
    rw [htalk, hdiary, hd]
    exact .done report
  | done _ => exact hstay (work_of_awaiting ht (commands_eq_nil hs (by rw [hd]; rfl))) (.done _)
  | signalled _ =>
    exact hstay (work_of_awaiting ht (commands_eq_nil hs (by rw [hd]; rfl))) (.signalled _)
  | passed hstage => exact hstay (Station.work_of_ended ht) (.passed hstage)
  | informed e =>
    exact hstay (work_of_awaiting ht (commands_eq_nil hs (by rw [hd]; rfl))) (.informed e)
  | decided e attach =>
    rw [Station.work_of_command ht (commands_eq_decision hs hd)]
    change Talks _ _ _ (handshake (st.diary ++ [.heard (.decision attach)]))
    rw [handshake_snoc, hd]
    exact .heard e attach
  | heard e attach =>
    cases attach with
    | true =>
      rw [Station.work_of_debugging ht]
      change Talks _ _ _ (handshake st.diary)
      rw [hd]
      exact .debugged e
    | false =>
      obtain ⟨htalk, hdiary⟩ := work_of_say ht
      rw [htalk, hdiary, hd]
      exact .replied e false
  | debugged e =>
    obtain ⟨htalk, hdiary⟩ := work_of_say ht
    rw [htalk, hdiary, hd]
    exact .replied e true
  | replied e attach => exact hstay (Station.work_of_ended ht) (.replied e attach)
  | failed e attach hstage => exact hstay (Station.work_of_ended ht) (.failed e attach hstage)

/-! ## Steps of the orchestrator -/

theorem finishedIn_said (hs : st.Sound arrived) (hc : st.link.completion.1 = .got ()) :
    signalsIn (handshake st.diary) < finishedIn (saidIn (handshake st.diary)) := by
  obtain ⟨rest, hrest⟩ := Station.completions_of_got hc
  have hfinished := hs.finished_eq
  rw [hrest, List.length_cons] at hfinished
  rw [signalsIn_handshake, finishedIn_handshake, hs.said_eq, finishedIn_append]
  omega

theorem exception_said (hs : st.Sound arrived) {r : Option Envelope}
    (hc : st.link.exception.1 = .got r) :
    ∃ rest, exceptionsOf (saidIn (handshake st.diary)) =
      informedIn (handshake st.diary) ++ r :: rest := by
  obtain ⟨rest, hrest⟩ := Station.exceptions_of_got hc
  have hexceptions := hs.exceptions_eq
  refine ⟨rest ++ exceptionsOf st.wire, ?_⟩
  rw [exceptionsOf_handshake, informedIn_handshake, hs.said_eq, exceptionsOf_append, hexceptions,
    hrest, List.append_assoc, List.cons_append]

/-- A completion is taken from a worker that told how its test ended. -/
theorem talks_signal (hs : st.Sound arrived)
    (h : Talks report .watched st.talk (handshake st.diary))
    (hc : st.link.completion.1 = .got ()) :
    Talks report .signalled st.takeCompletion.talk (handshake st.takeCompletion.diary) := by
  have hfinished := finishedIn_said hs hc
  change Talks _ _ st.talk (handshake (st.diary ++ [.signalled]))
  rw [handshake_snoc]
  generalize st.talk = talk at h
  generalize handshake st.diary = d at h hfinished
  cases h with
  | opening _ l => exact absurd hfinished (Nat.lt_irrefl 0)
  | reported _ => exact absurd hfinished (Nat.lt_irrefl 0)
  | done _ => exact .signalled report
  | passed hstage => rcases hstage with h | h <;> cases h
  | failed e attach hstage => rcases hstage with h | h <;> cases h

theorem talks_pass (hs : st.Sound arrived)
    (h : Talks report .signalled st.talk (handshake st.diary))
    (hc : st.link.exception.1 = .got none) :
    Talks report (.settled .passed) (st.takeException none).talk
      (handshake (st.takeException none).diary) := by
  obtain ⟨rest, hrest⟩ := exception_said hs hc
  change Talks _ _ st.talk (handshake (st.diary ++ [.informed none]))
  rw [handshake_snoc]
  generalize st.talk = talk at h
  generalize handshake st.diary = d at h hrest
  cases h with
  | signalled _ =>
    cases hrest
    exact .passed (.inl rfl)
  | passed hstage => rcases hstage with h | h <;> cases h
  | failed e attach hstage => rcases hstage with h | h <;> cases h

theorem talks_fail (hs : st.Sound arrived)
    (h : Talks report .signalled st.talk (handshake st.diary)) {e : Envelope}
    (hc : st.link.exception.1 = .got (some e)) :
    Talks report (.informed e) (st.takeException (some e)).talk
      (handshake (st.takeException (some e)).diary) := by
  obtain ⟨rest, hrest⟩ := exception_said hs hc
  change Talks _ _ st.talk (handshake (st.diary ++ [.informed (some e)]))
  rw [handshake_snoc]
  generalize st.talk = talk at h
  generalize handshake st.diary = d at h hrest
  cases h with
  | signalled _ =>
    cases hrest
    exact .informed e
  | passed hstage => rcases hstage with h | h <;> cases h
  | failed e attach hstage => rcases hstage with h | h <;> cases h

theorem talks_decide (hs : st.Sound arrived) {e : Envelope}
    (h : Talks report (.informed e) st.talk (handshake st.diary)) (attach : Bool) :
    Talks report (.decided e attach) (st.command (.decision attach)).talk
      (handshake (st.command (.decision attach)).diary) := by
  rw [hs.command_eq]
  change Talks _ _ st.talk (handshake (st.diary ++ [.commanded (.decision attach)]))
  rw [handshake_snoc]
  generalize st.talk = talk at h
  generalize handshake st.diary = d at h
  cases h with
  | informed _ => exact .decided e attach
  | passed hstage => rcases hstage with h | h <;> cases h
  | failed e attach hstage => rcases hstage with h | h <;> cases h

theorem talks_settle (hs : st.Sound arrived) {e : Envelope} {attach : Bool}
    (h : Talks report (.decided e attach) st.talk (handshake st.diary))
    (hc : st.link.completion.1 = .got ()) :
    Talks report (.settled (.failed e attach)) st.takeCompletion.talk
      (handshake st.takeCompletion.diary) := by
  have hfinished := finishedIn_said hs hc
  change Talks _ _ st.talk (handshake (st.diary ++ [.signalled]))
  rw [handshake_snoc]
  generalize st.talk = talk at h
  generalize handshake st.diary = d at h hfinished
  cases h with
  | decided _ _ => exact absurd hfinished (Nat.lt_irrefl 1)
  | heard _ _ => exact absurd hfinished (Nat.lt_irrefl 1)
  | debugged _ => exact absurd hfinished (Nat.lt_irrefl 1)
  | replied _ _ => exact .failed e attach (.inl rfl)
  | passed hstage => rcases hstage with h | h <;> cases h
  | failed e attach hstage => rcases hstage with h | h <;> cases h

theorem talks_close {v : Verdict} {talk : Conversation} {d : List LinkEvent}
    (h : Talks report (.settled v) talk d) : Talks report (.closed v) talk d := by
  cases h with
  | passed hstage =>
    rcases hstage with h | h
    · cases h
      exact .passed (.inr rfl)
    · cases h
  | failed e attach hstage =>
    rcases hstage with h | h
    · cases h
      exact .failed e attach (.inr rfl)
    · cases h

/-! ## Crews that report -/

variable (outcomeOf : WorkerTask → Option Envelope) (coverageOf : WorkerTask → List Snapshot)

/-- Workers that report keep to the handshake. -/
def conduct : Conduct (reporters outcomeOf coverageOf) fun _ _ _ => True where
  holds task stage st := ∃ arrived, st.Sound arrived ∧
    Talks (outcomeOf task) stage st.talk (handshake st.diary)
  start task := ⟨[], Station.sound_start _, .opening _ _⟩
  work := fun ⟨arrived, hs, h⟩ => ⟨arrived, hs.work, talks_work hs h⟩
  carry := fun ⟨arrived, hs, h⟩ => by
    obtain ⟨more, hs'⟩ := hs.carry
    exact ⟨_, hs', by rwa [Station.talk_carry, Station.diary_carry]⟩
  gather := fun ⟨arrived, hs, h⟩ =>
    ⟨arrived, hs.takeSnapshots, (handshake_takeSnapshots _).symm ▸ h⟩
  signal := fun ⟨arrived, hs, h⟩ hc => ⟨arrived, hs.takeCompletion hc, talks_signal hs h hc⟩
  pass := fun ⟨arrived, hs, h⟩ hc => ⟨arrived, hs.takeException hc, talks_pass hs h hc⟩
  fail := fun ⟨arrived, hs, h⟩ hc => ⟨arrived, hs.takeException hc, talks_fail hs h hc⟩
  decide := fun _ ⟨arrived, hs, h⟩ => ⟨arrived, hs.command _, talks_decide hs h _⟩
  settle := fun ⟨arrived, hs, h⟩ hc => ⟨arrived, hs.takeCompletion hc, talks_settle hs h hc⟩
  close := fun ⟨arrived, hs, h⟩ =>
    ⟨arrived, hs.takeSnapshots, talks_close ((handshake_takeSnapshots _).symm ▸ h)⟩

/-- The decisions that a verdict comes from. -/
def decisionsOf : Verdict → List Command
  | .passed => []
  | .failed _ attach => [.decision attach]

/-- A worker that reported an outcome, and the orchestrator, which recorded a verdict, agree. -/
structure Agreed (report : Option Envelope) (st : Station) (v : Verdict) : Prop where
  returned : ∃ ending, st.talk = .ended (.ok ending)
  passed_iff : st.talk = .ended (.ok .passed) ↔ v = .passed
  failed_iff : ∀ attach, st.talk = .ended (.ok (.failed attach)) ↔
    ∃ e, report = some e ∧ v = .failed e attach
  commanded_eq : commandedIn st.diary = decisionsOf v
  handshake_eq : handshake st.diary = handshakeOf v

/-- When the orchestrator is through with a worker, they agree. -/
theorem agreed_of_closed {report : Option Envelope} {v : Verdict} {st : Station}
    (h : Talks report (.closed v) st.talk (handshake st.diary)) : Agreed report st v := by
  generalize ht : st.talk = talk at h
  generalize hd : handshake st.diary = d at h
  cases h with
  | passed hstage =>
    rcases hstage with h | h
    · cases h
    · cases h
      refine ⟨⟨_, ht⟩, by simp [ht], fun attach => by simp [ht], ?_, hd⟩
      rw [← commandedIn_handshake, hd]
      rfl
  | failed e attach hstage =>
    rcases hstage with h | h
    · cases h
    · cases h
      refine ⟨⟨_, ht⟩, by simp [ht], fun attach' => ?_, ?_, hd⟩
      · simp only [ht, Option.some.injEq, exists_eq_left', Verdict.failed.injEq, true_and,
          Conversation.ended.injEq, Except.ok.injEq, WorkerEnd.failed.injEq]
      · rw [← commandedIn_handshake, hd]
        rfl

end Worker

namespace Campaign

open FuzzCampaign.Action

/-- **Worker and orchestrator agree.** Whatever steps are made in which order, if the campaign ends
well, then every worker's report has returned, with the outcome that the orchestrator recorded for
it; the handshake was that of this outcome. In no world does a step of a settlement fail, on either
side. -/
theorem run_handshakes_agree (outcomeOf : WorkerTask → Option Envelope)
    (coverageOf : WorkerTask → List Snapshot) {ρ : Type} (env : Surroundings ρ)
    (plan : CampaignPlan) (test : TestCase) (rounds : Nat) (rest : ρ) {findings : Findings}
    {f : Floor ρ}
    (h : (run (Floor.host (Worker.reporters outcomeOf coverageOf) env) plan test rounds).outcome
      (.vacant rest) = (.ok findings, f)) :
    (∀ n < plan.processCount.toNat, ∃ g ∈ findings.workers, g.index = UInt64.ofNat n) ∧
    (∀ i st, f.stations i = some st → ∃ g ∈ findings.workers, g.index = i ∧
      (∀ g' ∈ findings.workers, g'.index = i → g' = g) ∧
      ∃ task, plan.taskOf test i g.seed = .ok task ∧
        Worker.Agreed (outcomeOf task) st g.outcome) ∧
    (∀ (σ : Type) (host : WorkerHost σ) (report : Option Envelope),
      Worker.reportOutcome host report = (Worker.conversation report).perform host) ∧
    ∀ (σ : Type) (host : CampaignHost σ) (plan : CampaignPlan) (rounds : Nat) (index : UInt64),
      conclude host plan rounds index = concludeUnchecked host plan rounds index := by
  obtain ⟨o, -, rfl, rfl, hactive, hready⟩ :=
    ready_of_run (Worker.conduct outcomeOf coverageOf) (fun _ _ _ => gives_true) h
  refine ⟨fun n hn => ?_, fun i st hst => ?_, ?_, ?_⟩
  · have hperm := (hready.finished_perm hactive).map (·.1)
    rw [map_fst_places, length_seedsOf, List.map_map] at hperm
    have hmem :=
      hperm.mem_iff.2 (List.mem_map_of_mem (List.mem_range'_1.2 ⟨Nat.zero_le n, by omega⟩))
    obtain ⟨g, hg, hindex⟩ := List.mem_map.1 hmem
    exact ⟨g, o.mem_report.2 hg, hindex⟩
  · obtain ⟨g, hg, rfl⟩ := hready.exists_finding hactive hst
    have hn := nodup_places _ (length_seedsOf_le (Floor.host (Worker.reporters outcomeOf coverageOf)
      env) plan (.vacant rest))
    obtain ⟨task, st', htask, hst', ⟨arrived, hs, htalks⟩, -⟩ := hready.exists_station hn hg
    obtain rfl := Option.some.inj (hst.symm.trans hst')
    refine ⟨g, o.mem_report.2 hg, rfl, fun g' hg' hindex => ?_, task, htask,
      Worker.agreed_of_closed htalks⟩
    exact hready.index_inj hn hactive (o.mem_report.1 hg') hg hindex
  · exact fun σ host report => (Worker.perform_conversation host report).symm
  · exact fun σ host plan rounds index => conclude_eq host plan rounds index

/-- The report of the first of some workers, which fails; the others pass. -/
def firstFails (task : WorkerTask) : Option Envelope :=
  if task.index = 0 then some ⟨1, "error", "wrong", .testBody, []⟩ else none

/-- An order of steps in which both workers are done when they are looked at for the first time. -/
def twoTurns : List (List Move) :=
  let both : List Move := [.work 0, .work 1, .carry 0, .carry 1]
  let first : List Move := [.work 0, .carry 0]
  List.replicate 8 [] ++ [both ++ both] ++ List.replicate 8 [] ++ [first ++ first ++ first]

/-- A campaign of two workers, the first of which fails and gets a debugger. -/
def twoWorkers : Except Stop Findings × Floor (List (List Move)) :=
  (run (Floor.host (Worker.reporters firstFails fun _ => []) (.scheduled (.answer true)))
    { processCount := 2, logsDir := "" } ⟨"m", "t", []⟩ 3).outcome (.vacant twoTurns)

/-- The orchestrator at the end of this campaign. -/
def twoWorkersEnd : Orchestrator (Floor (List (List Move))) :=
  (ending (Floor.host (Worker.reporters firstFails fun _ => []) (.scheduled (.answer true)))
    { processCount := 2, logsDir := "" } ⟨"m", "t", []⟩ 3 (.vacant twoTurns)).2

theorem report_twoWorkersEnd : twoWorkersEnd.report =
    ⟨[⟨0, default, .failed ⟨1, "error", "wrong", .testBody, []⟩ true⟩, ⟨1, default, .passed⟩],
      []⟩ := by
  have hfinished : twoWorkersEnd.finished =
      [⟨0, default, .failed ⟨1, "error", "wrong", .testBody, []⟩ true⟩,
        ⟨1, default, .passed⟩] := by
    decide +kernel
  have hfiles : twoWorkersEnd.coverageFiles = [] := by decide +kernel
  rw [Orchestrator.report, hfinished, hfiles, List.mergeSort_of_pairwise (by decide)]

theorem twoWorkers_ok : twoWorkers.1 = .ok
    ⟨[⟨0, default, .failed ⟨1, "error", "wrong", .testBody, []⟩ true⟩, ⟨1, default, .passed⟩],
      []⟩ := by
  -- The report sorts the findings, which the kernel does not compute; all before that it does.
  have hok : twoWorkers.1.isOk = true := by decide +kernel
  rcases hrun : twoWorkers with ⟨r, f⟩
  rw [hrun] at hok
  rcases r with stop | findings
  · cases hok
  · obtain ⟨o, ho, -, hreport, -, -⟩ :=
      ready_of_run (Worker.conduct firstFails fun _ => []) (fun _ _ _ => gives_true) hrun
    change o = twoWorkersEnd at ho
    rw [hreport, ho, report_twoWorkersEnd]

/-- Two workers agree with the orchestrator. -/
theorem run_handshakes_agree_two :
    twoWorkers.1 = .ok ⟨[⟨0, default, .failed ⟨1, "error", "wrong", .testBody, []⟩ true⟩,
      ⟨1, default, .passed⟩], []⟩ ∧
    ∀ i st, twoWorkers.2.stations i = some st →
      ∃ task v, task.index = i ∧ Worker.Agreed (firstFails task) st v := by
  have hok := twoWorkers_ok
  rcases hrun : twoWorkers with ⟨r, f⟩
  rw [hrun] at hok
  subst hok
  refine ⟨rfl, fun i st hst => ?_⟩
  obtain ⟨g, -, -, -, task, htask, hagreed⟩ :=
    (run_handshakes_agree firstFails (fun _ => []) _ _ _ _ _ hrun).2.1 i st hst
  exact ⟨task, g.outcome, CampaignPlan.index_of_taskOf htask, hagreed⟩

end Campaign

end FuzzCampaign
