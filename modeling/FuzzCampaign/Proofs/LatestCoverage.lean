import FuzzCampaign.Proofs.Course

/-!
# No coverage is lost

A crew of which every worker has a fixed sequence of messages comes to the same end in every order
of steps: the tally holds the last snapshot that each worker sent, and the verdicts are those that
its messages and the answers of the user call for.

* `completionsNeeded`, `CoverageComesFirst`: no coverage follows a worker's last completion;
* `Stage.signals`, `Stage.reports`: what the orchestrator has taken at a stage;
* `Worker.retelling`: workers with fixed messages;
* `Campaign.lastSnapshots`, `Campaign.verdicts`: what a campaign comes to;
* **`Campaign.run_coverage_complete`**: every campaign that ends well comes to it.
-/

namespace FuzzCampaign

/-! ## Messages of a worker -/

/-- How many completions a worker signals in its handshake: one if its test passed, two if it
failed. -/
def completionsNeeded (ms : List Dispatch) : Nat :=
  match (exceptionsOf ms).head? with
  | some (some _) => 2
  | _ => 1

/-- No coverage follows the last completion of the handshake. -/
def CoverageComesFirst (ms : List Dispatch) : Prop :=
  ∀ before after, ms = before ++ after → completionsNeeded ms ≤ finishedIn before →
    snapshotsOf after = []

theorem coverageComesFirst_report (l : List Snapshot) (report : Option Envelope) :
    CoverageComesFirst (l.map .coverage ++ Worker.reportMessages report) := by
  intro before after h hcount
  have hcoverage : finishedIn (l.map Dispatch.coverage) = 0 := by
    unfold finishedIn
    simp [List.countP_eq_zero]
  have hreport : snapshotsOf (Worker.reportMessages report) = [] := by
    cases report <;> rfl
  have hpositive : 0 < completionsNeeded (l.map .coverage ++ Worker.reportMessages report) := by
    unfold completionsNeeded
    split <;> omega
  rcases List.append_eq_append_iff.1 h with ⟨more, hbefore, hafter⟩ | ⟨more, hbefore, hafter⟩
  · rw [hafter, snapshotsOf_append] at hreport
    exact (List.append_eq_nil_iff.1 hreport).2
  · -- coverage alone holds no completion
    rw [hbefore, finishedIn_append] at hcoverage
    omega

/-! ## What the orchestrator has taken -/

namespace Stage

/-- How many completions the orchestrator has taken from a worker. -/
@[simp] def signals : Stage → Nat
  | .watched => 0
  | .settled (.failed ..) | .closed (.failed ..) => 2
  | _ => 1

/-- The outcomes that the orchestrator has taken from a worker. -/
@[simp] def reports : Stage → List (Option Envelope)
  | .watched | .signalled => []
  | .informed e | .decided e _ | .settled (.failed e _) | .closed (.failed e _) => [some e]
  | .settled .passed | .closed .passed => [none]

/-- The decision on a worker is among the answers. -/
def Answered (answer : Envelope → Bool → Prop) : Stage → Prop
  | .decided e attach | .settled (.failed e attach) | .closed (.failed e attach) => answer e attach
  | _ => True

end Stage

namespace Station

variable {st : Station} {left arrived : List Dispatch}

/-- What a worker has said and what it still says stay the same together. -/
theorem says_work (h : st.talk.Says left) : ∃ left', st.work.talk.Says left' ∧
    saidIn st.work.diary ++ left' = saidIn st.diary ++ left := by
  rcases ht : st.talk with r | ⟨m, next⟩ | next | ⟨e, next⟩
  · rw [work_of_ended ht]
    exact ⟨left, h, rfl⟩
  · rw [ht] at h
    obtain ⟨rest, rfl, hrest⟩ := h
    rw [work_of_saying ht]
    exact ⟨rest, hrest, by simp [note]⟩
  · rcases hc : st.link.commands with _ | ⟨c, rest⟩
    · rw [work_of_no_command ht hc]
      exact ⟨left, h, rfl⟩
    · rw [ht] at h
      rw [work_of_command ht hc]
      exact ⟨left, h c, by simp [note]⟩
  · rw [ht] at h
    rw [work_of_debugging ht]
    exact ⟨left, h, rfl⟩

/-- A worker that has `ms` to say, `left` of it still unsaid. -/
structure Retells (ms arrived left : List Dispatch) (st : Station) : Prop where
  sound : st.Sound arrived
  unsaid : st.talk.Says left
  said_eq : saidIn st.diary ++ left = ms

variable {ms : List Dispatch}

/-- What arrived is the beginning of what a worker has to say. -/
theorem Retells.eq_append (h : st.Retells ms arrived left) : ms = arrived ++ (st.wire ++ left) := by
  rw [← h.said_eq, h.sound.said_eq, List.append_assoc]

/-- The first outcome that the orchestrator took is the first that the worker has to say. -/
theorem Retells.head_exception (h : st.Retells ms arrived left) {r : Option Envelope}
    (hr : informedIn st.diary = [r]) : (exceptionsOf ms).head? = some r := by
  rw [h.eq_append, exceptionsOf_append, h.sound.exceptions_eq, hr]
  rfl

/-- **Once the last completion is taken, no coverage is to come**: all there is has been taken or is
queued. -/
theorem Retells.snapshots_eq (h : st.Retells ms arrived left) (hfirst : CoverageComesFirst ms)
    (hsignals : completionsNeeded ms ≤ signalsIn st.diary) :
    snapshotsOf ms = gatheredIn st.diary ++ st.link.snapshots := by
  have hfinished : completionsNeeded ms ≤ finishedIn arrived := by
    rw [h.sound.finished_eq]
    omega
  have hafter := hfirst arrived (st.wire ++ left) h.eq_append hfinished
  rw [h.eq_append, snapshotsOf_append, hafter, List.append_nil, h.sound.snapshots_eq]

/-! ### Steps of a station -/

theorem retells_start {talk : Conversation} (h : talk.Says ms) : (start talk).Retells ms [] ms :=
  ⟨sound_start talk, h, rfl⟩

theorem Retells.work (h : st.Retells ms arrived left) :
    ∃ left', st.work.Retells ms arrived left' := by
  obtain ⟨left', hunsaid, hsaid⟩ := says_work h.unsaid
  exact ⟨left', h.sound.work, hunsaid, hsaid.trans h.said_eq⟩

theorem Retells.carry (h : st.Retells ms arrived left) :
    ∃ arrived', st.carry.Retells ms arrived' left := by
  obtain ⟨more, hsound⟩ := h.sound.carry
  exact ⟨_, hsound, by rw [talk_carry]; exact h.unsaid, by rw [diary_carry]; exact h.said_eq⟩

theorem Retells.takeSnapshots (h : st.Retells ms arrived left) :
    st.takeSnapshots.Retells ms arrived left :=
  ⟨h.sound.takeSnapshots, h.unsaid, by simpa [Station.takeSnapshots, note] using h.said_eq⟩

theorem Retells.takeCompletion (h : st.Retells ms arrived left)
    (hc : st.link.completion.1 = .got ()) : st.takeCompletion.Retells ms arrived left :=
  ⟨h.sound.takeCompletion hc, h.unsaid, by simpa [Station.takeCompletion, note] using h.said_eq⟩

theorem Retells.takeException (h : st.Retells ms arrived left) {r : Option Envelope}
    (hc : st.link.exception.1 = .got r) : (st.takeException r).Retells ms arrived left :=
  ⟨h.sound.takeException hc, h.unsaid, by simpa [Station.takeException, note] using h.said_eq⟩

theorem Retells.command (h : st.Retells ms arrived left) (c : Command) :
    (st.command c).Retells ms arrived left := by
  refine ⟨h.sound.command c, ?_, ?_⟩
  · rw [h.sound.command_eq]
    exact h.unsaid
  · rw [h.sound.command_eq]
    simpa [note] using h.said_eq

end Station

/-! ## Crews with fixed messages -/

namespace Worker

open Station

variable (messages : WorkerTask → List Dispatch) (answer : UInt64 → Envelope → Bool)

/-- What holds at a stage of a worker with fixed messages: the orchestrator has taken what it takes
up to this stage, and in the end all coverage. -/
structure Retold (task : WorkerTask) (stage : Stage) (st : Station) : Prop where
  retells : ∃ arrived left, st.Retells (messages task) arrived left
  signals_eq : signalsIn st.diary = stage.signals
  reports_eq : informedIn st.diary = stage.reports
  answered : stage.Answered fun e attach => attach = answer task.index e
  gathered : ∀ v, stage = .closed v → gatheredIn st.diary = snapshotsOf (messages task)

variable {messages answer} {task : WorkerTask} {stage : Stage} {st : Station}

/-- **What the orchestrator knows of a worker that it has settled**: its verdict is the one that the
messages call for, and it has taken all completions. -/
theorem Retold.completionsNeeded_eq {v : Verdict}
    (h : Retold messages answer task (.settled v) st) :
    completionsNeeded (messages task) = signalsIn st.diary := by
  obtain ⟨arrived, left, hretells⟩ := h.retells
  rw [h.signals_eq]
  cases v with
  | passed =>
    rw [completionsNeeded, hretells.head_exception h.reports_eq]
    rfl
  | failed e attach =>
    rw [completionsNeeded, hretells.head_exception h.reports_eq]
    rfl

/-- Workers with fixed messages, whose coverage comes first, and a user with fixed answers. -/
def retelling (answer : UInt64 → Envelope → Bool) {crew : WorkerTask → Conversation}
    (hcrew : ∀ task, (crew task).Says (messages task))
    (hfirst : ∀ task, CoverageComesFirst (messages task)) :
    Conduct crew fun i e attach => attach = answer i e where
  holds := Retold messages answer
  start task := ⟨⟨[], _, retells_start (hcrew task)⟩, rfl, rfl, trivial, nofun⟩
  work := fun ⟨⟨arrived, left, hr⟩, hsignals, hreports, hanswered, hgathered⟩ => by
    obtain ⟨left', hr'⟩ := hr.work
    refine ⟨⟨arrived, left', hr'⟩, ?_, ?_, hanswered, fun v hv => ?_⟩
    · rw [signalsIn_work, hsignals]
    · rw [informedIn_work, hreports]
    · rw [gatheredIn_work, hgathered v hv]
  carry := fun ⟨⟨arrived, left, hr⟩, hsignals, hreports, hanswered, hgathered⟩ => by
    obtain ⟨arrived', hr'⟩ := hr.carry
    refine ⟨⟨arrived', left, hr'⟩, ?_, ?_, hanswered, fun v hv => ?_⟩
    · rw [diary_carry, hsignals]
    · rw [diary_carry, hreports]
    · rw [diary_carry, hgathered v hv]
  gather := fun ⟨⟨arrived, left, hr⟩, hsignals, hreports, hanswered, _⟩ =>
    ⟨⟨arrived, left, hr.takeSnapshots⟩, by simpa [takeSnapshots, note] using hsignals,
      by simpa [takeSnapshots, note] using hreports, hanswered, nofun⟩
  signal := fun ⟨⟨arrived, left, hr⟩, hsignals, hreports, _, _⟩ hc =>
    ⟨⟨arrived, left, hr.takeCompletion hc⟩, by simp [takeCompletion, note, hsignals],
      by simpa [takeCompletion, note] using hreports, trivial, nofun⟩
  pass := fun ⟨⟨arrived, left, hr⟩, hsignals, hreports, _, _⟩ hc =>
    ⟨⟨arrived, left, hr.takeException hc⟩, by simpa [takeException, note] using hsignals,
      by simp [takeException, note, hreports], trivial, nofun⟩
  fail := fun ⟨⟨arrived, left, hr⟩, hsignals, hreports, _, _⟩ hc =>
    ⟨⟨arrived, left, hr.takeException hc⟩, by simpa [takeException, note] using hsignals,
      by simp [takeException, note, hreports], trivial, nofun⟩
  decide := fun {_ _ _ attach} hanswer ⟨⟨arrived, left, hr⟩, hsignals, hreports, _, _⟩ => by
    refine ⟨⟨arrived, left, hr.command _⟩, ?_, ?_, hanswer, nofun⟩
    · rw [hr.sound.command_eq]
      simpa [note] using hsignals
    · rw [hr.sound.command_eq]
      simpa [note] using hreports
  settle := fun ⟨⟨arrived, left, hr⟩, hsignals, hreports, hanswered, _⟩ hc =>
    ⟨⟨arrived, left, hr.takeCompletion hc⟩, by simp [takeCompletion, note, hsignals],
      by simpa [takeCompletion, note] using hreports, hanswered, nofun⟩
  close := fun {task st v} h => by
    obtain ⟨arrived, left, hr⟩ := h.retells
    refine ⟨⟨arrived, left, hr.takeSnapshots⟩, ?_, ?_, ?_, fun _ _ => ?_⟩
    · cases v <;> simpa [takeSnapshots, note] using h.signals_eq
    · cases v <;> simpa [takeSnapshots, note] using h.reports_eq
    · cases v <;> exact h.answered
    · rw [hr.snapshots_eq (hfirst task) (Nat.le_of_eq h.completionsNeeded_eq)]
      simp [takeSnapshots, note]

/-- The verdict that the messages of a worker call for. -/
def verdictOf (answer : Envelope → Bool) (ms : List Dispatch) : Verdict :=
  match (exceptionsOf ms).head? with
  | some (some e) => .failed e (answer e)
  | _ => .passed

theorem Retold.verdict_eq {v : Verdict} (h : Retold messages answer task (.closed v) st) :
    v = verdictOf (answer task.index) (messages task) := by
  obtain ⟨arrived, left, hr⟩ := h.retells
  unfold verdictOf
  cases v with
  | passed => rw [hr.head_exception h.reports_eq]
  | failed e attach =>
    rw [hr.head_exception h.reports_eq]
    exact congrArg (Verdict.failed e) h.answered

end Worker

/-! ## The answers of the user -/

/-- The user answers a question by the worker and the failure alone. -/
def Surroundings.Answers {ρ : Type} (env : Surroundings ρ)
    (reply : UInt64 → Envelope → PromptReply) : Prop :=
  ∀ i e alive s, ((env.host.decide i e alive).run s).1 = reply i e

/-- The decision that a reply leads to; a question that is abandoned ends the campaign. -/
def PromptReply.attaches : PromptReply → Bool
  | .answer attach => attach
  | _ => false

/-- The decision on a failure: nobody is asked where no question is due. -/
def CampaignPlan.attaches (plan : CampaignPlan) (reply : UInt64 → Envelope → PromptReply)
    (i : UInt64) (e : Envelope) : Bool :=
  plan.asksAbout i && e.canDebug && (reply i e).attaches

namespace Campaign

open FuzzCampaign.Action Orchestrator

variable {crew : WorkerTask → Conversation} {messages : WorkerTask → List Dispatch} {ρ : Type}
  {env : Surroundings ρ} {reply : UInt64 → Envelope → PromptReply} {plan : CampaignPlan}
  {test : TestCase}

/-- Every decision is the one that the replies lead to. -/
theorem decidesAmong_replies (henv : env.Answers reply) (plan : CampaignPlan) :
    DecidesAmong crew (fun i e attach => attach = plan.attaches reply i e) env plan := by
  intro i e f
  have hask : ∀ f, Gives (askUser (Floor.host crew env) i e) f
      fun attach _ => attach = (reply i e).attaches := by
    intro f
    rw [askUser, gives_bind, gives_ask]
    have hreply : (((Floor.host crew env).decide i e ((Floor.host crew env).stillRuns i)).run f).1 =
        reply i e := henv i e _ _
    rw [hreply]
    rcases reply i e with attach | _ | _
    · rfl
    · refine gives_bind_never fun status _ => ?_
      rcases status with _ | _ | _ <;> trivial
    · rfl
  unfold decideAttach CampaignPlan.attaches
  split_ifs with hplan hdebug
  · simp only [hplan, hdebug, Bool.true_and]
    exact gives_bind.2 (hask _)
  · simp only [hplan, hdebug, Bool.and_false, Bool.false_and]
    rfl
  · simp only [hplan, Bool.false_and]
    rfl

/-! ## What a campaign comes to -/

section

variable (plan : CampaignPlan) (test : TestCase) (messages : WorkerTask → List Dispatch)
  (reply : UInt64 → Envelope → PromptReply)

/-- The last snapshot that a worker sends, if it sends one. -/
def lastSnapshot? (p : UInt64 × Seed) : Option Snapshot :=
  (plan.taskOf test p.1 p.2).toOption.bind fun task => (snapshotsOf (messages task)).getLast?

/-- The last snapshots of the workers that send one, in order. -/
def lastSnapshots (seeds : List Seed) : List Snapshot :=
  (places 0 seeds).filterMap (lastSnapshot? plan test messages)

/-- How the campaign ends for a worker. -/
def finding? (p : UInt64 × Seed) : Option Finding :=
  (plan.taskOf test p.1 p.2).toOption.map fun task =>
    ⟨p.1, p.2, Worker.verdictOf (plan.attaches reply p.1) (messages task)⟩

/-- How the campaign ends for the workers, in order. -/
def verdicts (seeds : List Seed) : List Finding :=
  (places 0 seeds).filterMap (finding? plan test messages reply)

end

variable {hcrew : ∀ task, (crew task).Says (messages task)}
  {hfirst : ∀ task, CoverageComesFirst (messages task)} {o : Orchestrator (Floor ρ)}
  {seeds : List Seed}

/-- What the orchestrator recorded of a worker is what its messages call for. -/
theorem found_of_ready (hlength : seeds.length ≤ word64)
    (h : o.Ready (Worker.retelling (plan.attaches reply) hcrew hfirst) plan test
      (places 0 seeds) env) {g : Finding} (hg : g ∈ o.finished) :
    finding? plan test messages reply g.place = some g ∧
      lastSnapshot? plan test messages g.place = o.aggregator.latest.get? g.index := by
  obtain ⟨task, st, htask, -, hholds, hlatest⟩ := h.exists_station (nodup_places seeds hlength) hg
  have hindex := CampaignPlan.index_of_taskOf htask
  have hverdict := hholds.verdict_eq
  have hgathered := hholds.gathered g.outcome rfl
  rw [hindex] at hverdict
  rw [finding?, lastSnapshot?, Finding.place, htask, hlatest, hgathered]
  simp only [Except.toOption, Option.map_some, Option.bind_some, ← hverdict, and_self]

/-- **The tally holds the last snapshot of every worker that sends one.** -/
theorem values_latest_of_ready (hlength : seeds.length ≤ word64)
    (h : o.Ready (Worker.retelling (plan.attaches reply) hcrew hfirst) plan test
      (places 0 seeds) env) (hactive : o.active = []) :
    o.aggregator.latest.values = lastSnapshots plan test messages seeds := by
  have hperm := h.finished_perm hactive
  have hlist : o.aggregator.latest.toList = (places 0 seeds).filterMap fun p =>
      (lastSnapshot? plan test messages p).map fun s => (p.1, s) := by
    refine eq_of_increasing (·.1) ?_ ?_ fun e => ?_
    · exact o.aggregator.latest.increasing.imp Std.compare_eq_lt.1
    · refine List.pairwise_filterMap.2 ((pairwise_places seeds hlength).imp ?_)
      intro p q hpq e he e' he'
      obtain ⟨s, -, rfl⟩ := Option.map_eq_some_iff.1 he
      obtain ⟨s', -, rfl⟩ := Option.map_eq_some_iff.1 he'
      exact hpq
    · obtain ⟨i, s⟩ := e
      rw [SortedMap.mem_toList, List.mem_filterMap]
      constructor
      · intro hlatest
        obtain ⟨seed, hmem⟩ := h.mem_of_latest hlatest
        obtain ⟨g, hg, hplace⟩ := List.mem_map.1 (hperm.mem_iff.2 hmem)
        have hlast := (found_of_ready hlength h hg).2
        have hindex : g.index = i := congrArg Prod.fst hplace
        rw [hplace, hindex, hlatest] at hlast
        exact ⟨(i, seed), hmem, by rw [hlast]; rfl⟩
      · rintro ⟨p, hp, hlast⟩
        obtain ⟨s', hlast, heq⟩ := Option.map_eq_some_iff.1 hlast
        obtain ⟨g, hg, rfl⟩ := List.mem_map.1 (hperm.mem_iff.2 hp)
        rw [(found_of_ready hlength h hg).2] at hlast
        cases heq
        exact hlast
  rw [SortedMap.values, hlist, List.map_filterMap, lastSnapshots]
  congr 1
  funext p
  rcases lastSnapshot? plan test messages p with _ | s <;> rfl

/-- **The report holds the verdict that the messages of every worker call for.** -/
theorem workers_of_ready (hlength : seeds.length ≤ word64)
    (h : o.Ready (Worker.retelling (plan.attaches reply) hcrew hfirst) plan test
      (places 0 seeds) env) (hactive : o.active = []) :
    o.report.workers = verdicts plan test messages reply seeds := by
  have hperm := h.finished_perm hactive
  refine eq_of_increasing (·.index) ?_ ?_ fun g => ?_
  · refine o.pairwise_report ?_
    have hfinished := (hperm.map (·.1)).nodup_iff.2 (nodup_places seeds hlength)
    rwa [List.map_map] at hfinished
  · refine List.pairwise_filterMap.2 ((pairwise_places seeds hlength).imp ?_)
    intro p q hpq g hg g' hg'
    obtain ⟨task, -, rfl⟩ := Option.map_eq_some_iff.1 hg
    obtain ⟨task', -, rfl⟩ := Option.map_eq_some_iff.1 hg'
    exact hpq
  · rw [o.mem_report, verdicts, List.mem_filterMap]
    constructor
    · intro hg
      exact ⟨g.place, hperm.mem_iff.1 (List.mem_map_of_mem hg), (found_of_ready hlength h hg).1⟩
    · rintro ⟨p, hp, hfound⟩
      obtain ⟨g', hg', rfl⟩ := List.mem_map.1 (hperm.mem_iff.2 hp)
      rw [(found_of_ready hlength h hg').1] at hfound
      cases hfound
      exact hg'

/-! ## Coverage files -/

theorem join_inj (dir : String) {a b : String} (ha : a.startsWith "/" = false)
    (hb : b.startsWith "/" = false) (h : Path.join dir a = Path.join dir b) : a = b := by
  unfold Path.join at h
  rw [ha, hb] at h
  simp only [Bool.false_eq_true, if_false] at h
  split_ifs at h
  · exact h
  · exact (String.append_right_inj dir).1 h
  · exact (String.append_right_inj (dir ++ "/")).1 h

/-- The two coverage files do not replace each other. -/
theorem join_fullFile_ne (dir : String) :
    Path.join dir Tally.fullFile ≠ Path.join dir Tally.perTransactionFile := by
  intro h
  have heq := join_inj dir (by decide +kernel) (by decide +kernel) h
  exact absurd heq (by decide)

theorem files_of_stored {dir : String} (h : o.Stored dir)
    (hne : o.aggregator.full.isEmpty = false) :
    o.world.disk (Path.join dir Tally.fullFile) = some o.aggregator.full.fileText ∧
      o.world.disk (Path.join dir Tally.perTransactionFile) =
        some o.aggregator.perTransaction.fileText ∧
      o.coverageFiles = [Path.join dir Tally.fullFile, Path.join dir Tally.perTransactionFile] := by
  have hfiles : o.aggregator.files = [(Tally.fullFile, o.aggregator.full.fileText),
      (Tally.perTransactionFile, o.aggregator.perTransaction.fileText)] := by
    rw [Tally.files, hne]
    rfl
  obtain ⟨⟨d, hdisk⟩, hnames⟩ := h (by simp [hfiles])
  rw [hdisk, hnames, hfiles]
  refine ⟨?_, ?_, rfl⟩
  · simp [Floor.filed, Function.update_of_ne (join_fullFile_ne dir)]
  · simp [Floor.filed]

/-! ## Every schedule -/

/-- The tally at the end of a run. -/
def finalTally {σ : Type} (host : CampaignHost σ) (plan : CampaignPlan) (test : TestCase)
    (rounds : Nat) (s : σ) : Tally :=
  (ending host plan test rounds s).2.aggregator

/-- **No coverage is lost, and the order of steps does not matter.** If every worker has fixed
messages in which no coverage follows the last completion, and the user answers by worker and
failure, then every campaign that ends well has summed the last snapshots of the workers, and
reports the verdicts that the messages call for. If nothing keeps it from writing and something was
hit, then both sums are on disk. -/
theorem run_coverage_complete (messages : WorkerTask → List Dispatch)
    (reply : UInt64 → Envelope → PromptReply) (hcrew : ∀ task, (crew task).Says (messages task))
    (hfirst : ∀ task, CoverageComesFirst (messages task)) (env : Surroundings ρ)
    (henv : env.Answers reply) (plan : CampaignPlan) (test : TestCase) (rounds : Nat) (rest : ρ)
    {findings : Findings} {f : Floor ρ}
    (h : (run (Floor.host crew env) plan test rounds).outcome (.vacant rest) = (.ok findings, f)) :
    let seeds := seedsOf (Floor.host crew env) plan (.vacant rest)
    let tally := finalTally (Floor.host crew env) plan test rounds (.vacant rest)
    tally.full = .merge ((lastSnapshots plan test messages seeds).map (·.full)) ∧
    tally.perTransaction =
      .merge ((lastSnapshots plan test messages seeds).map (·.perTransaction)) ∧
    findings.workers = verdicts plan test messages reply seeds ∧
    (env.Writes → tally.full.isEmpty = false →
      f.disk (Path.join plan.coverageDir Tally.fullFile) = some tally.full.fileText ∧
      f.disk (Path.join plan.coverageDir Tally.perTransactionFile) =
        some tally.perTransaction.fileText ∧
      findings.coverageFiles = [Path.join plan.coverageDir Tally.fullFile,
        Path.join plan.coverageDir Tally.perTransactionFile]) ∧
    ∀ (ρ' : Type) (env' : Surroundings ρ') (rounds' : Nat) (rest' : ρ') (findings' : Findings)
      (f' : Floor ρ'), env'.Answers reply →
      seedsOf (Floor.host crew env') plan (.vacant rest') = seeds →
      (run (Floor.host crew env') plan test rounds').outcome (.vacant rest') =
        (.ok findings', f') →
      (finalTally (Floor.host crew env') plan test rounds' (.vacant rest')).full = tally.full ∧
      (finalTally (Floor.host crew env') plan test rounds' (.vacant rest')).perTransaction =
        tally.perTransaction ∧
      findings'.workers = findings.workers := by
  -- what holds in one order of steps is a function of the seeds alone
  have hone : ∀ (ρ : Type) (env : Surroundings ρ) (rounds : Nat) (rest : ρ) (findings : Findings)
      (f : Floor ρ), env.Answers reply →
      (run (Floor.host crew env) plan test rounds).outcome (.vacant rest) = (.ok findings, f) →
      (finalTally (Floor.host crew env) plan test rounds (.vacant rest)).latest.values =
        lastSnapshots plan test messages (seedsOf (Floor.host crew env) plan (.vacant rest)) ∧
      findings.workers =
        verdicts plan test messages reply (seedsOf (Floor.host crew env) plan (.vacant rest)) := by
    intro ρ env rounds rest findings f henv h
    obtain ⟨o, ho, -, rfl, hactive, hready⟩ := ready_of_run
      (Worker.retelling (plan.attaches reply) hcrew hfirst)
      (decidesAmong_replies henv plan) h
    have hlength := length_seedsOf_le (Floor.host crew env) plan (.vacant rest)
    rw [finalTally, ← ho]
    exact ⟨values_latest_of_ready hlength hready hactive, workers_of_ready hlength hready hactive⟩
  obtain ⟨hvalues, hworkers⟩ := hone ρ env rounds rest findings f henv h
  refine ⟨?_, ?_, hworkers, fun hwrites hne => ?_, ?_⟩
  · rw [Tally.full, hvalues]
  · rw [Tally.perTransaction, hvalues]
  · obtain ⟨o, ho, rfl, rfl, -, t, -, -, hstored⟩ := ready_of_run
      (Worker.retelling (plan.attaches reply) hcrew hfirst)
      (decidesAmong_replies henv plan) h
    rw [finalTally, ← ho] at hne ⊢
    exact files_of_stored (hstored hwrites) hne
  · intro ρ' env' rounds' rest' findings' f' henv' hseeds h'
    obtain ⟨hvalues', hworkers'⟩ := hone ρ' env' rounds' rest' findings' f' henv' h'
    rw [hseeds] at hvalues' hworkers'
    refine ⟨?_, ?_, hworkers'.trans hworkers.symm⟩
    · rw [Tally.full, Tally.full, hvalues', hvalues]
    · rw [Tally.perTransaction, Tally.perTransaction, hvalues', hvalues]

/-! ### Two orders of steps -/

/-- Two snapshots, the second with more hits. -/
def twoSnapshots : List Snapshot :=
  [1, 2].map fun hits =>
    ⟨.ofRecords [("c", ⟨1, 2, 3, 4⟩, ⟨"f", hits⟩)], .ofRecords [("c", ⟨1, 2, 3, 4⟩, ⟨"f", 1⟩)]⟩

/-- A failure for which a debugger is of use. -/
def wrong : Envelope := ⟨1, "error", "wrong", .testBody, []⟩

/-- A crew whose workers have coverage and fail. -/
def oneCrew : WorkerTask → Conversation :=
  Worker.reporters (fun _ => some wrong) fun _ => twoSnapshots

/-- The messages of such a worker. -/
def oneStory : List Dispatch := twoSnapshots.map .coverage ++ Worker.reportMessages (some wrong)

theorem says_oneCrew (task : WorkerTask) : (oneCrew task).Says oneStory :=
  Conversation.says_afterCoverage (Worker.says_conversation _) _

/-- A campaign of one worker in an order of steps. -/
def oneWorker (moves : List (List Move)) : Except Stop Findings × Floor (List (List Move)) :=
  (run (Floor.host oneCrew (.scheduled (.answer true))) { processCount := 1 } ⟨"m", "t", []⟩
    3).outcome (.vacant moves)

/-- The tally of the worker's campaign. -/
def oneTally (moves : List (List Move)) : Tally :=
  finalTally (Floor.host oneCrew (.scheduled (.answer true))) { processCount := 1 } ⟨"m", "t", []⟩ 3
    (.vacant moves)

/-- So many steps of the worker and its link. -/
def steps (n : Nat) : List Move := (List.replicate n [.work 0, .carry 0]).flatten

/-- An order of steps in which both snapshots are queued when the worker has ended. -/
def bothLate : List (List Move) :=
  List.replicate 6 [] ++ [steps 4] ++ List.replicate 7 [] ++ [steps 3]

/-- An order of steps in which one snapshot is taken before the worker is done. -/
def oneEarly : List (List Move) :=
  List.replicate 5 [] ++ [steps 1, steps 3] ++ List.replicate 7 [] ++ [steps 3]

/-- What the report says of the worker in both orders. -/
def oneFailure : Findings :=
  ⟨[⟨0, default, .failed wrong true⟩],
    [Path.join "." Tally.fullFile, Path.join "." Tally.perTransactionFile]⟩

theorem oneWorker_bothLate : (oneWorker bothLate).1 = .ok oneFailure := by decide +kernel

theorem oneWorker_oneEarly : (oneWorker oneEarly).1 = .ok oneFailure := by decide +kernel

theorem seedsOf_oneWorker (moves : List (List Move)) :
    seedsOf (Floor.host oneCrew (.scheduled (.answer true))) { processCount := 1 }
      (.vacant moves) = [default] :=
  rfl

theorem lastSnapshots_oneWorker :
    (lastSnapshots { processCount := 1 } ⟨"m", "t", []⟩ (fun _ => oneStory) [default]).map
      (·.full) =
      [.ofRecords [("c", ⟨1, 2, 3, 4⟩, ⟨"f", 2⟩)]] := by
  decide +kernel

/-- The last coverage of the worker, summed. -/
def oneSum : Coverage := .merge [.ofRecords [("c", ⟨1, 2, 3, 4⟩, ⟨"f", 2⟩)]]

theorem isEmpty_oneSum : oneSum.isEmpty = false := by decide +kernel

/-- The two orders of steps sum the same coverage, which is on disk. -/
theorem run_coverage_complete_oneWorker :
    (oneWorker bothLate).1 = .ok oneFailure ∧ (oneWorker oneEarly).1 = .ok oneFailure ∧
    (oneTally bothLate).full = oneSum ∧ (oneTally oneEarly).full = oneSum ∧
    (oneWorker bothLate).2.disk (Path.join "." Tally.fullFile) = some oneSum.fileText := by
  have hlate := oneWorker_bothLate
  have hearly := oneWorker_oneEarly
  rcases hrun : oneWorker bothLate with ⟨r, f⟩
  rcases hrun' : oneWorker oneEarly with ⟨r', f'⟩
  rw [hrun] at hlate
  rw [hrun'] at hearly
  subst hlate hearly
  obtain ⟨hfull, -, -, hfiles, hsame⟩ := run_coverage_complete (fun _ => oneStory)
    (fun _ _ => .answer true) says_oneCrew (fun _ => coverageComesFirst_report _ _) _
    (fun _ _ _ _ => rfl) _ _ _ _ hrun
  rw [seedsOf_oneWorker, lastSnapshots_oneWorker] at hfull
  rw [hfull] at hfiles
  obtain ⟨hdisk, -, -⟩ := hfiles (fun _ _ _ => rfl) isEmpty_oneSum
  obtain ⟨hfull', -, -⟩ := hsame _ _ _ _ _ _ (fun _ _ _ _ => rfl)
    ((seedsOf_oneWorker oneEarly).trans (seedsOf_oneWorker bothLate).symm) hrun'
  exact ⟨rfl, rfl, hfull, hfull'.trans hfull, hdisk⟩

end Campaign

end FuzzCampaign
