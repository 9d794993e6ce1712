import FuzzCampaign.Examples.Counter
import FuzzCampaign.Proofs.Record
import FuzzCampaign.Scripted.Body
import Mathlib.Tactic.SplitIfs

/-!
# What a worker does before its report

Nothing that goes wrong before the body touches the link, and a body has link and node only through
its coverage probe. So whatever a worker does before its report, it starts its node and sends
coverage, and it sends none if its body has no probe.

* `Worker.quiet_setUp`: everything before the body leaves no trace;
* `WorkerTask.Covers`, **`Worker.gives_setUp_probe`**: whether the body is given a probe;
* `BenchWork`: what a body can do at its bench; **`BenchWork.sendsCoverage`**: it sends coverage
  only;
* `ProbeWork`: the same of bodies that have no probe but the one they are given;
  **`ProbeWork.mute`**: without that they send nothing;
* `probeWork_scriptedBody`, `probeWork_counter`: bodies that are such work;
* `Worker.yields_execute`, `Worker.yields_execute_uncovered`: the run of a worker up to its report.
-/

namespace FuzzCampaign

variable {σ : Type}

/-! ## Before the body -/

namespace Worker

open Recorded

variable (host : WorkerHost σ)

theorem quiet_call (c : RpcClient) (method : String) (params : Json.Value) :
    Quiet (c.call host.recorded.exchange method params) := by
  refine quiet_bind (quiet_aside _) fun r => ?_
  rcases r with e | raw
  · exact quiet_pure _
  · dsimp only
    rcases Json.Reader.run Json.Reader.value raw with e | response
    · exact quiet_pure _
    · exact quiet_pure _

theorem quiet_latestBlock (c : RpcClient) : Quiet (c.latestBlock host.recorded.exchange) :=
  quiet_bind (quiet_call host c _ _) fun _ => quiet_pure _

theorem quiet_reset (c : RpcClient) (network : Network) :
    Quiet (c.reset host.recorded.exchange network) := by
  unfold RpcClient.reset
  rcases network.resetMethod? with _ | method
  · exact quiet_pure _
  · exact quiet_bind (quiet_call host c _ _) fun _ => quiet_pure _

theorem quiet_connectAttempt (url : String) :
    Quiet (connectAttempt host.recorded.toNodeHost url) := by
  refine quiet_bind (quiet_aside _) fun r => ?_
  rcases r with e | _
  · exact quiet_pure _
  · refine quiet_bind (quiet_latestBlock host _) fun r => ?_
    rcases r with ⟨_ | _, client⟩
    · exact quiet_pure _
    · exact quiet_pure _

theorem quiet_writeLog (tee : Bool) (text : String) :
    Quiet (Bench.writeLog host.recorded tee text) := by
  refine quiet_bind (quiet_aside _) fun r => ?_
  rcases r with e | _
  · exact quiet_pure _
  · cases tee with
    | true => exact quiet_aside _
    | false => exact quiet_pure _

theorem quiet_connectRound (url : String) (policy : Patience) (network : Network) (start : Nat) :
    Action.Quiet (connectRound host.recorded.toNodeHost url policy network start) := by
  refine Action.quiet_bind (Action.quiet_ask (quiet_connectAttempt host url)) fun r => ?_
  rcases r with e | client
  · change Action.Quiet (if e.isTransportFault = true then _ else _)
    split_ifs
    · refine Action.quiet_bind (Action.quiet_ask (quiet_aside _)) fun status? => ?_
      rcases status? with _ | status
      · refine Action.quiet_bind (Action.quiet_ask (quiet_aside _)) fun now => ?_
        split_ifs
        · exact Action.quiet_error _
        · exact Action.quiet_bind (Action.quiet_ask (quiet_aside _)) fun _ => Action.quiet_pure _
      · exact Action.quiet_error _
    · exact Action.quiet_error _
  · exact Action.quiet_pure _

theorem quiet_connectPatiently (url : String) (policy : Patience) (network : Network)
    (rounds : Nat) :
    Action.Quiet (connectPatiently host.recorded.toNodeHost url policy network rounds) :=
  Action.quiet_bind (Action.quiet_ask (quiet_aside _)) fun start =>
    Action.quiet_repeatUntil (quiet_connectRound host url policy network start) rounds

theorem quiet_resetChain (network : Network) (client : RpcClient) :
    Action.Quiet (resetChain host.recorded network client) := by
  refine Action.quiet_bind (Action.quiet_ask (quiet_reset host client network)) fun r => ?_
  rcases r with ⟨e | _, client⟩
  · cases e with
    | unsupported _ => exact Action.quiet_pure _
    | _ => exact Action.quiet_error _
  · exact Action.quiet_pure _

theorem quiet_makeProbe (task : WorkerTask) (wanted : Bool) (client : RpcClient) :
    Action.Quiet (makeProbe host.recorded task wanted client) := by
  unfold makeProbe
  split_ifs
  · refine Action.quiet_bind (Action.quiet_ask (quiet_latestBlock host client)) fun r => ?_
    exact Action.quiet_bind (Action.quiet_lift _) fun _ => Action.quiet_pure _
  · exact Action.quiet_pure _

/-- Whatever fails before the body, the link is not used and the node not stopped. -/
theorem quiet_setUp (test : TestCase) (task : WorkerTask) (retry : Patience) (rounds : Nat) :
    Action.Quiet (setUp host.recorded test task retry rounds) := by
  refine Action.quiet_bind (quiet_connectPatiently host _ _ _ _) fun client => ?_
  refine Action.quiet_bind (quiet_resetChain host _ _) fun client => ?_
  refine Action.quiet_bind (Action.quiet_perform (quiet_aside _)) fun _ => ?_
  refine Action.quiet_bind (Action.quiet_ask (quiet_aside _)) fun time => ?_
  refine Action.quiet_bind (Action.quiet_perform (quiet_writeLog host _ _)) fun _ => ?_
  refine Action.quiet_bind (Action.quiet_lift _) fun wanted => ?_
  exact Action.quiet_bind (quiet_makeProbe host _ _ _) fun _ => Action.quiet_pure _

end Worker

/-! ### The probe -/

/-- Coverage is collected in the worker, and the test declares the argument for it. -/
def WorkerTask.Covers (task : WorkerTask) (test : TestCase) : Prop :=
  task.coverage = true ∧ TestCase.coverageParam ∈ test.params

instance (task : WorkerTask) (test : TestCase) : Decidable (task.Covers test) :=
  inferInstanceAs (Decidable (_ ∧ _))

theorem TestCase.needsProbe_eq {test : TestCase} {wanted : Bool}
    (h : test.needsProbe = .ok wanted) :
    wanted = test.params.contains TestCase.coverageParam := by
  unfold TestCase.needsProbe at h
  rcases hfind : test.params.find? fun p => p ≠ TestCase.coverageParam with _ | p
  · rw [hfind] at h
    exact (Except.ok.inj h).symm
  · rw [hfind] at h
    cases h

namespace Worker

open FuzzCampaign.Action

variable (host : WorkerHost σ) {s : σ}

theorem gives_makeProbe (task : WorkerTask) (wanted : Bool) (client : RpcClient) :
    Gives (makeProbe host task wanted client) s fun x _ =>
      x.1.isSome = (task.coverage && wanted) := by
  unfold makeProbe
  by_cases h : (task.coverage && wanted) = true
  · rw [if_pos h, h]
    exact gives_bind_never fun _ _ => gives_bind_never fun _ _ => rfl
  · rw [if_neg h, eq_false_of_ne_true h]
    rfl

/-- **A body is given a probe** if and only if coverage is collected and the test declares it. -/
theorem gives_setUp_probe (test : TestCase) (task : WorkerTask) (retry : Patience) (rounds : Nat) :
    Gives (setUp host test task retry rounds) s fun x _ =>
      x.2.isSome = true ↔ task.Covers test := by
  refine gives_bind_never fun client _ => gives_bind_never fun client _ => ?_
  refine gives_bind_never fun _ _ => gives_bind_never fun time _ => gives_bind_never fun _ s => ?_
  rcases hwanted : test.needsProbe with e | wanted
  · trivial
  · rw [gives_bind]
    change Gives (makeProbe host task wanted client >>= _) s _
    refine gives_bind.2 ((gives_makeProbe host task wanted client).imp fun x _ hx => ?_)
    change x.1.isSome = true ↔ task.Covers test
    rw [hx, TestCase.needsProbe_eq hwanted, WorkerTask.Covers, Bool.and_eq_true,
      List.contains_iff_mem]

end Worker

/-! ## Bodies -/

/-- Whether something is the sending of coverage. -/
def WorkerDeed.IsCoverage (d : WorkerDeed) : Prop := ∃ s r, d = .said (.coverage s) r

/-- What a body can do at its bench: whatever it likes, but it has its link and its node only
through its probe. -/
inductive BenchWork (host : WorkerHost (Recorded WorkerDeed σ)) :
    {α : Type} → BodyAction (Recorded WorkerDeed σ) α → Prop
  | done {α : Type} (a : α) : BenchWork host (pure a)
  /-- It fails or panics. -/
  | failing {α : Type} (failure : BodyFailure) :
    BenchWork host (throw failure : BodyAction (Recorded WorkerDeed σ) α)
  | after {α β : Type} {act : BodyAction (Recorded WorkerDeed σ) α}
    {f : α → BodyAction (Recorded WorkerDeed σ) β} :
    BenchWork host act → (∀ a, BenchWork host (f a)) → BenchWork host (act >>= f)
  /-- It goes on after a failure or a panic. -/
  | recovering {α : Type} {act : BodyAction (Recorded WorkerDeed σ) α}
    {f : BodyFailure → BodyAction (Recorded WorkerDeed σ) α} :
    BenchWork host act → (∀ e, BenchWork host (f e)) → BenchWork host (tryCatch act f)
  /-- It does something that has nothing to do with link and node. -/
  | elsewhere {α : Type} (q : StateM (Bench (Recorded WorkerDeed σ)) α)
    (h : ∀ b, (q.run b).2.world.deeds = b.world.deeds) : BenchWork host (.ofBench q)
  | takeProbe (name : String) : BenchWork host (.ofBench (Bench.takeProbe host name))
  | dropProbe : BenchWork host (.ofBench (Bench.dropProbe host))
  | exportCoverage : BenchWork host (.ofBench (Bench.exportCoverage host))

namespace Bench

/-- What is done at a bench sends coverage only. -/
def SendsCoverage {α : Type} (q : StateM (Bench (Recorded WorkerDeed σ)) α) : Prop :=
  ∀ b, ∃ l, (q.run b).2.world.deeds = b.world.deeds ++ l ∧ ∀ d ∈ l, d.IsCoverage

variable {α β : Type} {q : StateM (Bench (Recorded WorkerDeed σ)) α} {host : WorkerHost σ}

theorem sendsCoverage_of_quiet (h : ∀ b, (q.run b).2.world.deeds = b.world.deeds) :
    SendsCoverage q :=
  fun b => ⟨[], by rw [h b, List.append_nil], nofun⟩

theorem SendsCoverage.bind {f : α → StateM (Bench (Recorded WorkerDeed σ)) β}
    (h : SendsCoverage q) (hf : ∀ a, SendsCoverage (f a)) : SendsCoverage (q >>= f) := by
  intro b
  obtain ⟨l, hl, hcoverage⟩ := h b
  obtain ⟨l', hl', hcoverage'⟩ := hf (q.run b).1 (q.run b).2
  refine ⟨l ++ l', ?_, fun d hd => (List.mem_append.1 hd).elim (hcoverage d) (hcoverage' d)⟩
  rw [← List.append_assoc, ← hl]
  exact hl'

theorem sendsCoverage_pure (a : α) :
    SendsCoverage (pure a : StateM (Bench (Recorded WorkerDeed σ)) α) :=
  sendsCoverage_of_quiet fun _ => rfl

theorem sendsCoverage_report (s : Snapshot) : SendsCoverage (report host.recorded s) :=
  fun b => ⟨[.said (.coverage s) ((host.send (.coverage s)).run b.world.world).1], rfl,
    fun _ hd => ⟨s, _, List.mem_singleton.1 hd⟩⟩

theorem sendsCoverage_farewell (s? : Option Snapshot) :
    SendsCoverage (match s? with
      | some s => discard (report host.recorded s)
      | none => return ()) := by
  cases s? with
  | none => exact sendsCoverage_pure _
  | some s => exact (sendsCoverage_report s).bind fun _ => sendsCoverage_pure _

theorem sendsCoverage_dropProbe : SendsCoverage (dropProbe host.recorded) := by
  intro b
  exact sendsCoverage_farewell (b.probe?.bind (·.farewell)) { b with probe? := none }

theorem sendsCoverage_dropArgument : SendsCoverage (dropArgument host.recorded) := by
  intro b
  exact sendsCoverage_farewell (b.argument?.bind (·.farewell)) { b with argument? := none }

theorem sendsCoverage_exportCoverage : SendsCoverage (exportCoverage host.recorded) := by
  refine (sendsCoverage_of_quiet fun _ => rfl).bind fun b => ?_
  rcases b.probe? with _ | p
  · exact sendsCoverage_pure _
  · exact (sendsCoverage_report p.snapshot).bind fun _ => sendsCoverage_pure _

theorem sendsCoverage_takeProbe (name : String) : SendsCoverage (takeProbe host.recorded name) := by
  unfold takeProbe
  split_ifs
  · refine (sendsCoverage_of_quiet fun _ => rfl).bind fun b => ?_
    rcases b.argument? with _ | probe
    · exact sendsCoverage_pure _
    · refine sendsCoverage_dropProbe.bind fun _ => ?_
      exact (sendsCoverage_of_quiet fun _ => rfl).bind fun _ => sendsCoverage_pure _
  · exact sendsCoverage_pure _

end Bench

open Bench in
/-- **A body sends coverage only**, however it ends. -/
theorem BenchWork.sendsCoverage {host : WorkerHost σ} {α : Type}
    {act : BodyAction (Recorded WorkerDeed σ) α} (h : BenchWork host.recorded act) :
    SendsCoverage act.run := by
  induction h with
  | done a => exact sendsCoverage_pure _
  | failing failure => exact sendsCoverage_pure _
  | @after α β act f _ _ ih ihf =>
    change SendsCoverage (act.run >>= ExceptT.bindCont f)
    refine ih.bind fun r => ?_
    cases r with
    | ok a => exact ihf a
    | error e => exact sendsCoverage_pure _
  | @recovering α act f _ _ ih ihf =>
    rw [ExceptT.run_tryCatch]
    refine ih.bind fun r => ?_
    cases r with
    | ok a => exact sendsCoverage_pure _
    | error e => exact ihf e
  | elsewhere q h => exact (sendsCoverage_of_quiet h).bind fun _ => sendsCoverage_pure _
  | takeProbe name => exact (sendsCoverage_takeProbe name).bind fun _ => sendsCoverage_pure _
  | dropProbe => exact sendsCoverage_dropProbe.bind fun _ => sendsCoverage_pure _
  | exportCoverage => exact sendsCoverage_exportCoverage.bind fun _ => sendsCoverage_pure _

/-! ### Bodies without a probe of their own -/

namespace Bench

/-- Link and node, the argument that is still there, and whether the body has a probe in its hands,
are as before; a probe may have counted, and may have been lost. -/
structure Holds (b b' : Bench (Recorded WorkerDeed σ)) : Prop where
  deeds : b'.world.deeds = b.world.deeds
  argument : b'.argument? = b.argument?
  hands : b.probe? = none → b'.probe? = none

theorem Holds.refl (b : Bench (Recorded WorkerDeed σ)) : Holds b b := ⟨rfl, rfl, id⟩

theorem holds_watch (name value : String) (b : Bench (Recorded WorkerDeed σ)) :
    Holds b ((watch name value).run b).2 := ⟨rfl, rfl, id⟩

theorem holds_ask {α : Type} {q : StateM (Recorded WorkerDeed σ) α} (h : Recorded.Quiet q)
    (b : Bench (Recorded WorkerDeed σ)) : Holds b ((ask q).run b).2 := ⟨h b.world, rfl, id⟩

theorem holds_hit (file : String) (position : Position) (name : String) (n : UInt64)
    (b : Bench (Recorded WorkerDeed σ)) : Holds b ((hit file position name n).run b).2 :=
  ⟨rfl, rfl, fun h => Option.map_eq_none_iff.2 h⟩

theorem holds_openTransaction (b : Bench (Recorded WorkerDeed σ)) :
    Holds b (openTransaction.run b).2 := ⟨rfl, rfl, fun h => Option.map_eq_none_iff.2 h⟩

/-- There is no probe. -/
structure Bare {σ : Type} (b : Bench σ) : Prop where
  argument : b.argument? = none
  hands : b.probe? = none

/-- Without a probe, what is done at a bench touches neither link nor node, and gets no probe. -/
def Mute {α : Type} (q : StateM (Bench (Recorded WorkerDeed σ)) α) : Prop :=
  ∀ b, b.Bare → (q.run b).2.Bare ∧ (q.run b).2.world.deeds = b.world.deeds

variable {α β : Type} {q : StateM (Bench (Recorded WorkerDeed σ)) α} {host : WorkerHost σ}

theorem mute_pure (a : α) : Mute (pure a : StateM (Bench (Recorded WorkerDeed σ)) α) :=
  fun _ h => ⟨h, rfl⟩

theorem Mute.bind {f : α → StateM (Bench (Recorded WorkerDeed σ)) β} (h : Mute q)
    (hf : ∀ a, Mute (f a)) : Mute (q >>= f) := by
  intro b hb
  obtain ⟨hb', hdeeds⟩ := h b hb
  obtain ⟨hb'', hdeeds'⟩ := hf (q.run b).1 (q.run b).2 hb'
  exact ⟨hb'', hdeeds'.trans hdeeds⟩

theorem mute_of_holds (h : ∀ b, Holds b (q.run b).2) : Mute q :=
  fun b hb => ⟨⟨(h b).argument.trans hb.argument, (h b).hands hb.hands⟩, (h b).deeds⟩

theorem takeProbe_of_bare {host : WorkerHost σ} {b : Bench σ} (h : b.Bare) :
    (takeProbe host TestCase.coverageParam).run b = (.ok none, b) := by
  obtain ⟨w, client, generator, watched, argument?, probe?⟩ := b
  obtain rfl : argument? = none := h.argument
  rfl

theorem mute_takeProbe (name : String) : Mute (takeProbe host.recorded name) := by
  by_cases hname : name = TestCase.coverageParam
  · subst hname
    intro b hb
    rw [takeProbe_of_bare hb]
    exact ⟨hb, rfl⟩
  · unfold takeProbe
    rw [if_neg hname]
    exact mute_pure _

theorem mute_dropProbe : Mute (dropProbe host.recorded) := by
  rintro ⟨w, client, generator, watched, argument?, probe?⟩ h
  obtain rfl : probe? = none := h.hands
  exact ⟨h, rfl⟩

theorem mute_dropArgument : Mute (dropArgument host.recorded) := by
  rintro ⟨w, client, generator, watched, argument?, probe?⟩ h
  obtain rfl : argument? = none := h.argument
  exact ⟨h, rfl⟩

theorem mute_exportCoverage : Mute (exportCoverage host.recorded) := by
  rintro ⟨w, client, generator, watched, argument?, probe?⟩ h
  obtain rfl : probe? = none := h.hands
  exact ⟨h, rfl⟩

end Bench

/-- What a body can do at its bench that has no probe but the one it is given: whatever it likes,
but it has its link and its node only through that. -/
inductive ProbeWork (host : WorkerHost (Recorded WorkerDeed σ)) :
    {α : Type} → BodyAction (Recorded WorkerDeed σ) α → Prop
  | done {α : Type} (a : α) : ProbeWork host (pure a)
  | failing {α : Type} (failure : BodyFailure) :
    ProbeWork host (throw failure : BodyAction (Recorded WorkerDeed σ) α)
  | after {α β : Type} {act : BodyAction (Recorded WorkerDeed σ) α}
    {f : α → BodyAction (Recorded WorkerDeed σ) β} :
    ProbeWork host act → (∀ a, ProbeWork host (f a)) → ProbeWork host (act >>= f)
  | recovering {α : Type} {act : BodyAction (Recorded WorkerDeed σ) α}
    {f : BodyFailure → BodyAction (Recorded WorkerDeed σ) α} :
    ProbeWork host act → (∀ e, ProbeWork host (f e)) → ProbeWork host (tryCatch act f)
  | elsewhere {α : Type} (q : StateM (Bench (Recorded WorkerDeed σ)) α)
    (h : ∀ b, Bench.Holds b (q.run b).2) : ProbeWork host (.ofBench q)
  | takeProbe (name : String) : ProbeWork host (.ofBench (Bench.takeProbe host name))
  | dropProbe : ProbeWork host (.ofBench (Bench.dropProbe host))
  | exportCoverage : ProbeWork host (.ofBench (Bench.exportCoverage host))

namespace ProbeWork

variable {host : WorkerHost σ} {α : Type} {act : BodyAction (Recorded WorkerDeed σ) α}

theorem benchWork (h : ProbeWork host.recorded act) : BenchWork host.recorded act := by
  induction h with
  | done a => exact .done a
  | failing failure => exact .failing failure
  | after _ _ ih ihf => exact .after ih ihf
  | recovering _ _ ih ihf => exact .recovering ih ihf
  | elsewhere q h => exact .elsewhere q fun b => (h b).deeds
  | takeProbe name => exact .takeProbe name
  | dropProbe => exact .dropProbe
  | exportCoverage => exact .exportCoverage

open Bench in
/-- **A body without a probe sends nothing**, however it ends. -/
theorem mute (h : ProbeWork host.recorded act) : Mute act.run := by
  induction h with
  | done a => exact mute_pure _
  | failing failure => exact mute_pure _
  | @after α β act f _ _ ih ihf =>
    change Mute (act.run >>= ExceptT.bindCont f)
    refine ih.bind fun r => ?_
    cases r with
    | ok a => exact ihf a
    | error e => exact mute_pure _
  | @recovering α act f _ _ ih ihf =>
    rw [ExceptT.run_tryCatch]
    refine ih.bind fun r => ?_
    cases r with
    | ok a => exact mute_pure _
    | error e => exact ihf e
  | elsewhere q h => exact (mute_of_holds h).bind fun _ => mute_pure _
  | takeProbe name => exact (mute_takeProbe name).bind fun _ => mute_pure _
  | dropProbe => exact mute_dropProbe.bind fun _ => mute_pure _
  | exportCoverage => exact mute_exportCoverage.bind fun _ => mute_pure _

end ProbeWork

/-! ### Bodies that are such work -/

namespace ProbeWork

variable {host : WorkerHost σ} {task : WorkerTask} {α β : Type}

theorem map {act : BodyAction (Recorded WorkerDeed σ) α} (h : ProbeWork host.recorded act)
    (f : α → β) : ProbeWork host.recorded (f <$> act) := by
  rw [map_eq_pure_bind]
  exact h.after fun a => .done (f a)

theorem request
    {act : RpcClient → StateM (Recorded WorkerDeed σ) (Except CampaignError α × RpcClient)}
    (h : ∀ c, Recorded.Quiet (act c)) : ProbeWork host.recorded (.ofBench (Bench.request act)) :=
  .elsewhere _ fun b => ⟨h b.client b.world, rfl, id⟩

theorem draw (f : Generator → Except Generator.DrawError (α × Generator)) :
    ProbeWork host.recorded (.ofBench (Bench.draw f)) := by
  refine .elsewhere _ fun b => ?_
  rcases hf : f b.generator with e | ⟨a, generator⟩
  · have hrun : (Bench.draw f).run b = (.error e, b) := by
      simp [Bench.draw, hf]
      rfl
    rw [hrun]
    exact .refl b
  · have hrun : (Bench.draw f).run b = (.ok a, { b with generator }) := by
      simp [Bench.draw, hf]
      rfl
    rw [hrun]
    exact ⟨rfl, rfl, id⟩

theorem quiet_chainCall (c : RpcClient) (call : ChainCall) :
    Recorded.Quiet (call.perform host.recorded.exchange c) := by
  cases call with
  | call method params => exact Worker.quiet_call host c method params
  | latestBlock =>
    exact Recorded.quiet_bind (Worker.quiet_latestBlock host c) fun _ => Recorded.quiet_pure _
  | reset name =>
    rw [ChainCall.perform]
    rcases Network.ofName name with e | network
    · exact Recorded.quiet_pure _
    · exact Recorded.quiet_bind (Worker.quiet_reset host c network) fun _ => Recorded.quiet_pure _
  | client => exact Recorded.quiet_pure _

theorem answerOf (passesOn : Bool) (r : Except CampaignError Json.Value) :
    ProbeWork host.recorded (BodyStep.answerOf passesOn r) := by
  rcases r with e | v
  · cases passesOn with
    | true => exact .failing _
    | false => exact .done _
  · exact .done _

theorem perform (step : BodyStep) : ProbeWork host.recorded (step.perform host.recorded task) := by
  cases step with
  | place => exact .after (.elsewhere get .refl) fun _ => .done _
  | watch name v =>
    exact .after (.elsewhere _ (Bench.holds_watch _ _)) fun _ =>
      .after (.elsewhere get .refl) fun _ => .done _
  | draw d =>
    refine .after (draw _) fun r => ?_
    rcases r with e | v
    · exact .failing _
    · exact .done _
  | write text =>
    have hquiet := Worker.quiet_writeLog host task.tee text
    exact .after (map (.elsewhere _ (Bench.holds_ask hquiet)) _) fun _ => .done _
  | take name passesOn => exact .after (.takeProbe name) fun _ => answerOf _ _
  | hit file position name n =>
    rw [BodyStep.perform]
    rcases Position.parse position with e | p
    · exact .failing _
    · exact .after (.elsewhere _ (Bench.holds_hit _ _ _ _)) fun _ =>
        .after (.elsewhere Bench.hasProbe .refl) fun _ => .done _
  | openTransaction => exact .after (.elsewhere _ Bench.holds_openTransaction) fun _ => .done _
  | exportCoverage =>
    refine .after .exportCoverage fun r => ?_
    rcases r with _ | _ | _
    · exact .done _
    · exact .done _
    · exact .done _
  | dropProbe => exact .after .dropProbe fun _ => .done _
  | fail e => exact .failing _
  | panic payload => exact .failing _
  | chain c passesOn =>
    exact .after (request fun client => quiet_chainCall client c) fun _ => answerOf _ _

end ProbeWork

theorem probeWork_scriptedBody {host : WorkerHost σ} {task : WorkerTask}
    {note : String → StepAnswer → StateM (Recorded WorkerDeed σ) Unit}
    (hnote : ∀ label answer, Recorded.Quiet (note label answer))
    (script : List (String × BodyStep)) :
    ProbeWork host.recorded (scriptedBody note script host.recorded task) := by
  unfold scriptedBody
  induction script with
  | nil => exact .done _
  | cons s script ih =>
    refine .after (.after (ProbeWork.perform s.2) fun answer => ?_) fun _ => ih
    exact .elsewhere _ (Bench.holds_ask (hnote s.1 answer))

theorem probeWork_counter {host : WorkerHost σ} (task : WorkerTask) :
    ProbeWork host.recorded (Counter.body host.recorded task) := by
  have horFail : ∀ {α : Type} (r : Except CampaignError α),
      ProbeWork host.recorded (Counter.orFail r) := by
    intro α r
    rcases r with e | a
    · exact .failing _
    · exact .done a
  have hheight : ProbeWork host.recorded (Counter.height host.recorded) :=
    .after (.request fun c => Worker.quiet_latestBlock host c) fun r => horFail r
  have hstep : ∀ n counter, ProbeWork host.recorded (Counter.step n counter) := by
    intro n counter
    refine .after (.elsewhere _ Bench.holds_openTransaction) fun _ =>
      .after (.elsewhere _ (Bench.holds_watch _ _)) fun _ => ?_
    refine .after (.after (.draw _) fun r => ?_) fun up => ?_
    · rcases r with e | up
      · exact .failing _
      · exact .done up
    · refine .after (.elsewhere _ fun b => ?_) fun _ =>
        .after (.elsewhere _ (Bench.holds_watch _ _)) fun _ => .done _
      cases up with
      | true => exact Bench.holds_hit _ _ _ _ b
      | false => exact Bench.holds_hit _ _ _ _ b
  have hsteps : ∀ (ns : List Nat) (counter : UInt64), ProbeWork host.recorded
      (ns.foldlM (fun counter n => Counter.step n counter) counter) := by
    intro ns
    induction ns with
    | nil => exact fun counter => .done counter
    | cons n ns ih =>
      intro counter
      rw [List.foldlM_cons]
      exact .after (hstep n counter) ih
  unfold Counter.body
  refine .after (.takeProbe _) fun start? => .after (.map (horFail _) _) fun _ => ?_
  refine .after hheight fun first => .after (.map (hsteps _ _) _) fun _ => ?_
  refine .after hheight fun last => ?_
  split_ifs
  · exact .failing _
  · exact .done ()

/-! ## Up to the report -/

namespace Worker

open FuzzCampaign.Action

variable {host : WorkerHost σ} {body : FuzzBody (Recorded WorkerDeed σ)} {task : WorkerTask}

/-- What a body adds to the record, with what is left of its probe. -/
theorem deeds_runBody (host : WorkerHost σ) (test : TestCase)
    (body : FuzzBody (Recorded WorkerDeed σ)) (task : WorkerTask) (client : RpcClient)
    (probe? : Option Probe) (r : Recorded WorkerDeed σ) :
    ∃ r' : Recorded WorkerDeed σ, r'.deeds = r.deeds ∧
      ((runBody host.recorded test body task client probe?).run r).2.deeds =
        ((do
          let _ ← (body host.recorded task).run
          Bench.dropProbe host.recorded
          Bench.dropArgument host.recorded).run
            ⟨r', client, .ofSeed task.seed, [], probe?, none⟩).2.world.deeds := by
  refine ⟨_, quiet_writeLog host task.tee (beginLine test task) r, ?_⟩
  exact quiet_writeLog host task.tee _ _

open Bench in
theorem coverage_runBody (hbody : BenchWork host.recorded (body host.recorded task))
    (test : TestCase) (client : RpcClient) (probe? : Option Probe) (r : Recorded WorkerDeed σ) :
    ∃ coverage, ((runBody host.recorded test body task client probe?).run r).2.deeds =
      r.deeds ++ coverage ∧ ∀ d ∈ coverage, d.IsCoverage := by
  obtain ⟨r', hr', hdeeds⟩ := deeds_runBody host test body task client probe? r
  rw [hdeeds, ← hr']
  exact (hbody.sendsCoverage.bind fun _ => sendsCoverage_dropProbe.bind
    fun _ => sendsCoverage_dropArgument) _

open Bench in
/-- A body without a probe adds nothing. -/
theorem deeds_runBody_bare (hbody : ProbeWork host.recorded (body host.recorded task))
    (test : TestCase) (client : RpcClient) (r : Recorded WorkerDeed σ) :
    ((runBody host.recorded test body task client none).run r).2.deeds = r.deeds := by
  obtain ⟨r', hr', hdeeds⟩ := deeds_runBody host test body task client none r
  rw [hdeeds, ← hr']
  exact ((hbody.mute.bind fun _ => mute_dropProbe.bind fun _ => mute_dropArgument) _
    ⟨rfl, rfl⟩).2

/-- Up to the report, a worker starts its node, and then does what its body does with the probe that
it is given. -/
theorem yields_execute_of {test : TestCase} {Q : List WorkerDeed → Prop} (hnil : Q [])
    (hbody : ∀ client probe? r, (probe?.isSome = true ↔ task.Covers test) →
      ∃ l, ((runBody host.recorded test body task client probe?).run r).2.deeds = r.deeds ++ l ∧
        Q l)
    (retry : Patience) (rounds : Nat) (r : Recorded WorkerDeed σ) :
    Yields (execute host.recorded test body task retry rounds) r
      (fun x r' => ∃ answer l, r'.deeds = r.deeds ++ .launched answer :: l ∧
        x.1 = answer.isOk ∧ Q l)
      fun stop r' => stop = .outOfRounds ∧ r'.deeds = r.deeds ++ [.launched (.ok ())] := by
  unfold execute
  rw [yields_bind, yields_ask]
  have hlaunch := Recorded.run_noting .launched (host.launch task.network task.port) r
  change (host.recorded.launch task.network task.port).run r = _ at hlaunch
  rw [hlaunch]
  rcases (host.launch task.network task.port).run r.world with ⟨e | _, w⟩
  · exact ⟨.error e, [], rfl, rfl, hnil⟩
  · rw [yields_bind, yields_ask, yields_bind, yields_attempt]
    have hguard : ∀ r, (host.recorded.guardNode.run r).2.deeds = r.deeds :=
      Recorded.quiet_aside host.guardNode
    refine ((quiet_setUp host test task retry rounds _).and
      (gives_setUp_probe host.recorded test task retry rounds)).mono ?_ ?_
    · rintro x r' ⟨hr', hprobe⟩
      rw [yields_bind, yields_ask]
      obtain ⟨l, hdeeds, hl⟩ := hbody x.1 x.2 r' hprobe
      refine ⟨.ok (), l, ?_, rfl, hl⟩
      rw [hdeeds, hr', hguard, List.append_assoc]
      rfl
    · rintro stop r' ⟨⟨hr', habort⟩, -⟩
      rw [hguard] at hr'
      cases stop with
      | error e => exact ⟨.ok (), [], hr', rfl, hnil⟩
      | abort message => exact absurd rfl (habort message)
      | outOfRounds => exact ⟨rfl, hr'⟩

theorem yields_execute (hbody : BenchWork host.recorded (body host.recorded task)) (test : TestCase)
    (retry : Patience) (rounds : Nat) (r : Recorded WorkerDeed σ) :
    Yields (execute host.recorded test body task retry rounds) r
      (fun x r' => ∃ answer coverage, r'.deeds = r.deeds ++ .launched answer :: coverage ∧
        x.1 = answer.isOk ∧ ∀ d ∈ coverage, d.IsCoverage)
      fun stop r' => stop = .outOfRounds ∧ r'.deeds = r.deeds ++ [.launched (.ok ())] :=
  yields_execute_of (List.forall_mem_nil _)
    (fun client probe? r _ => coverage_runBody hbody test client probe? r) retry rounds r

/-- **Where no coverage is collected**, a worker only starts its node before its report. -/
theorem yields_execute_uncovered (hbody : ProbeWork host.recorded (body host.recorded task))
    {test : TestCase} (hcovers : ¬task.Covers test) (retry : Patience) (rounds : Nat)
    (r : Recorded WorkerDeed σ) :
    Yields (execute host.recorded test body task retry rounds) r
      (fun x r' => ∃ answer, r'.deeds = r.deeds ++ [.launched answer] ∧ x.1 = answer.isOk)
      fun stop r' => stop = .outOfRounds ∧ r'.deeds = r.deeds ++ [.launched (.ok ())] := by
  refine (yields_execute_of (Q := fun l => l = []) rfl (fun client probe? r hprobe => ?_) retry
    rounds r).imp ?_
  · obtain rfl : probe? = none := by
      rw [← Option.not_isSome_iff_eq_none]
      exact fun h => hcovers (hprobe.1 h)
    exact ⟨[], by rw [deeds_runBody_bare hbody, List.append_nil], rfl⟩
  · rintro x r' ⟨answer, l, hdeeds, hnode, rfl⟩
    exact ⟨answer, hdeeds, hnode⟩

end Worker

end FuzzCampaign
