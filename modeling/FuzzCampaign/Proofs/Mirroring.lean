import FuzzCampaign.Proofs.Conversation
import Mathlib.Tactic.SplitIfs

/-!
# Worlds that mirror each other

What a worker does depends on its world only through the answers. If a world answers as another does
of which it holds more, then so does every run in it: to keep a record beside a world, for example,
changes nothing.

* `Mirrors`, `Action.Mirrors`: two questions, or two actions, that do the same as far as a view of
  the world shows, with a rule for each way to build one;
* `WorkerHost.Mirrors`, `BodyAction.Mirrors`: worlds and bodies that do;
* `Worker.mirrors_setUp`, `Worker.mirrors_runBody`, `Worker.mirrors_reportOutcome`: the parts of a
  run;
* **`Worker.mirrors_run`**: the runs of a worker in the two worlds are the same.
-/

namespace FuzzCampaign

variable {τ σ α β : Type} {view : τ → σ}

/-! ## Questions -/

/-- As far as the view shows, a question does to a world what another does to the view of it, and
its answer is the same. -/
def Mirrors (view : τ → σ) (q : StateM τ α) (q' : StateM σ α) : Prop :=
  ∀ t, q'.run (view t) = ((q.run t).1, view (q.run t).2)

section

variable {q : StateM τ α} {q' : StateM σ α}

theorem mirrors_pure (a : α) : Mirrors view (pure a) (pure a) := fun _ => rfl

theorem Mirrors.bind {f : α → StateM τ β} {f' : α → StateM σ β} (h : Mirrors view q q')
    (hf : ∀ a, Mirrors view (f a) (f' a)) : Mirrors view (q >>= f) (q' >>= f') := by
  intro t
  change (f' (q'.run (view t)).1).run (q'.run (view t)).2 = _
  rw [h t]
  exact hf _ _

theorem Mirrors.discard (h : Mirrors view q q') :
    Mirrors view (Functor.discard q) (Functor.discard q') :=
  h.bind fun _ => mirrors_pure ()

end

/-! ## Actions -/

namespace Action

/-- As far as the view shows, an action does what another does, and ends as it does. -/
def Mirrors (view : τ → σ) (act : Action τ α) (act' : Action σ α) : Prop :=
  FuzzCampaign.Mirrors view act.run act'.run

variable {act : Action τ α} {act' : Action σ α}

theorem mirrors_pure (a : α) : Mirrors view (pure a : Action τ α) (pure a) := fun _ => rfl

theorem mirrors_throw (stop : Stop) : Mirrors view (throw stop : Action τ α) (throw stop) :=
  fun _ => rfl

theorem mirrors_ask {q : StateM τ α} {q' : StateM σ α} (h : FuzzCampaign.Mirrors view q q') :
    Mirrors view (ask q) (ask q') :=
  FuzzCampaign.Mirrors.bind h fun _ => FuzzCampaign.mirrors_pure _

theorem Mirrors.bind {f : α → Action τ β} {f' : α → Action σ β} (h : Mirrors view act act')
    (hf : ∀ a, Mirrors view (f a) (f' a)) : Mirrors view (act >>= f) (act' >>= f') := by
  change FuzzCampaign.Mirrors view (act.run >>= ExceptT.bindCont f)
    (act'.run >>= ExceptT.bindCont f')
  refine FuzzCampaign.Mirrors.bind h fun r => ?_
  cases r with
  | ok a => exact hf a
  | error stop => exact FuzzCampaign.mirrors_pure _

theorem mirrors_lift (r : Except CampaignError α) :
    Mirrors view (lift r : Action τ α) (lift r) := by
  cases r with
  | ok a => exact mirrors_pure a
  | error e => exact mirrors_throw _

theorem mirrors_perform {q : StateM τ (Except CampaignError α)}
    {q' : StateM σ (Except CampaignError α)} (h : FuzzCampaign.Mirrors view q q') :
    Mirrors view (perform q) (perform q') :=
  Mirrors.bind (mirrors_ask h) fun r => mirrors_lift r

theorem mirrors_attempt (h : Mirrors view act act') :
    Mirrors view (attempt act) (attempt act') := by
  refine FuzzCampaign.Mirrors.bind h fun r => ?_
  rcases r with (_ | _ | _) | a <;> exact FuzzCampaign.mirrors_pure _

theorem mirrors_repeatUntil {body : Action τ (Option α)} {body' : Action σ (Option α)}
    (h : Mirrors view body body') (rounds : Nat) :
    Mirrors view (repeatUntil body rounds) (repeatUntil body' rounds) := by
  induction rounds with
  | zero => exact mirrors_throw _
  | succ rounds ih =>
    refine h.bind fun r => ?_
    cases r with
    | some a => exact mirrors_pure a
    | none => exact ih

end Action

/-! ## Worlds and bodies -/

/-- A node that answers as another does, as far as the view shows. -/
structure NodeHost.Mirrors (view : τ → σ) (host : NodeHost τ) (host' : NodeHost σ) : Prop where
  openConnection : ∀ url, FuzzCampaign.Mirrors view (host.openConnection url)
    (host'.openConnection url)
  exchange : ∀ text, FuzzCampaign.Mirrors view (host.exchange text) (host'.exchange text)
  nodeStatus : FuzzCampaign.Mirrors view host.nodeStatus host'.nodeStatus
  now : FuzzCampaign.Mirrors view host.now host'.now
  sleep : ∀ d, FuzzCampaign.Mirrors view (host.sleep d) (host'.sleep d)

/-- A worker's world that answers as another does, as far as the view shows. -/
structure WorkerHost.Mirrors (view : τ → σ) (host : WorkerHost τ) (host' : WorkerHost σ) : Prop
    extends NodeHost.Mirrors view host.toNodeHost host'.toNodeHost where
  launch : ∀ network port, FuzzCampaign.Mirrors view (host.launch network port)
    (host'.launch network port)
  stopNode : FuzzCampaign.Mirrors view host.stopNode host'.stopNode
  guardNode : FuzzCampaign.Mirrors view host.guardNode host'.guardNode
  openLog : ∀ path, FuzzCampaign.Mirrors view (host.openLog path) (host'.openLog path)
  appendLog : ∀ text, FuzzCampaign.Mirrors view (host.appendLog text) (host'.appendLog text)
  printOut : ∀ text, FuzzCampaign.Mirrors view (host.printOut text) (host'.printOut text)
  time : FuzzCampaign.Mirrors view host.time host'.time
  send : ∀ m, FuzzCampaign.Mirrors view (host.send m) (host'.send m)
  receive : FuzzCampaign.Mirrors view host.receive host'.receive
  converse : ∀ session, FuzzCampaign.Mirrors view (host.converse session) (host'.converse session)

/-- The bench whose world is `w`. -/
def Bench.within (b : Bench τ) (w : σ) : Bench σ :=
  ⟨w, b.client, b.generator, b.watched, b.argument?, b.probe?⟩

/-- A bench, as far as the view of its world shows. -/
def Bench.seen (view : τ → σ) (b : Bench τ) : Bench σ := b.within (view b.world)

/-- A body that does to its bench what another does, as far as the view shows. -/
def BodyAction.Mirrors (view : τ → σ) (act : BodyAction τ α) (act' : BodyAction σ α) : Prop :=
  FuzzCampaign.Mirrors (Bench.seen view) act.run act'.run

/-! ## Runs -/

namespace Worker

/-- The report of a body that ended. -/
def reportOf (test : TestCase) (watched : List (String × String)) :
    Except BodyFailure Unit → Option Envelope
  | .ok () => none
  | .error failure => some (failureReport test watched failure)

/-- What is done at the bench: the body, and then the end of its probe. -/
def atBench (host : WorkerHost σ) (act : BodyAction σ α) :
    StateM (Bench σ) (Except BodyFailure α) := do
  let ending ← act.run
  Bench.dropProbe host
  Bench.dropArgument host
  return ending

theorem runBody_eq (host : WorkerHost σ) (test : TestCase) (body : FuzzBody σ) (task : WorkerTask)
    (client : RpcClient) (probe? : Option Probe) :
    runBody host test body task client probe? = (do
      discard (Bench.writeLog host task.tee (beginLine test task))
      let (ending, bench) :=
        (atBench host (body host task)).run ⟨← get, client, .ofSeed task.seed, [], probe?, none⟩
      set bench.world
      let report := reportOf test bench.watched ending
      discard (Bench.writeLog host task.tee (endLine report))
      return report) :=
  rfl

section

variable {host : NodeHost τ} {host' : NodeHost σ} (h : host.Mirrors view host')
include h

open FuzzCampaign.Action

theorem mirrors_call (c : RpcClient) (method : String) (params : Json.Value) :
    Mirrors view (c.call host.exchange method params) (c.call host'.exchange method params) := by
  refine (h.exchange _).bind fun r => ?_
  rcases r with e | raw
  · exact mirrors_pure _
  · dsimp only
    rcases Json.Reader.run Json.Reader.value raw with e | response
    · exact mirrors_pure _
    · exact mirrors_pure _

theorem mirrors_latestBlock (c : RpcClient) :
    Mirrors view (c.latestBlock host.exchange) (c.latestBlock host'.exchange) :=
  (mirrors_call h c _ _).bind fun _ => mirrors_pure _

theorem mirrors_reset (c : RpcClient) (network : Network) :
    Mirrors view (c.reset host.exchange network) (c.reset host'.exchange network) := by
  unfold RpcClient.reset
  rcases network.resetMethod? with _ | method
  · exact mirrors_pure _
  · exact (mirrors_call h c _ _).bind fun _ => mirrors_pure _

theorem mirrors_connectAttempt (url : String) :
    Mirrors view (connectAttempt host url) (connectAttempt host' url) := by
  refine (h.openConnection url).bind fun r => ?_
  rcases r with e | _
  · exact mirrors_pure _
  · refine (mirrors_latestBlock h _).bind fun r => ?_
    rcases r with ⟨_ | _, client⟩
    · exact mirrors_pure _
    · exact mirrors_pure _

theorem mirrors_connectRound (url : String) (policy : Patience) (network : Network) (start : Nat) :
    Action.Mirrors view (connectRound host url policy network start)
      (connectRound host' url policy network start) := by
  refine (mirrors_ask (mirrors_connectAttempt h url)).bind fun r => ?_
  rcases r with e | client
  · change Action.Mirrors view (if e.isTransportFault = true then _ else _)
      (if e.isTransportFault = true then _ else _)
    split_ifs
    · refine (mirrors_ask h.nodeStatus).bind fun status? => ?_
      rcases status? with _ | status
      · refine (mirrors_ask h.now).bind fun now => ?_
        split_ifs
        · exact mirrors_throw _
        · exact (mirrors_ask (h.sleep _)).bind fun _ => Action.mirrors_pure _
      · exact mirrors_throw _
    · exact mirrors_throw _
  · exact Action.mirrors_pure _

theorem mirrors_connectPatiently (url : String) (policy : Patience) (network : Network)
    (rounds : Nat) : Action.Mirrors view (connectPatiently host url policy network rounds)
      (connectPatiently host' url policy network rounds) :=
  (mirrors_ask h.now).bind fun start =>
    mirrors_repeatUntil (mirrors_connectRound h url policy network start) rounds

end

variable {host : WorkerHost τ} {host' : WorkerHost σ} (h : host.Mirrors view host')

section

include h

theorem mirrors_writeLog (tee : Bool) (text : String) :
    Mirrors view (Bench.writeLog host tee text) (Bench.writeLog host' tee text) := by
  refine (h.appendLog text).bind fun r => ?_
  rcases r with e | _
  · exact mirrors_pure _
  · cases tee with
    | true => exact h.printOut text
    | false => exact mirrors_pure _

open FuzzCampaign.Action

theorem mirrors_resetChain (network : Network) (client : RpcClient) :
    Action.Mirrors view (resetChain host network client) (resetChain host' network client) := by
  refine (mirrors_ask (mirrors_reset h.toMirrors client network)).bind fun r => ?_
  rcases r with ⟨e | _, client⟩
  · cases e with
    | unsupported _ => exact Action.mirrors_pure _
    | _ => exact mirrors_throw _
  · exact Action.mirrors_pure _

theorem mirrors_makeProbe (task : WorkerTask) (wanted : Bool) (client : RpcClient) :
    Action.Mirrors view (makeProbe host task wanted client)
      (makeProbe host' task wanted client) := by
  unfold makeProbe
  split_ifs
  · refine (mirrors_ask (mirrors_latestBlock h.toMirrors client)).bind fun r => ?_
    exact (mirrors_lift _).bind fun _ => Action.mirrors_pure _
  · exact Action.mirrors_pure _

theorem mirrors_setUp (test : TestCase) (task : WorkerTask) (retry : Patience) (rounds : Nat) :
    Action.Mirrors view (setUp host test task retry rounds)
      (setUp host' test task retry rounds) := by
  refine (mirrors_connectPatiently h.toMirrors _ _ _ rounds).bind fun client => ?_
  refine (mirrors_resetChain h _ _).bind fun client => ?_
  refine (mirrors_perform (h.openLog _)).bind fun _ => ?_
  refine (mirrors_ask h.time).bind fun time => ?_
  refine (mirrors_perform (mirrors_writeLog h _ _)).bind fun _ => ?_
  refine (mirrors_lift _).bind fun wanted => ?_
  exact (mirrors_makeProbe h _ _ _).bind fun _ => Action.mirrors_pure _

theorem mirrors_farewell (s? : Option Snapshot) :
    Mirrors (Bench.seen view)
      (match s? with
        | some s => discard (Bench.report host s)
        | none => return ())
      (match s? with
        | some s => discard (Bench.report host' s)
        | none => return ()) := by
  cases s? with
  | none => exact mirrors_pure _
  | some s =>
    refine Mirrors.discard fun b => ?_
    change (((host'.send (.coverage s)).run (view b.world)).1,
      b.within ((host'.send (.coverage s)).run (view b.world)).2) = _
    rw [h.send (.coverage s) b.world]
    rfl

theorem mirrors_dropProbe :
    Mirrors (Bench.seen view) (Bench.dropProbe host) (Bench.dropProbe host') := fun b =>
  mirrors_farewell h (b.probe?.bind (·.farewell)) { b with probe? := none }

theorem mirrors_dropArgument :
    Mirrors (Bench.seen view) (Bench.dropArgument host) (Bench.dropArgument host') := fun b =>
  mirrors_farewell h (b.argument?.bind (·.farewell)) { b with argument? := none }

theorem mirrors_atBench {act : BodyAction τ α} {act' : BodyAction σ α}
    (hact : act.Mirrors view act') :
    Mirrors (Bench.seen view) (atBench host act) (atBench host' act') :=
  Mirrors.bind hact fun ending => (mirrors_dropProbe h).bind fun _ =>
    (mirrors_dropArgument h).bind fun _ => mirrors_pure ending

variable {test : TestCase} {body : FuzzBody τ} {body' : FuzzBody σ} {task : WorkerTask}
  (hbody : (body host task).Mirrors view (body' host' task))

include hbody

theorem mirrors_runBody (client : RpcClient) (probe? : Option Probe) :
    Mirrors view (runBody host test body task client probe?)
      (runBody host' test body' task client probe?) := by
  have hfinish : ∀ report, Mirrors view
      (do
        discard (Bench.writeLog host task.tee (endLine report))
        return report)
      (do
        discard (Bench.writeLog host' task.tee (endLine report))
        return report) := fun report =>
    (mirrors_writeLog h _ _).discard.bind fun _ => mirrors_pure report
  rw [runBody_eq, runBody_eq]
  refine (mirrors_writeLog h _ _).discard.bind fun _ t => ?_
  let x' := (atBench host' (body' host' task)).run
    ⟨view t, client, .ofSeed task.seed, [], probe?, none⟩
  change (StateT.run (do
    discard (Bench.writeLog host' task.tee (endLine (reportOf test x'.2.watched x'.1)))
    return reportOf test x'.2.watched x'.1) x'.2.world) = _
  have hx' := mirrors_atBench h hbody ⟨t, client, .ofSeed task.seed, [], probe?, none⟩
  rw [show x' = _ from hx']
  exact hfinish _ _

theorem mirrors_execute (retry : Patience) (rounds : Nat) :
    Action.Mirrors view (execute host test body task retry rounds)
      (execute host' test body' task retry rounds) := by
  refine (mirrors_ask (h.launch _ _)).bind fun r => ?_
  rcases r with e | _
  · exact Action.mirrors_pure _
  · refine (mirrors_ask h.guardNode).bind fun _ => ?_
    refine (mirrors_attempt (mirrors_setUp h test task retry rounds)).bind fun r => ?_
    rcases r with e | ⟨client, probe⟩
    · exact Action.mirrors_pure _
    · exact (mirrors_ask (mirrors_runBody h hbody client probe)).bind fun _ => Action.mirrors_pure _

omit hbody in
theorem mirrors_conversation (c : Conversation) :
    Action.Mirrors view (c.perform host) (c.perform host') := by
  induction c with
  | ended r => exact FuzzCampaign.mirrors_pure r
  | saying m next ih => exact (mirrors_ask (h.send m)).bind ih
  | hearing next ih => exact (mirrors_ask h.receive).bind ih
  | debugging e next ih => exact (mirrors_ask (h.converse _)).bind fun _ => ih

omit hbody in
theorem mirrors_reportOutcome (report : Option Envelope) :
    Action.Mirrors view (reportOutcome host report) (reportOutcome host' report) := by
  rw [← perform_conversation, ← perform_conversation]
  exact mirrors_conversation h _

/-- **A run depends on its world only through the answers.** -/
theorem mirrors_run (retry : Patience) (rounds : Nat) :
    Action.Mirrors view (run host test body task retry rounds)
      (run host' test body' task retry rounds) := by
  refine (mirrors_execute h hbody retry rounds).bind fun ⟨hasNode, report⟩ => ?_
  refine (mirrors_attempt (mirrors_reportOutcome h report)).bind fun result => ?_
  cases hasNode with
  | true => exact (mirrors_ask h.stopNode).bind fun _ => mirrors_lift result
  | false => exact mirrors_lift result

end

end Worker

end FuzzCampaign
