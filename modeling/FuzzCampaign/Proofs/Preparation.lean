import FuzzCampaign.Proofs.BenchWork
import FuzzCampaign.Proofs.WorkerActs

/-!
# The preparation of a worker

Before the body of a test runs, the worker goes through its steps in a fixed order: it starts the
node, connects, resets the chain, opens the log and begins it, looks at the arguments that the test
declares, and asks for the latest block if there is to be a probe. Every step is described by what
it asks and by what the answers come to. The first step that fails is the last.

* `Connecting`: the attempts to connect;
* `SetUpStep`, `SetUpStep.Made`: the steps, and what each of them does;
* `SetUpStep.Proceeds`: the steps made in order, up to the first that fails;
* `Action.Passes`: actions that make steps in order, with a rule to put them together;
* `Worker.passes_connectPatiently` and the like: the parts of the preparation;
  **`Worker.passes_setUp`**: all of it.
-/

namespace FuzzCampaign

variable {σ : Type}

/-! ## The steps -/

/-- Attempts to connect since a time, until one succeeds or fails for good: a node that is starting
explains the failure, has not exited, and there is time left. -/
inductive Connecting (url : String) (retry : Patience) (network : Network) (start : Nat) :
    List WorkerAct → Except Stop Unit → Prop
  | answered {l : List WorkerAct} : Attempted url l (.ok ()) →
    Connecting url retry network start l (.ok ())
  | failed {l : List WorkerAct} {e : CampaignError} : Attempted url l (.error e) →
    e.isTransportFault = false → Connecting url retry network start l (.error (.error e))
  | exited {l : List WorkerAct} {e : CampaignError} (status : String) : Attempted url l (.error e) →
    e.isTransportFault = true → Connecting url retry network start (l ++ [.looked (some status)])
      (.error (.error (.nodeExited network.name status)))
  | late {l : List WorkerAct} {e : CampaignError} {now : Nat} : Attempted url l (.error e) →
    e.isTransportFault = true → retry.timeout.nanoseconds ≤ now - start →
    Connecting url retry network start (l ++ [.looked none, .readClock now])
      (.error (.error (.connectionTimeout url retry.timeout.millis)))
  | again {l rest : List WorkerAct} {e : CampaignError} {now : Nat} {r : Except Stop Unit} :
    Attempted url l (.error e) → e.isTransportFault = true →
    now - start < retry.timeout.nanoseconds → Connecting url retry network start rest r →
    Connecting url retry network start
      (l ++ [.looked none, .readClock now, .slept retry.pollInterval] ++ rest) r
  /-- The rounds given were not enough. -/
  | unfinished : Connecting url retry network start [] (.error .outOfRounds)

theorem Connecting.preparing {url : String} {retry : Patience} {network : Network} {start : Nat}
    {l : List WorkerAct} {r : Except Stop Unit} (h : Connecting url retry network start l r) :
    ∀ a ∈ l, a.IsPreparing := by
  induction h with
  | answered hattempted => exact hattempted.preparing
  | failed hattempted _ => exact hattempted.preparing
  | exited status hattempted _ =>
    exact List.forall_mem_append.2 ⟨hattempted.preparing, by simp [WorkerAct.IsPreparing]⟩
  | late hattempted _ _ =>
    exact List.forall_mem_append.2 ⟨hattempted.preparing, by simp [WorkerAct.IsPreparing]⟩
  | again hattempted _ _ _ ih =>
    refine List.forall_mem_append.2 ⟨List.forall_mem_append.2 ⟨hattempted.preparing, ?_⟩, ih⟩
    simp [WorkerAct.IsPreparing]
  | unfinished => exact List.forall_mem_nil _

theorem Connecting.stop_cases {url : String} {retry : Patience} {network : Network} {start : Nat}
    {l : List WorkerAct} {stop : Stop} (h : Connecting url retry network start l (.error stop)) :
    (∃ e, stop = .error e) ∨ stop = .outOfRounds := by
  generalize hr : (.error stop : Except Stop Unit) = r at h
  induction h with
  | answered _ => cases hr
  | again _ _ _ _ ih => exact ih hr
  | unfinished => exact .inr (Except.error.inj hr)
  | _ => exact .inl ⟨_, Except.error.inj hr⟩

/-- A step before the body. -/
inductive SetUpStep
  | launch
  | connect
  | reset
  | openLog
  | beginLog
  | readArguments
  | readBlock
  deriving DecidableEq, Repr

/-- What a value comes to: nothing, or an error. -/
def endOf {α : Type} : Except CampaignError α → Except Stop Unit
  | .ok _ => .ok ()
  | .error e => .error (.error e)

/-- What a reset comes to: a network that cannot be reset is used as it is. -/
def resetEnd : Except CampaignError Unit → Except Stop Unit
  | .error (.unsupported _) => .ok ()
  | r => endOf r

theorem endOf_eq_error {α : Type} {r : Except CampaignError α} {stop : Stop}
    (h : .error stop = endOf r) : ∃ e, stop = .error e := by
  cases r with
  | ok a => cases h
  | error e => exact ⟨e, Except.error.inj h⟩

theorem resetEnd_eq_error {r : Except CampaignError Unit} {stop : Stop}
    (h : .error stop = resetEnd r) : ∃ e, stop = .error e := by
  rcases r with e | _
  · cases e with
    | unsupported _ => cases h
    | _ => exact ⟨_, Except.error.inj h⟩
  · cases h

/-- The number of the request for a block: the connection took one, and so did a reset. -/
def blockRequestId (network : Network) : UInt64 := if network.resetMethod?.isSome then 3 else 2

namespace SetUpStep

/-- What each step does, and what it comes to. -/
inductive Made (test : TestCase) (task : WorkerTask) (retry : Patience) :
    SetUpStep → List WorkerAct → Except Stop Unit → Prop
  | launched : Made test task retry .launch
    [.launched task.network task.port (.ok ()), .guarded] (.ok ())
  | notLaunched (e : CampaignError) : Made test task retry .launch
    [.launched task.network task.port (.error e)] (.error (.error e))
  | connecting {start : Nat} {l : List WorkerAct} {r : Except Stop Unit} :
    Connecting (Network.url task.port) retry task.network start l r →
    Made test task retry .connect (.readClock start :: l) r
  | notReset : task.network.resetMethod? = none → Made test task retry .reset [] (.ok ())
  | reset {method : String} (answer : Except CampaignError String) :
    task.network.resetMethod? = some method → Made test task retry .reset
      [.exchanged (requestText 2 method (.list [])) answer]
      (resetEnd (resetOutcome task.network (responseIn answer)))
  | openedLog (answer : Except CampaignError Unit) :
    Made test task retry .openLog [.openedLog task.logPath answer] (endOf answer)
  | begunLog {time : String} {l : List WorkerAct} {answer : Except CampaignError Unit} :
    Written task.tee (Worker.headerLine task time) l answer →
    Made test task retry .beginLog (.readTime time :: l) (endOf answer)
  | readArguments : Made test task retry .readArguments [] (endOf test.needsProbe)
  | readBlock (answer : Except CampaignError String) : Made test task retry .readBlock
    [.exchanged (requestText (blockRequestId task.network) "eth_blockNumber" (.list [])) answer]
    (endOf (blockIn answer))

/-- The steps before the body; the block is asked for if there is to be a probe. -/
def all (test : TestCase) (task : WorkerTask) : List SetUpStep :=
  [.launch, .connect, .reset, .openLog, .beginLog, .readArguments] ++
    if task.Covers test then [.readBlock] else []

/-- The steps were made in order, all of them or up to the first that failed. -/
inductive Proceeds (test : TestCase) (task : WorkerTask) (retry : Patience) :
    List SetUpStep → List WorkerAct → Except Stop Unit → Prop
  | done : Proceeds test task retry [] [] (.ok ())
  | broken {step : SetUpStep} {rest : List SetUpStep} {l : List WorkerAct} {stop : Stop} :
    Made test task retry step l (.error stop) →
    Proceeds test task retry (step :: rest) l (.error stop)
  | next {step : SetUpStep} {rest : List SetUpStep} {l l' : List WorkerAct}
    {r : Except Stop Unit} : Made test task retry step l (.ok ()) →
    Proceeds test task retry rest l' r → Proceeds test task retry (step :: rest) (l ++ l') r

variable {test : TestCase} {task : WorkerTask} {retry : Patience} {step : SetUpStep}
  {steps steps' : List SetUpStep} {l l' : List WorkerAct} {r : Except Stop Unit} {stop : Stop}

theorem Made.preparing (h : Made test task retry step l r) : ∀ a ∈ l, a.IsPreparing := by
  cases h with
  | connecting h => exact List.forall_mem_cons.2 ⟨⟨rfl, rfl⟩, h.preparing⟩
  | begunLog h => exact List.forall_mem_cons.2 ⟨⟨rfl, rfl⟩, h.preparing⟩
  | _ => simp [WorkerAct.IsPreparing]

theorem Proceeds.preparing (h : Proceeds test task retry steps l r) : ∀ a ∈ l, a.IsPreparing := by
  induction h with
  | done => exact List.forall_mem_nil _
  | broken hmade => exact hmade.preparing
  | next hmade _ ih => exact List.forall_mem_append.2 ⟨hmade.preparing, ih⟩

theorem Made.stop_cases {stop : Stop} (h : Made test task retry step l (.error stop)) :
    (∃ e, stop = .error e) ∨ stop = .outOfRounds := by
  generalize hr : (.error stop : Except Stop Unit) = r at h
  cases h with
  | notLaunched e => exact .inl ⟨e, Except.error.inj hr⟩
  | connecting h => exact (hr ▸ h).stop_cases
  | reset answer _ => exact .inl (resetEnd_eq_error hr)
  | openedLog answer => exact .inl (endOf_eq_error hr)
  | begunLog _ => exact .inl (endOf_eq_error hr)
  | readArguments => exact .inl (endOf_eq_error hr)
  | readBlock answer => exact .inl (endOf_eq_error hr)
  | _ => cases hr

/-- A preparation stops with an error, or because it is still connecting. -/
theorem Proceeds.stop_cases {stop : Stop} (h : Proceeds test task retry steps l (.error stop)) :
    (∃ e, stop = .error e) ∨ stop = .outOfRounds := by
  generalize hr : (.error stop : Except Stop Unit) = r at h
  induction h with
  | done => cases hr
  | broken hmade =>
    cases hr
    exact hmade.stop_cases
  | next _ _ ih => exact ih hr

namespace Proceeds

theorem single (h : Made test task retry step l r) : Proceeds test task retry [step] l r := by
  cases r with
  | error stop => exact .broken h
  | ok _ =>
    rw [← List.append_nil l]
    exact .next h .done

theorem append (h : Proceeds test task retry steps l (.ok ()))
    (h' : Proceeds test task retry steps' l' r) :
    Proceeds test task retry (steps ++ steps') (l ++ l') r := by
  generalize hok : (.ok () : Except Stop Unit) = r' at h
  induction h with
  | done => exact h'
  | broken _ => cases hok
  | next hmade _ ih =>
    rw [List.append_assoc]
    exact .next hmade (ih hok)

/-- Nothing follows a step that failed. -/
theorem append_broken (h : Proceeds test task retry steps l (.error stop))
    (steps' : List SetUpStep) : Proceeds test task retry (steps ++ steps') l (.error stop) := by
  generalize hstop : (.error stop : Except Stop Unit) = r at h
  induction h with
  | done => cases hstop
  | broken hmade =>
    cases hstop
    exact .broken hmade
  | next hmade _ ih => exact .next hmade (ih hstop)

end Proceeds

end SetUpStep

/-! ## Actions that make steps -/

namespace Action

open SetUpStep

section

variable {test : TestCase} {task : WorkerTask} {retry : Patience} {α β : Type}

/-- However it ends, an action makes these steps in order, and its values satisfy `P`. -/
def Passes (test : TestCase) (task : WorkerTask) (retry : Patience) (steps : List SetUpStep)
    (act : Action (Recorded WorkerAct σ) α) (P : α → Prop) : Prop :=
  Adds act (fun a l => Proceeds test task retry steps l (.ok ()) ∧ P a) fun stop l =>
    Proceeds test task retry steps l (.error stop)

variable {act : Action (Recorded WorkerAct σ) α} {step : SetUpStep} {steps steps' : List SetUpStep}
  {P : α → Prop}

theorem passes_pure {a : α} (h : P a) :
    Passes test task retry [] (pure a : Action (Recorded WorkerAct σ) α) P :=
  adds_pure ⟨.done, h⟩

theorem Adds.passes (h : Adds act (fun a l => Made test task retry step l (.ok ()) ∧ P a)
    fun stop l => Made test task retry step l (.error stop)) :
    Passes test task retry [step] act P :=
  h.mono (fun _ _ h => ⟨.single h.1, h.2⟩) fun _ _ => .single

theorem Passes.bind {f : α → Action (Recorded WorkerAct σ) β} {P' : β → Prop}
    (h : Passes test task retry steps act P)
    (hf : ∀ a, P a → Passes test task retry steps' (f a) P') :
    Passes test task retry (steps ++ steps') (act >>= f) P' :=
  Adds.bind h
    (fun a _ ha => (hf a ha.2).mono (fun _ _ hb => ⟨ha.1.append hb.1, hb.2⟩)
      fun _ _ => ha.1.append)
    fun _ _ h => h.append_broken steps'

end

end Action

/-! ## The parts of the preparation -/

namespace Worker

open FuzzCampaign.Action Recorded SetUpStep

theorem adds_connectRound (host : NodeHost σ) (url : String) (retry : Patience)
    (network : Network) (start : Nat) :
    Adds (connectRound host.noted url retry network start)
      (fun x l => match x with
        | some c => Connecting url retry network start l (.ok ()) ∧ c = (RpcClient.connect url).next
        | none => ∀ rest r, Connecting url retry network start rest r →
          Connecting url retry network start (l ++ rest) r)
      fun stop l => Connecting url retry network start l (.error stop) := by
  refine (adds_ask (E := fun _ _ => False) (notes_connectAttempt host url)).bind ?_
    fun _ _ => False.elim
  rintro x l ⟨hattempted, hclient⟩
  rcases x with e | c
  · change Adds (if e.isTransportFault = true then _ else _) _ _
    split_ifs with hfault
    · refine adds_noting_bind fun status? => ?_
      rcases status? with _ | status
      · refine adds_noting_bind fun now => ?_
        split_ifs with hlate
        · exact adds_throw (.late hattempted hfault hlate)
        · rw [NodeHost.noted_sleep]
          refine adds_noting_bind fun _ => ?_
          exact adds_pure fun rest r => .again hattempted hfault (Nat.lt_of_not_le hlate)
      · exact adds_throw (.exited status hattempted hfault)
    · refine adds_throw ?_
      rw [List.append_nil]
      exact .failed hattempted (eq_false_of_ne_true hfault)
  · refine adds_pure ⟨?_, hclient c rfl⟩
    rw [List.append_nil]
    exact .answered hattempted

/-- The rounds of a connection, by induction on how many there are. -/
theorem adds_connectRounds (host : NodeHost σ) (url : String) (retry : Patience)
    (network : Network) (start : Nat) (rounds : Nat) :
    Adds (Action.repeatUntil (connectRound host.noted url retry network start) rounds)
      (fun c l => Connecting url retry network start l (.ok ()) ∧
        c = (RpcClient.connect url).next)
      fun stop l => Connecting url retry network start l (.error stop) := by
  induction rounds with
  | zero => exact adds_throw .unfinished
  | succ rounds ih =>
    refine (adds_connectRound host url retry network start).bind ?_ fun _ _ => id
    rintro x l hx
    cases x with
    | some c =>
      refine adds_pure ?_
      rw [List.append_nil]
      exact hx
    | none => exact ih.mono (fun c l' h => ⟨hx l' _ h.1, h.2⟩) fun stop l' h => hx l' _ h

variable (host : WorkerHost σ) (test : TestCase) (task : WorkerTask) (retry : Patience)

theorem passes_connectPatiently (rounds : Nat) :
    Passes test task retry [.connect]
      (connectPatiently host.noted.toNodeHost (Network.url task.port) retry task.network rounds)
      fun c => c.nextId = 2 := by
  refine Adds.passes (adds_noting_bind fun start => ?_)
  refine (adds_connectRounds host.toNodeHost _ retry task.network start rounds).mono ?_ ?_
  · rintro c l ⟨h, rfl⟩
    exact ⟨.connecting h, rfl⟩
  · exact fun stop l h => .connecting h

theorem passes_resetChain {c : RpcClient} (hc : c.nextId = 2) :
    Passes test task retry [.reset] (resetChain host.noted task.network c)
      fun c' => c'.nextId = blockRequestId task.network := by
  refine Adds.passes ?_
  rcases hmethod : task.network.resetMethod? with _ | method
  · refine (adds_ask (E := fun _ _ => False) (notes_reset_none host.toNodeHost c hmethod)).bind ?_
      fun _ _ => False.elim
    rintro x l ⟨rfl, rfl⟩
    exact adds_pure ⟨.notReset hmethod, by rw [hc, blockRequestId, hmethod]; rfl⟩
  · refine (adds_ask (E := fun _ _ => False) (notes_reset_some host.toNodeHost c hmethod)).bind ?_
      fun _ _ => False.elim
    rintro x l ⟨answer, rfl, rfl⟩
    have hmade := @Made.reset test task retry method answer hmethod
    have hnext : c.next.nextId = blockRequestId task.network := by
      rw [blockRequestId, hmethod, RpcClient.next, hc]
      rfl
    rw [hc]
    dsimp only
    rcases hreset : resetOutcome task.network (responseIn answer) with e | _
    · rw [hreset] at hmade
      cases e with
      | unsupported capability => exact adds_pure ⟨hmade, hnext⟩
      | _ => exact adds_throw hmade
    · rw [hreset] at hmade
      exact adds_pure ⟨hmade, hnext⟩

theorem passes_openLog :
    Passes test task retry [.openLog] (Action.perform (host.noted.openLog task.logPath))
      fun _ => True := by
  refine Adds.passes (adds_perform (R := fun x l => l = [.openedLog task.logPath x])
    (notes_noting fun _ => rfl) ?_ ?_)
  · rintro _ l rfl
    exact ⟨.openedLog (.ok ()), trivial⟩
  · rintro e l rfl
    exact .openedLog (.error e)

theorem passes_beginLog :
    Passes test task retry [.beginLog] (do
      let time ← Action.ask host.noted.time
      Action.perform (Bench.writeLog host.noted task.tee (headerLine task time))) fun _ => True :=
  Adds.passes (adds_noting_bind fun _ => adds_perform (notes_writeLog host task.tee _)
    (fun _ _ h => ⟨.begunLog h, trivial⟩) fun _ _ h => .begunLog h)

theorem passes_readArguments :
    Passes test task retry [.readArguments]
      (Action.lift test.needsProbe : Action (Recorded WorkerAct σ) Bool)
      fun wanted => test.needsProbe = .ok wanted := by
  have hmade := @Made.readArguments test task retry
  refine Adds.passes (adds_lift (fun wanted h => ?_) fun e h => ?_)
  · rw [h] at hmade ⊢
    exact ⟨hmade, rfl⟩
  · rw [h] at hmade
    exact hmade

theorem passes_makeProbe {wanted : Bool} (hwanted : test.needsProbe = .ok wanted) {c : RpcClient}
    (hc : c.nextId = blockRequestId task.network) :
    Passes test task retry (if task.Covers test then [.readBlock] else [])
      (makeProbe host.noted task wanted c) fun _ => True := by
  have hcovers : (task.coverage && wanted) = true ↔ task.Covers test := by
    rw [TestCase.needsProbe_eq hwanted, WorkerTask.Covers, Bool.and_eq_true, List.contains_iff_mem]
  unfold makeProbe
  simp only [hcovers]
  split_ifs
  · refine Adds.passes ?_
    refine (adds_ask (E := fun _ _ => False) (notes_latestBlock host.toNodeHost c)).bind ?_
      fun _ _ => False.elim
    rintro x l ⟨answer, rfl, rfl⟩
    have hmade := @Made.readBlock test task retry answer
    rw [hc]
    dsimp only
    rcases hblock : blockIn answer with e | block
    · rw [hblock] at hmade
      exact adds_throw hmade
    · rw [hblock] at hmade
      exact adds_pure ⟨hmade, trivial⟩
  · exact passes_pure trivial

/-- **The preparation makes its steps in order**, up to the first that fails. -/
theorem passes_setUp (rounds : Nat) :
    Passes test task retry
      ([.connect, .reset, .openLog, .beginLog, .readArguments] ++
        if task.Covers test then [.readBlock] else [])
      (setUp host.noted test task retry rounds) fun _ => True := by
  refine (passes_connectPatiently host test task retry rounds).bind fun client hclient => ?_
  refine (passes_resetChain host test task retry hclient).bind fun client hclient => ?_
  refine (passes_openLog host test task retry).bind fun _ _ => ?_
  rw [← bind_assoc]
  refine (passes_beginLog host test task retry).bind fun _ _ => ?_
  refine (passes_readArguments test task retry).bind fun wanted hwanted => ?_
  rw [← List.append_nil (if task.Covers test then _ else _)]
  refine (passes_makeProbe host test task retry hwanted hclient).bind fun x _ => ?_
  exact passes_pure trivial

end Worker

end FuzzCampaign
