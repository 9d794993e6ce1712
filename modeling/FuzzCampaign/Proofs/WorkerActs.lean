import FuzzCampaign.Proofs.Mirroring
import FuzzCampaign.Proofs.Record

/-!
# All that a worker does

To say what a worker never does, its record must hold everything that it asks of its world. The body
of a test may do whatever it likes in that world, so of the body only the end is recorded.

* `WorkerAct`, `endingsIn`, `outcomesIn`: a record, the ends of the body and the outcomes in it;
* `WorkerHost.noted`, `FuzzBody.noted`, **`Worker.outcome_run_noted`**: a run with such a record;
* `Recorded.Notes`: what a question adds to the record, with a rule for each way to build one;
  `Action.Concludes`: actions that end by themselves;
* `responseIn`, `blockIn`: what the answer to a request comes to; `Recorded.notes_call` and the
  like;
* `Attempted`, `Recorded.notes_connectAttempt`; `Written`, `Recorded.notes_writeLog`.
-/

namespace FuzzCampaign

open Json

/-- What a worker asked of its world, with the answer, and how the body of its test ended. -/
inductive WorkerAct
  | launched (network : Network) (port : UInt16) (answer : Except CampaignError Unit)
  | guarded
  | opened (url : String) (answer : Except CampaignError Unit)
  | exchanged (request : String) (answer : Except CampaignError String)
  /-- It looked whether the node has exited. -/
  | looked (status? : Option String)
  | readClock (time : Nat)
  | slept (d : Duration)
  | openedLog (path : String) (answer : Except CampaignError Unit)
  | appended (text : String) (answer : Except CampaignError Unit)
  | printed (text : String) (answer : Except CampaignError Unit)
  | readTime (time : String)
  /-- The body ran, and ended so. -/
  | ran (ending : Except BodyFailure Unit)
  | said (m : Dispatch) (answer : Except CampaignError Unit)
  | heard (answer : Except CampaignError Command)
  | conversed
  | stopped

/-! ## Bodies and messages in a record -/

namespace WorkerAct

/-- The end of the body, if it ran. -/
@[simp] def ending? : WorkerAct → Option (Except BodyFailure Unit)
  | .ran ending => some ending
  | _ => none

/-- The message that was handed over, if it was one. -/
@[simp] def message? : WorkerAct → Option Dispatch
  | .said m _ => some m
  | _ => none

/-- A log line, or the sending of coverage. -/
def IsAside : WorkerAct → Prop
  | .appended .. | .printed .. | .said (.coverage _) _ => True
  | _ => False

/-- What follows the outcome: the worker says that it is done, hears the decision on a debugger,
uses the debugger and stops its node. -/
def IsClosing : WorkerAct → Prop
  | .said .finished _ | .heard _ | .conversed | .stopped => True
  | _ => False

/-- It neither runs the body nor uses the link. -/
def IsPreparing (a : WorkerAct) : Prop := a.ending? = none ∧ a.message? = none

/-- It neither runs the body nor reports an outcome. -/
def IsNeutral (a : WorkerAct) : Prop :=
  a.ending? = none ∧ a.message?.bind Dispatch.exception? = none

variable {a : WorkerAct}

theorem IsAside.neutral (h : a.IsAside) : a.IsNeutral := by
  cases a with
  | said m answer =>
    cases m with
    | coverage s => exact ⟨rfl, rfl⟩
    | _ => exact h.elim
  | appended _ _ | printed _ _ => exact ⟨rfl, rfl⟩
  | _ => exact h.elim

theorem IsClosing.neutral (h : a.IsClosing) : a.IsNeutral := by
  cases a with
  | said m answer =>
    cases m with
    | finished => exact ⟨rfl, rfl⟩
    | _ => exact h.elim
  | heard _ | conversed | stopped => exact ⟨rfl, rfl⟩
  | _ => exact h.elim

end WorkerAct

/-- How the body ended, each time that it ran. -/
def endingsIn (acts : List WorkerAct) : List (Except BodyFailure Unit) :=
  acts.filterMap WorkerAct.ending?

/-- The outcomes that were reported. -/
def outcomesIn (acts : List WorkerAct) : List (Option Envelope) :=
  exceptionsOf (acts.filterMap WorkerAct.message?)

section

variable {acts l : List WorkerAct}

@[simp] theorem endingsIn_append : endingsIn (acts ++ l) = endingsIn acts ++ endingsIn l :=
  List.filterMap_append

@[simp] theorem outcomesIn_append : outcomesIn (acts ++ l) = outcomesIn acts ++ outcomesIn l := by
  rw [outcomesIn, List.filterMap_append, exceptionsOf_append]
  rfl

theorem endingsIn_of_neutral (h : ∀ a ∈ acts, a.IsNeutral) : endingsIn acts = [] :=
  List.filterMap_eq_nil_iff.2 fun a ha => (h a ha).1

theorem outcomesIn_of_neutral (h : ∀ a ∈ acts, a.IsNeutral) : outcomesIn acts = [] := by
  rw [outcomesIn, exceptionsOf, List.filterMap_filterMap]
  exact List.filterMap_eq_nil_iff.2 fun a ha => (h a ha).2

end

/-! ## Worlds with a record of everything -/

variable {σ : Type}

/-- A node with a record of everything. -/
def NodeHost.noted (host : NodeHost σ) : NodeHost (Recorded WorkerAct σ) where
  openConnection url := Recorded.noting (.opened url) (host.openConnection url)
  exchange text := Recorded.noting (.exchanged text) (host.exchange text)
  nodeStatus := Recorded.noting .looked host.nodeStatus
  now := Recorded.noting .readClock host.now
  sleep d := Recorded.noting (fun _ => .slept d) (host.sleep d)

/-- A worker's world with a record of everything. -/
def WorkerHost.noted (host : WorkerHost σ) : WorkerHost (Recorded WorkerAct σ) where
  openConnection url := Recorded.noting (.opened url) (host.openConnection url)
  exchange text := Recorded.noting (.exchanged text) (host.exchange text)
  nodeStatus := Recorded.noting .looked host.nodeStatus
  now := Recorded.noting .readClock host.now
  sleep d := Recorded.noting (fun _ => .slept d) (host.sleep d)
  launch network port := Recorded.noting (.launched network port) (host.launch network port)
  stopNode := Recorded.noting (fun _ => .stopped) host.stopNode
  guardNode := Recorded.noting (fun _ => .guarded) host.guardNode
  openLog path := Recorded.noting (.openedLog path) (host.openLog path)
  appendLog text := Recorded.noting (.appended text) (host.appendLog text)
  printOut text := Recorded.noting (.printed text) (host.printOut text)
  time := Recorded.noting .readTime host.time
  send m := Recorded.noting (.said m) (host.send m)
  receive := Recorded.noting .heard host.receive
  converse session := Recorded.noting (fun _ => .conversed) (host.converse session)

theorem NodeHost.noted_sleep (host : NodeHost σ) (d : Duration) :
    host.noted.sleep d = Recorded.noting (fun _ => .slept d) (host.sleep d) := rfl

section

variable (host : WorkerHost σ)

theorem WorkerHost.noted_stopNode :
    host.noted.stopNode = Recorded.noting (fun _ => .stopped) host.stopNode := rfl

theorem WorkerHost.noted_guardNode :
    host.noted.guardNode = Recorded.noting (fun _ => .guarded) host.guardNode := rfl

theorem WorkerHost.noted_converse (session : List UInt8 → String × List UInt8) :
    host.noted.converse session =
      Recorded.noting (fun _ => .conversed) (host.converse session) := rfl

end

/-- A body that runs in the world behind the record; its end is recorded. -/
def FuzzBody.noted (body : FuzzBody σ) (host : WorkerHost σ) : FuzzBody (Recorded WorkerAct σ) :=
  fun _ task => ExceptT.mk fun b =>
    let (ending, b') := (body host task).run.run (b.within b.world.world)
    (ending, b'.within ⟨b'.world, b.world.deeds ++ [.ran ending]⟩)

theorem Recorded.mirrors_noting {δ α : Type} (deed : α → δ) (q : StateM σ α) :
    Mirrors Recorded.world (noting deed q) q := fun _ => rfl

/-- The record changes nothing. -/
theorem NodeHost.mirrors_noted (host : NodeHost σ) : host.noted.Mirrors Recorded.world host where
  openConnection _ := Recorded.mirrors_noting _ _
  exchange _ := Recorded.mirrors_noting _ _
  nodeStatus := Recorded.mirrors_noting _ _
  now := Recorded.mirrors_noting _ _
  sleep _ := Recorded.mirrors_noting _ _

theorem WorkerHost.mirrors_noted (host : WorkerHost σ) :
    host.noted.Mirrors Recorded.world host where
  toMirrors := host.toNodeHost.mirrors_noted
  launch _ _ := Recorded.mirrors_noting _ _
  stopNode := Recorded.mirrors_noting _ _
  guardNode := Recorded.mirrors_noting _ _
  openLog _ := Recorded.mirrors_noting _ _
  appendLog _ := Recorded.mirrors_noting _ _
  printOut _ := Recorded.mirrors_noting _ _
  time := Recorded.mirrors_noting _ _
  send _ := Recorded.mirrors_noting _ _
  receive := Recorded.mirrors_noting _ _
  converse _ := Recorded.mirrors_noting _ _

theorem FuzzBody.mirrors_noted (body : FuzzBody σ) (host : WorkerHost σ) (task : WorkerTask) :
    (body.noted host host.noted task).Mirrors Recorded.world (body host task) := fun _ => rfl

/-- **A run with a record is the run itself**, which ends the same in the same world. -/
theorem Worker.outcome_run_noted (host : WorkerHost σ) (test : TestCase) (body : FuzzBody σ)
    (task : WorkerTask) (retry : Patience) (rounds : Nat) (w : σ) :
    ∃ acts, (run host.noted test (body.noted host) task retry rounds).outcome ⟨w, []⟩ =
      (((run host test body task retry rounds).outcome w).1,
        ⟨((run host test body task retry rounds).outcome w).2, acts⟩) := by
  let noted := (run host.noted test (body.noted host) task retry rounds).outcome ⟨w, []⟩
  have hrun : (run host test body task retry rounds).outcome w = (noted.1, noted.2.world) :=
    mirrors_run host.mirrors_noted (body.mirrors_noted host task) retry rounds ⟨w, []⟩
  exact ⟨noted.2.deeds, by rw [hrun]⟩

/-! ## What a question adds -/

namespace Recorded

variable {δ α β : Type}

/-- A question adds to the record something of which `Q` holds, with the answer. -/
def Notes (q : StateM (Recorded δ σ) α) (Q : α → List δ → Prop) : Prop :=
  ∀ r, ∃ l, (q.run r).2.deeds = r.deeds ++ l ∧ Q (q.run r).1 l

variable {q : StateM (Recorded δ σ) α} {Q Q' : α → List δ → Prop}

theorem notes_pure {a : α} (h : Q a []) : Notes (pure a : StateM (Recorded δ σ) α) Q :=
  fun r => ⟨[], (List.append_nil r.deeds).symm, h⟩

theorem notes_noting {q : StateM σ α} {deed : α → δ} (h : ∀ a, Q a [deed a]) :
    Notes (noting deed q) Q :=
  fun _ => ⟨_, rfl, h _⟩

theorem Notes.bind {f : α → StateM (Recorded δ σ) β} {Q' : β → List δ → Prop} (h : Notes q Q)
    (hf : ∀ a l, Q a l → Notes (f a) fun b l' => Q' b (l ++ l')) : Notes (q >>= f) Q' := by
  intro r
  obtain ⟨l, hl, hq⟩ := h r
  obtain ⟨l', hl', hq'⟩ := hf _ l hq (q.run r).2
  refine ⟨l ++ l', ?_, hq'⟩
  rw [← List.append_assoc, ← hl]
  exact hl'

theorem notes_noting_bind {q : StateM σ α} {deed : α → δ} {f : α → StateM (Recorded δ σ) β}
    {Q' : β → List δ → Prop} (hf : ∀ a, Notes (f a) fun b l => Q' b (deed a :: l)) :
    Notes (noting deed q >>= f) Q' := by
  refine (notes_noting (Q := fun a l => l = [deed a]) fun _ => rfl).bind ?_
  rintro a l rfl
  exact hf a

end Recorded

namespace Action

variable {δ α : Type} {Q : α → List δ → Prop} {E : Stop → List δ → Prop}

theorem adds_ask {q : StateM (Recorded δ σ) α} (h : Recorded.Notes q Q) : Adds (ask q) Q E :=
  h

theorem adds_lift {r : Except CampaignError α} (hok : ∀ a, r = .ok a → Q a [])
    (herror : ∀ e, r = .error e → E (.error e) []) :
    Adds (lift r : Action (Recorded δ σ) α) Q E := by
  cases r with
  | ok a => exact adds_pure (hok a rfl)
  | error e => exact adds_throw (herror e rfl)

theorem adds_perform {q : StateM (Recorded δ σ) (Except CampaignError α)}
    {R : Except CampaignError α → List δ → Prop} (h : Recorded.Notes q R)
    (hok : ∀ a l, R (.ok a) l → Q a l) (herror : ∀ e l, R (.error e) l → E (.error e) l) :
    Adds (perform q) Q E := by
  refine (adds_ask (E := E) h).bind (fun r l hl => ?_) fun _ _ => id
  cases r with
  | ok a => exact adds_pure (by simpa using hok a l hl)
  | error e => exact adds_throw (by simpa using herror e l hl)

theorem adds_attempt {act : Action (Recorded δ σ) α} {Q : Except CampaignError α → List δ → Prop}
    (h : Adds act (fun a => Q (.ok a)) fun stop => match stop with
      | .error e => Q (.error e)
      | stop => E stop) : Adds (attempt act) Q E := by
  refine fun r => yields_attempt.2 ((h r).mono (fun _ _ => id) fun stop r' hstop => ?_)
  cases stop <;> exact hstop

/-- However it ends, an action adds deeds of which `P` holds, and only an error stops it. -/
def Concludes (act : Action (Recorded δ σ) α) (P : List δ → Prop) : Prop :=
  Adds act (fun _ => P) fun stop l => (∃ e, stop = .error e) ∧ P l

variable {act : Action (Recorded δ σ) α} {P P' : List δ → Prop}

theorem Concludes.imp (h : Concludes act P) (hP : ∀ l, P l → P' l) : Concludes act P' :=
  h.mono (fun _ => hP) fun _ l hl => ⟨hl.1, hP l hl.2⟩

theorem concludes_lift (r : Except CampaignError α) (h : P []) :
    Concludes (lift r : Action (Recorded δ σ) α) P :=
  adds_lift (fun _ _ => h) fun e _ => ⟨⟨e, rfl⟩, h⟩

theorem concludes_noting_bind {β : Type} {q : StateM σ β} {deed : β → δ}
    {f : β → Action (Recorded δ σ) α} (hf : ∀ b, Concludes (f b) fun l => P (deed b :: l)) :
    Concludes (ask (Recorded.noting deed q) >>= f) P :=
  adds_noting_bind hf

end Action

/-! ## Requests -/

/-- What the answer to a request comes to: the result in the response. -/
def responseIn : Except CampaignError String → Except CampaignError Value
  | .error e => .error e
  | .ok raw =>
    match Reader.run Reader.value raw with
    | .error e => .error (.json e)
    | .ok response => resultOf response

/-- The number of a block in the answer to the request for it. -/
def blockIn (answer : Except CampaignError String) : Except CampaignError UInt64 :=
  (responseIn answer).bind blockNumberOf

/-- The client for the next request. -/
def RpcClient.next (c : RpcClient) : RpcClient := { c with nextId := c.nextId + 1 }

namespace Recorded

variable (host : NodeHost σ) (c : RpcClient)

theorem notes_call (method : String) (params : Value) :
    Notes (c.call host.noted.exchange method params) fun x l => ∃ answer,
      x = (responseIn answer, c.next) ∧
        l = [.exchanged (requestText c.nextId method params) answer] := by
  refine notes_noting_bind fun answer => ?_
  rcases answer with e | raw
  · exact notes_pure ⟨_, rfl, rfl⟩
  · dsimp only
    rcases hread : Reader.run Reader.value raw with e | response
    · exact notes_pure ⟨.ok raw, by rw [responseIn, hread]; rfl, rfl⟩
    · exact notes_pure ⟨.ok raw, by rw [responseIn, hread]; rfl, rfl⟩

theorem notes_latestBlock :
    Notes (c.latestBlock host.noted.exchange) fun x l => ∃ answer,
      x = (blockIn answer, c.next) ∧
        l = [.exchanged (requestText c.nextId "eth_blockNumber" (.list [])) answer] := by
  refine (notes_call host c _ _).bind ?_
  rintro x l ⟨answer, rfl, rfl⟩
  exact notes_pure ⟨answer, rfl, rfl⟩

theorem notes_reset_none {network : Network} (h : network.resetMethod? = none) :
    Notes (c.reset host.noted.exchange network) fun x l =>
      x = (.error (resetUnsupported network), c) ∧ l = [] := by
  unfold RpcClient.reset
  rw [h]
  exact notes_pure ⟨rfl, rfl⟩

theorem notes_reset_some {network : Network} {method : String}
    (h : network.resetMethod? = some method) :
    Notes (c.reset host.noted.exchange network) fun x l => ∃ answer,
      x = (resetOutcome network (responseIn answer), c.next) ∧
        l = [.exchanged (requestText c.nextId method (.list [])) answer] := by
  unfold RpcClient.reset
  rw [h]
  refine (notes_call host c _ _).bind ?_
  rintro x l ⟨answer, rfl, rfl⟩
  exact notes_pure ⟨answer, rfl, rfl⟩

end Recorded

/-! ## Connections and log lines -/

/-- One attempt to connect: a connection, and if there is one the request for the latest block. -/
inductive Attempted (url : String) : List WorkerAct → Except CampaignError Unit → Prop
  | refused (e : CampaignError) : Attempted url [.opened url (.error e)] (.error e)
  | asked (answer : Except CampaignError String) :
    Attempted url [.opened url (.ok ()),
      .exchanged (requestText 1 "eth_blockNumber" (.list [])) answer]
      ((blockIn answer).map fun _ => ())

/-- A text was appended to the log, and printed as well if the output goes to the terminal. -/
inductive Written (tee : Bool) (text : String) : List WorkerAct → Except CampaignError Unit → Prop
  | refused (e : CampaignError) : Written tee text [.appended text (.error e)] (.error e)
  | appended (h : tee = false) : Written tee text [.appended text (.ok ())] (.ok ())
  | printed (h : tee = true) (answer : Except CampaignError Unit) :
    Written tee text [.appended text (.ok ()), .printed text answer] answer

theorem Attempted.preparing {url : String} {l : List WorkerAct} {x : Except CampaignError Unit}
    (h : Attempted url l x) : ∀ a ∈ l, a.IsPreparing := by
  cases h <;> simp [WorkerAct.IsPreparing]

theorem Written.preparing {tee : Bool} {text : String} {l : List WorkerAct}
    {x : Except CampaignError Unit} (h : Written tee text l x) : ∀ a ∈ l, a.IsPreparing := by
  cases h <;> simp [WorkerAct.IsPreparing]

theorem Written.asides {tee : Bool} {text : String} {l : List WorkerAct}
    {x : Except CampaignError Unit} (h : Written tee text l x) : ∀ a ∈ l, a.IsAside := by
  cases h <;> simp [WorkerAct.IsAside]

namespace Recorded

theorem notes_connectAttempt (host : NodeHost σ) (url : String) :
    Notes (connectAttempt host.noted url) fun x l =>
      Attempted url l (x.map fun _ => ()) ∧ ∀ c, x = .ok c → c = (RpcClient.connect url).next := by
  refine notes_noting_bind fun r => ?_
  rcases r with e | _
  · exact notes_pure ⟨.refused e, nofun⟩
  · refine (notes_latestBlock host _).bind ?_
    rintro x l ⟨answer, rfl, rfl⟩
    have hasked := @Attempted.asked url answer
    rcases hblock : blockIn answer with e | block
    · rw [hblock] at hasked
      exact notes_pure ⟨hasked, nofun⟩
    · rw [hblock] at hasked
      exact notes_pure ⟨hasked, fun c hc => (Except.ok.inj hc).symm⟩

theorem notes_writeLog (host : WorkerHost σ) (tee : Bool) (text : String) :
    Notes (Bench.writeLog host.noted tee text) fun x l => Written tee text l x := by
  refine notes_noting_bind fun r => ?_
  rcases r with e | _
  · exact notes_pure (.refused e)
  · cases tee with
    | true => exact notes_noting fun answer => .printed rfl answer
    | false => exact notes_pure (.appended rfl)

end Recorded

end FuzzCampaign
