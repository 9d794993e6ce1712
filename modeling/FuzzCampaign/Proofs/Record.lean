import FuzzCampaign.Proofs.Conversation

/-!
# Worlds that keep a record

To say what was asked of a world in which order, the world is given a record to which some of its
answers are added. A worker's record holds what happened to its node and on its link, and that of an
orchestrator what it did with its workers, each with the answer.

* `Recorded`, `Recorded.aside`, `Recorded.noting`;
* `Recorded.Quiet`: questions that leave no trace; `Action.Quiet`: actions that leave none;
* `Action.yields_noting_bind`, `yields_perform_noting_bind`: questions that are recorded;
* `Action.Adds`: what an action adds to the record;
* `WorkerDeed`, `WorkerHost.recorded`; `CampaignDeed`, `CampaignHost.recorded`.
-/

namespace FuzzCampaign

/-- A world and the record of what was done in it. -/
structure Recorded (δ σ : Type) where
  world : σ
  deeds : List δ

namespace Recorded

variable {δ σ α β : Type}

/-- Ask the world, and leave the record as it is. -/
def aside (q : StateM σ α) : StateM (Recorded δ σ) α := fun r =>
  let (a, world) := q r.world
  (a, { r with world })

/-- Ask the world, and record what was done. -/
def noting (deed : α → δ) (q : StateM σ α) : StateM (Recorded δ σ) α := fun r =>
  let (a, world) := q r.world
  (a, ⟨world, r.deeds ++ [deed a]⟩)

theorem run_noting (deed : α → δ) (q : StateM σ α) (r : Recorded δ σ) :
    (noting deed q).run r =
      ((q.run r.world).1, ⟨(q.run r.world).2, r.deeds ++ [deed (q.run r.world).1]⟩) :=
  rfl

/-- A question that leaves the record as it is. -/
def Quiet (q : StateM (Recorded δ σ) α) : Prop := ∀ r, (q.run r).2.deeds = r.deeds

theorem quiet_pure (a : α) : Quiet (pure a : StateM (Recorded δ σ) α) := fun _ => rfl

theorem quiet_aside (q : StateM σ α) : Quiet (aside q : StateM (Recorded δ σ) α) := fun _ => rfl

theorem quiet_bind {q : StateM (Recorded δ σ) α} {f : α → StateM (Recorded δ σ) β} (h : Quiet q)
    (hf : ∀ a, Quiet (f a)) : Quiet (q >>= f) :=
  fun r => (hf _ _).trans (h r)

end Recorded

/-! ## Actions that leave no trace -/

namespace Action

variable {δ σ α β : Type}

/-- However it ends, an action leaves the record as it is, and it does not abort. -/
def Quiet (act : Action (Recorded δ σ) α) : Prop :=
  ∀ r, Yields act r (fun _ r' => r'.deeds = r.deeds) fun stop r' =>
    r'.deeds = r.deeds ∧ ∀ message, stop ≠ .abort message

variable {act : Action (Recorded δ σ) α}

theorem quiet_pure (a : α) : Quiet (pure a : Action (Recorded δ σ) α) := fun _ => rfl

theorem quiet_error (e : CampaignError) : Quiet (throw (.error e) : Action (Recorded δ σ) α) :=
  fun _ => ⟨rfl, nofun⟩

theorem quiet_ask {q : StateM (Recorded δ σ) α} (h : Recorded.Quiet q) : Quiet (ask q) := h

theorem quiet_bind {f : α → Action (Recorded δ σ) β} (h : Quiet act) (hf : ∀ a, Quiet (f a)) :
    Quiet (act >>= f) := by
  intro r
  refine yields_bind.2 ((h r).imp fun a r' hr => ?_)
  rw [← hr]
  exact hf a r'

theorem quiet_lift (r : Except CampaignError α) : Quiet (lift r : Action (Recorded δ σ) α) := by
  cases r with
  | ok a => exact quiet_pure a
  | error e => exact quiet_error e

theorem quiet_perform {q : StateM (Recorded δ σ) (Except CampaignError α)}
    (h : Recorded.Quiet q) : Quiet (perform q) := by
  refine quiet_bind (quiet_ask h) fun r => ?_
  cases r with
  | ok a => exact quiet_pure a
  | error e => exact quiet_error e

theorem quiet_repeatUntil {body : Action (Recorded δ σ) (Option α)} (h : Quiet body)
    (rounds : Nat) : Quiet (repeatUntil body rounds) := by
  induction rounds with
  | zero => exact fun r => ⟨rfl, nofun⟩
  | succ rounds ih =>
    refine quiet_bind h fun r => ?_
    cases r with
    | some a => exact quiet_pure a
    | none => exact ih

end Action

/-! ## Questions that are recorded -/

namespace Action

section

variable {δ σ α β : Type} {r : Recorded δ σ} {Q : β → Recorded δ σ → Prop}
  {E : Stop → Recorded δ σ → Prop}

theorem yields_noting_bind {q : StateM σ α} {deed : α → δ} {f : α → Action (Recorded δ σ) β}
    (h : ∀ a w, Yields (f a) ⟨w, r.deeds ++ [deed a]⟩ Q E) :
    Yields (ask (Recorded.noting deed q) >>= f) r Q E :=
  yields_bind.2 (h _ _)

theorem yields_perform_noting_bind {q : StateM σ (Except CampaignError α)}
    {deed : Except CampaignError α → δ} {f : α → Action (Recorded δ σ) β}
    (hf : ∀ a w, Yields (f a) ⟨w, r.deeds ++ [deed (.ok a)]⟩ Q E)
    (he : ∀ e w, E (.error e) ⟨w, r.deeds ++ [deed (.error e)]⟩) :
    Yields (perform (Recorded.noting deed q) >>= f) r Q E := by
  rw [perform, bind_assoc]
  refine yields_noting_bind fun answer w => ?_
  cases answer with
  | error e => exact he e w
  | ok a => exact hf a w

end

/-! ## What an action adds to the record -/

section

variable {δ σ α β : Type}

/-- However it ends, an action adds deeds of which `Q` holds, or `E` if it stops. -/
def Adds (act : Action (Recorded δ σ) α) (Q : α → List δ → Prop) (E : Stop → List δ → Prop) :
    Prop :=
  ∀ r, Yields act r (fun a r' => ∃ l, r'.deeds = r.deeds ++ l ∧ Q a l)
    fun stop r' => ∃ l, r'.deeds = r.deeds ++ l ∧ E stop l

variable {act : Action (Recorded δ σ) α} {Q Q' : α → List δ → Prop} {E E' : Stop → List δ → Prop}

theorem adds_pure {a : α} (h : Q a []) : Adds (pure a : Action (Recorded δ σ) α) Q E :=
  fun r => ⟨[], (List.append_nil r.deeds).symm, h⟩

theorem adds_throw {stop : Stop} (h : E stop []) :
    Adds (throw stop : Action (Recorded δ σ) α) Q E :=
  fun r => ⟨[], (List.append_nil r.deeds).symm, h⟩

theorem adds_aside {q : StateM σ α} (h : ∀ a, Q a []) :
    Adds (ask (Recorded.aside q) : Action (Recorded δ σ) α) Q E :=
  fun r => ⟨[], (List.append_nil r.deeds).symm, h _⟩

theorem adds_noting {q : StateM σ α} {deed : α → δ} (h : ∀ a, Q a [deed a]) :
    Adds (ask (Recorded.noting deed q)) Q E :=
  fun _ => ⟨_, rfl, h _⟩

theorem Adds.mono (h : Adds act Q E) (hQ : ∀ a l, Q a l → Q' a l)
    (hE : ∀ stop l, E stop l → E' stop l) : Adds act Q' E' :=
  fun r => (h r).mono (fun _ _ ⟨l, hl, h⟩ => ⟨l, hl, hQ _ _ h⟩)
    fun _ _ ⟨l, hl, h⟩ => ⟨l, hl, hE _ _ h⟩

theorem Adds.imp (h : Adds act Q E) (hQ : ∀ a l, Q a l → Q' a l) : Adds act Q' E :=
  h.mono hQ fun _ _ => id

theorem Adds.bind {f : α → Action (Recorded δ σ) β} {Q' : β → List δ → Prop} (h : Adds act Q E)
    (hf : ∀ a l, Q a l → Adds (f a) (fun b l' => Q' b (l ++ l')) fun stop l' => E' stop (l ++ l'))
    (hE : ∀ stop l, E stop l → E' stop l) : Adds (act >>= f) Q' E' := by
  intro r
  rw [yields_bind]
  refine (h r).mono ?_ ?_
  · rintro a r' ⟨l, hl, hq⟩
    refine (hf a l hq r').mono ?_ ?_
    · rintro b r'' ⟨l', hl', hq'⟩
      exact ⟨l ++ l', by rw [hl', hl, List.append_assoc], hq'⟩
    · rintro stop r'' ⟨l', hl', he⟩
      exact ⟨l ++ l', by rw [hl', hl, List.append_assoc], he⟩
  · rintro stop r' ⟨l, hl, he⟩
    exact ⟨l, hl, hE _ _ he⟩

theorem adds_noting_bind {q : StateM σ α} {deed : α → δ} {f : α → Action (Recorded δ σ) β}
    {Q' : β → List δ → Prop}
    (hf : ∀ a, Adds (f a) (fun b l => Q' b (deed a :: l)) fun stop l => E stop (deed a :: l)) :
    Adds (ask (Recorded.noting deed q) >>= f) Q' E := by
  refine (adds_noting (Q := fun a l => l = [deed a]) (E := E) fun _ => rfl).bind ?_ fun _ _ => id
  rintro a l rfl
  exact hf a

theorem adds_aside_bind {q : StateM σ α} {f : α → Action (Recorded δ σ) β}
    {Q' : β → List δ → Prop} (hf : ∀ a, Adds (f a) Q' E) :
    Adds (ask (Recorded.aside q) >>= f) Q' E := by
  refine (adds_aside (Q := fun _ l => l = []) (E := E) fun _ => rfl).bind ?_ fun _ _ => id
  rintro a l rfl
  exact hf a

theorem adds_perform_bind {q : StateM σ (Except CampaignError α)}
    {deed : Except CampaignError α → δ}
    {f : α → Action (Recorded δ σ) β} {Q' : β → List δ → Prop}
    (hf : ∀ a, Adds (f a) (fun b l => Q' b (deed (.ok a) :: l))
      fun stop l => E stop (deed (.ok a) :: l))
    (he : ∀ e, E (.error e) [deed (.error e)]) :
    Adds (perform (Recorded.noting deed q) >>= f) Q' E := by
  rw [perform, bind_assoc]
  refine adds_noting_bind fun r => ?_
  rcases r with e | a
  · exact adds_throw (he e)
  · rw [pure_bind]
    exact hf a

end

end Action

/-! ## Workers -/

/-- What happens to a worker's node and on its link, with the answer. -/
inductive WorkerDeed
  | launched (answer : Except CampaignError Unit)
  | stopped
  | said (m : Dispatch) (answer : Except CampaignError Unit)
  | heard (answer : Except CampaignError Command)

/-- A worker's world with a record. -/
def WorkerHost.recorded {σ : Type} (host : WorkerHost σ) :
    WorkerHost (Recorded WorkerDeed σ) where
  openConnection url := Recorded.aside (host.openConnection url)
  exchange text := Recorded.aside (host.exchange text)
  nodeStatus := Recorded.aside host.nodeStatus
  now := Recorded.aside host.now
  sleep d := Recorded.aside (host.sleep d)
  launch network port := Recorded.noting .launched (host.launch network port)
  stopNode := Recorded.noting (fun _ => .stopped) host.stopNode
  guardNode := Recorded.aside host.guardNode
  openLog path := Recorded.aside (host.openLog path)
  appendLog text := Recorded.aside (host.appendLog text)
  printOut text := Recorded.aside (host.printOut text)
  time := Recorded.aside host.time
  send m := Recorded.noting (.said m) (host.send m)
  receive := Recorded.noting .heard host.receive
  converse session := Recorded.aside (host.converse session)

/-! ## Campaigns -/

/-- What the orchestrator does with its workers and the clock, with the answer. -/
inductive CampaignDeed
  | started (task : WorkerTask) (answer : Except CampaignError Unit)
  /-- It looked whether the worker has exited. -/
  | looked (index : UInt64) (answer : Except CampaignError (Option String))
  | killed (index : UInt64)
  | commanded (index : UInt64) (c : Command) (answer : Except CampaignError Unit)
  /-- It looked for a completion, or waited for one. -/
  | polled (index : UInt64) (answer : Poll Unit)
  /-- It looked for the outcome of the test. -/
  | informed (index : UInt64) (answer : Poll (Option Envelope))
  | gathered (index : UInt64) (snapshots : List Snapshot)
  | asked (index : UInt64) (e : Envelope) (reply : PromptReply)
  | readClock (time : Nat)
  | slept (d : Duration)

/-- A campaign's world with a record. A question to the user looks at the worker in the world
itself, and is recorded as one deed. -/
def CampaignHost.recorded {σ : Type} (host : CampaignHost σ) :
    CampaignHost (Recorded CampaignDeed σ) where
  colours := host.colours
  isDirectory path := Recorded.aside (host.isDirectory path)
  freshSeed := Recorded.aside host.freshSeed
  printLine text := Recorded.aside (host.printLine text)
  showStatus text := Recorded.aside (host.showStatus text)
  store dir files := Recorded.aside (host.store dir files)
  spawn task := Recorded.noting (.started task) (host.spawn task)
  status i := Recorded.noting (.looked i) (host.status i)
  kill i := Recorded.noting (fun _ => .killed i) (host.kill i)
  send i c := Recorded.noting (.commanded i c) (host.send i c)
  completion i := Recorded.noting (.polled i) (host.completion i)
  awaitFinished i d := Recorded.noting (.polled i) (host.awaitFinished i d)
  exception i := Recorded.noting (.informed i) (host.exception i)
  snapshots i := Recorded.noting (.gathered i) (host.snapshots i)
  decide i e _ := Recorded.noting (.asked i e) (host.decide i e (host.stillRuns i))
  now := Recorded.noting .readClock host.now
  sleep d := Recorded.noting (fun _ => .slept d) (host.sleep d)

theorem CampaignHost.recorded_kill {σ : Type} (host : CampaignHost σ) (i : UInt64) :
    host.recorded.kill i = Recorded.noting (fun _ => .killed i) (host.kill i) := rfl

theorem CampaignHost.recorded_sleep {σ : Type} (host : CampaignHost σ) (d : Duration) :
    host.recorded.sleep d = Recorded.noting (fun _ => .slept d) (host.sleep d) := rfl

end FuzzCampaign
