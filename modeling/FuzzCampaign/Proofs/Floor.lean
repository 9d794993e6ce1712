import FuzzCampaign.Proofs.Conversation
import Mathlib.Logic.Function.Basic

/-!
# Workers beside a campaign, in any order of steps

On a floor every worker goes on with its conversation by itself. A message that a worker hands to
its link is on the wire until the link carries it to the queues of the orchestrator, in the order of
sending; no message is lost. Before the orchestrator gets an answer from its world, any workers may
have made any steps: which ones is for the surroundings to say, as is everything else, so a
statement about all surroundings is one about all schedules, users, clocks and exits.

* `LinkEvent`: what happens between a worker and the orchestrator;
* `Station`: a worker, its link, and what has happened there; `Station.work`, `Station.carry`: the
  steps that it makes by itself;
* `Surroundings`, `Floor`, `Floor.turn`, **`Floor.keeps_turn`**;
* `Floor.host`: the world of a campaign that has its workers on the floor.
-/

namespace FuzzCampaign

/-! ## Stations -/

/-- What happens between a worker and the orchestrator. -/
inductive LinkEvent
  /-- The worker handed a message to its link. -/
  | said (m : Dispatch)
  /-- The worker received a command. -/
  | heard (c : Command)
  /-- The orchestrator took a completion. -/
  | signalled
  /-- The orchestrator took the outcome of the test. -/
  | informed (report : Option Envelope)
  /-- The orchestrator took all coverage that was queued. -/
  | gathered (snapshots : List Snapshot)
  /-- The orchestrator sent a command. -/
  | commanded (c : Command)
  deriving DecidableEq

/-- A worker on the floor: what it still does, the messages on the wire, its link, and what has
happened between it and the orchestrator. -/
structure Station where
  talk : Conversation
  wire : List Dispatch
  link : Channel
  diary : List LinkEvent

namespace Station

/-- A worker that begins. -/
def start (talk : Conversation) : Station := ⟨talk, [], .fresh, []⟩

/-- Add to what has happened. -/
def note (st : Station) (e : LinkEvent) : Station := { st with diary := st.diary ++ [e] }

/-- The worker goes on, unless it waits for a command that has not come. -/
def work (st : Station) : Station :=
  match st.talk with
  | .ended _ => st
  | .saying m next => { st with talk := next (.ok ()), wire := st.wire ++ [m] }.note (.said m)
  | .hearing next =>
    match st.link.receive with
    | (.got c, link) => { st with talk := next (.ok c), link }.note (.heard c)
    | _ => st
  | .debugging _ next => { st with talk := next }

/-- The link carries the oldest message on the wire to its queue. -/
def carry (st : Station) : Station :=
  match st.wire with
  | [] => st
  | m :: wire =>
    match st.link.enqueue m with
    | .ok link => { st with wire, link }
    | .error _ => { st with wire }

/-- The orchestrator takes a completion. -/
def takeCompletion (st : Station) : Station :=
  { st with link := st.link.completion.2 }.note .signalled

/-- The orchestrator takes an outcome. -/
def takeException (st : Station) (report : Option Envelope) : Station :=
  { st with link := st.link.exception.2 }.note (.informed report)

/-- The orchestrator takes all coverage that is queued. -/
def takeSnapshots (st : Station) : Station :=
  { st with link := { st.link with snapshots := [] } }.note (.gathered st.link.snapshots)

/-- The orchestrator sends a command. -/
def command (st : Station) (c : Command) : Station :=
  match st.link.down c with
  | .ok link => { st with link }.note (.commanded c)
  | .error _ => st

end Station

/-! ## The floor -/

/-- A step that needs no orchestrator. -/
inductive Move
  /-- A worker goes on. -/
  | work (index : UInt64)
  /-- The link of a worker carries a message. -/
  | carry (index : UInt64)
  deriving DecidableEq, Repr

/-- Everything around the floor: which steps are made before the next answer, and what else a world
answers. Its answers on the queues of links only say whether an empty queue counts as closed. -/
structure Surroundings (ρ : Type) where
  moves : StateM ρ (List Move)
  host : CampaignHost ρ

/-- Nothing keeps the orchestrator from writing files. -/
def Surroundings.Writes {ρ : Type} (env : Surroundings ρ) : Prop :=
  ∀ dir files s, ((env.host.store dir files).run s).1 = .ok ()

/-- Surroundings with a schedule, and always the same answers: a process that is looked at has
exited, the clock stands still, and whoever is asked says `reply`. -/
def Surroundings.scheduled (reply : PromptReply) : Surroundings (List (List Move)) where
  moves := modifyGet fun
    | [] => ([], [])
    | moves :: rest => (moves, rest)
  host := {
    colours := false
    isDirectory := fun _ => return true
    freshSeed := return default
    printLine := fun _ => return ()
    showStatus := fun _ => return ()
    store := fun _ _ => return .ok ()
    spawn := fun _ => return .ok ()
    status := fun _ => return .ok (some "exit status: 0")
    kill := fun _ => return ()
    send := fun _ _ => return .ok ()
    completion := fun _ => return .empty
    awaitFinished := fun _ _ => return .empty
    exception := fun _ => return .empty
    snapshots := fun _ => return []
    decide := fun _ _ _ => return reply
    now := return 0
    sleep := fun _ => return () }

/-- The workers, the files on disk, and the state of the surroundings. -/
structure Floor (ρ : Type) where
  stations : UInt64 → Option Station
  disk : String → Option String
  rest : ρ

namespace Floor

variable {ρ α : Type}

/-- A floor without workers and files. -/
def vacant (rest : ρ) : Floor ρ := ⟨fun _ => none, fun _ => none, rest⟩

/-- Change the worker of an index, if there is one. -/
def adjust (f : Floor ρ) (index : UInt64) (g : Station → Station) : Floor ρ :=
  { f with stations := Function.update f.stations index ((f.stations index).map g) }

/-- A step that needs no orchestrator. -/
def step (f : Floor ρ) : Move → Floor ρ
  | .work index => f.adjust index Station.work
  | .carry index => f.adjust index Station.carry

/-- A disk after files are written into a directory. -/
def filed (dir : String) (files : List (String × String)) (disk : String → Option String) :
    String → Option String :=
  files.foldl (fun d e => Function.update d (Path.join dir e.1) (some e.2)) disk

/-- Write files into a directory. -/
def write (f : Floor ρ) (dir : String) (files : List (String × String)) : Floor ρ :=
  { f with disk := filed dir files f.disk }

variable (crew : WorkerTask → Conversation) (env : Surroundings ρ)

/-- The steps before the next answer. -/
def turn : StateM (Floor ρ) Unit := fun f =>
  let (moves, rest) := env.moves f.rest
  ((), moves.foldl step { f with rest })

/-- Ask the surroundings. -/
def aside (q : StateM ρ α) : StateM (Floor ρ) α := do
  turn env
  fun f =>
    let (a, rest) := q f.rest
    (a, { f with rest })

section

variable {P : Floor ρ → Prop} (hstep : ∀ f m, P f → P (f.step m))
  (hrest : ∀ (f : Floor ρ) rest, P f → P { f with rest })
include hstep hrest

/-- **What every step keeps, the steps before an answer keep.** -/
theorem keeps_turn {f : Floor ρ} (h : P f) : P ((turn env).run f).2 := by
  have hsteps : ∀ (moves : List Move) (f : Floor ρ), P f → P (moves.foldl step f) := by
    intro moves
    induction moves with
    | nil => exact fun _ h => h
    | cons m moves ih => exact fun f h => ih (f.step m) (hstep f m h)
  exact hsteps _ _ (hrest f _ h)

theorem keeps_aside (q : StateM ρ α) {f : Floor ρ} (h : P f) : P ((aside env q).run f).2 :=
  hrest _ _ (keeps_turn env hstep hrest h)

end

/-- Ask the surroundings for something that may fail; if it does not, the floor changes. -/
def onSuccess (q : StateM ρ (Except CampaignError Unit)) (g : Floor ρ → Floor ρ) :
    StateM (Floor ρ) (Except CampaignError Unit) := do
  match ← aside env q with
  | .error e => return .error e
  | .ok () =>
    modify g
    return .ok ()

theorem onSuccess_cases {q : StateM ρ (Except CampaignError Unit)} {g : Floor ρ → Floor ρ}
    {f f' : Floor ρ} {r : Except CampaignError Unit} (h : (onSuccess env q g).run f = (r, f')) :
    (∃ e, r = .error e ∧ (aside env q).run f = (.error e, f')) ∨
      (r = .ok () ∧ ∃ f'', (aside env q).run f = (.ok (), f'') ∧ f' = g f'') := by
  unfold onSuccess at h
  rw [StateT.run_bind] at h
  rcases hq : (aside env q).run f with ⟨e | _, f''⟩
  · rw [hq] at h
    cases h
    exact .inl ⟨e, rfl, rfl⟩
  · rw [hq] at h
    cases h
    exact .inr ⟨rfl, f'', rfl, rfl⟩

/-- What is said of a queue in which nothing was found. -/
def idle {β : Type} : Poll α → Poll β
  | .disconnected => .disconnected
  | _ => .empty

/-- Look into a queue of a worker's link; `take` says what becomes of the worker if something is
found, and the surroundings say whether a queue in which nothing is found counts as closed. -/
def look (index : UInt64) (peek : Channel → Poll α) (take : α → Station → Station)
    (q : StateM ρ (Poll α)) : StateM (Floor ρ) (Poll α) := do
  let otherwise ← aside env q
  fun f =>
    match (f.stations index).map fun st => peek st.link with
    | some (.got a) => (.got a, f.adjust index (take a))
    | _ => (idle otherwise, f)

theorem run_look (index : UInt64) (peek : Channel → Poll α) (take : α → Station → Station)
    (q : StateM ρ (Poll α)) (f : Floor ρ) : (look env index peek take q).run f =
      match (((aside env q).run f).2.stations index).map fun st => peek st.link with
      | some (.got a) => (.got a, ((aside env q).run f).2.adjust index (take a))
      | _ => (idle ((aside env q).run f).1, ((aside env q).run f).2) :=
  rfl

theorem idle_ne_got {β : Type} (p : Poll α) (b : β) : idle p ≠ .got b := by
  cases p <;> simp [idle]

theorem look_cases {index : UInt64} {peek : Channel → Poll α} {take : α → Station → Station}
    {q : StateM ρ (Poll α)} {f f' : Floor ρ} {r : Poll α}
    (h : (look env index peek take q).run f = (r, f')) :
    (∃ a st, ((aside env q).run f).2.stations index = some st ∧ peek st.link = .got a ∧
      r = .got a ∧ f' = ((aside env q).run f).2.adjust index (take a)) ∨
    (r = idle ((aside env q).run f).1 ∧ f' = ((aside env q).run f).2 ∧
      ∀ st, f'.stations index = some st → ∀ a, peek st.link ≠ .got a) := by
  rw [run_look] at h
  rcases hst : ((aside env q).run f).2.stations index with _ | st
  · rw [hst] at h
    cases h
    exact .inr ⟨rfl, rfl, fun st hst' => by rw [hst] at hst'; cases hst'⟩
  · rw [hst, Option.map_some] at h
    rcases hpeek : peek st.link with a | _ | _
    · rw [hpeek] at h
      cases h
      exact .inl ⟨a, st, rfl, hpeek, rfl, rfl⟩
    all_goals
      rw [hpeek] at h
      cases h
      refine .inr ⟨rfl, rfl, fun st' hst' => ?_⟩
      rw [hst] at hst'
      cases hst'
      simp [hpeek]

/-- Take all coverage that is queued. -/
def takeSnapshots (index : UInt64) (q : StateM ρ (List Snapshot)) :
    StateM (Floor ρ) (List Snapshot) := do
  let _ ← aside env q
  fun f =>
    ((f.stations index).elim [] fun st => st.link.snapshots, f.adjust index Station.takeSnapshots)

/-- The world of a campaign that has its workers on the floor. -/
def host : CampaignHost (Floor ρ) where
  colours := env.host.colours
  isDirectory path := aside env (env.host.isDirectory path)
  freshSeed := aside env env.host.freshSeed
  printLine text := aside env (env.host.printLine text)
  showStatus text := aside env (env.host.showStatus text)
  store dir files := onSuccess env (env.host.store dir files) fun f => f.write dir files
  spawn task := onSuccess env (env.host.spawn task) fun f => { f with
    stations := Function.update f.stations task.index (some (.start (crew task))) }
  status index := aside env (env.host.status index)
  kill index := aside env (env.host.kill index)
  send index c :=
    onSuccess env (env.host.send index c) fun f => f.adjust index fun st => st.command c
  completion index :=
    look env index (·.completion.1) (fun _ => Station.takeCompletion) (env.host.completion index)
  awaitFinished index d :=
    look env index (·.completion.1) (fun _ => Station.takeCompletion)
      (env.host.awaitFinished index d)
  exception index :=
    look env index (·.exception.1) (fun r st => st.takeException r) (env.host.exception index)
  snapshots index := takeSnapshots env index (env.host.snapshots index)
  decide index e _ := aside env (env.host.decide index e (env.host.stillRuns index))
  now := aside env env.host.now
  sleep d := aside env (env.host.sleep d)

end Floor

end FuzzCampaign
