import FuzzCampaign.Proofs.Delivery
import Mathlib.Tactic.SplitIfs

/-!
# The orchestrator and its workers, stage by stage

The orchestrator takes every worker through the same stages, whatever happens at the other stations
meanwhile. A conduct says what holds of a station at each stage, and that every step keeps it; what
the orchestrator does with a worker then takes it from stage to stage.

* `Stage`, `Conduct`;
* `Row`, `Register`, `Floor.Agrees`: the stage and the latest coverage of every worker;
* `Floor.Agrees.turn` and the lemmas on the questions to the floor;
* **`Campaign.gives_conclude`**: a worker that is done is settled.
-/

namespace FuzzCampaign

/-- How far the orchestrator has come with a worker. -/
inductive Stage
  | watched
  /-- It took the first completion. -/
  | signalled
  /-- It took the report of a failure. -/
  | informed (e : Envelope)
  /-- It sent the decision. -/
  | decided (e : Envelope) (attach : Bool)
  /-- It took the last completion. -/
  | settled (v : Verdict)
  /-- It took the last coverage. -/
  | closed (v : Verdict)

/-- What holds of the stations of a crew at each stage, if the decisions are among `answers`. -/
structure Conduct (crew : WorkerTask → Conversation)
    (answers : UInt64 → Envelope → Bool → Prop) where
  holds : WorkerTask → Stage → Station → Prop
  start : ∀ task, holds task .watched (.start (crew task))
  work : ∀ {task stage st}, holds task stage st → holds task stage st.work
  carry : ∀ {task stage st}, holds task stage st → holds task stage st.carry
  gather : ∀ {task st}, holds task .watched st → holds task .watched st.takeSnapshots
  signal : ∀ {task st}, holds task .watched st → st.link.completion.1 = .got () →
    holds task .signalled st.takeCompletion
  pass : ∀ {task st}, holds task .signalled st → st.link.exception.1 = .got none →
    holds task (.settled .passed) (st.takeException none)
  fail : ∀ {task st e}, holds task .signalled st → st.link.exception.1 = .got (some e) →
    holds task (.informed e) (st.takeException (some e))
  decide : ∀ {task st e attach}, answers task.index e attach → holds task (.informed e) st →
    holds task (.decided e attach) (st.command (.decision attach))
  settle : ∀ {task st e attach}, holds task (.decided e attach) st →
    st.link.completion.1 = .got () → holds task (.settled (.failed e attach)) st.takeCompletion
  close : ∀ {task st v}, holds task (.settled v) st → holds task (.closed v) st.takeSnapshots

/-- What the orchestrator knows of a worker. -/
structure Row where
  task : WorkerTask
  stage : Stage
  last? : Option Snapshot

/-- What the orchestrator knows of every worker. -/
abbrev Register : Type := UInt64 → Option Row

variable {crew : WorkerTask → Conversation} {answers : UInt64 → Envelope → Bool → Prop}
  (k : Conduct crew answers) {ρ : Type} {env : Surroundings ρ}

/-- What the orchestrator knows of a worker is so at its station. -/
def Row.Fits (row : Row) (st : Station) : Prop :=
  k.holds row.task row.stage st ∧ row.last? = (gatheredIn st.diary).getLast?

namespace Station

theorem gatheredIn_command (st : Station) (c : Command) :
    gatheredIn (st.command c).diary = gatheredIn st.diary := by
  unfold command
  rcases st.link.down c with _ | link
  · rfl
  · simp [note]

end Station

namespace Floor

/-- The floor is as the orchestrator knows it, and the disk is `d`. -/
structure Agrees (t : Register) (d : String → Option String) (f : Floor ρ) : Prop where
  disk : f.disk = d
  rows : ∀ i, Option.Rel (Row.Fits k) (t i) (f.stations i)

variable {k} {t : Register} {d : String → Option String} {f : Floor ρ} {i : UInt64} {row : Row}

theorem agrees_vacant (rest : ρ) : (vacant rest).Agrees k (fun _ => none) fun _ => none :=
  ⟨rfl, fun _ => .none⟩

theorem Agrees.station (h : f.Agrees k t d) (hi : t i = some row) :
    ∃ st, f.stations i = some st ∧ row.Fits k st := by
  have hrel := h.rows i
  rw [hi] at hrel
  rcases hst : f.stations i with _ | st
  · rw [hst] at hrel
    cases hrel
  · rw [hst] at hrel
    cases hrel with
    | some hfits => exact ⟨st, rfl, hfits⟩

theorem Agrees.adjust (h : f.Agrees k t d) (hi : t i = some row) {row' : Row}
    {g : Station → Station}
    (hg : ∀ st, f.stations i = some st → row.Fits k st → row'.Fits k (g st)) :
    (f.adjust i g).Agrees k (Function.update t i (some row')) d := by
  refine ⟨h.disk, fun j => ?_⟩
  by_cases hj : j = i
  · subst hj
    obtain ⟨st, hst, hfits⟩ := h.station hi
    simp only [Floor.adjust, Function.update_self, hst, Option.map_some]
    exact .some (hg st hst hfits)
  · simp only [Floor.adjust, Function.update_of_ne hj]
    exact h.rows j

/-- A change of one station that the orchestrator cannot see. -/
theorem Agrees.adjust_self (h : f.Agrees k t d) {g : Station → Station}
    (hg : ∀ row st, Row.Fits k row st → row.Fits k (g st)) : (f.adjust i g).Agrees k t d := by
  rcases hi : t i with _ | row
  · have hrel := h.rows i
    rw [hi] at hrel
    refine ⟨h.disk, fun j => ?_⟩
    by_cases hj : j = i
    · subst hj
      rcases hst : f.stations j with _ | st
      · simp [Floor.adjust, hst, hi]
      · rw [hst] at hrel
        cases hrel
    · simp only [Floor.adjust, Function.update_of_ne hj]
      exact h.rows j
  · have hupdate := h.adjust hi fun st _ => hg row st
    rwa [← hi, Function.update_eq_self] at hupdate

theorem Agrees.step (h : f.Agrees k t d) (m : Move) : (f.step m).Agrees k t d := by
  cases m with
  | work i =>
    refine h.adjust_self fun row st ⟨hholds, hlast⟩ => ⟨k.work hholds, ?_⟩
    rw [hlast, Station.gatheredIn_work]
  | carry i =>
    refine h.adjust_self fun row st ⟨hholds, hlast⟩ => ⟨k.carry hholds, ?_⟩
    rw [hlast, Station.diary_carry]

/-- **Whatever steps are made by the workers and their links, the orchestrator's knowledge stays
right.** -/
theorem Agrees.aside {α : Type} (h : f.Agrees k t d) (env : Surroundings ρ) (q : StateM ρ α) :
    ((aside env q).run f).2.Agrees k t d :=
  keeps_aside env (fun _ m h => h.step m) (fun _ _ h => ⟨h.disk, h.rows⟩) q h

/-! ## Questions to the floor -/

variable {r : Except CampaignError Unit} {f' : Floor ρ}

theorem Agrees.onSuccess (h : f.Agrees k t d) {q : StateM ρ (Except CampaignError Unit)}
    {g : Floor ρ → Floor ρ} (hr : (Floor.onSuccess env q g).run f = (r, f')) {t' : Register}
    {d' : String → Option String} (hg : ∀ f, f.Agrees k t d → (g f).Agrees k t' d') :
    (r = .ok () → f'.Agrees k t' d') ∧ (r ≠ .ok () → f'.Agrees k t d) := by
  have haside := h.aside env q
  rcases onSuccess_cases env hr with ⟨e, rfl, hq⟩ | ⟨rfl, f'', hq, rfl⟩
  · rw [hq] at haside
    exact ⟨nofun, fun _ => haside⟩
  · rw [hq] at haside
    exact ⟨fun _ => hg _ haside, fun h => absurd rfl h⟩

theorem Agrees.store (h : f.Agrees k t d) {dir : String} {files : List (String × String)}
    (hr : ((host crew env).store dir files).run f = (r, f')) :
    (r = .ok () → f'.Agrees k t (filed dir files d)) ∧ (r ≠ .ok () → f'.Agrees k t d) :=
  h.onSuccess (g := fun f => f.write dir files) hr fun _ h =>
    ⟨congrArg (filed dir files) h.disk, h.rows⟩

theorem Agrees.spawn (h : f.Agrees k t d) {task : WorkerTask}
    (hr : ((host crew env).spawn task).run f = (r, f')) :
    (r = .ok () → f'.Agrees k (Function.update t task.index (some ⟨task, .watched, none⟩)) d) ∧
      (r ≠ .ok () → f'.Agrees k t d) := by
  refine h.onSuccess (g := fun f => { f with
    stations := Function.update f.stations task.index (some (.start (crew task))) }) hr
    fun f h => ⟨h.disk, fun j => ?_⟩
  by_cases hj : j = task.index
  · subst hj
    simp only [Function.update_self]
    exact .some ⟨k.start task, rfl⟩
  · simp only [Function.update_of_ne hj]
    exact h.rows j

/-- A decision takes a worker to the next stage, if it is sent. -/
theorem Agrees.sendDecision (h : f.Agrees k t d) (hi : t i = some row) {e : Envelope}
    (hs : row.stage = .informed e) {attach : Bool} (ha : answers row.task.index e attach)
    (hr : ((host crew env).send i (.decision attach)).run f = (r, f')) :
    (r = .ok () →
      f'.Agrees k (Function.update t i (some { row with stage := .decided e attach })) d) ∧
      (r ≠ .ok () → f'.Agrees k t d) := by
  refine h.onSuccess (g := fun f => f.adjust i fun st => st.command (.decision attach)) hr
    fun f h => h.adjust hi fun st _ ⟨hholds, hlast⟩ => ⟨?_, ?_⟩
  · rw [hs] at hholds
    exact k.decide ha hholds
  · rw [hlast, Station.gatheredIn_command]

/-- Something found in a queue takes a worker to the next stage. -/
theorem Agrees.look {α : Type} (h : f.Agrees k t d) (hi : t i = some row)
    (peek : Channel → Poll α) (take : α → Station → Station) (next : α → Row)
    {q : StateM ρ (Poll α)}
    (hstep : ∀ st a, row.Fits k st → peek st.link = .got a → (next a).Fits k (take a st))
    {r : Poll α} (hr : (Floor.look env i peek take q).run f = (r, f')) :
    (∀ a, r = .got a → f'.Agrees k (Function.update t i (some (next a))) d) ∧
      ((∀ a, r ≠ .got a) → f'.Agrees k t d) := by
  have haside := h.aside env q
  rw [Floor.run_look] at hr
  rcases hq : (Floor.aside env q).run f with ⟨otherwise, f''⟩
  rw [hq] at hr haside
  obtain ⟨st, hst, hfits⟩ := haside.station hi
  dsimp only at hr hst
  have hidle : (idle otherwise, f'') = (r, f') →
      (∀ a, r = .got a → f'.Agrees k (Function.update t i (some (next a))) d) ∧
        ((∀ a, r ≠ .got a) → f'.Agrees k t d) := by
    intro h
    cases h
    refine ⟨fun a h => ?_, fun _ => haside⟩
    cases otherwise <;> cases h
  rw [hst, Option.map_some] at hr
  rcases hpeek : peek st.link with a | _ | _
  · rw [hpeek] at hr
    cases hr
    refine ⟨fun a' h => ?_, fun h => absurd rfl (h a)⟩
    cases h
    refine haside.adjust hi fun st' hst' hfits' => ?_
    rw [hst] at hst'
    cases hst'
    exact hstep st a hfits hpeek
  · rw [hpeek] at hr
    exact hidle hr
  · rw [hpeek] at hr
    exact hidle hr

theorem Agrees.completion (h : f.Agrees k t d) (hi : t i = some row) {q : StateM ρ (Poll Unit)}
    (stage : Stage) (hstep : ∀ st, k.holds row.task row.stage st →
      st.link.completion.1 = .got () → k.holds row.task stage st.takeCompletion) {r : Poll Unit}
    (hr : (Floor.look env i (·.completion.1) (fun _ => Station.takeCompletion) q).run f = (r, f')) :
    (r = .got () → f'.Agrees k (Function.update t i (some { row with stage })) d) ∧
      (r ≠ .got () → f'.Agrees k t d) := by
  have hlook := h.look hi _ _ (fun _ => { row with stage })
    (fun st _ ⟨hholds, hlast⟩ hgot => ⟨hstep st hholds hgot,
      by simp [Station.takeCompletion, Station.note, hlast]⟩) hr
  exact ⟨hlook.1 (), fun h => hlook.2 fun _ => h⟩

/-- The outcome of a worker that said that it is done. -/
def afterOutcome : Option Envelope → Stage
  | none => .settled .passed
  | some e => .informed e

theorem Agrees.exception (h : f.Agrees k t d) (hi : t i = some row) (hs : row.stage = .signalled)
    {r : Poll (Option Envelope)} (hr : ((host crew env).exception i).run f = (r, f'))
    {report : Option Envelope} (hgot : r = .got report) :
    f'.Agrees k (Function.update t i (some { row with stage := afterOutcome report })) d := by
  refine (h.look hi (·.exception.1) (fun r st => st.takeException r)
    (fun report => { row with stage := afterOutcome report })
    (fun st report ⟨hholds, hlast⟩ hgot => ⟨?_, ?_⟩) hr).1 report hgot
  · rw [hs] at hholds
    cases report with
    | none => exact k.pass hholds hgot
    | some e => exact k.fail hholds hgot
  · simp [Station.takeException, Station.note, hlast]

theorem Agrees.takeSnapshots (h : f.Agrees k t d) (hi : t i = some row)
    (env : Surroundings ρ) (q : StateM ρ (List Snapshot)) (stage : Stage)
    (hstep : ∀ st, k.holds row.task row.stage st → k.holds row.task stage st.takeSnapshots) :
    ((takeSnapshots env i q).run f).2.Agrees k (Function.update t i (some { row with
      stage, last? := ((takeSnapshots env i q).run f).1.getLast?.or row.last? })) d := by
  have haside := h.aside env q
  obtain ⟨st, hst, hfits⟩ := haside.station hi
  have hvalue : ((Floor.takeSnapshots env i q).run f).1 = st.link.snapshots := by
    change (((Floor.aside env q).run f).2.stations i).elim [] _ = _
    rw [hst]
    rfl
  rw [hvalue]
  refine haside.adjust hi fun st' hst' ⟨hholds, hlast⟩ => ⟨hstep st' hholds, ?_⟩
  rw [hst] at hst'
  cases hst'
  simp [Station.takeSnapshots, Station.note, hlast, List.getLast?_append]

end Floor

/-! ## One worker after another -/

namespace Campaign

open FuzzCampaign.Action

section

variable {σ : Type} {P : σ → Prop} {host : CampaignHost σ}

theorem keeps_lookAfter (hstatus : ∀ i s, P s → P ((host.status i).run s).2)
    (hnow : ∀ s, P s → P (host.now.run s).2) (grace : Duration) (i : UInt64) (disconnected : Bool)
    (since? : Option Nat) : Keeps P (lookAfter host grace i disconnected since?) := by
  unfold lookAfter
  refine keeps_bind (keeps_perform (hstatus i)) fun status? => ?_
  rcases status?.or (if disconnected then some linkClosed else none) with _ | status
  · exact keeps_pure none
  · have hlater : ∀ since, Keeps P (do
        let now ← Action.ask host.now
        if grace.nanoseconds ≤ now - since then throw (.error (.workerDied i status))
        else return some since) := by
      intro since
      refine keeps_bind (keeps_ask hnow) fun now => ?_
      split_ifs
      · exact keeps_throw _
      · exact keeps_pure _
    cases since? with
    | none => exact keeps_bind (keeps_ask hnow) hlater
    | some since =>
      simp only [pure_bind]
      exact hlater since

theorem keeps_reap (hstatus : ∀ i s, P s → P ((host.status i).run s).2)
    (hnow : ∀ s, P s → P (host.now.run s).2) (hkill : ∀ i s, P s → P ((host.kill i).run s).2)
    (hsleep : ∀ d s, P s → P ((host.sleep d).run s).2) (timeout : Duration) (rounds : Nat)
    (i : UInt64) : Keeps P (reap host timeout rounds i) := by
  refine keeps_bind (keeps_ask hnow) fun now => keeps_repeatUntil ?_ rounds
  have hend : Keeps P (do
      Action.ask (host.kill i)
      return some ()) := keeps_bind (keeps_ask (hkill i)) fun _ => keeps_pure _
  refine keeps_bind (keeps_ask (hstatus i)) fun status => ?_
  rcases status with _ | _ | _
  · exact hend
  · refine keeps_bind (keeps_ask hnow) fun now' => ?_
    split_ifs
    · exact keeps_bind (keeps_ask (hsleep _)) fun _ => keeps_pure _
    · exact hend
  · exact keeps_pure _

end

variable {k} {t : Register} {d : String → Option String} {f : Floor ρ} {i : UInt64} {row : Row}
  (plan : CampaignPlan) (rounds : Nat)

theorem keeps_lookAfter_floor (grace : Duration) (i : UInt64) (disconnected : Bool)
    (since? : Option Nat) :
    Keeps (Floor.Agrees k t d) (lookAfter (Floor.host crew env) grace i disconnected since?) :=
  keeps_lookAfter (fun _ _ h => h.aside _ _) (fun _ h => h.aside _ _) grace i disconnected since?

theorem keeps_reap_floor (timeout : Duration) (i : UInt64) :
    Keeps (Floor.Agrees k t d) (reap (Floor.host crew env) timeout rounds i) :=
  keeps_reap (fun _ _ h => h.aside _ _) (fun _ h => h.aside _ _) (fun _ _ h => h.aside _ _)
    (fun _ _ h => h.aside _ _) timeout rounds i

theorem keeps_decideAttach (e : Envelope) :
    Keeps (Floor.Agrees k t d) (decideAttach (Floor.host crew env) plan i e) := by
  have hask : Keeps (Floor.Agrees k t d) (askUser (Floor.host crew env) i e) := by
    refine keeps_bind (keeps_ask fun _ h => h.aside _ _) fun reply => ?_
    rcases reply with attach | _ | _
    · exact keeps_pure attach
    · refine keeps_bind (keeps_ask fun _ h => h.aside _ _) fun status => ?_
      rcases status with _ | _ | _
      · exact keeps_throw _
      · exact keeps_throw _
      · exact keeps_throw _
    · exact keeps_pure false
  have hprint : Keeps (Floor.Agrees k t d) (Action.ask ((Floor.host crew env).printLine
      (e.render (Floor.host crew env).colours i))) := keeps_ask fun _ h => h.aside _ _
  unfold decideAttach
  split_ifs
  · exact keeps_bind hprint fun _ => hask
  · exact keeps_bind hprint fun _ => keeps_pure false
  · exact keeps_pure false

/-- A worker that has a decision is waited for until it says that it is done. -/
theorem gives_awaitFrom (h : f.Agrees k t d) (hi : t i = some row) {e : Envelope} {attach : Bool}
    (hs : row.stage = .decided e attach) (since? : Option Nat) :
    Gives (awaitFrom (Floor.host crew env) plan i rounds since?) f fun _ f' =>
      f'.Agrees k (Function.update t i (some { row with stage := .settled (.failed e attach) }))
        d := by
  induction rounds generalizing f since? with
  | zero => trivial
  | succ rounds ih =>
    rw [awaitFrom, gives_bind, awaitRound, gives_bind, gives_ask]
    rcases hlook : ((Floor.host crew env).awaitFinished i plan.pollInterval).run f with ⟨r, f'⟩
    have hstep := h.completion hi (.settled (.failed e attach))
      (fun st hholds => k.settle (hs ▸ hholds)) hlook
    rcases r with _ | _ | _
    · exact hstep.1 rfl
    · have hstay := hstep.2 (by simp)
      refine gives_bind.2 ((keeps_lookAfter_floor _ i false since? f' hstay).imp ?_)
      exact fun since? f'' h => ih h since?
    · have hstay := hstep.2 (by simp)
      refine gives_bind.2 ((keeps_lookAfter_floor _ i true since? f' hstay).imp ?_)
      exact fun since? f'' h => ih (h.aside _ _) since?

/-- A worker whose failure was taken is settled once it has been handled. -/
theorem gives_concludeFailed (h : f.Agrees k t d) (hi : t i = some row) {e : Envelope}
    (hs : row.stage = .informed e)
    (ha : ∀ f, Gives (decideAttach (Floor.host crew env) plan i e) f fun attach _ =>
      answers row.task.index e attach) :
    Gives (concludeFailedUnchecked (Floor.host crew env) plan rounds i e) f fun v f' =>
      f'.Agrees k (Function.update t i (some { row with stage := .settled v })) d := by
  rw [concludeFailedUnchecked, gives_bind]
  refine ((keeps_decideAttach plan e f h).and (ha f)).imp fun attach f' ⟨h', hanswer⟩ => ?_
  rw [gives_bind, sendDecision, gives_bind, gives_ask]
  rcases hsend : ((Floor.host crew env).send i (.decision attach)).run f' with ⟨r, f''⟩
  have hsent := h'.sendDecision hi hs hanswer hsend
  rcases r with e' | _
  · trivial
  · have hdecided := hsent.1 rfl
    rw [gives_pure, gives_bind]
    refine (gives_awaitFrom plan rounds hdecided (Function.update_self ..) rfl none).imp ?_
    intro _ f'' h
    rw [Function.update_idem] at h
    rw [gives_bind]
    exact (keeps_reap_floor rounds plan.reapTimeout i f'' h).imp fun _ _ h => h

/-- **A worker that said that it is done is settled once it has been handled.** -/
theorem gives_conclude (h : f.Agrees k t d) (hi : t i = some row) (hs : row.stage = .signalled)
    (ha : ∀ e f, Gives (decideAttach (Floor.host crew env) plan i e) f fun attach _ =>
      answers row.task.index e attach) :
    Gives (conclude (Floor.host crew env) plan rounds i) f fun v f' =>
      f'.Agrees k (Function.update t i (some { row with stage := .settled v })) d := by
  rw [conclude_eq, concludeUnchecked, gives_bind, gives_ask]
  rcases hlook : ((Floor.host crew env).exception i).run f with ⟨r, f'⟩
  rcases r with report | _ | _
  · have h' := h.exception hi hs hlook rfl
    cases report with
    | none =>
      rw [gives_bind]
      exact (keeps_reap_floor rounds plan.reapTimeout i f' h').imp fun _ _ h => h
    | some e =>
      refine (gives_concludeFailed plan rounds h' (Function.update_self ..) rfl (ha e)).imp ?_
      intro v f'' h
      rwa [Function.update_idem] at h
  · trivial
  · trivial

end Campaign

end FuzzCampaign
