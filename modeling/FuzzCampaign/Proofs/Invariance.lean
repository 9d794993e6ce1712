import FuzzCampaign.Proofs.Outcome
import Mathlib.Tactic.SplitIfs

/-!
# Invariants of a campaign's world

What every answer of a world keeps is kept by all that is done with a worker, however it ends: with
a value, with an error, or because the rounds were not enough.

* `Action.Preserves`: an action that keeps a property of its world however it ends, with a rule for
  each way to build an action;
* `CampaignHost.Preserves`: a world whose answers keep a property; `CampaignHost.Tends`: the same of
  the answers while workers are tended that were started; `CampaignHost.Minds`: the same of those
  while they are watched and ended; `CampaignHost.Ends`: the same of those while they are ended;
* `Campaign.preserves_lookAfter`, `preserves_shutdown`, **`Campaign.preserves_conclude`**: what is
  done with a worker.
-/

namespace FuzzCampaign

namespace Action

variable {σ α β : Type} {P : σ → Prop} {act : Action σ α}

/-- From wherever `P` holds, `P` holds when the action ends, with a value or without. -/
def Preserves (P : σ → Prop) (act : Action σ α) : Prop :=
  ∀ s, P s → Yields act s (fun _ => P) fun _ => P

theorem preserves_pure (a : α) : Preserves P (pure a) := fun _ h => h

theorem preserves_throw (stop : Stop) : Preserves P (throw stop : Action σ α) := fun _ h => h

theorem preserves_ask {q : StateM σ α} (h : ∀ s, P s → P (q.run s).2) : Preserves P (ask q) := h

theorem preserves_bind {f : α → Action σ β} (h : Preserves P act) (hf : ∀ a, Preserves P (f a)) :
    Preserves P (act >>= f) :=
  fun s hs => yields_bind.2 ((h s hs).imp fun a s' => hf a s')

theorem preserves_lift (r : Except CampaignError α) : Preserves P (lift r : Action σ α) := by
  cases r with
  | ok a => exact preserves_pure a
  | error e => exact preserves_throw _

theorem preserves_perform {q : StateM σ (Except CampaignError α)} (h : ∀ s, P s → P (q.run s).2) :
    Preserves P (perform q) :=
  preserves_bind (preserves_ask h) fun r => preserves_lift r

theorem preserves_attempt (h : Preserves P act) : Preserves P (attempt act) := by
  intro s hs
  refine yields_attempt.2 ((h s hs).mono (fun _ _ => id) fun stop s' hs' => ?_)
  cases stop <;> exact hs'

theorem preserves_repeatUntil {body : Action σ (Option α)} (h : Preserves P body) (rounds : Nat) :
    Preserves P (repeatUntil body rounds) :=
  fun _ hs => yields_repeatUntil P (fun s hs => (h s hs).imp fun r _ h => by cases r <;> exact h)
    (fun _ h => h) rounds hs

theorem preserves_mapM {f : α → Action σ β} (h : ∀ a, Preserves P (f a)) (l : List α) :
    Preserves P (l.mapM f) :=
  fun _ hs => yields_mapM (fun _ _ => P) (fun _ a _ s hs => h a s hs) l [] hs

theorem preserves_forM {f : α → Action σ PUnit} (h : ∀ a, Preserves P (f a)) (l : List α) :
    Preserves P (l.forM f) :=
  fun _ hs => yields_forM (fun _ => P) (fun a _ s hs => h a s hs) l hs

end Action

/-- Every answer of a world keeps `P`. -/
structure CampaignHost.Preserves {σ : Type} (P : σ → Prop) (host : CampaignHost σ) : Prop where
  isDirectory : ∀ path s, P s → P ((host.isDirectory path).run s).2
  freshSeed : ∀ s, P s → P (host.freshSeed.run s).2
  printLine : ∀ text s, P s → P ((host.printLine text).run s).2
  showStatus : ∀ text s, P s → P ((host.showStatus text).run s).2
  store : ∀ dir files s, P s → P ((host.store dir files).run s).2
  spawn : ∀ task s, P s → P ((host.spawn task).run s).2
  status : ∀ i s, P s → P ((host.status i).run s).2
  kill : ∀ i s, P s → P ((host.kill i).run s).2
  send : ∀ i c s, P s → P ((host.send i c).run s).2
  completion : ∀ i s, P s → P ((host.completion i).run s).2
  awaitFinished : ∀ i d s, P s → P ((host.awaitFinished i d).run s).2
  exception : ∀ i s, P s → P ((host.exception i).run s).2
  snapshots : ∀ i s, P s → P ((host.snapshots i).run s).2
  decide : ∀ i e s, P s → P ((host.decide i e (host.stillRuns i)).run s).2
  now : ∀ s, P s → P (host.now.run s).2
  sleep : ∀ d s, P s → P ((host.sleep d).run s).2

/-- Every answer of a world keeps `P` while workers are tended that were started, apart from what it
says of their outcomes. -/
structure CampaignHost.Tends {σ : Type} (P : σ → Prop) (host : CampaignHost σ) : Prop where
  printLine : ∀ text s, P s → P ((host.printLine text).run s).2
  showStatus : ∀ text s, P s → P ((host.showStatus text).run s).2
  store : ∀ dir files s, P s → P ((host.store dir files).run s).2
  status : ∀ i s, P s → P ((host.status i).run s).2
  kill : ∀ i s, P s → P ((host.kill i).run s).2
  send : ∀ i c s, P s → P ((host.send i c).run s).2
  completion : ∀ i s, P s → P ((host.completion i).run s).2
  awaitFinished : ∀ i d s, P s → P ((host.awaitFinished i d).run s).2
  snapshots : ∀ i s, P s → P ((host.snapshots i).run s).2
  decide : ∀ i e s, P s → P ((host.decide i e (host.stillRuns i)).run s).2
  now : ∀ s, P s → P (host.now.run s).2
  sleep : ∀ d s, P s → P ((host.sleep d).run s).2

/-- Every answer of a world keeps `P` while workers are ended. -/
structure CampaignHost.Ends {σ : Type} (P : σ → Prop) (host : CampaignHost σ) : Prop where
  status : ∀ i s, P s → P ((host.status i).run s).2
  kill : ∀ i s, P s → P ((host.kill i).run s).2
  shutdown : ∀ i s, P s → P ((host.send i .shutdown).run s).2
  now : ∀ s, P s → P (host.now.run s).2
  sleep : ∀ d s, P s → P ((host.sleep d).run s).2

/-- Every answer of a world keeps `P` while workers are watched and ended. -/
structure CampaignHost.Minds {σ : Type} (P : σ → Prop) (host : CampaignHost σ) : Prop
    extends Ends P host where
  printLine : ∀ text s, P s → P ((host.printLine text).run s).2
  showStatus : ∀ text s, P s → P ((host.showStatus text).run s).2
  store : ∀ dir files s, P s → P ((host.store dir files).run s).2
  completion : ∀ i s, P s → P ((host.completion i).run s).2
  awaitFinished : ∀ i d s, P s → P ((host.awaitFinished i d).run s).2
  snapshots : ∀ i s, P s → P ((host.snapshots i).run s).2

theorem CampaignHost.Tends.minds {σ : Type} {P : σ → Prop} {host : CampaignHost σ}
    (h : host.Tends P) : host.Minds P :=
  { h with shutdown := fun i => h.send i .shutdown }

theorem CampaignHost.Preserves.tends {σ : Type} {P : σ → Prop} {host : CampaignHost σ}
    (h : host.Preserves P) : host.Tends P :=
  { h with }

namespace Campaign

open FuzzCampaign.Action Orchestrator

section

variable {σ : Type} {P : σ → Prop} {host : CampaignHost σ} (h : host.Ends P) (rounds : Nat)
  (i : UInt64)
include h

/-! ## Workers that are ended -/

theorem preserves_reap (timeout : Duration) : Preserves P (reap host timeout rounds i) := by
  have hend : Preserves P (do
      Action.ask (host.kill i)
      return some ()) := preserves_bind (preserves_ask (h.kill i)) fun _ => preserves_pure _
  refine preserves_bind (preserves_ask h.now) fun now => preserves_repeatUntil ?_ rounds
  refine preserves_bind (preserves_ask (h.status i)) fun status => ?_
  rcases status with _ | _ | _
  · exact hend
  · refine preserves_bind (preserves_ask h.now) fun now' => ?_
    split_ifs
    · exact preserves_bind (preserves_ask (h.sleep _)) fun _ => preserves_pure _
    · exact hend
  · exact preserves_pure _

theorem preserves_sendShutdown : Preserves P (sendShutdown host i) :=
  preserves_ask (h.shutdown i)

theorem preserves_shutdown (timeout : Duration) : Preserves P (shutdown host timeout rounds i) :=
  preserves_bind (preserves_sendShutdown h i) fun _ => preserves_reap h rounds i timeout

end

section

variable {σ : Type} {P : σ → Prop} {host : CampaignHost σ} (h : host.Minds P)
  (plan : CampaignPlan) (rounds : Nat) (i : UInt64)
include h

/-! ## Workers that are watched -/

theorem preserves_lookAfter (grace : Duration) (disconnected : Bool) (since? : Option Nat) :
    Preserves P (lookAfter host grace i disconnected since?) := by
  refine preserves_bind (preserves_perform (h.status i)) fun status? => ?_
  rcases status?.or (if disconnected then some linkClosed else none) with _ | status
  · exact preserves_pure none
  · have hlater : ∀ since, Preserves P (do
        let now ← Action.ask host.now
        if grace.nanoseconds ≤ now - since then throw (.error (.workerDied i status))
        else return some since) := by
      intro since
      refine preserves_bind (preserves_ask h.now) fun now => ?_
      split_ifs
      · exact preserves_throw _
      · exact preserves_pure _
    cases since? with
    | none => exact preserves_bind (preserves_ask h.now) hlater
    | some since => exact preserves_bind (preserves_pure since) hlater

theorem preserves_awaitFinished : Preserves P (awaitFinished host plan rounds i) := by
  unfold awaitFinished
  generalize (none : Option Nat) = since?
  induction rounds generalizing since? with
  | zero => exact preserves_throw _
  | succ rounds ih =>
    refine preserves_bind (preserves_bind (preserves_ask (h.awaitFinished i _)) fun r => ?_)
      fun r => ?_
    · rcases r with _ | _ | _
      · exact preserves_pure none
      · exact preserves_bind (preserves_lookAfter h i _ _ _) fun _ => preserves_pure _
      · refine preserves_bind (preserves_lookAfter h i _ _ _) fun _ => ?_
        exact preserves_bind (preserves_ask (h.sleep _)) fun _ => preserves_pure _
    · cases r with
      | none => exact preserves_pure _
      | some since? => exact ih since?

end

section

variable {σ : Type} {P : σ → Prop} {host : CampaignHost σ} (h : host.Tends P)
  (plan : CampaignPlan) (rounds : Nat) (i : UInt64)
include h

/-! ## Workers that are done -/

theorem preserves_decideAttach (e : Envelope) : Preserves P (decideAttach host plan i e) := by
  have hask : Preserves P (askUser host i e) := by
    refine preserves_bind (preserves_ask (h.decide i e)) fun reply => ?_
    rcases reply with attach | _ | _
    · exact preserves_pure attach
    · refine preserves_bind (preserves_ask (h.status i)) fun status => ?_
      rcases status with _ | _ | _ <;> exact preserves_throw _
    · exact preserves_pure false
  have hprint : Preserves P (Action.ask (host.printLine (e.render host.colours i))) :=
    preserves_ask (h.printLine _)
  unfold decideAttach
  split_ifs
  · exact preserves_bind hprint fun _ => hask
  · exact preserves_bind hprint fun _ => preserves_pure false
  · exact preserves_pure false

theorem preserves_sendDecision (attach : Bool) : Preserves P (sendDecision host i attach) := by
  refine preserves_bind (preserves_ask (h.send i _)) fun r => ?_
  cases r with
  | ok _ => exact preserves_pure _
  | error e => exact preserves_throw _

theorem preserves_concludeFailed (e : Envelope) :
    Preserves P (concludeFailed host plan rounds i e) := by
  refine preserves_bind (preserves_lift _) fun _ => ?_
  refine preserves_bind (preserves_lift _) fun state => ?_
  refine preserves_bind (preserves_decideAttach h plan i e) fun attach => ?_
  refine preserves_bind (preserves_lift _) fun _ => ?_
  refine preserves_bind (preserves_sendDecision h i attach) fun _ => ?_
  refine preserves_bind (preserves_awaitFinished h.minds plan rounds i) fun _ => ?_
  refine preserves_bind (preserves_lift _) fun _ => ?_
  exact preserves_bind (preserves_reap h.minds.toEnds rounds i _) fun _ => preserves_pure _

theorem preserves_conclude (hexception : ∀ i s, P s → P ((host.exception i).run s).2) :
    Preserves P (conclude host plan rounds i) := by
  refine preserves_bind (preserves_ask (hexception i)) fun r => ?_
  rcases r with (_ | e) | _ | _
  · refine preserves_bind (preserves_lift _) fun _ => ?_
    exact preserves_bind (preserves_reap h.minds.toEnds rounds i _) fun _ => preserves_pure _
  · exact preserves_concludeFailed h plan rounds i e
  · exact preserves_throw _
  · exact preserves_throw _

end

end Campaign

end FuzzCampaign
