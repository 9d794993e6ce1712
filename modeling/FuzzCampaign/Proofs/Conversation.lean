import FuzzCampaign.Proofs.Outcome
import FuzzCampaign.Worker.Run

/-!
# Conversations of workers

To run beside others, a worker must be able to stop between two messages. A conversation is what a
worker still says and hears; it goes on one message at a time. The report of an outcome is such a
conversation, and no step of the settlement in it, nor in what the orchestrator does, can fail.

* `exceptionsOf`, `snapshotsOf`, `finishedIn`: the messages of a kind;
* `Conversation`, `Conversation.perform`: a conversation, and what it does in a world;
* `Worker.conversation`, **`Worker.perform_conversation`**: the report of an outcome;
* `Conversation.afterCoverage`, `Worker.reporters`: coverage comes first;
* `Conversation.Says`: the messages of a conversation;
* `Campaign.concludeUnchecked`, **`Campaign.conclude_eq`**: the orchestrator's side without its
  settlement.
-/

namespace FuzzCampaign

/-! ## Messages of a kind -/

/-- The outcome in a message. -/
@[simp] def Dispatch.exception? : Dispatch → Option (Option Envelope)
  | .exception report => some report
  | _ => none

/-- The snapshot in a message. -/
@[simp] def Dispatch.snapshot? : Dispatch → Option Snapshot
  | .coverage s => some s
  | _ => none

/-- Whether a message says that the worker is done. -/
@[simp] def Dispatch.isFinished : Dispatch → Bool
  | .finished => true
  | _ => false

/-- The outcomes among messages. -/
def exceptionsOf (ms : List Dispatch) : List (Option Envelope) := ms.filterMap Dispatch.exception?

/-- The snapshots among messages. -/
def snapshotsOf (ms : List Dispatch) : List Snapshot := ms.filterMap Dispatch.snapshot?

/-- How often messages say that the worker is done. -/
def finishedIn (ms : List Dispatch) : Nat := ms.countP Dispatch.isFinished

section

variable (ms l : List Dispatch) (m : Dispatch)

@[simp] theorem exceptionsOf_append : exceptionsOf (ms ++ l) = exceptionsOf ms ++ exceptionsOf l :=
  List.filterMap_append

@[simp] theorem snapshotsOf_append : snapshotsOf (ms ++ l) = snapshotsOf ms ++ snapshotsOf l :=
  List.filterMap_append

@[simp] theorem finishedIn_append : finishedIn (ms ++ l) = finishedIn ms + finishedIn l :=
  List.countP_append

@[simp] theorem exceptionsOf_cons :
    exceptionsOf (m :: ms) = m.exception?.toList ++ exceptionsOf ms := by
  cases m <;> rfl

@[simp] theorem snapshotsOf_cons :
    snapshotsOf (m :: ms) = m.snapshot?.toList ++ snapshotsOf ms := by
  cases m <;> rfl

@[simp] theorem finishedIn_cons : finishedIn (m :: ms) = m.isFinished.toNat + finishedIn ms := by
  cases m <;> simp [finishedIn, List.countP_cons, Nat.add_comm]

end

@[simp] theorem exceptionsOf_nil : exceptionsOf [] = [] := rfl

@[simp] theorem snapshotsOf_nil : snapshotsOf [] = [] := rfl

@[simp] theorem finishedIn_nil : finishedIn [] = 0 := rfl

/-! ## Conversations -/

/-- What a worker still says and hears, and how it ends. -/
inductive Conversation
  | ended (r : Except Stop WorkerEnd)
  | saying (m : Dispatch) (next : Except CampaignError Unit → Conversation)
  | hearing (next : Except CampaignError Command → Conversation)
  | debugging (e : Envelope) (next : Conversation)

namespace Conversation

/-- What a conversation does in a world. -/
def perform {σ : Type} (host : WorkerHost σ) : Conversation → Action σ WorkerEnd
  | .ended r => ExceptT.mk (pure r)
  | .saying m next => do perform host (next (← Action.ask (host.send m)))
  | .hearing next => do perform host (next (← Action.ask host.receive))
  | .debugging e next => do
    Action.ask (Worker.debug host e)
    perform host next

/-- Say something; if that fails, nothing more is said. -/
def say (m : Dispatch) (next : Conversation) : Conversation :=
  .saying m fun
    | .ok () => next
    | .error e => .ended (.error (.error e))

/-- Hear a command; if that fails, nothing more is said. -/
def listen (next : Command → Conversation) : Conversation :=
  .hearing fun
    | .ok c => next c
    | .error e => .ended (.error (.error e))

/-- Say one's coverage first, whether it gets through or not. -/
def afterCoverage : List Snapshot → Conversation → Conversation
  | [], c => c
  | s :: rest, c => .saying (.coverage s) fun _ => afterCoverage rest c

/-- While everything gets through, the messages of a conversation are these, whatever it hears. -/
def Says : Conversation → List Dispatch → Prop
  | .ended _, ms => ms = []
  | .saying m next, ms => ∃ rest, ms = m :: rest ∧ Says (next (.ok ())) rest
  | .hearing next, ms => ∀ c, Says (next (.ok c)) ms
  | .debugging _ next, ms => Says next ms

theorem says_say {m : Dispatch} {next : Conversation} {ms : List Dispatch} (h : next.Says ms) :
    (say m next).Says (m :: ms) :=
  ⟨ms, rfl, h⟩

theorem says_afterCoverage {c : Conversation} {ms : List Dispatch} (h : c.Says ms) :
    ∀ l : List Snapshot, (afterCoverage l c).Says (l.map .coverage ++ ms)
  | [] => h
  | _ :: rest => ⟨rest.map .coverage ++ ms, rfl, says_afterCoverage h rest⟩

end Conversation

/-! ## The worker's side -/

namespace Worker

open Conversation

/-- The end of a conversation that has a decision. -/
def closing (e : Envelope) : Bool → Conversation
  | true => .debugging e (say .finished (.ended (.ok (.failed true))))
  | false => say .finished (.ended (.ok (.failed false)))

/-- The report of an outcome as a conversation. -/
def conversation : Option Envelope → Conversation
  | none => say (.exception none) (say .finished (.ended (.ok .passed)))
  | some e =>
    say (.exception (some e)) (say .finished (listen fun c => closing e (wantsDebugger c)))

/-- The messages of a report whose delivery never fails. -/
def reportMessages : Option Envelope → List Dispatch
  | none => [.exception none, .finished]
  | some e => [.exception (some e), .finished, .finished]

theorem says_conversation (report : Option Envelope) :
    (conversation report).Says (reportMessages report) := by
  cases report with
  | none => exact says_say (says_say rfl)
  | some e =>
    refine says_say (says_say fun c => ?_)
    change (closing e (wantsDebugger c)).Says [.finished]
    cases wantsDebugger c with
    | true => exact says_say rfl
    | false => exact says_say rfl

/-- Workers that send their coverage and report the outcomes of their tests. -/
def reporters (outcomeOf : WorkerTask → Option Envelope) (coverageOf : WorkerTask → List Snapshot)
    (task : WorkerTask) : Conversation :=
  afterCoverage (coverageOf task) (conversation (outcomeOf task))

variable {σ : Type} (host : WorkerHost σ)

theorem perform_say (m : Dispatch) (next : Conversation) :
    (say m next).perform host = (do
      Action.perform (host.send m)
      next.perform host) := by
  refine Action.ext_outcome fun s => ?_
  rw [say, perform, Action.perform]
  simp only [Action.outcome_bind, Action.outcome_ask]
  rcases (host.send m).run s with ⟨_ | _, s'⟩ <;> rfl

theorem perform_listen (next : Command → Conversation) :
    (listen next).perform host = (do
      let c ← Action.perform host.receive
      (next c).perform host) := by
  refine Action.ext_outcome fun s => ?_
  rw [Conversation.listen, perform, Action.perform]
  simp only [Action.outcome_bind, Action.outcome_ask]
  rcases host.receive.run s with ⟨_ | _, s'⟩ <;> rfl

/-- **The report of an outcome is its conversation**: in no world does a step of the worker's
settlement fail. -/
theorem perform_conversation (report : Option Envelope) :
    (conversation report).perform host = reportOutcome host report := by
  cases report with
  | none =>
    simp only [conversation, perform_say]
    rfl
  | some e =>
    have hclosing : ∀ attach, (closing e attach).perform host = (do
        if attach then Action.ask (debug host e)
        Action.perform (host.send .finished)
        return .failed attach) := by
      intro attach
      cases attach with
      | true =>
        rw [closing, perform, perform_say]
        rfl
      | false =>
        rw [closing, perform_say]
        rfl
    simp only [conversation, perform_say, perform_listen, hclosing]
    refine congrArg _ (funext fun _ => congrArg _ (funext fun _ => congrArg _ (funext fun c => ?_)))
    cases wantsDebugger c <;> rfl

end Worker

/-! ## The orchestrator's side -/

namespace Campaign

variable {σ : Type} (host : CampaignHost σ) (plan : CampaignPlan) (rounds : Nat) (index : UInt64)

/-- Handle a worker whose test failed, without the steps of the settlement. -/
def concludeFailedUnchecked (e : Envelope) : Action σ Verdict := do
  let attach ← decideAttach host plan index e
  sendDecision host index attach
  awaitFinished host plan rounds index
  reap host plan.reapTimeout rounds index
  return .failed e attach

/-- Handle a worker that says that it is done, without the steps of the settlement. -/
def concludeUnchecked : Action σ Verdict := do
  match ← Action.ask (host.exception index) with
  | .got none =>
    reap host plan.reapTimeout rounds index
    return .passed
  | .got (some e) => concludeFailedUnchecked host plan rounds index e
  | _ => throw (.error (noOutcome index))

theorem concludeFailed_eq (e : Envelope) :
    concludeFailed host plan rounds index e =
      concludeFailedUnchecked host plan rounds index e := by
  change (decideAttach host plan index e >>= _) = (decideAttach host plan index e >>= _)
  refine congrArg _ (funext fun attach => ?_)
  cases attach <;> rfl

/-- **No step of the orchestrator's settlement fails**: in every world it does what it would do
without them. -/
theorem conclude_eq :
    conclude host plan rounds index = concludeUnchecked host plan rounds index := by
  unfold conclude concludeUnchecked
  simp only [← concludeFailed_eq]
  rfl

end Campaign

end FuzzCampaign
