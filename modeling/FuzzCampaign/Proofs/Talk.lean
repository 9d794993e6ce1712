import FuzzCampaign.Proofs.NodeLifetime

/-!
# The run of a worker as a conversation

Before its report a worker hears nothing, so what it says depends on its own world alone: its node,
its log, its clock. Its run is therefore a conversation, which can go on beside those of others.

* `Conversation.Leads`: what a conversation comes to; **`Conversation.leads_perform`**;
* `Worker.talk`: the conversation of a worker's run; **`Worker.leads_run`**: it is that of the run;
* `Conversation.Silent`, **`Worker.silent_talk`**: where no coverage is collected, none is sent.
-/

namespace FuzzCampaign

variable {σ : Type}

/-- The coverage that was sent, whether it got through or not. -/
def coverageIn (deeds : List WorkerDeed) : List Snapshot :=
  snapshotsOf (deeds.filterMap (·.message?))

namespace Conversation

open FuzzCampaign.Action

/-- With some answers, a conversation comes to these deeds on the link. -/
def Leads : Conversation → List WorkerDeed → Prop
  | .ended _, l => l = []
  | .saying m next, l => ∃ answer rest, l = .said m answer :: rest ∧ Leads (next answer) rest
  | .hearing next, l => ∃ answer rest, l = .heard answer :: rest ∧ Leads (next answer) rest
  | .debugging _ next, l => Leads next l

/-- **In every world a conversation comes to what it leads to.** -/
theorem leads_perform (host : WorkerHost σ) (c : Conversation) :
    Adds (c.perform host.recorded) (fun _ l => c.Leads l) fun _ l => c.Leads l := by
  induction c with
  | ended r =>
    cases r with
    | ok v => exact adds_pure (E := fun _ l => l = []) rfl
    | error stop => exact adds_throw (Q := fun _ l => l = []) rfl
  | saying m next ih =>
    have hsend : host.recorded.send m = Recorded.noting (.said m) (host.send m) := rfl
    rw [perform, hsend]
    exact adds_noting_bind fun answer => (ih answer).mono
      (fun _ l hl => ⟨answer, l, rfl, hl⟩) fun _ l hl => ⟨answer, l, rfl, hl⟩
  | hearing next ih =>
    have hreceive : host.recorded.receive = Recorded.noting .heard host.receive := rfl
    rw [perform, hreceive]
    exact adds_noting_bind fun answer => (ih answer).mono
      (fun _ l hl => ⟨answer, l, rfl, hl⟩) fun _ l hl => ⟨answer, l, rfl, hl⟩
  | debugging e next ih =>
    rw [perform]
    exact adds_aside_bind fun _ => ih

variable {c : Conversation} {l coverage : List WorkerDeed}

theorem leads_afterCoverage (h : c.Leads l) (hcoverage : ∀ d ∈ coverage, d.IsCoverage) :
    (afterCoverage (coverageIn coverage) c).Leads (coverage ++ l) := by
  induction coverage with
  | nil => exact h
  | cons d coverage ih =>
    obtain ⟨s, answer, rfl⟩ := hcoverage d List.mem_cons_self
    exact ⟨answer, coverage ++ l, rfl, ih fun d hd => hcoverage d (List.mem_cons_of_mem _ hd)⟩

/-- A conversation is one on the link. -/
theorem step_of_leads (h : c.Leads l) : ∀ d ∈ l, d.step?.isSome = true := by
  induction c generalizing l with
  | ended r =>
    obtain rfl : l = [] := h
    exact List.forall_mem_nil _
  | saying m next ih | hearing next ih =>
    obtain ⟨answer, rest, rfl, hrest⟩ := h
    exact List.forall_mem_cons.2 ⟨rfl, ih answer hrest⟩
  | debugging e next ih => exact ih h

/-- No coverage is said, whatever is answered. -/
def Silent : Conversation → Prop
  | .ended _ => True
  | .saying m next => (∀ s, m ≠ .coverage s) ∧ ∀ answer, Silent (next answer)
  | .hearing next => ∀ answer, Silent (next answer)
  | .debugging _ next => Silent next

theorem silent_say {m : Dispatch} (hm : ∀ s, m ≠ .coverage s) (h : c.Silent) :
    (say m c).Silent := by
  refine ⟨hm, fun answer => ?_⟩
  cases answer with
  | ok _ => exact h
  | error e => trivial

theorem silent_listen {next : Command → Conversation} (h : ∀ c, (next c).Silent) :
    (listen next).Silent := by
  intro answer
  cases answer with
  | ok c => exact h c
  | error e => trivial

end Conversation

namespace Worker

open Conversation FuzzCampaign.Action

theorem silent_conversation (report : Option Envelope) : (conversation report).Silent := by
  have hfinished : ∀ {c : Conversation}, c.Silent → (say .finished c).Silent := fun h =>
    silent_say (fun _ => nofun) h
  cases report with
  | none => exact silent_say (fun _ => nofun) (hfinished trivial)
  | some e =>
    refine silent_say (fun _ => nofun) (hfinished (silent_listen fun c => ?_))
    cases wantsDebugger c with
    | true => exact hfinished trivial
    | false => exact hfinished trivial

/-- The run of a worker in the world `w` of its own, as a conversation. -/
def talk (host : WorkerHost σ) (test : TestCase) (body : FuzzBody (Recorded WorkerDeed σ))
    (retry : Patience) (rounds : Nat) (task : WorkerTask) (w : σ) : Conversation :=
  match (execute host.recorded test body task retry rounds).outcome ⟨w, []⟩ with
  | (.ok (_, report), r) => afterCoverage (coverageIn r.deeds) (conversation report)
  | (.error stop, _) => .ended (.error stop)

variable {host : WorkerHost σ} {body : FuzzBody (Recorded WorkerDeed σ)} {task : WorkerTask}

theorem filter_deeds {c : Conversation} {coverage l tail : List WorkerDeed}
    {answer : Except CampaignError Unit} (hcoverage : ∀ d ∈ coverage, d.IsCoverage)
    (hl : c.Leads l) (htail : ∀ d ∈ tail, d = .stopped) :
    (.launched answer :: coverage ++ l ++ tail).filter (·.step?.isSome) = coverage ++ l := by
  have hcoverage' : coverage.filter (·.step?.isSome) = coverage := by
    refine List.filter_eq_self.2 fun d hd => ?_
    obtain ⟨s, r, rfl⟩ := hcoverage d hd
    rfl
  have hl' : l.filter (·.step?.isSome) = l := List.filter_eq_self.2 (step_of_leads hl)
  have htail' : tail.filter (·.step?.isSome) = [] := by
    refine List.filter_eq_nil_iff.2 fun d hd => ?_
    rw [htail d hd]
    exact nofun
  rw [List.filter_append, List.filter_append, htail', hl', List.append_nil,
    List.filter_cons_of_neg (by exact nofun), hcoverage']

/-- **A run is its conversation**: what happens on the link is what the conversation leads to. -/
theorem leads_run (hbody : BenchWork host.recorded (body host.recorded task)) (test : TestCase)
    (retry : Patience) (rounds : Nat) (w : σ) :
    (talk host test body retry rounds task w).Leads
      (((run host.recorded test body task retry rounds).outcome ⟨w, []⟩).2.deeds.filter
        (·.step?.isSome)) := by
  have hexecute := yields_execute hbody test retry rounds ⟨w, []⟩
  unfold talk run
  rw [outcome_bind]
  rcases hrun : (execute host.recorded test body task retry rounds).outcome ⟨w, []⟩ with
    ⟨stop | ⟨hasNode, report⟩, r₁⟩
  · obtain ⟨-, hdeeds⟩ := hexecute.of_error hrun
    dsimp only
    rw [hdeeds]
    rfl
  · obtain ⟨answer, coverage, hdeeds, hnode, hcoverage⟩ := hexecute.of_ok hrun
    change hasNode = answer.isOk at hnode
    subst hnode
    rw [List.nil_append] at hdeeds
    dsimp only
    have hend : ∀ {l tail : List WorkerDeed} {r₂ r₃ : Recorded WorkerDeed σ},
        r₂.deeds = r₁.deeds ++ l → (conversation report).Leads l → r₃.deeds = r₂.deeds ++ tail →
        (∀ d ∈ tail, d = .stopped) →
          (afterCoverage (coverageIn r₁.deeds) (conversation report)).Leads
          (r₃.deeds.filter (·.step?.isSome)) := by
      intro l tail r₂ r₃ h₂ hl h₃ htail
      rw [h₃, h₂, hdeeds, filter_deeds hcoverage hl htail]
      exact leads_afterCoverage hl hcoverage
    have hstopped : ∀ d ∈ if answer.isOk then [WorkerDeed.stopped] else [], d = .stopped := by
      split_ifs <;> simp
    have hyields : Yields (do
        let result ← attempt (reportOutcome host.recorded report)
        if answer.isOk then ask host.recorded.stopNode
        lift result) r₁
        (fun _ r₃ => (afterCoverage (coverageIn r₁.deeds) (conversation report)).Leads
          (r₃.deeds.filter (·.step?.isSome)))
        fun _ r₃ => (afterCoverage (coverageIn r₁.deeds) (conversation report)).Leads
          (r₃.deeds.filter (·.step?.isSome)) := by
      rw [yields_bind, yields_attempt, ← perform_conversation]
      refine (leads_perform host (conversation report) r₁).mono ?_ ?_
      · rintro v r₂ ⟨l, h₂, hl⟩
        exact (yields_stop host answer (.ok v) r₂).mono
          (fun _ r₃ h₃ => hend h₂ hl h₃.2 hstopped) fun _ r₃ h₃ => hend h₂ hl h₃.2 hstopped
      · rintro stop r₂ ⟨l, h₂, hl⟩
        cases stop with
        | error e =>
          exact (yields_stop host answer (.error e) r₂).mono
            (fun _ r₃ h₃ => hend h₂ hl h₃.2 hstopped) fun _ r₃ h₃ => hend h₂ hl h₃.2 hstopped
        | abort message | outOfRounds =>
          exact hend h₂ hl (List.append_nil _).symm (List.forall_mem_nil _)
    exact Yields.final (P := fun r₃ : Recorded WorkerDeed σ => (afterCoverage _ _).Leads
      (r₃.deeds.filter _)) hyields

/-- **Where no coverage is collected, none is sent.** -/
theorem silent_talk (hbody : ProbeWork host.recorded (body host.recorded task)) {test : TestCase}
    (hcovers : ¬task.Covers test) (retry : Patience) (rounds : Nat) (w : σ) :
    (talk host test body retry rounds task w).Silent := by
  have hexecute := yields_execute_uncovered hbody hcovers retry rounds ⟨w, []⟩
  unfold talk
  rcases hrun : (execute host.recorded test body task retry rounds).outcome ⟨w, []⟩ with
    ⟨stop | ⟨hasNode, report⟩, r⟩
  · trivial
  · obtain ⟨answer, hdeeds, -⟩ := hexecute.of_ok hrun
    dsimp only
    rw [hdeeds]
    exact silent_conversation report

end Worker

end FuzzCampaign
