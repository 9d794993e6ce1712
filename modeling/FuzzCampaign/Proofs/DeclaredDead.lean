import FuzzCampaign.Proofs.Invariance
import FuzzCampaign.Proofs.ReapedOnce

/-!
# Why a worker is declared dead

A campaign that ends because a worker died has a reason for it in its record, in every world. The
worker showed that it was gone, and then either the period of grace passed within this one look, or
a completion of it that was due was looked for once more and not found; else its decision was not
delivered, its question was abandoned, or the world said itself that a worker died.

* `CampaignDeed.ShowsGone`, `CompletionDue`, `Missed`: what is not found at a worker that is gone;
* `DeclaredDead`: the other reasons; `Founded`: a stop with its reason;
* `Campaign.adds_lookAfter_founded`, `adds_conclude_founded`: what is done with one worker;
* `Orchestrator.Notes`: since when workers are gone; `Campaign.yields_sweep_founded`;
* **`Campaign.yields_run_founded`**: a whole campaign.
-/

namespace FuzzCampaign

/-! ## Reasons -/

/-- A worker shows that it is gone: it has exited, or it has closed its link. -/
inductive CampaignDeed.ShowsGone (i : UInt64) : CampaignDeed → Prop
  | exited (status : String) : ShowsGone i (.looked i (.ok (some status)))
  | hungUp : ShowsGone i (.polled i .disconnected)

/-- The worker has shown that it is gone. -/
def SeenGone (i : UInt64) (log : List CampaignDeed) : Prop := ∃ d ∈ log, d.ShowsGone i

/-- The worker has not signalled, or it has signalled once and reported a failure. -/
def CompletionDue (i : UInt64) (log : List CampaignDeed) : Prop :=
  signalsOf i log = 0 ∨ signalsOf i log = 1 ∧ ∃ e, reportsOf i log = [some e]

/-- A completion that was due was not found at a worker that had shown that it was gone. -/
def Missed (i : UInt64) (log : List CampaignDeed) : Prop :=
  ∃ before p after, log = before ++ .polled i p :: after ∧ SeenGone i before ∧
    CompletionDue i before ∧ p ≠ .got ()

/-- A reason for which a worker is declared dead with a status, other than a missed completion. -/
inductive DeclaredDead (grace : Duration) (i : UInt64) (status : String) (log : List CampaignDeed) :
    Prop
  /-- Nothing was found, the worker was seen to be gone, and the whole period of grace passed from
  this look at the worker to the next look at the clock. -/
  | atOnce (p status? since now)
    (hlook : [.polled i p, .looked i (.ok status?), .readClock since, .readClock now] <:+: log)
    (hpoll : p ≠ .got ()) (hstatus : status?.getD Campaign.linkClosed = status)
    (hgrace : grace.nanoseconds ≤ now - since)
  /-- The decision on its failure was not delivered. -/
  | undelivered (attach e) (hsend : .commanded i (.decision attach) (.error e) ∈ log)
  /-- The question on its failure was abandoned. -/
  | abandoned (e) (hask : .asked i e .abandoned ∈ log)
  /-- A look at a worker was answered so. -/
  | lookFailed (j) (hlook : .looked j (.error (.workerDied i status)) ∈ log)
  /-- The start of a worker was answered so. -/
  | startFailed (task) (hstart : .started task (.error (.workerDied i status)) ∈ log)

/-- If an action stops because a worker died, there is a reason. -/
def Founded (grace : Duration) (stop : Stop) (log : List CampaignDeed) : Prop :=
  ∀ i status, stop = .error (.workerDied i status) → Missed i log ∨ DeclaredDead grace i status log

section

variable {grace : Duration} {i : UInt64} {status : String} {stop : Stop}
  {log l : List CampaignDeed}

theorem SeenGone.append (h : SeenGone i log) (l : List CampaignDeed) : SeenGone i (log ++ l) := by
  obtain ⟨d, hd, hgone⟩ := h
  exact ⟨d, List.mem_append_left l hd, hgone⟩

theorem Missed.append (h : Missed i log) (l : List CampaignDeed) : Missed i (log ++ l) := by
  obtain ⟨before, p, after, rfl, hgone, hdue, hp⟩ := h
  exact ⟨before, p, after ++ l, by simp, hgone, hdue, hp⟩

theorem DeclaredDead.append (h : DeclaredDead grace i status log) (l : List CampaignDeed) :
    DeclaredDead grace i status (log ++ l) := by
  cases h with
  | atOnce p status? since now hlook hpoll hstatus hgrace =>
    exact .atOnce p status? since now (hlook.trans (List.prefix_append log l).isInfix) hpoll hstatus
      hgrace
  | undelivered attach e hsend => exact .undelivered attach e (List.mem_append_left l hsend)
  | abandoned e hask => exact .abandoned e (List.mem_append_left l hask)
  | lookFailed j hlook => exact .lookFailed j (List.mem_append_left l hlook)
  | startFailed task hstart => exact .startFailed task (List.mem_append_left l hstart)

theorem Founded.append (h : Founded grace stop log) (l : List CampaignDeed) :
    Founded grace stop (log ++ l) :=
  fun i status hstop => (h i status hstop).imp (·.append l) (·.append l)

theorem founded_abort (message : String) : Founded grace (.abort message) log := by
  intro i status h
  cases h

theorem founded_outOfRounds : Founded grace .outOfRounds log := by
  intro i status h
  cases h

theorem founded_of_ne {e : CampaignError} (h : ∀ i status, e ≠ .workerDied i status) :
    Founded grace (.error e) log :=
  fun i status hstop => absurd (Stop.error.inj hstop) (h i status)

end

namespace Action

variable {δ σ α : Type} {act : Action (Recorded δ σ) α} {Q Q' : α → List δ → Prop}
  {E E' : Stop → List δ → Prop}

theorem Adds.and (h : Adds act Q E) (h' : Adds act Q' E') :
    Adds act (fun a l => Q a l ∧ Q' a l) fun stop l => E stop l ∧ E' stop l := by
  refine fun r => ((h r).and (h' r)).mono ?_ ?_
  · rintro a r' ⟨⟨l, hl, hq⟩, l', hl', hq'⟩
    obtain rfl := List.append_cancel_left (hl.symm.trans hl')
    exact ⟨l, hl, hq, hq'⟩
  · rintro stop r' ⟨⟨l, hl, he⟩, l', hl', he'⟩
    obtain rfl := List.append_cancel_left (hl.symm.trans hl')
    exact ⟨l, hl, he, he'⟩

end Action

namespace Campaign

open FuzzCampaign.Action

variable {σ : Type} (host : CampaignHost σ) (plan : CampaignPlan) (rounds : Nat) (i : UInt64)
  {base : List CampaignDeed}

/-! ## One worker -/

/-- A look after a worker of which nothing was found, as a completion of it was due. -/
theorem adds_lookAfter_founded (hdue : CompletionDue i base) {since? : Option Nat}
    (hgone : since? ≠ none → SeenGone i base) {p : Poll Unit} (hp : p ≠ .got ())
    (disconnected : Bool) (hdis : disconnected = true → p = .disconnected) (grace : Duration) :
    Adds (lookAfter host.recorded grace i disconnected since?)
      (fun r l => r ≠ none → SeenGone i (base ++ .polled i p :: l))
      fun stop l => Founded grace stop (base ++ .polled i p :: l) := by
  rw [lookAfter]
  refine adds_perform_bind (fun status? => ?_) fun e => ?_
  · rcases hor : status?.or (if disconnected then some linkClosed else none) with _ | status
    · exact adds_pure (absurd rfl)
    · -- the worker is gone: it has exited, or it has closed its link
      have hshows : ∀ l, SeenGone i (base ++ .polled i p :: .looked i (.ok status?) :: l) := by
        intro l
        rcases status? with _ | s
        · rcases hdis' : disconnected with _ | _
          · rw [hdis'] at hor
            cases hor
          · rw [hdis hdis']
            exact ⟨_, by simp, .hungUp⟩
        · exact ⟨_, by simp, .exited s⟩
      have hstatus : status?.getD linkClosed = status := by
        rcases status? with _ | s
        · cases disconnected <;> cases hor
          rfl
        · exact Option.some.inj hor
      rcases since? with _ | since
      · refine adds_noting_bind fun since => adds_noting_bind fun now => ?_
        by_cases hgrace : grace.nanoseconds ≤ now - since
        · rw [if_pos hgrace]
          refine adds_throw fun j status' hstop => .inr ?_
          cases hstop
          refine .atOnce p status? since now ⟨base, [], ?_⟩ hp hstatus hgrace
          simp
        · rw [if_neg hgrace]
          exact adds_pure fun _ => hshows _
      · simp only [pure_bind]
        refine adds_noting_bind fun now => ?_
        by_cases hgrace : grace.nanoseconds ≤ now - since
        · rw [if_pos hgrace]
          refine adds_throw fun j status' hstop => .inl ?_
          cases hstop
          exact ⟨base, p, _, rfl, hgone (Option.some_ne_none since), hdue, hp⟩
        · rw [if_neg hgrace]
          exact adds_pure fun _ => hshows _
  · intro j status hstop
    cases hstop
    exact .inr (.lookFailed i (by simp))

theorem adds_awaitRound_founded (hdue : CompletionDue i base) {since? : Option Nat}
    (hgone : since? ≠ none → SeenGone i base) :
    Adds (awaitRound host.recorded plan i since?)
      (fun r l => ∀ since?, r = some since? → since? ≠ none → SeenGone i (base ++ l))
      fun stop l => Founded plan.deadWorkerGrace stop (base ++ l) := by
  rw [awaitRound]
  refine adds_noting_bind fun p => ?_
  rcases p with _ | _ | _
  · exact adds_pure fun _ h => by cases h
  · have hlook := adds_lookAfter_founded host i hdue hgone (p := .empty) (by simp) false (by simp)
      plan.deadWorkerGrace
    refine hlook.bind (fun since? l hl => adds_pure ?_) fun _ _ => id
    rintro _ ⟨⟩
    rw [List.append_nil]
    exact hl
  · have hlook := adds_lookAfter_founded host i hdue hgone (p := .disconnected) (by simp) true
      (fun _ => rfl) plan.deadWorkerGrace
    refine hlook.bind (fun since? l hl => ?_) fun _ _ => id
    rw [CampaignHost.recorded_sleep]
    refine adds_noting_bind fun _ => adds_pure ?_
    rintro _ ⟨⟩ hsince
    have happend := (hl hsince).append [.slept plan.pollInterval]
    rwa [List.append_assoc] at happend

theorem adds_awaitFrom_founded (hsignals : signalsOf i base = 1) {e : Envelope}
    (hreports : reportsOf i base = [some e]) (since? : Option Nat)
    (hgone : since? ≠ none → SeenGone i base) :
    Adds (awaitFrom host.recorded plan i rounds since?) (fun _ _ => True)
      fun stop l => Founded plan.deadWorkerGrace stop (base ++ l) := by
  induction rounds generalizing base since? with
  | zero => exact adds_throw founded_outOfRounds
  | succ rounds ih =>
    rw [awaitFrom]
    refine ((adds_awaitRound host plan i since?).and (adds_awaitRound_founded host plan i
      (.inr ⟨hsignals, e, hreports⟩) hgone)).bind ?_ fun _ _ => And.right
    rintro (_ | since?) l ⟨hl, hgone'⟩
    · exact adds_pure trivial
    · -- nothing was taken in this round
      have hsignals' : signalsOf i (base ++ l) = 1 := by
        rw [signalsOf_append, hsignals, hl.signals_eq]
        rfl
      have hreports' : reportsOf i (base ++ l) = [some e] := by
        rw [reportsOf_append, hreports, hl.reports_eq]
        rfl
      simpa only [List.append_assoc] using ih hsignals' hreports' since? (hgone' since? rfl)

theorem adds_decideAttach_founded (e : Envelope) :
    Adds (decideAttach host.recorded plan i e) (fun _ _ => True)
      fun stop l => Founded plan.deadWorkerGrace stop (base ++ l) := by
  have hask : Adds (askUser host.recorded i e) (fun _ _ => True)
      fun stop l => Founded plan.deadWorkerGrace stop (base ++ l) := by
    rw [askUser]
    refine adds_noting_bind fun reply => ?_
    rcases reply with attach | _ | _
    · exact adds_pure trivial
    · refine adds_noting_bind fun r => ?_
      have hdied : ∀ status, Founded plan.deadWorkerGrace (.error (.workerDied i status))
          (base ++ [.asked i e .abandoned, .looked i r]) := by
        intro status j status' hstop
        cases hstop
        exact .inr (.abandoned e (by simp))
      rcases r with _ | _ | _
      · exact adds_throw (hdied _)
      · exact adds_throw (hdied _)
      · exact adds_throw (hdied _)
    · exact adds_pure trivial
  rw [decideAttach]
  split_ifs
  · exact adds_aside_bind fun _ => hask
  · exact adds_aside_bind fun _ => adds_pure trivial
  · exact adds_pure trivial

theorem adds_sendDecision_founded (base : List CampaignDeed) (attach : Bool) :
    Adds (sendDecision host.recorded i attach) (fun _ _ => True)
      fun stop l => Founded plan.deadWorkerGrace stop (base ++ l) := by
  rw [sendDecision]
  refine adds_noting_bind fun r => ?_
  cases r with
  | ok _ => exact adds_pure trivial
  | error e =>
    refine adds_throw fun j status hstop => .inr ?_
    cases hstop
    exact .undelivered attach e (by simp)

theorem adds_reap_founded (base : List CampaignDeed) :
    Adds (reap host.recorded plan.reapTimeout rounds i) (fun _ _ => True)
      fun stop l => Founded plan.deadWorkerGrace stop (base ++ l) :=
  (adds_reap host rounds i plan.reapTimeout).mono (fun _ _ _ => trivial) fun _ _ hstop =>
    hstop ▸ founded_outOfRounds

theorem adds_concludeFailed_founded (hsignals : signalsOf i base = 1) {e : Envelope}
    (hreports : reportsOf i base = [some e]) :
    Adds (concludeFailed host.recorded plan rounds i e) (fun _ _ => True)
      fun stop l => Founded plan.deadWorkerGrace stop (base ++ l) := by
  rw [concludeFailed_eq, concludeFailedUnchecked]
  refine ((adds_decideAttach host plan i e).and (adds_decideAttach_founded host plan i e)).bind
    (fun attach l₁ h₁ => ?_) fun _ _ => And.right
  refine ((adds_sendDecision host i attach).and
    (adds_sendDecision_founded host plan i (base ++ l₁) attach)).bind
    (fun _ l₂ h₂ => ?_) fun _ l h => by simpa only [List.append_assoc] using h.2
  have hsignals' : signalsOf i (base ++ l₁ ++ l₂) = 1 := by
    rw [signalsOf_append, signalsOf_append, hsignals, h₁.1.signals_eq, h₂.1.signals_eq]
  have hreports' : reportsOf i (base ++ l₁ ++ l₂) = [some e] := by
    rw [reportsOf_append, reportsOf_append, hreports, h₁.1.reports_eq, h₂.1.reports_eq]
    rfl
  refine (adds_awaitFrom_founded host plan rounds i hsignals' hreports' none (absurd rfl)).bind
    (fun _ l₃ _ => ?_) fun _ l h => by simpa only [List.append_assoc] using h
  refine (adds_reap_founded host plan rounds i (base ++ l₁ ++ l₂ ++ l₃)).bind
    (fun _ _ _ => adds_pure trivial) fun _ l h => by simpa only [List.append_assoc] using h

theorem founded_noOutcome {grace : Duration} {log : List CampaignDeed} :
    Founded grace (.error (noOutcome i)) log := founded_of_ne nofun

theorem adds_conclude_founded (hsignals : signalsOf i base = 1) (hreports : reportsOf i base = []) :
    Adds (conclude host.recorded plan rounds i) (fun _ _ => True)
      fun stop l => Founded plan.deadWorkerGrace stop (base ++ l) := by
  rw [conclude]
  refine adds_noting_bind fun r => ?_
  rcases r with (_ | e) | _ | _
  · refine (adds_reap_founded host plan rounds i (base ++ [.informed i (.got none)])).bind
      (fun _ _ _ => adds_pure trivial) fun _ l h => by rwa [List.append_assoc] at h
  · have hsignals' : signalsOf i (base ++ [.informed i (.got (some e))]) = 1 := by
      rw [signalsOf_append, hsignals]
      rfl
    have hreports' : reportsOf i (base ++ [.informed i (.got (some e))]) = [some e] := by
      rw [reportsOf_append, hreports]
      simp [CampaignDeed.report?]
    simpa only [List.append_assoc, List.singleton_append] using
      adds_concludeFailed_founded host plan rounds i hsignals' hreports'
  · exact adds_throw (founded_noOutcome i)
  · exact adds_throw (founded_noOutcome i)

end Campaign

/-! ## The workers that are left -/

namespace Orchestrator

variable {σ : Type}

/-- Of these workers those that are known to be gone have shown it. -/
def Notes (workers : List OpenWorker) (o : Orchestrator (Recorded CampaignDeed σ)) : Prop :=
  ∀ w ∈ workers, w.goneSince? ≠ none → SeenGone w.index o.log

/-- If a campaign stops because a worker died, there is a reason. -/
def Stops (plan : CampaignPlan) (stop : Stop) (o : Orchestrator (Recorded CampaignDeed σ)) : Prop :=
  Founded plan.deadWorkerGrace stop o.log

variable {plan : CampaignPlan} {o o' : Orchestrator (Recorded CampaignDeed σ)}
  {workers workers' : List OpenWorker} {l : List CampaignDeed} {stop : Stop}

theorem Notes.grows (h : o.Notes workers) (hgrows : o.Grows l o') : o'.Notes workers := by
  intro w hw hgone
  rw [hgrows.log]
  exact (h w hw hgone).append l

theorem Notes.subset (h : o.Notes workers) (hsub : workers' ⊆ workers) : o.Notes workers' :=
  fun w hw => h w (hsub hw)

theorem Stops.grows (h : o.Stops plan stop) (hgrows : o.Grows l o') : o'.Stops plan stop := by
  unfold Stops
  rw [hgrows.log]
  exact h.append l

end Orchestrator

namespace Campaign

open FuzzCampaign.Action Orchestrator

variable {σ : Type} (host : CampaignHost σ) (plan : CampaignPlan) (rounds : Nat)
  {o : Orchestrator (Recorded CampaignDeed σ)}

theorem yields_look_founded {w : OpenWorker} (hsignals : signalsOf w.index o.log = 0)
    (hgone : w.goneSince? ≠ none → SeenGone w.index o.log) :
    Yields (look host.recorded plan w) o (fun s o' => o'.Notes [s.worker])
      fun stop o' => o'.Stops plan stop := by
  have hnotes : ∀ {s : Sighting} {o' : Orchestrator (Recorded CampaignDeed σ)},
      (s.worker.goneSince? ≠ none → SeenGone s.worker.index o'.log) → o'.Notes [s.worker] := by
    intro s o' h w hw
    obtain rfl := List.mem_singleton.1 hw
    exact h
  rw [look, yields_bind]
  refine (yields_drain host w.index).imp ?_
  rintro had o₁ ⟨snapshots, hgrows⟩
  have hdue : CompletionDue w.index o₁.log := by
    refine .inl ?_
    rw [hgrows.log, signalsOf_append, hsignals]
    rfl
  have hgone₁ : w.goneSince? ≠ none → SeenGone w.index o₁.log := by
    intro h
    rw [hgrows.log]
    exact (hgone h).append _
  rw [yields_bind]
  refine ((adds_noting (Q := fun p l => l = [.polled w.index p])
    fun _ => rfl).outside_sure o₁).imp ?_
  rintro p o₂ ⟨_, hgrows₂, rfl⟩
  -- a worker that said nothing is looked after
  have hlook : ∀ disconnected, p ≠ .got () → (disconnected = true → p = .disconnected) →
      Yields (outside (lookAfter host.recorded plan.deadWorkerGrace w.index disconnected
        w.goneSince?)) o₂ (fun since? o' => since? ≠ none → SeenGone w.index o'.log)
        fun stop o' => o'.Stops plan stop := by
    intro disconnected hp hdis
    refine ((adds_lookAfter_founded host w.index hdue hgone₁ hp disconnected hdis _).outside
      o₂).mono ?_ ?_
    · rintro since? o₃ ⟨l, hgrows₃, hl⟩ hsince
      rw [hgrows₃.log, hgrows₂.log, List.append_assoc]
      exact hl hsince
    · rintro stop o₃ ⟨l, hgrows₃, hl⟩
      unfold Stops
      rw [hgrows₃.log, hgrows₂.log, List.append_assoc]
      exact hl
  rcases p with _ | _ | _
  · refine hnotes fun h => ?_
    rw [hgrows₂.log]
    exact (hgone₁ h).append _
  · exact yields_bind.2 ((hlook false (by simp) (by simp)).imp fun since? o₃ h => hnotes h)
  · exact yields_bind.2 ((hlook true (by simp) fun _ => rfl).imp fun since? o₃ h => hnotes h)

theorem yields_look_next_founded {made : List Sighting} {w : OpenWorker} {left : List OpenWorker}
    (h : o.Looks plan.reapTimeout made (w :: left))
    (hnotes : o.Notes (made.map (·.worker) ++ w :: left)) :
    Yields (look host.recorded plan w) o
      (fun s o' => o'.Looks plan.reapTimeout (made ++ [s]) left ∧
        o'.Notes ((made ++ [s]).map (·.worker) ++ left))
      fun stop o' => o'.Breaks plan.reapTimeout stop ∧ o'.Stops plan stop := by
  have hlook := yields_look_founded host plan (h.2.2.2 w List.mem_cons_self)
    (hnotes w (by simp))
  refine ((yields_look_next host plan h).and ((yields_look host plan w).and hlook)).mono ?_ ?_
  · rintro s o' ⟨hlooks, ⟨l, hgrows, -, -⟩, hnotes'⟩
    refine ⟨hlooks, fun u hu => ?_⟩
    rw [List.map_append, List.append_assoc, List.mem_append, List.mem_append] at hu
    rcases hu with hu | hu | hu
    · exact hnotes.grows hgrows u (List.mem_append_left _ hu)
    · exact hnotes' u hu
    · exact hnotes.grows hgrows u (List.mem_append_right _ (List.mem_cons_of_mem _ hu))
  · rintro stop o' ⟨hbreaks, -, hstops⟩
    exact ⟨hbreaks, hstops⟩

theorem yields_complete_founded {w : OpenWorker} (hsignals : signalsOf w.index o.log = 1)
    (hreports : reportsOf w.index o.log = []) (hnotes : o.Notes o.active) :
    Yields (complete host.recorded plan rounds w) o (fun _ o' => o'.Notes o'.active)
      fun stop o' => o'.Stops plan stop := by
  have hleft : Notes (o.without w.index).active (o.without w.index) :=
    hnotes.subset (List.filter_subset_self _)
  refine yields_complete_of host plan rounds
    (adds_conclude_founded host plan rounds w.index hsignals hreports o.world) ?_ ?_ ?_
  · rintro v r o' snapshots ⟨l, hlog, -⟩ hgathered
    have hgrows := (grows_outside (o := o.without w.index) hlog).trans hgathered
    change o'.Notes o'.active
    rw [hgrows.active]
    exact hleft.grows hgrows
  · rintro e r o₁ snapshots ⟨l, hlog, hstop⟩ hgathered
    have hstops : Stops plan (.error e) { o.without w.index with world := r } := by
      change Founded plan.deadWorkerGrace _ r.deeds
      rw [hlog]
      exact hstop
    refine ((adds_shutdown host rounds w.index plan.reapTimeout).outside o₁).mono ?_ ?_
    · rintro _ o₂ ⟨l₂, hgrows₂, -⟩
      exact (hstops.grows hgathered).grows hgrows₂
    · rintro stop o₂ ⟨_, _, rfl⟩
      exact founded_outOfRounds
  · rintro (e | message | _) r hne -
    · exact absurd rfl (hne e)
    · exact founded_abort message
    · exact founded_outOfRounds

theorem yields_complete_next_founded {w : OpenWorker} {left : List OpenWorker}
    (h : o.Settles plan.reapTimeout (w :: left)) (hnotes : o.Notes o.active) :
    Yields (complete host.recorded plan rounds w) o
      (fun _ o' => o'.Settles plan.reapTimeout left ∧ o'.Notes o'.active)
      fun stop o' => o'.Breaks plan.reapTimeout stop ∧ o'.Stops plan stop := by
  obtain ⟨hw, hsignals⟩ := h.2.2.1 w List.mem_cons_self
  exact (yields_complete_next host plan rounds h).and
    (yields_complete_founded host plan rounds hsignals (h.1.unreported _ hw) hnotes)

/-! ## Sweeps -/

/-- The state between two sweeps. -/
def Attentive (plan : CampaignPlan) (o : Orchestrator (Recorded CampaignDeed σ)) : Prop :=
  o.Watches plan.reapTimeout ∧ o.Notes o.active

/-- A stop at which the workers can be ended that are left, and which has its reason. -/
def Excused (plan : CampaignPlan) (stop : Stop) (o : Orchestrator (Recorded CampaignDeed σ)) :
    Prop :=
  o.Breaks plan.reapTimeout stop ∧ o.Stops plan stop

variable {plan} in
theorem Attentive.grows (h : Attentive plan o) {o' : Orchestrator (Recorded CampaignDeed σ)}
    {l : List CampaignDeed} (hgrows : o.Grows l o')
    (hl : ∀ d ∈ l, ∃ pause, d = .slept pause) : Attentive plan o' := by
  refine ⟨h.1.grows hgrows hl, ?_⟩
  rw [hgrows.active]
  exact h.2.grows hgrows

/-- **A sweep that stops because a worker died has a reason.** -/
theorem yields_sweep_founded (h : Attentive plan o) :
    Yields (sweep host.recorded plan rounds) o (fun _ o' => Attentive plan o') (Excused plan) := by
  have hlooks : o.Looks plan.reapTimeout [] o.active :=
    ⟨h.1.1, rfl, List.forall_mem_nil _, fun w hw => h.1.2 w.index (List.mem_map_of_mem hw)⟩
  change Yields (o.active.mapM (look host.recorded plan) >>= _) o _ _
  rw [yields_bind]
  refine (yields_mapM (fun made left o => o.Looks plan.reapTimeout made left ∧
      o.Notes (made.map (·.worker) ++ left))
    (fun made w left o h => yields_look_next_founded host plan h.1 h.2) o.active []
    ⟨hlooks, h.2⟩).imp fun sightings o₁ h₁ => ?_
  rw [yields_bind]
  change Yields (_ >>= _) { o₁ with active := sightings.map Sighting.worker } _ _
  rw [yields_bind]
  have hnotes : Notes (sightings.map Sighting.worker)
      { o₁ with active := sightings.map Sighting.worker } := by
    have hnotes₁ := h₁.2
    rwa [List.nil_append, List.append_nil] at hnotes₁
  refine (yields_mapM (fun _ left o => o.Settles plan.reapTimeout left ∧ o.Notes o.active)
    (fun made w left o h => yields_complete_next_founded host plan rounds h.1 h.2) _ []
    ⟨h₁.1.settles, hnotes⟩).imp fun late o₂ h₂ => ?_
  have hattentive : Attentive plan o₂ :=
    ⟨⟨h₂.1.1, fun i hi => (h₂.1.2.2.2 i hi).resolve_left List.not_mem_nil⟩, h₂.2⟩
  refine (yields_afterwards host plan _ _).mono ?_ ?_
  · rintro _ o₃ ⟨l, hgrows, hl⟩
    exact hattentive.grows hgrows hl
  · rintro _ o₃ ⟨message, rfl, -⟩
    exact ⟨breaks_abort message, founded_abort message⟩

theorem yields_sweeps_founded (h : Attentive plan o) :
    Yields (repeatUntil (sweepRound host.recorded plan rounds) rounds) o (fun _ _ => True)
      (Excused plan) := by
  refine yields_repeatUntil (Attentive plan) (fun o h => ?_)
    (fun _ _ => ⟨breaks_outOfRounds, founded_outOfRounds⟩) rounds h
  change Yields (if o.active.isEmpty then pure (some ()) else do
    sweep host.recorded plan rounds
    return none) o _ _
  split_ifs
  · trivial
  · exact yields_bind.2 ((yields_sweep_founded host plan rounds h).imp fun _ _ h => h)

/-! ## The whole campaign -/

/-- No worker that is started is known to be gone, and only the answer to a start can say that one
died. -/
theorem yields_spawnFrom_fresh (test : TestCase) (n : Nat) (seeds : List Seed)
    (h : ∀ w ∈ o.active, w.goneSince? = none) :
    Yields (spawnFrom host.recorded plan test n seeds) o
      (fun _ o' => ∀ w ∈ o'.active, w.goneSince? = none) fun stop o' => ∀ i status,
        stop = .error (.workerDied i status) →
          ∃ task, .started task (.error (.workerDied i status)) ∈ o'.log := by
  induction seeds generalizing o n with
  | nil => exact h
  | cons seed seeds ih =>
    rw [spawnFrom, yields_bind, spawnWorker, yields_bind]
    refine (yields_aside _ rfl).imp fun _ o₁ h₁ => ?_
    rcases plan.taskOf test (UInt64.ofNat n) seed with e | task
    · rintro i status ⟨⟩
    · change Yields (outside (perform (host.recorded.spawn task)) >>= fun _ => _) o₁ _ _
      rw [yields_bind, yields_outside, yields_perform]
      have hspawn : host.recorded.spawn task = Recorded.noting (.started task) (host.spawn task) :=
        rfl
      rw [hspawn, Recorded.run_noting]
      rcases ((host.spawn task).run o₁.world.world).1 with e | _
      · rintro i status ⟨⟩
        exact ⟨task, List.mem_append_right _ (List.mem_singleton_self _)⟩
      · refine ih (n + 1) fun w hw => ?_
        rcases List.mem_append.1 hw with hw | hw
        · exact h w (h₁.active ▸ hw)
        · rw [List.mem_singleton.1 hw]

/-- Whatever the reason for a stop, it stays one when the workers are ended that are left. -/
theorem yields_endAll_founded {e : CampaignError} (h : o.Stops plan (.error e)) :
    Yields (endAll host.recorded plan rounds) o (fun _ o' => o'.Stops plan (.error e))
      fun stop _ => stop = .outOfRounds := by
  change Yields ((o.active.forM fun w => outside (sendShutdown host.recorded w.index)) >>= _) o _ _
  rw [yields_bind]
  refine (yields_forM (fun _ o => Stops plan (.error e) o) (fun w _ o h => ?_) o.active h).imp
    fun _ o₁ h₁ => ?_
  · refine ((adds_sendShutdown host w.index).outside_sure o).imp ?_
    rintro _ o' ⟨_, hgrows, -⟩
    exact h.grows hgrows
  · refine yields_forM (fun _ o => Stops plan (.error e) o) (fun w _ o h => ?_) o.active h₁
    refine ((adds_reap host rounds w.index plan.reapTimeout).outside o).mono ?_ ?_
    · rintro _ o' ⟨_, hgrows, -⟩
      exact h.grows hgrows
    · exact fun stop o' ⟨_, _, hstop⟩ => hstop

theorem yields_orchestrate_founded (test : TestCase) (seeds : List Seed)
    (hlength : seeds.length ≤ word64) (w : σ) :
    Yields (orchestrate host.recorded plan test rounds seeds) (.start ⟨w, []⟩) (fun _ _ => True)
      fun stop o => o.Stops plan stop := by
  have hn := nodup_places seeds hlength
  refine yields_orchestrate_of_course host plan rounds (C := fun _ => True) (fun o hgrows => ?_)
    (fun _ _ _ _ => trivial) (fun e o hstop => ?_) (fun _ _ => id) fun _ => id
  · have hbeginning := beginning_of_grows hgrows
    have hactive : o.active = [] := hgrows.active
    have hfresh : ∀ w ∈ o.active, w.goneSince? = none := by
      rw [hactive]
      exact List.forall_mem_nil _
    rw [yields_bind]
    refine ((yields_spawnFrom host plan 0 seeds hbeginning).and
      (yields_spawnFrom_fresh host plan test 0 seeds hfresh)).mono ?_
        fun stop o₂ h₂ i status hstop => .inr (.startFailed _ (h₂.2 i status hstop).choose_spec)
    rintro _ o₂ ⟨h₂, hfresh₂⟩
    refine (yields_sweeps_founded host plan rounds ⟨h₂.watches _ hn, fun w hw hgone => ?_⟩).mono
      (fun _ _ _ => trivial) fun _ _ => And.right
    exact absurd (hfresh₂ w hw) hgone
  · refine (yields_endAll_founded host plan rounds hstop).mono
      (fun _ o₃ h₃ o₄ hgrows => h₃.grows hgrows) ?_
    rintro _ o₃ rfl
    exact founded_outOfRounds

theorem ne_died_of_validate {hasLogsDir : Bool} {stop : Stop}
    (h : plan.validate hasLogsDir = .error stop) (i : UInt64) (status : String) :
    stop ≠ .error (.workerDied i status) := by
  rintro rfl
  unfold CampaignPlan.validate at h
  by_cases hcount : plan.processCount = 0
  · rw [if_pos hcount] at h
    cases h
  · rw [if_neg hcount] at h
    by_cases hcoverage : plan.processCount < plan.coverageWorkers
    · rw [if_pos hcoverage] at h
      cases h
    · rw [if_neg hcoverage] at h
      rcases hports : addExact plan.basePort.toUInt64 plan.processCount with e | firstFree
      · rw [hports] at h
        cases h
      · rw [hports] at h
        dsimp only at h
        split_ifs at h
        · cases h
        · cases h

/-- **A campaign that ends because a worker died has a reason in its record**, in every world, and
no two workers were started under one index. -/
theorem yields_run_founded (test : TestCase) (w : σ) :
    Yields (run host.recorded plan test rounds) ⟨w, []⟩ (fun _ _ => True) fun stop r =>
      ∀ i status, stop = .error (.workerDied i status) → (startedIn r.deeds).Nodup ∧
        (Missed i r.deeds ∨ DeclaredDead plan.deadWorkerGrace i status r.deeds) := by
  have hlength := length_seedsOf_le host.recorded plan ⟨w, []⟩
  refine yields_run host plan rounds (fun hasLogsDir stop w' hvalid i status hstop =>
    absurd hstop (ne_died_of_validate plan hvalid i status)) fun w' => ?_
  refine ((yields_orchestrate host plan rounds test _ hlength w').and
    (yields_orchestrate_founded host plan rounds test _ hlength w')).mono (fun _ _ _ => trivial) ?_
  rintro stop o ⟨hreaped, hstop⟩ i status rfl
  exact ⟨(hreaped _ rfl).1, hstop i status rfl⟩

end Campaign

end FuzzCampaign
