import FuzzCampaign.Proofs.FaithfulReport
import FuzzCampaign.Proofs.Incidents

/-!
# Links that are closed

Where completions come over links, a look that finds a link closed finds every completion taken that
was queued in it. From then on none is found, and none is left.

* `Channel.Spent`: a link that is closed and in which no completion is queued;
* `CampaignHost.Linked`: a world in which completions come over links;
* `TakenBefore`: what the record and the links show; **`Campaign.yields_run_takenBefore`**.
-/

namespace FuzzCampaign

/-! ## Links -/

/-- The worker's end of a link was dropped, and no completion is queued in it. -/
structure Channel.Spent (c : Channel) : Prop where
  closed : c.hasWorker = false
  empty : c.completions = []

theorem Channel.spent_of_disconnected {c after : Channel}
    (h : c.completion = (.disconnected, after)) :
    after.Spent := by
  rcases c with ⟨_ | _, _, _, _, hasWorker, _⟩
  · cases hasWorker <;> cases h
    exact ⟨rfl, rfl⟩
  · cases h

theorem Channel.not_spent_of_got {c after : Channel} (h : c.completion = (.got (), after)) :
    ¬c.Spent := by
  rintro ⟨-, hempty⟩
  rw [Channel.completion, hempty] at h
  cases hworker : c.hasWorker <;> rw [hworker] at h <;> cases h

/-- A look for a completion is a look into a link. Before it the worker may have queued more, unless
it had closed the link. -/
def Channel.LooksInto (before : Channel) (answer : Poll Unit) (after : Channel) : Prop :=
  ∃ c : Channel, (before.Spent → c.Spent) ∧ c.completion = (answer, after)

/-- A world in which completions come over links. -/
structure CampaignHost.Linked {σ : Type} (links : σ → UInt64 → Channel) (host : CampaignHost σ) :
    Prop where
  completion : ∀ i s, (links s i).LooksInto ((host.completion i).run s).1
    (links ((host.completion i).run s).2 i)
  awaitFinished : ∀ i d s, (links s i).LooksInto ((host.awaitFinished i d).run s).1
    (links ((host.awaitFinished i d).run s).2 i)
  /-- A link that is closed stays so, whatever is done with workers that were started. -/
  tends : ∀ i, host.Tends fun s => (links s i).Spent
  exception : ∀ i j s, (links s i).Spent → (links ((host.exception j).run s).2 i).Spent

/-! ## Records -/

/-- Once a link was found closed no completion comes over it, and none is left in it. -/
def TakenBefore {σ : Type} (links : σ → UInt64 → Channel) (r : Recorded CampaignDeed σ) : Prop :=
  ∀ i before after, r.deeds = before ++ .polled i .disconnected :: after →
    .polled i (.got ()) ∉ after ∧ (links r.world i).Spent

section

variable {σ : Type} {links : σ → UInt64 → Channel} {host : CampaignHost σ}
  {r : Recorded CampaignDeed σ} {w : σ} {d : CampaignDeed}

theorem takenBefore_of_started (h : ∀ d ∈ r.deeds, ∃ task answer, d = .started task answer) :
    TakenBefore links r := by
  intro i before after heq
  obtain ⟨_, _, hd⟩ := h (.polled i .disconnected) (by simp [heq])
  cases hd

theorem TakenBefore.snoc (h : TakenBefore links r)
    (hspent : ∀ i, (links r.world i).Spent → (links w i).Spent)
    (hclosed : ∀ i, d = .polled i .disconnected → (links w i).Spent)
    (hgot : ∀ i, d = .polled i (.got ()) → ¬(links r.world i).Spent) :
    TakenBefore links ⟨w, r.deeds ++ [d]⟩ := by
  intro i before after heq
  rcases snoc_eq_append_cons heq with ⟨rfl, rfl, -⟩ | ⟨after', rfl, hdeeds⟩
  · exact ⟨List.not_mem_nil, hclosed i rfl⟩
  · obtain ⟨hnone, hlink⟩ := h i before after' hdeeds
    refine ⟨fun hmem => ?_, hspent i hlink⟩
    rcases List.mem_append.1 hmem with hmem | hmem
    · exact hnone hmem
    · exact hgot i (List.mem_singleton.1 hmem).symm hlink

theorem TakenBefore.snoc_of_ne (h : TakenBefore links r)
    (hspent : ∀ i, (links r.world i).Spent → (links w i).Spent) (hd : ∀ i p, d ≠ .polled i p) :
    TakenBefore links ⟨w, r.deeds ++ [d]⟩ :=
  h.snoc hspent (fun i heq => absurd heq (hd i _)) fun i heq => absurd heq (hd i _)

theorem TakenBefore.snoc_polled (h : TakenBefore links r) {i : UInt64} {answer : Poll Unit}
    (hspent : ∀ i, (links r.world i).Spent → (links w i).Spent)
    (hlook : (links r.world i).LooksInto answer (links w i)) :
    TakenBefore links ⟨w, r.deeds ++ [.polled i answer]⟩ := by
  obtain ⟨c, hc, hcompletion⟩ := hlook
  refine h.snoc hspent (fun j heq => ?_) fun j heq hlink => ?_
  · cases heq
    exact Channel.spent_of_disconnected hcompletion
  · cases heq
    exact Channel.not_spent_of_got hcompletion (hc hlink)

/-- **What is done with workers that were started takes completions before it finds links
closed.** -/
theorem CampaignHost.Linked.tends_recorded (h : host.Linked links) :
    host.recorded.Tends (TakenBefore links) where
  printLine text r hr i before after heq :=
    (hr i before after heq).imp_right ((h.tends i).printLine text r.world)
  showStatus text r hr i before after heq :=
    (hr i before after heq).imp_right ((h.tends i).showStatus text r.world)
  store dir files r hr i before after heq :=
    (hr i before after heq).imp_right ((h.tends i).store dir files r.world)
  status j r hr := hr.snoc_of_ne (fun i => (h.tends i).status j r.world) nofun
  kill j r hr := hr.snoc_of_ne (fun i => (h.tends i).kill j r.world) nofun
  send j c r hr := hr.snoc_of_ne (fun i => (h.tends i).send j c r.world) nofun
  completion j r hr := hr.snoc_polled (fun i => (h.tends i).completion j r.world)
    (h.completion j r.world)
  awaitFinished j d r hr := hr.snoc_polled (fun i => (h.tends i).awaitFinished j d r.world)
    (h.awaitFinished j d r.world)
  snapshots j r hr := hr.snoc_of_ne (fun i => (h.tends i).snapshots j r.world) nofun
  decide j e r hr := hr.snoc_of_ne (fun i => (h.tends i).decide j e r.world) nofun
  now r hr := hr.snoc_of_ne (fun i => (h.tends i).now r.world) nofun
  sleep d r hr := hr.snoc_of_ne (fun i => (h.tends i).sleep d r.world) nofun

end

namespace Campaign

open FuzzCampaign.Action Orchestrator

/-- **A completion that is queued is taken before its link is found closed**, however a run ends. -/
theorem yields_run_takenBefore {σ : Type} {links : σ → UInt64 → Channel} {host : CampaignHost σ}
    (h : host.Linked links) (plan : CampaignPlan) (rounds : Nat) (test : TestCase) (w : σ) :
    Yields (run host.recorded plan test rounds) ⟨w, []⟩ (fun _ => TakenBefore links)
      fun _ => TakenBefore links := by
  have htends := h.tends_recorded
  have hexception : ∀ i (r : Recorded CampaignDeed σ), TakenBefore links r →
      TakenBefore links ((host.recorded.exception i).run r).2 :=
    fun i r hr => hr.snoc_of_ne (fun j => h.exception j i r.world) nofun
  refine yields_run host plan rounds (fun _ _ _ _ => takenBefore_of_started (List.forall_mem_nil _))
    fun w' => ?_
  refine (yields_orchestrate_of_started (htends.upholds hexception plan) rounds
    (P := fun r => ∀ d ∈ r.deeds, ∃ task answer, d = .started task answer)
    (fun _ => takenBefore_of_started) (fun _ _ hr => hr) (fun _ _ hr => hr) ?_ _
    (List.forall_mem_nil _)).mono (fun _ _ ho => ho.2) fun _ _ ho => ho
  intro i seed task _ r hr
  exact List.forall_mem_append.2 ⟨hr, List.forall_mem_singleton.2 ⟨task, _, rfl⟩⟩

end Campaign

end FuzzCampaign
