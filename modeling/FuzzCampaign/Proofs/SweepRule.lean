import FuzzCampaign.Proofs.ReapedOnce

/-!
# A rule for sweeps

What holds of the sweeps of a campaign follows from what holds of single workers that are looked at
or handled. That a worker which is done is still left when its turn comes is shown here once.

* `Campaign.SweepRule`: a property that the steps of a sweep keep, and what they come to if they
  stop;
* `SweepRule.yields_sweep`, **`SweepRule.yields_sweeps`**: sweeps keep it.
-/

namespace FuzzCampaign

namespace Campaign

open FuzzCampaign.Action Orchestrator

variable {σ : Type}

/-- The steps of a sweep keep `P`, and `E` holds if one stops. -/
structure SweepRule (host : CampaignHost σ) (plan : CampaignPlan) (rounds : Nat)
    (P : Orchestrator σ → Prop) (E : Stop → Orchestrator σ → Prop) : Prop where
  nodup : ∀ o, P o → o.indexes.Nodup
  onLook : ∀ o w, P o → Yields (look host plan w) o
    (fun s o' => P o' ∧ s.worker.index = w.index ∧ o'.indexes = o.indexes) E
  /-- What is known of the workers that are left may change, but not which they are. -/
  onUpdate : ∀ o workers, P o → workers.map (·.index) = o.indexes → P { o with active := workers }
  onComplete : ∀ o w, P o → w.index ∈ o.indexes → Yields (complete host plan rounds w) o
    (fun _ o' => P o' ∧ o'.indexes = o.indexes.erase w.index) E
  onEnd : ∀ o (had idle : Bool), P o → Yields (do
    if had then persist host plan
    showStatus host plan
    if idle then Orchestrator.ask (host.sleep plan.pollInterval)) o (fun _ => P) E
  onRounds : ∀ o, P o → E .outOfRounds o

namespace SweepRule

variable {host : CampaignHost σ} {plan : CampaignPlan} {rounds : Nat}
  {P : Orchestrator σ → Prop} {E : Stop → Orchestrator σ → Prop} {o : Orchestrator σ}
  (rule : SweepRule host plan rounds P E)
include rule

theorem yields_looks (h : P o) :
    Yields (o.active.mapM (look host plan)) o (fun sightings o' =>
      P o' ∧ sightings.map (·.worker.index) = o'.indexes) E := by
  refine (yields_mapM (fun made left o' => P o' ∧
    o'.indexes = made.map (·.worker.index) ++ left.map (·.index)) ?_ o.active [] ⟨h, rfl⟩).imp ?_
  · rintro made w left o₁ ⟨h₁, hindexes⟩
    refine (rule.onLook o₁ w h₁).imp ?_
    rintro s o₂ ⟨h₂, hs, hsame⟩
    refine ⟨h₂, ?_⟩
    rw [hsame, hindexes, List.map_append, List.append_assoc]
    simp [hs]
  · rintro sightings o₁ ⟨h₁, hindexes⟩
    refine ⟨h₁, ?_⟩
    simpa using hindexes.symm

theorem yields_completes (workers : List OpenWorker) (h : P o)
    (hnodup : (workers.map (·.index)).Nodup) (hleft : ∀ w ∈ workers, w.index ∈ o.indexes) :
    Yields (workers.mapM (complete host plan rounds)) o (fun _ => P) E := by
  refine (yields_mapM (fun (_ : List Bool) left o' => P o' ∧ (left.map (·.index)).Nodup ∧
    ∀ w ∈ left, w.index ∈ o'.indexes) ?_ workers [] ⟨h, hnodup, hleft⟩).imp fun _ _ h' => h'.1
  rintro made w left o₁ ⟨h₁, hnodup₁, hleft₁⟩
  rw [List.map_cons, List.nodup_cons] at hnodup₁
  refine (rule.onComplete o₁ w h₁ (hleft₁ w List.mem_cons_self)).imp ?_
  rintro _ o₂ ⟨h₂, hindexes⟩
  refine ⟨h₂, hnodup₁.2, fun u hu => ?_⟩
  have hne : u.index ≠ w.index := fun heq => hnodup₁.1 (heq ▸ List.mem_map_of_mem hu)
  rw [hindexes]
  exact (rule.nodup o₁ h₁).mem_erase_iff.2 ⟨hne, hleft₁ u (List.mem_cons_of_mem _ hu)⟩

theorem yields_sweep (h : P o) : Yields (sweep host plan rounds) o (fun _ => P) E := by
  change Yields (o.active.mapM (look host plan) >>= _) o _ _
  rw [yields_bind]
  refine (rule.yields_looks h).imp ?_
  rintro sightings o₁ ⟨h₁, hindexes⟩
  have hsame : (sightings.map (·.worker)).map (·.index) = o₁.indexes := by
    rw [List.map_map]
    exact hindexes
  have h₂ := rule.onUpdate o₁ (sightings.map (·.worker)) h₁ hsame
  have hnodup := rule.nodup _ h₂
  rw [yields_bind]
  change Yields (_ >>= _) { o₁ with active := sightings.map Sighting.worker } _ _
  rw [yields_bind]
  refine (rule.yields_completes _ h₂ ?_ fun w hw => ?_).imp fun late o₃ h₃ =>
    rule.onEnd o₃ _ _ h₃
  · exact hnodup.sublist (List.Sublist.map _ (List.Sublist.map _ List.filter_sublist))
  · obtain ⟨s, hs, rfl⟩ := List.mem_map.1 hw
    exact List.mem_map_of_mem (List.mem_map_of_mem (List.mem_of_mem_filter hs))

/-- **Sweeps keep what their steps keep**, until no worker is left. -/
theorem yields_sweeps (h : P o) :
    Yields (repeatUntil (sweepRound host plan rounds) rounds) o
      (fun _ o' => P o' ∧ o'.active = []) E := by
  refine yields_repeatUntil P (fun o h => ?_) rule.onRounds rounds h
  change Yields (if o.active.isEmpty then pure (some ()) else do
    sweep host plan rounds
    return none) o _ _
  split_ifs with hempty
  · exact ⟨h, List.isEmpty_iff.1 hempty⟩
  · exact yields_bind.2 ((rule.yields_sweep h).imp fun _ _ h => h)

end SweepRule

end Campaign

end FuzzCampaign
