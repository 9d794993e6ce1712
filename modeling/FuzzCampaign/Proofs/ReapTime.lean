import FuzzCampaign.Proofs.Record

/-!
# The time of a reaping

A reaping that is given enough rounds ends, because the clock goes on: when its time is up, the
worker is killed.

* `CampaignHost.Ticks`: a clock that goes on; `CampaignHost.Ticks.recorded`;
* `Campaign.yields_reapRound`: a round that does not end a reaping takes its time;
* **`Campaign.reap_ends`**: a reaping ends.
-/

namespace FuzzCampaign

/-- The clock goes on: in a pause by its length at least, and never back. It has no last moment; a
system clock that has one goes on like this for deadlines up to it, so for timeouts below 2^63
seconds. -/
structure CampaignHost.Ticks {σ : Type} (clock : σ → Nat) (host : CampaignHost σ) : Prop where
  now_eq : ∀ s, (host.now.run s).1 = clock s
  now : ∀ s, clock s ≤ clock (host.now.run s).2
  status : ∀ i s, clock s ≤ clock ((host.status i).run s).2
  sleep : ∀ d s, clock s + d.nanoseconds ≤ clock ((host.sleep d).run s).2

theorem CampaignHost.Ticks.recorded {σ : Type} {clock : σ → Nat} {host : CampaignHost σ}
    (h : host.Ticks clock) : host.recorded.Ticks fun r => clock r.world where
  now_eq r := h.now_eq r.world
  now r := h.now r.world
  status i r := h.status i r.world
  sleep d r := h.sleep d r.world

namespace Campaign

open FuzzCampaign.Action

variable {σ : Type} {clock : σ → Nat} {host : CampaignHost σ} (h : host.Ticks clock) (i : UInt64)
include h

/-- A round that does not end a reaping is before the deadline, and takes its time. -/
theorem yields_reapRound (deadline : Nat) (s : σ) :
    Yields (reapRound host i deadline) s (fun r s' => r = none →
      clock s < deadline ∧ clock s + reapInterval.nanoseconds ≤ clock s') fun _ _ => False := by
  have hstatus := h.status i s
  rw [reapRound, yields_bind, yields_ask]
  rcases hlook : (host.status i).run s with ⟨_ | _ | status, s₁⟩
  · exact nofun
  · have hnow := h.now s₁
    rw [yields_bind, yields_ask, h.now_eq]
    by_cases hlt : clock s₁ < deadline
    · rw [if_pos hlt]
      rintro -
      have hsleep := h.sleep reapInterval (host.now.run s₁).2
      rw [hlook] at hstatus
      refine ⟨Nat.lt_of_le_of_lt hstatus hlt, ?_⟩
      exact Nat.le_trans (Nat.add_le_add_right (Nat.le_trans hstatus hnow) _) hsleep
    · rw [if_neg hlt]
      exact nofun
  · exact nofun

/-- Rounds that last until the deadline are enough. -/
theorem yields_reapRounds {deadline : Nat} (n : Nat) {s : σ}
    (hn : deadline ≤ clock s + n * reapInterval.nanoseconds) :
    Yields (repeatUntil (reapRound host i deadline) (n + 1)) s (fun _ _ => True)
      fun _ _ => False := by
  induction n generalizing s with
  | zero =>
    rw [repeatUntil, yields_bind]
    refine (yields_reapRound h i deadline s).imp fun r s' hr => ?_
    cases r with
    | some _ => trivial
    | none =>
      have hlt := (hr rfl).1
      omega
  | succ n ih =>
    rw [repeatUntil, yields_bind]
    refine (yields_reapRound h i deadline s).imp fun r s' hr => ?_
    cases r with
    | some _ => trivial
    | none =>
      have htime := (hr rfl).2
      refine ih ?_
      rw [Nat.succ_mul] at hn
      omega

/-- **A reaping ends** if its rounds last as long as it may take. -/
theorem reap_ends {timeout : Duration} {rounds : Nat}
    (hrounds : timeout.nanoseconds + reapInterval.nanoseconds ≤
      rounds * reapInterval.nanoseconds) (s : σ) :
    Yields (reap host timeout rounds i) s (fun _ _ => True) fun _ _ => False := by
  have hpositive : 0 < reapInterval.nanoseconds := by decide
  obtain _ | n := rounds
  · omega
  · have hnow := h.now s
    rw [reap, yields_bind, yields_ask, h.now_eq]
    refine yields_reapRounds h i n ?_
    rw [Nat.succ_mul] at hrounds
    omega

end Campaign

end FuzzCampaign
