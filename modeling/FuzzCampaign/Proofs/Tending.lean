import FuzzCampaign.Proofs.Reaping

/-!
# What is done with one worker

Of every action of the orchestrator on one worker it is said what it adds to the record. Only a
reaping adds a reaping; what comes before leaves the worker alive, and takes as many completions and
outcomes as the action waits for.

* `Unreaped`, `Tended`: what is done with a worker before it is reaped;
* `Campaign.adds_reap`: a reaping;
* `Campaign.adds_lookAfter`, `adds_awaitFinished`, `adds_decideAttach`, `adds_sendDecision`;
* **`Campaign.adds_conclude`**: everything from the first completion of a worker to its end;
* `Campaign.adds_shutdown`: the end of a worker that is told to end.
-/

namespace FuzzCampaign

/-! ## Before the reaping -/

/-- What is done with one worker that is not reaped. -/
structure Unreaped (i : UInt64) (l : List CampaignDeed) : Prop extends Calm i l where
  only : OnlyAbout i l

/-- What is done with one worker that is not reaped, while so many of its completions and these
outcomes are taken. -/
structure Tended (i : UInt64) (n : Nat) (reports : List (Option Envelope)) (l : List CampaignDeed) :
    Prop extends Unreaped i l where
  signals_eq : signalsOf i l = n
  reports_eq : reportsOf i l = reports

/-- A look at a worker, and then at the clock. -/
def Glance (i : UInt64) (l : List CampaignDeed) : Prop :=
  ∃ r, ∃ times : List Nat, l = .looked i r :: times.map .readClock

/-- What is done with a worker from its first completion to its end. -/
def Concluded (timeout : Duration) (i : UInt64) (v : Verdict) (l : List CampaignDeed) : Prop :=
  ∃ before ds n, l = before ++ ds ∧ Tended i n [v.report?] before ∧ 1 + n = v.completions ∧
    Reaping timeout i ds

/-- Unless the rounds were not enough, the worker was not reaped. -/
def Broken (i : UInt64) (stop : Stop) (l : List CampaignDeed) : Prop :=
  stop = .outOfRounds ∨ Unreaped i l

theorem Broken.unreaped {i : UInt64} {e : CampaignError} {l : List CampaignDeed}
    (h : Broken i (.error e) l) : Unreaped i l := by
  rcases h with hstop | hl
  · cases hstop
  · exact hl

section

variable {i : UInt64} {n n' : Nat} {reports reports' : List (Option Envelope)}
  {l l' : List CampaignDeed} {d : CampaignDeed}

theorem Unreaped.append (h : Unreaped i l) (h' : Unreaped i l') : Unreaped i (l ++ l') :=
  ⟨h.toCalm.append h'.toCalm, h.only.append h'.only⟩

theorem Tended.append (h : Tended i n reports l) (h' : Tended i n' reports' l') :
    Tended i (n + n') (reports ++ reports') (l ++ l') := by
  refine ⟨h.toUnreaped.append h'.toUnreaped, ?_, ?_⟩
  · rw [signalsOf_append, h.signals_eq, h'.signals_eq]
  · rw [reportsOf_append, h.reports_eq, h'.reports_eq]

theorem tended_nil : Tended i 0 [] [] := ⟨⟨calm_nil, onlyAbout_nil⟩, rfl, rfl⟩

/-- A deed that is neither a look at the worker nor its end. -/
theorem tended_singleton (hstart : d.start? = none) (habout : d.about? = none ∨ d.about? = some i)
    (hreaps : d.reaps = false) :
    Tended i (d.isSignal i).toNat (d.report? i).toList [d] := by
  refine ⟨⟨⟨calm_nil.steady_cons (ne_killed_of_reaps i hreaps), fun r heq => ?_⟩,
    onlyAbout_nil.cons hstart habout⟩, ?_, ?_⟩
  · exact ne_looked_of_reaps i hreaps r (Option.some.inj heq)
  · simp
  · simp

theorem steady_readClocks (times : List Nat) : Calm i (times.map .readClock) := by
  induction times with
  | nil => exact calm_nil
  | cons time times ih => exact calm_readClock ih time

theorem Glance.tended (h : Glance i l) (hstart : d.start? = none) (habout : d.about? = some i)
    (hreaps : d.reaps = false) :
    Tended i (d.isSignal i).toNat (d.report? i).toList (d :: l) := by
  obtain ⟨r, times, rfl⟩ := h
  have hclocks : OnlyAbout i (times.map .readClock) := by
    intro d hd
    obtain ⟨time, -, rfl⟩ := List.mem_map.1 hd
    exact ⟨rfl, .inl rfl⟩
  have hsome : d.about? ≠ none := by simp [habout]
  have hsteady := (steady_readClocks (i := i) times).steady_cons (d := .looked i r) nofun
  refine ⟨⟨hsteady.calm_cons hsome hreaps, ?_⟩, ?_, ?_⟩
  · exact (hclocks.cons rfl (.inr rfl)).cons hstart (.inr habout)
  · have hsignals : signalsOf i (times.map .readClock) = 0 := by
      refine List.countP_eq_zero.2 fun d hd => ?_
      obtain ⟨time, -, rfl⟩ := List.mem_map.1 hd
      exact Bool.false_ne_true
    rw [signalsOf_cons, signalsOf_cons, hsignals]
    rfl
  · have hreports : reportsOf i (times.map .readClock) = [] := by
      refine List.filterMap_eq_nil_iff.2 fun d hd => ?_
      obtain ⟨time, -, rfl⟩ := List.mem_map.1 hd
      rfl
    rw [reportsOf_cons, reportsOf_cons, hreports, List.append_nil]
    exact List.append_nil _

end

namespace Campaign

open FuzzCampaign.Action

variable {σ : Type} (host : CampaignHost σ) (plan : CampaignPlan) (rounds : Nat) (i : UInt64)

/-! ## Reapings -/

/-- A look at a worker that is about to exit ends the reaping, or is followed by a pause. -/
theorem adds_reapRound (deadline : Nat) :
    Adds (reapRound host.recorded i deadline) (fun r l => match r with
      | some () => LooksUntil i deadline l
      | none => ∃ time < deadline, l = [.looked i (.ok none), .readClock time, .slept reapInterval])
      fun stop _ => stop = .outOfRounds := by
  rw [reapRound]
  refine adds_noting_bind fun r => ?_
  rcases r with e | _ | status
  · rw [CampaignHost.recorded_kill]
    refine adds_noting_bind fun _ => ?_
    exact adds_pure (.refused e)
  · refine adds_noting_bind fun time => ?_
    by_cases htime : time < deadline
    · rw [if_pos htime, CampaignHost.recorded_sleep]
      refine adds_noting_bind fun _ => ?_
      exact adds_pure ⟨time, htime, rfl⟩
    · rw [if_neg htime, CampaignHost.recorded_kill]
      refine adds_noting_bind fun _ => ?_
      exact adds_pure (.late (Nat.le_of_not_lt htime))
  · exact adds_pure (.exited status)

theorem adds_reap (timeout : Duration) :
    Adds (reap host.recorded timeout rounds i) (fun _ l => Reaping timeout i l)
      fun stop _ => stop = .outOfRounds := by
  rw [reap]
  refine adds_noting_bind fun start => ?_
  have hlooks : ∀ rounds, Adds (repeatUntil (reapRound host.recorded i
      (start + timeout.nanoseconds)) rounds)
      (fun _ l => LooksUntil i (start + timeout.nanoseconds) l)
      fun stop _ => stop = .outOfRounds := by
    intro rounds
    induction rounds with
    | zero => exact adds_throw rfl
    | succ rounds ih =>
      rw [repeatUntil]
      refine (adds_reapRound host i _).bind (fun r l hl => ?_) fun _ _ => id
      rcases r with _ | _
      · obtain ⟨time, htime, rfl⟩ := hl
        exact ih.imp fun _ l hl => .waiting htime hl
      · refine adds_pure ?_
        rw [List.append_nil]
        exact hl
  exact (hlooks rounds).imp fun _ l hl => ⟨start, l, rfl, hl⟩

/-! ## Looks -/

theorem adds_lookAfter (grace : Duration) (disconnected : Bool) (since? : Option Nat) :
    Adds (lookAfter host.recorded grace i disconnected since?) (fun _ l => Glance i l)
      fun _ l => Glance i l := by
  rw [lookAfter]
  refine adds_perform_bind (fun status? => ?_) fun e => ⟨_, [], rfl⟩
  rcases status?.or (if disconnected then some linkClosed else none) with _ | status
  · exact adds_pure ⟨_, [], rfl⟩
  · -- the clock is read once more if the worker is only now known to be gone
    have hnow : ∀ (since : Nat) (times : List Nat),
        Adds (ask host.recorded.now >>= fun now =>
          if grace.nanoseconds ≤ now - since then throw (.error (.workerDied i status))
          else pure (some since))
          (fun _ l => Glance i (.looked i (.ok status?) :: (times.map .readClock ++ l)))
          fun _ l => Glance i (.looked i (.ok status?) :: (times.map .readClock ++ l)) := by
      intro since times
      refine adds_noting_bind fun now => ?_
      have hglance : Glance i (.looked i (.ok status?) :: (times.map .readClock ++
          [.readClock now])) := ⟨.ok status?, times ++ [now], by simp⟩
      by_cases hgrace : grace.nanoseconds ≤ now - since
      · rw [if_pos hgrace]
        exact adds_throw hglance
      · rw [if_neg hgrace]
        exact adds_pure hglance
    dsimp only
    rcases since? with _ | since
    · refine adds_noting_bind fun since => ?_
      have h := hnow since [since]
      simp only [List.map_cons, List.map_nil, List.cons_append, List.nil_append] at h
      exact h
    · simp only [pure_bind]
      exact hnow since []

theorem adds_awaitRound (since? : Option Nat) :
    Adds (awaitRound host.recorded plan i since?)
      (fun r l => Tended i (if r.isNone then 1 else 0) [] l) fun _ l => Unreaped i l := by
  rw [awaitRound]
  refine adds_noting_bind fun r => ?_
  rcases r with _ | _ | _
  · refine adds_pure ?_
    have h := tended_singleton (i := i) (d := .polled i (.got ())) rfl (.inr rfl) rfl
    simpa [CampaignDeed.isSignal, CampaignDeed.report?] using h
  · refine (adds_lookAfter host i plan.deadWorkerGrace false since?).bind
      (fun since? l hl => adds_pure ?_) fun stop l hl => ?_
    · rw [List.append_nil]
      exact hl.tended (d := .polled i .empty) rfl rfl rfl
    · exact (hl.tended (d := .polled i .empty) rfl rfl rfl).toUnreaped
  · refine (adds_lookAfter host i plan.deadWorkerGrace true since?).bind
      (fun since? l hl => ?_) fun stop l hl => ?_
    · rw [CampaignHost.recorded_sleep]
      refine adds_noting_bind fun _ => adds_pure ?_
      have hpause := tended_singleton (i := i) (d := .slept plan.pollInterval) rfl (.inl rfl) rfl
      exact (hl.tended (d := .polled i .disconnected) rfl rfl rfl).append hpause
    · exact (hl.tended (d := .polled i .disconnected) rfl rfl rfl).toUnreaped

theorem adds_awaitFinished :
    Adds (awaitFinished host.recorded plan rounds i) (fun _ l => Tended i 1 [] l)
      fun _ l => Unreaped i l := by
  rw [awaitFinished]
  generalize (none : Option Nat) = since?
  induction rounds generalizing since? with
  | zero => exact adds_throw tended_nil.toUnreaped
  | succ rounds ih =>
    rw [awaitFrom]
    refine (adds_awaitRound host plan i since?).bind (fun r l hl => ?_) fun _ _ => id
    rcases r with _ | since?
    · refine adds_pure ?_
      rw [List.append_nil]
      exact hl
    · exact (ih since?).mono (fun _ l' hl' => hl.append hl') fun _ l' hl' =>
        hl.toUnreaped.append hl'

/-! ## Decisions -/

theorem adds_askUser (e : Envelope) :
    Adds (askUser host.recorded i e) (fun _ l => Tended i 0 [] l) fun _ l => Unreaped i l := by
  rw [askUser]
  refine adds_noting_bind fun reply => ?_
  have hasked := tended_singleton (i := i) (d := .asked i e reply) rfl (.inr rfl) rfl
  rcases reply with attach | _ | _
  · exact adds_pure hasked
  · refine adds_noting_bind fun r => ?_
    have hlooked : Unreaped i [.asked i e .abandoned, .looked i r] :=
      (Glance.tended (d := .asked i e .abandoned) ⟨r, [], rfl⟩ rfl rfl rfl).toUnreaped
    rcases r with e | _ | status
    · exact adds_throw hlooked
    · exact adds_throw hlooked
    · exact adds_throw hlooked
  · exact adds_pure hasked

theorem adds_decideAttach (e : Envelope) :
    Adds (decideAttach host.recorded plan i e) (fun _ l => Tended i 0 [] l)
      fun _ l => Unreaped i l := by
  rw [decideAttach]
  by_cases hasks : plan.asksAbout i = true
  · rw [if_pos hasks]
    refine adds_aside_bind fun _ => ?_
    by_cases hdebug : e.canDebug = true
    · rw [if_pos hdebug]
      exact adds_askUser host i e
    · rw [if_neg hdebug]
      exact adds_pure tended_nil
  · rw [if_neg hasks]
    exact adds_pure tended_nil

theorem adds_sendDecision (attach : Bool) :
    Adds (sendDecision host.recorded i attach) (fun _ l => Tended i 0 [] l)
      fun _ l => Unreaped i l := by
  rw [sendDecision]
  refine adds_noting_bind fun r => ?_
  have hsent := tended_singleton (i := i) (d := .commanded i (.decision attach) r) rfl (.inr rfl)
    rfl
  rcases r with e | _
  · exact adds_throw hsent.toUnreaped
  · exact adds_pure hsent

/-! ## From the first completion to the end -/

theorem tended_informed (report : Option Envelope) :
    Tended i 0 [report] [.informed i (.got report)] := by
  have h := tended_singleton (i := i) (d := .informed i (.got report)) rfl (.inr rfl) rfl
  simpa [CampaignDeed.isSignal, CampaignDeed.report?] using h

theorem adds_concludeFailed (e : Envelope) :
    Adds (concludeFailed host.recorded plan rounds i e)
      (fun v l => Concluded plan.reapTimeout i v (.informed i (.got (some e)) :: l))
      fun stop l => Broken i stop (.informed i (.got (some e)) :: l) := by
  have hreported := tended_informed i (some e)
  rw [concludeFailed_eq, concludeFailedUnchecked]
  refine (adds_decideAttach host plan i e).bind (fun attach l₁ h₁ => ?_) fun _ l h => .inr ?_
  · refine (adds_sendDecision host i attach).bind (fun _ l₂ h₂ => ?_) fun _ l h => .inr ?_
    · refine (adds_awaitFinished host plan rounds i).bind (fun _ l₃ h₃ => ?_) fun _ l h => .inr ?_
      · have htended := hreported.append (h₁.append (h₂.append h₃))
        refine (adds_reap host rounds i plan.reapTimeout).bind (fun _ l₄ h₄ => ?_) fun _ _ => .inl
        exact adds_pure ⟨_, l₄, _, by simp, htended, rfl, h₄⟩
      · exact hreported.toUnreaped.append (h₁.toUnreaped.append (h₂.toUnreaped.append h))
    · exact hreported.toUnreaped.append (h₁.toUnreaped.append h)
  · exact hreported.toUnreaped.append h

/-- **A worker that is handled** is reaped, after the last of its completions was taken. -/
theorem adds_conclude :
    Adds (conclude host.recorded plan rounds i) (fun v l => Concluded plan.reapTimeout i v l)
      fun stop l => Broken i stop l := by
  rw [conclude]
  refine adds_noting_bind fun r => ?_
  have hinformed := tended_singleton (i := i) (d := .informed i r) rfl (.inr rfl) rfl
  rcases r with (_ | e) | _ | _
  · refine (adds_reap host rounds i plan.reapTimeout).bind (fun _ l h => ?_) fun _ _ => .inl
    refine adds_pure ⟨[.informed i (.got none)], l, 0, ?_, tended_informed i none, rfl, h⟩
    rw [List.append_nil]
    rfl
  · exact adds_concludeFailed host plan rounds i e
  · exact adds_throw (.inr hinformed.toUnreaped)
  · exact adds_throw (.inr hinformed.toUnreaped)

/-! ## Workers that are told to end -/

theorem adds_sendShutdown :
    Adds (sendShutdown host.recorded i) (fun _ l => ∃ answer, l = [.commanded i .shutdown answer])
      fun _ _ => False := by
  intro r
  exact ⟨_, rfl, _, rfl⟩

theorem adds_shutdown (timeout : Duration) :
    Adds (shutdown host.recorded timeout rounds i)
      (fun _ l => ∃ answer ds, l = .commanded i .shutdown answer :: ds ∧ Reaping timeout i ds)
      fun stop _ => stop = .outOfRounds := by
  rw [shutdown]
  refine (adds_sendShutdown host i).bind (fun _ l hl => ?_) nofun
  obtain ⟨answer, rfl⟩ := hl
  exact (adds_reap host rounds i timeout).imp fun _ ds hds => ⟨answer, ds, rfl, hds⟩

end Campaign

end FuzzCampaign
