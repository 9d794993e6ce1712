import FuzzCampaign.Proofs.ClosedLinks
import FuzzCampaign.Proofs.DeclaredDead
import FuzzCampaign.Proofs.LivenessChecks

/-!
# The period of grace

A worker that is gone is declared dead at the first check at which the period of grace is over,
counted from the first of an unbroken run of checks that found it gone, and at no other check. The
count is carried from sweep to sweep, and begins anew when the worker is found running and
connected, and when it has got its decision.

* `DiedUnchecked`: the other reasons for which a worker is declared dead;
* `Watched`: what is known of a worker agrees with the record; `Blames`: a stop and the last check;
* `Campaign.yields_lookAfter_watched`, `yields_conclude_watched`: what is done with one worker;
* `Orchestrator.Vigilant`; `Campaign.yields_sweep_vigilant`, `yields_endAll_blamed`: the parts of a
  campaign;
* `GracePolicy`; **`Campaign.run_grace_period`**: a whole campaign.
-/

namespace FuzzCampaign

/-! ## Reasons -/

/-- What is said of a worker that died while its question was open. -/
def lastWords : Except CampaignError (Option String) → String
  | .ok (some status) => status
  | _ => Campaign.exitedMeanwhile

/-- A reason for which a worker is declared dead with a status, other than a check. -/
inductive DiedUnchecked (i : UInt64) (status : String) (log : List CampaignDeed) : Prop
  /-- The decision on its failure was not delivered. -/
  | undelivered (attach e) (hsend : .commanded i (.decision attach) (.error e) ∈ log)
    (hstatus : e.message = status)
  /-- The question on its failure was abandoned. -/
  | abandoned (e answer) (hask : [.asked i e .abandoned, .looked i answer] <:+: log)
    (hstatus : lastWords answer = status)
  /-- The look at a worker of which nothing was found failed with this error. -/
  | lookFailed (j p) (hp : p ≠ .got ())
    (hlook : [.polled j p, .looked j (.error (.workerDied i status))] <:+: log)
  /-- The start of a worker failed with this error. -/
  | startFailed (task) (hstart : .started task (.error (.workerDied i status)) ∈ log)

/-- What the record shows of a stop: at no check was the period of grace over, and if a worker was
declared dead there is another reason; or it was over at the last check, and that is why the
campaign stopped, or the rounds were not enough, where that is possible. -/
inductive Blames (grace : Duration) (short : Prop) (stop : Stop) (log : List CampaignDeed) : Prop
  | unchecked (hmarks : Unexpired grace (marksIn log)) (hdied : ∀ i status,
      stop = .error (.workerDied i status) → DiedUnchecked i status log)
  | expired (marks i c status) (hmarks : marksIn log = marks ++ [(i, .checked c)])
    (hbefore : Unexpired grace marks) (hlast : Expired grace (marksOf i marks) c status)
    (hstop : stop = .error (.workerDied i status) ∨ stop = .outOfRounds ∧ short)

/-- The checks are over, and a stop has its reason. -/
def Closes (grace : Duration) (short : Prop) (stop : Stop) (log : List CampaignDeed) : Prop :=
  (∃ marks, vigil log = ⟨marks, .elsewhere⟩) ∧ Blames grace short stop log

/-- Since when a worker is known to be gone agrees with the record, in which the period of grace is
over at no check; of other workers nothing changed since an earlier record. -/
structure Watched (grace : Duration) (earlier : List CampaignDeed) (i : UInt64)
    (since? : Option Nat)
    (log : List CampaignDeed) : Prop where
  unexpired : Unexpired grace (marksIn log)
  since : KnownSince (marksOf i (marksIn log)) since?
  others : ∀ j, j ≠ i → marksOf j (marksIn log) = marksOf j (marksIn earlier)

section

variable {grace : Duration} {short : Prop} {i : UInt64} {status : String} {stop : Stop}
  {earlier log log' l : List CampaignDeed} {since? : Option Nat} {d : CampaignDeed} {c : Check}

theorem DiedUnchecked.append (h : DiedUnchecked i status log) (l : List CampaignDeed) :
    DiedUnchecked i status (log ++ l) := by
  have hinfix : log <:+: log ++ l := (List.prefix_append log l).isInfix
  cases h with
  | undelivered attach e hsend hstatus =>
    exact .undelivered attach e (List.mem_append_left l hsend) hstatus
  | abandoned e answer hask hstatus => exact .abandoned e answer (hask.trans hinfix) hstatus
  | lookFailed j p hp hlook => exact .lookFailed j p hp (hlook.trans hinfix)
  | startFailed task hstart => exact .startFailed task (List.mem_append_left l hstart)

theorem blames_of_ne (h : Unexpired grace (marksIn log))
    (hne : ∀ i status, stop ≠ .error (.workerDied i status)) : Blames grace short stop log :=
  .unchecked h fun i status hstop => absurd hstop (hne i status)

theorem blames_outOfRounds (h : Unexpired grace (marksIn log)) :
    Blames grace short .outOfRounds log :=
  blames_of_ne h fun _ _ heq => by cases heq

theorem Blames.append (h : Blames grace short stop log) (hl : marksIn (log ++ l) = marksIn log) :
    Blames grace short stop (log ++ l) := by
  cases h with
  | unchecked hmarks hdied =>
    exact .unchecked (hl ▸ hmarks) fun i status hstop => (hdied i status hstop).append l
  | expired marks i c status hmarks hbefore hlast hstop =>
    exact .expired marks i c status (hl.trans hmarks) hbefore hlast hstop

theorem Blames.close (h : Blames grace short stop log) (hopens : d.opens = false)
    (hglance : d.isGlance = false) : Closes grace short stop (log ++ [d]) :=
  ⟨⟨_, vigil_snoc_of_turn hopens hglance⟩, h.append (marksIn_snoc_of_turn hopens hglance)⟩

/-- Once the checks are over only certain deeds count. -/
theorem Closes.snoc (h : Closes grace short stop log) (hopens : d.opens = false) :
    Closes grace short stop (log ++ [d]) := by
  obtain ⟨⟨marks, hvigil⟩, hblames⟩ := h
  have hsnoc := vigil_snoc_of_elsewhere hvigil hopens
  refine ⟨⟨marks, hsnoc⟩, hblames.append ?_⟩
  rw [marksIn_of_elsewhere hsnoc, marksIn_of_elsewhere hvigil]

theorem Blames.outOfRounds (h : Blames grace short stop log) (hshort : short) :
    Blames grace short .outOfRounds log := by
  cases h with
  | unchecked hmarks _ => exact blames_outOfRounds hmarks
  | expired marks i c status hmarks hbefore hlast _ =>
    exact .expired marks i c status hmarks hbefore hlast (.inr ⟨rfl, hshort⟩)

/-- A check at which the period of grace is over is the last. -/
theorem Blames.last {before after : List (UInt64 × Mark)} (h : Blames grace short stop log)
    (hmarks : marksIn log = before ++ (i, .checked c) :: after)
    (hc : Expired grace (marksOf i before) c status) :
    after = [] ∧ (stop = .error (.workerDied i status) ∨ stop = .outOfRounds ∧ short) := by
  cases h with
  | unchecked hunexpired _ => exact absurd hc (hunexpired before i c after hmarks status)
  | expired marks j c' status' hmarks' hbefore hlast hstop =>
    rcases snoc_eq_append_cons (hmarks'.symm.trans hmarks) with ⟨rfl, heq, rfl⟩ | ⟨after', -, rfl⟩
    · cases heq
      cases hlast.gone.symm.trans hc.gone
      exact ⟨rfl, hstop⟩
    · exact absurd hc (hbefore before i c after' rfl status)

theorem Watched.same (h : Watched grace earlier i since? log)
    (hmarks : marksIn log' = marksIn log) :
    Watched grace earlier i since? log' := by
  obtain ⟨hunexpired, hsince, hothers⟩ := h
  rw [← hmarks] at hunexpired hsince hothers
  exact ⟨hunexpired, hsince, hothers⟩

theorem Watched.checked (h : Watched grace earlier i since? log) {since'? : Option Nat}
    (hmarks : marksIn log' = marksIn log ++ [(i, .checked c)])
    (hc : ∀ status, ¬Expired grace (marksOf i (marksIn log)) c status)
    (hsince : KnownSince (marksOf i (marksIn log) ++ [.checked c]) since'?) :
    Watched grace earlier i since'? log' := by
  refine ⟨?_, ?_, fun j hj => ?_⟩
  · rw [hmarks]
    refine h.unexpired.snoc fun c' heq => ?_
    cases heq
    exact hc
  · rwa [hmarks, marksOf_snoc_self]
  · rw [hmarks, marksOf_snoc_of_ne hj]
    exact h.others j hj

end

/-- **While workers are ended a stop keeps its reason.** -/
theorem CampaignHost.ends_closes {σ : Type} (host : CampaignHost σ) (grace : Duration)
    (short : Prop)
    (stop : Stop) : host.recorded.Ends fun r => Closes grace short stop r.deeds where
  status _ _ h := h.snoc rfl
  kill _ _ h := h.snoc rfl
  shutdown _ _ h := h.snoc rfl
  now _ h := h.snoc rfl
  sleep _ _ h := h.snoc rfl

namespace Campaign

open FuzzCampaign.Action Orchestrator

variable {σ : Type} (host : CampaignHost σ) (plan : CampaignPlan) (rounds : Nat) {short : Prop}
  {i : UInt64} {earlier log : List CampaignDeed} {r : Recorded CampaignDeed σ} {since? : Option Nat}

/-! ## One worker -/

/-- A check that finds a worker gone fails if the period of grace is over. -/
theorem yields_gone_watched {grace : Duration} {c : Check} {status : String} {since now : Nat}
    (h : Watched grace earlier i since? log) (hvigil : vigil r.deeds = ⟨marksIn log, .checking i c⟩)
    (hc : c.gone? = some status) (hbegun : since?.or c.times.head? = some since)
    (hlast : c.times.getLast? = some now) :
    Yields (if grace.nanoseconds ≤ now - since then throw (.error (.workerDied i status))
      else return some since) r (fun since? r' => Watched grace earlier i since? r'.deeds)
      fun stop r' => Blames grace short stop r'.deeds := by
  have hmarks := marksIn_of_checking hvigil
  have hknown := h.since.snoc_gone (by rw [hc]; rfl) hbegun
  by_cases hgrace : grace.nanoseconds ≤ now - since
  · rw [if_pos hgrace]
    exact .expired _ i c status hmarks h.unexpired ⟨hc, since, now, hknown.eq, hlast, hgrace⟩
      (.inl rfl)
  · rw [if_neg hgrace]
    refine h.checked hmarks (fun status' hexpired => hgrace ?_) hknown
    obtain ⟨-, since', now', hsince, hnow, hle⟩ := hexpired
    cases hknown.eq.symm.trans hsince
    cases hlast.symm.trans hnow
    exact hle

/-- **A check of a worker of which nothing was found.** It fails if the period of grace is over, and
else what is known of the worker agrees with the record again. -/
theorem yields_lookAfter_watched {grace : Duration} (closed : Bool)
    (hr : r.deeds = log ++ [.polled i (if closed then .disconnected else .empty)])
    (h : Watched grace earlier i since? log) :
    Yields (lookAfter host.recorded grace i closed since?) r
      (fun since? r' => Watched grace earlier i since? r'.deeds)
      fun stop r' => Blames grace short stop r'.deeds := by
  have hpolled : vigil r.deeds = ⟨marksIn log, .polled i closed⟩ := by
    rw [hr]
    exact vigil_snoc_polled log i closed
  rw [lookAfter]
  refine yields_perform_noting_bind (fun status? w => ?_) fun e w => ?_
  · have hlooked := vigil_snoc_looked hpolled status?
    rcases hor : status?.or (if closed then some linkClosed else none) with _ | status
    · refine h.checked (marksIn_of_checking hlooked) (fun status hexpired => ?_) ?_
      · cases hor.symm.trans hexpired.gone
      · refine knownSince_snoc_none (m := .checked ⟨status?, closed, []⟩) ?_
        exact congrArg Option.isSome hor
    · rcases since? with _ | since
      · refine yields_noting_bind fun since w => yields_noting_bind fun now w => ?_
        have hread := vigil_snoc_readClock (vigil_snoc_readClock hlooked since) now
        exact yields_gone_watched h hread hor rfl rfl
      · simp only [pure_bind]
        refine yields_noting_bind fun now w => ?_
        exact yields_gone_watched h (vigil_snoc_readClock hlooked now) hor rfl rfl
  · -- the look failed, and nothing was checked
    refine .unchecked ?_ fun j status hstop => ?_
    · rw [marksIn, vigil_snoc, hpolled]
      exact h.unexpired
    · cases hstop
      refine .lookFailed i (if closed then .disconnected else .empty) ?_ ⟨log, [], ?_⟩
      · cases closed <;> simp
      · simp [hr]

/-- Waiting for the completion of a worker that has its decision, in which no other is checked. -/
theorem yields_awaitFrom_watched (h : Watched plan.deadWorkerGrace earlier i since? r.deeds) :
    Yields (awaitFrom host.recorded plan i rounds since?) r
      (fun _ r' => ∃ since?, Watched plan.deadWorkerGrace earlier i since? r'.deeds ∧
        vigil r'.deeds = ⟨marksIn r'.deeds, .elsewhere⟩)
      fun stop r' => Blames plan.deadWorkerGrace short stop r'.deeds := by
  induction rounds generalizing since? r with
  | zero => exact blames_outOfRounds h.unexpired
  | succ rounds ih =>
    rw [awaitFrom, awaitRound, bind_assoc]
    refine yields_noting_bind fun p w => ?_
    rcases p with _ | _ | _
    · have hdone : vigil (r.deeds ++ [.polled i (.got ())]) = ⟨marksIn r.deeds, .elsewhere⟩ :=
        vigil_snoc_of_turn rfl rfl
      refine ⟨since?, h.same (marksIn_of_elsewhere hdone), ?_⟩
      rw [marksIn_of_elsewhere hdone]
      exact hdone
    · rw [bind_assoc, yields_bind]
      exact (yields_lookAfter_watched host false rfl h).imp fun since? r' h' => ih h'
    · rw [bind_assoc, yields_bind]
      refine (yields_lookAfter_watched host true rfl h).imp fun since? r' h' => ?_
      rw [CampaignHost.recorded_sleep, bind_assoc]
      refine yields_noting_bind fun _ w => ?_
      exact ih (h'.same (marksIn_snoc_of_turn rfl rfl))

/-- The decision on a debugger is made without a check. -/
theorem yields_decideAttach_vigil {e : Envelope} {marks : List (UInt64 × Mark)}
    (h : vigil r.deeds = ⟨marks, .elsewhere⟩) (hmarks : Unexpired plan.deadWorkerGrace marks) :
    Yields (decideAttach host.recorded plan i e) r
      (fun _ r' => vigil r'.deeds = ⟨marks, .elsewhere⟩)
      fun stop r' => Blames plan.deadWorkerGrace short stop r'.deeds := by
  have hask : ∀ r' : Recorded CampaignDeed σ, r'.deeds = r.deeds →
      Yields (askUser host.recorded i e) r' (fun _ r' => vigil r'.deeds = ⟨marks, .elsewhere⟩)
        fun stop r' => Blames plan.deadWorkerGrace short stop r'.deeds := by
    intro r' hr'
    have hasked : ∀ reply, vigil (r'.deeds ++ [.asked i e reply]) = ⟨marks, .elsewhere⟩ := by
      intro reply
      rw [hr']
      exact vigil_snoc_of_elsewhere h rfl
    rw [askUser]
    refine yields_noting_bind fun reply w => ?_
    rcases reply with attach | _ | _
    · exact hasked _
    · refine yields_noting_bind fun answer w => ?_
      have hblames : Blames plan.deadWorkerGrace short (.error (.workerDied i (lastWords answer)))
          (r'.deeds ++ [.asked i e .abandoned] ++ [.looked i answer]) := by
        refine .unchecked ?_ fun j status hstop => ?_
        · rw [marksIn_of_elsewhere (vigil_snoc_of_elsewhere (hasked _) rfl)]
          exact hmarks
        · cases hstop
          exact .abandoned e answer ⟨r'.deeds, [], by simp⟩ rfl
      rcases answer with _ | _ | _ <;> exact hblames
    · exact hasked _
  rw [decideAttach]
  split_ifs
  · exact yields_bind.2 (hask _ rfl)
  · exact h
  · exact h

theorem yields_reap_marks {marks : List (UInt64 × Mark)} (h : vigil r.deeds = ⟨marks, .elsewhere⟩)
    (hmarks : Unexpired plan.deadWorkerGrace marks) :
    Yields (reap host.recorded plan.reapTimeout rounds i) r (fun _ r' => marksIn r'.deeds = marks)
      fun stop r' => Blames plan.deadWorkerGrace short stop r'.deeds := by
  have hkept := preserves_reap (host.ends_vigil marks) rounds i plan.reapTimeout r h
  have hstops := reapsUnless_true host plan.reapTimeout rounds i r
  refine (hkept.and hstops).mono (fun _ r' h' => marksIn_of_elsewhere h'.1) ?_
  rintro _ r' ⟨hr', rfl, -⟩
  refine blames_outOfRounds ?_
  rwa [marksIn_of_elsewhere hr']

theorem yields_concludeFailed_watched {e : Envelope} {marks : List (UInt64 × Mark)}
    (h : vigil r.deeds = ⟨marks, .elsewhere⟩) (hmarks : Unexpired plan.deadWorkerGrace marks) :
    Yields (concludeFailedUnchecked host.recorded plan rounds i e) r
      (fun _ r' => Unexpired plan.deadWorkerGrace (marksIn r'.deeds) ∧
        ∀ j, j ≠ i → marksOf j (marksIn r'.deeds) = marksOf j marks)
      fun stop r' => Blames plan.deadWorkerGrace short stop r'.deeds := by
  rw [concludeFailedUnchecked, yields_bind]
  refine (yields_decideAttach_vigil host plan h hmarks).imp fun attach r₁ h₁ => ?_
  rw [yields_bind, sendDecision]
  refine yields_noting_bind fun answer w => ?_
  rcases answer with e | _
  · refine .unchecked ?_ fun j status hstop => ?_
    · rwa [marksIn_of_elsewhere (vigil_snoc_of_elsewhere h₁ rfl)]
    · cases hstop
      exact .undelivered attach e (by simp) rfl
  · -- the worker has its decision, and its count begins anew
    have hrestarted := marksIn_of_elsewhere (vigil_snoc_decision i attach h₁)
    have hwatched : Watched plan.deadWorkerGrace r₁.deeds i none
        (r₁.deeds ++ [.commanded i (.decision attach) (.ok ())]) := by
      refine ⟨?_, ?_, fun j hj => ?_⟩
      · rw [hrestarted]
        exact hmarks.snoc fun _ heq => by cases heq
      · rw [hrestarted, marksOf_snoc_self]
        exact knownSince_snoc_none rfl
      · rw [hrestarted, marksOf_snoc_of_ne hj, marksIn_of_elsewhere h₁]
    rw [yields_pure, yields_bind]
    refine (yields_awaitFrom_watched host plan rounds hwatched).imp ?_
    rintro _ r₂ ⟨since?, h₂, hr₂⟩
    rw [yields_bind]
    refine (yields_reap_marks host plan rounds hr₂ h₂.unexpired).imp fun _ r₃ h₃ => ?_
    rw [yields_pure, h₃, ← marksIn_of_elsewhere h₁]
    exact ⟨h₂.unexpired, h₂.others⟩

/-- **A worker that says that it is done** is handled, in which no other worker is checked. -/
theorem yields_conclude_watched (short : Prop)
    (h : Unexpired plan.deadWorkerGrace (marksIn r.deeds)) :
    Yields (conclude host.recorded plan rounds i) r
      (fun _ r' => Unexpired plan.deadWorkerGrace (marksIn r'.deeds) ∧
        ∀ j, j ≠ i → marksOf j (marksIn r'.deeds) = marksOf j (marksIn r.deeds))
      fun stop r' => Blames plan.deadWorkerGrace short stop r'.deeds := by
  rw [conclude_eq, concludeUnchecked]
  refine yields_noting_bind fun outcome w => ?_
  have hinformed : vigil (r.deeds ++ [.informed i outcome]) = ⟨marksIn r.deeds, .elsewhere⟩ :=
    vigil_snoc_of_turn rfl rfl
  rcases outcome with (_ | e) | _ | _
  · rw [yields_bind]
    refine (yields_reap_marks host plan rounds hinformed h).imp fun _ r' h' => ?_
    rw [yields_pure, h']
    exact ⟨h, fun _ _ => rfl⟩
  · exact yields_concludeFailed_watched host plan rounds hinformed h
  · refine blames_of_ne ?_ fun _ _ heq => by cases heq
    rwa [marksIn_of_elsewhere hinformed]
  · refine blames_of_ne ?_ fun _ _ heq => by cases heq
    rwa [marksIn_of_elsewhere hinformed]

end Campaign

/-! ## The workers that are left -/

namespace Orchestrator

variable {σ : Type} {grace : Duration} {workers : List OpenWorker}
  {o o' : Orchestrator (Recorded CampaignDeed σ)}

/-- Since when these workers are known to be gone agrees with the record, in which the period of
grace is over at no check. -/
structure Vigilant (grace : Duration) (workers : List OpenWorker)
    (o : Orchestrator (Recorded CampaignDeed σ)) : Prop where
  unexpired : Unexpired grace (marksIn o.log)
  nodup : (workers.map (·.index)).Nodup
  since : ∀ w ∈ workers, KnownSince (marksOf w.index (marksIn o.log)) w.goneSince?

theorem Vigilant.same (h : o.Vigilant grace workers) (hmarks : marksIn o'.log = marksIn o.log) :
    o'.Vigilant grace workers := by
  obtain ⟨hunexpired, hnodup, hsince⟩ := h
  rw [← hmarks] at hunexpired hsince
  exact ⟨hunexpired, hnodup, hsince⟩

theorem Vigilant.update {before after : List OpenWorker} {w w' : OpenWorker}
    (h : o.Vigilant grace (before ++ w :: after)) (hindex : w'.index = w.index)
    (hw : Watched grace o.log w.index w'.goneSince? o'.log) :
    o'.Vigilant grace (before ++ w' :: after) := by
  have hnodup := h.nodup
  rw [List.map_append, List.map_cons, List.nodup_middle, List.nodup_cons,
    ← List.map_append] at hnodup
  refine ⟨hw.unexpired, ?_, fun u hu => ?_⟩
  · have hsame : (before ++ w' :: after).map (·.index) = (before ++ w :: after).map (·.index) := by
      simp [hindex]
    exact hsame ▸ h.nodup
  · rcases List.mem_append.1 hu with hu | hu
    · have hne : u.index ≠ w.index := fun heq =>
        hnodup.1 (heq ▸ List.mem_map_of_mem (List.mem_append_left after hu))
      rw [hw.others _ hne]
      exact h.since u (List.mem_append_left _ hu)
    · rcases List.mem_cons.1 hu with rfl | hu
      · rw [hindex]
        exact hw.since
      · have hne : u.index ≠ w.index := fun heq =>
          hnodup.1 (heq ▸ List.mem_map_of_mem (List.mem_append_right before hu))
        rw [hw.others _ hne]
        exact h.since u (List.mem_append_right _ (List.mem_cons_of_mem w hu))

end Orchestrator

namespace Campaign

open FuzzCampaign.Action Orchestrator

variable {σ : Type} (host : CampaignHost σ) (plan : CampaignPlan) (rounds : Nat) {short : Prop}
  {o : Orchestrator (Recorded CampaignDeed σ)}

/-- A stop and the last check. -/
def Blamed (plan : CampaignPlan) (short : Prop) (stop : Stop)
    (o : Orchestrator (Recorded CampaignDeed σ)) : Prop :=
  Blames plan.deadWorkerGrace short stop o.log

theorem yields_look_watched {earlier : List CampaignDeed} {w : OpenWorker}
    (h : Watched plan.deadWorkerGrace earlier w.index w.goneSince? o.log) :
    Yields (look host.recorded plan w) o (fun s o' => s.worker.index = w.index ∧
      Watched plan.deadWorkerGrace earlier w.index s.worker.goneSince? o'.log)
      (Blamed plan short) := by
  rw [look, yields_bind]
  refine (yields_drain host w.index).imp ?_
  rintro had o₁ ⟨snapshots, hgrows⟩
  have h₁ : Watched plan.deadWorkerGrace earlier w.index w.goneSince? o₁.log := by
    rw [hgrows.log]
    exact h.same (marksIn_snoc_of_turn rfl rfl)
  rw [yields_bind]
  refine ((adds_noting (Q := fun p l => l = [.polled w.index p])
    fun _ => rfl).outside_sure o₁).imp ?_
  rintro p o₂ ⟨_, hgrows₂, rfl⟩
  -- a worker of which nothing was found is checked
  have hcheck : ∀ closed : Bool, p = (if closed then .disconnected else .empty) →
      Yields (outside (lookAfter host.recorded plan.deadWorkerGrace w.index closed w.goneSince?)) o₂
        (fun since? o' => Watched plan.deadWorkerGrace earlier w.index since? o'.log)
        (Blamed plan short) := by
    rintro closed rfl
    exact yields_outside.2 (yields_lookAfter_watched host closed hgrows₂.log h₁)
  rcases p with _ | _ | _
  · refine ⟨rfl, h₁.same ?_⟩
    rw [hgrows₂.log]
    exact marksIn_snoc_of_turn rfl rfl
  · exact yields_bind.2 ((hcheck false rfl).imp fun since? o₃ h₃ => ⟨rfl, h₃⟩)
  · exact yields_bind.2 ((hcheck true rfl).imp fun since? o₃ h₃ => ⟨rfl, h₃⟩)

theorem yields_look_vigilant {made : List Sighting} {w : OpenWorker} {left : List OpenWorker}
    (h : o.Vigilant plan.deadWorkerGrace (made.map (·.worker) ++ w :: left)) :
    Yields (look host.recorded plan w) o
      (fun s o' => o'.Vigilant plan.deadWorkerGrace ((made ++ [s]).map (·.worker) ++ left))
      (Blamed plan short) := by
  have hwatched : Watched plan.deadWorkerGrace o.log w.index w.goneSince? o.log :=
    ⟨h.unexpired, h.since w (by simp), fun _ _ => rfl⟩
  refine (yields_look_watched host plan hwatched).imp ?_
  rintro s o' ⟨hindex, hs⟩
  simpa using h.update hindex hs

theorem yields_complete_vigilant
    (hreap : ReapsUnless short host.recorded plan.reapTimeout rounds) {w : OpenWorker}
    (h : o.Vigilant plan.deadWorkerGrace o.active) :
    Yields (complete host.recorded plan rounds w) o
      (fun _ o' => o'.Vigilant plan.deadWorkerGrace o'.active) (Blamed plan short) := by
  refine yields_complete_of host plan rounds
    (yields_conclude_watched host plan rounds short h.unexpired) ?_ ?_ ?_
  · rintro v r o' snapshots ⟨hunexpired, hothers⟩ hgrows
    have hmarks : marksIn o'.log = marksIn r.deeds := by
      rw [hgrows.log]
      exact marksIn_snoc_of_turn rfl rfl
    refine Vigilant.same (o := o') ?_ rfl
    change o'.Vigilant plan.deadWorkerGrace o'.active
    rw [hgrows.active]
    refine ⟨hmarks ▸ hunexpired, h.nodup.sublist (List.filter_sublist.map _), fun u hu => ?_⟩
    obtain ⟨hu, hne⟩ := List.mem_filter.1 hu
    rw [hmarks, hothers u.index (of_decide_eq_true hne)]
    exact h.since u hu
  · intro e r o' snapshots hstop hgrows
    have hcloses : Closes plan.deadWorkerGrace short (.error e) o'.log := by
      rw [hgrows.log]
      exact hstop.close rfl rfl
    have hends := host.ends_closes plan.deadWorkerGrace short (.error e)
    refine yields_outside.2 ((yields_shutdown_stops hreap hends w.index hcloses).mono
      (fun _ _ h₂ => h₂.2) ?_)
    rintro _ r₂ ⟨h₂, rfl, hshort⟩
    exact h₂.2.outOfRounds hshort
  · exact fun stop r _ hstop => hstop

/-! ## Sweeps -/

/-- **The counts are carried from sweep to sweep.** -/
theorem yields_sweep_vigilant (hreap : ReapsUnless short host.recorded plan.reapTimeout rounds)
    (h : o.Vigilant plan.deadWorkerGrace o.active) :
    Yields (sweep host.recorded plan rounds) o
      (fun _ o' => o'.Vigilant plan.deadWorkerGrace o'.active)
      (Blamed plan short) := by
  change Yields (o.active.mapM (look host.recorded plan) >>= _) o _ _
  rw [yields_bind]
  refine (yields_mapM (fun made left o =>
      o.Vigilant plan.deadWorkerGrace (made.map (·.worker) ++ left))
    (fun made w left o h => yields_look_vigilant host plan h) o.active [] h).imp
    fun sightings o₁ h₁ => ?_
  rw [List.nil_append, List.append_nil] at h₁
  rw [yields_bind]
  change Yields (_ >>= _) { o₁ with active := sightings.map Sighting.worker } _ _
  rw [yields_bind]
  have hlooked : Vigilant plan.deadWorkerGrace (sightings.map Sighting.worker)
      { o₁ with active := sightings.map Sighting.worker } := h₁.same rfl
  refine (yields_mapM (fun _ _ o => Vigilant plan.deadWorkerGrace o.active o)
    (fun made w left o h => yields_complete_vigilant host plan rounds hreap h) _ []
    hlooked).imp fun late o₂ h₂ => ?_
  refine (yields_afterwards host plan _ _).mono ?_ ?_
  · rintro _ o₃ ⟨l, hgrows, hl⟩
    rw [hgrows.active]
    refine h₂.same ?_
    rw [hgrows.log]
    refine marksIn_append_of_turns fun d hd => ?_
    obtain ⟨pause, rfl⟩ := hl d hd
    exact ⟨rfl, rfl⟩
  · rintro _ o₃ ⟨message, rfl, hgrows⟩
    refine blames_of_ne ?_ fun _ _ heq => by cases heq
    rw [hgrows.log, List.append_nil]
    exact h₂.unexpired

theorem yields_sweeps_vigilant (hreap : ReapsUnless short host.recorded plan.reapTimeout rounds)
    (h : o.Vigilant plan.deadWorkerGrace o.active) :
    Yields (repeatUntil (sweepRound host.recorded plan rounds) rounds) o
      (fun _ o' => Unexpired plan.deadWorkerGrace (marksIn o'.log)) (Blamed plan short) := by
  refine yields_repeatUntil (fun o => Vigilant plan.deadWorkerGrace o.active o) (fun o h => ?_)
    (fun _ h => blames_outOfRounds h.unexpired) rounds h
  change Yields (if o.active.isEmpty then pure (some ()) else do
    sweep host.recorded plan rounds
    return none) o _ _
  split_ifs
  · exact h.unexpired
  · exact yields_bind.2 ((yields_sweep_vigilant host plan rounds hreap h).imp fun _ _ h => h)

/-! ## The whole campaign -/

theorem yields_spawnFrom_vigilant {test : TestCase} {seeds : List Seed}
    (hlength : seeds.length ≤ word64) {w : σ} (h : (Orchestrator.start ⟨w, []⟩).Grows [] o) :
    Yields (spawnFrom host.recorded plan test 0 seeds) o
      (fun _ o' => o'.Vigilant plan.deadWorkerGrace o'.active) (Blamed plan short) := by
  have hnone : ∀ w ∈ o.active, w.goneSince? = none := by
    rw [h.active]
    exact List.forall_mem_nil _
  have hunchecked : marksIn o.log = [] := by
    rw [h.log]
    rfl
  have hmarks := preserves_spawnFrom host.recorded plan test
    (P := fun r : Recorded CampaignDeed σ => marksIn r.deeds = []) (fun _ _ hr => hr)
    (fun _ _ _ _ _ hr => (marksIn_snoc_of_turn rfl rfl).trans hr) o.aggregator
      o.coverageFiles 0 seeds
    o ⟨hunchecked, rfl, rfl⟩
  refine ((yields_spawnFrom host plan 0 seeds (beginning_of_grows h)).and
    ((yields_spawnFrom_fresh host plan test 0 seeds hnone).and hmarks)).mono ?_ ?_
  · rintro _ o' ⟨hbeginning, hfresh, hmarks', -⟩
    change marksIn o'.log = [] at hmarks'
    refine ⟨?_, ?_, fun w hw => ?_⟩
    · rw [hmarks']
      exact unexpired_nil
    · change o'.indexes.Nodup
      rw [hbeginning.indexes]
      exact nodup_places seeds hlength
    · rw [hmarks', hfresh w hw]
      rfl
  · rintro stop o' ⟨-, hdied, hmarks', -⟩
    change marksIn o'.log = [] at hmarks'
    refine .unchecked ?_ fun i status hstop => ?_
    · rw [hmarks']
      exact unexpired_nil
    · obtain ⟨task, hstart⟩ := hdied i status hstop
      exact .startFailed task hstart

/-- A stop keeps its reason while the workers are ended that are left. -/
theorem yields_endAll_blamed (hreap : ReapsUnless short host.recorded plan.reapTimeout rounds)
    {stop : Stop} (h : Blamed plan short stop o) :
    Yields (endAll host.recorded plan rounds) o (fun _ o' => Blamed plan short stop o')
      (Blamed plan short) := by
  have hends := host.ends_closes plan.deadWorkerGrace short stop
  -- the first command ends the last check
  have htell : Yields (o.active.forM fun w => outside (sendShutdown host.recorded w.index)) o
      (fun _ o' => Blamed plan short stop o' ∧
        (o.active = [] ∨ Closes plan.deadWorkerGrace short stop o'.log)) (Blamed plan short) := by
    refine (yields_forM (fun left o' => Blamed plan short stop o' ∧
      (o.active = left ∨ Closes plan.deadWorkerGrace short stop o'.log)) ?_ o.active ?_)
    · rintro w left o₁ ⟨h₁, -⟩
      refine ((adds_sendShutdown host w.index).outside_sure o₁).imp ?_
      rintro _ o₂ ⟨_, hgrows, answer, rfl⟩
      have hcloses : Closes plan.deadWorkerGrace short stop o₂.log := by
        rw [hgrows.log]
        exact h₁.close rfl rfl
      exact ⟨hcloses.2, .inr hcloses⟩
    · exact ⟨h, .inl rfl⟩
  change Yields ((o.active.forM fun w => outside (sendShutdown host.recorded w.index)) >>= _) o _ _
  rw [yields_bind]
  refine htell.imp ?_
  rintro _ o₁ ⟨h₁, hcloses⟩
  change Yields
    (o.active.forM fun w => outside (reap host.recorded plan.reapTimeout rounds w.index))
    { o₁ with active := [] } _ _
  rcases hcloses with hnone | hcloses
  · rw [hnone]
    exact h₁
  · have hbefore : Closes plan.deadWorkerGrace short stop (log { o₁ with active := [] }) := hcloses
    refine (yields_forM (fun _ o' => Closes plan.deadWorkerGrace short stop (log o'))
      (fun w _ o' h' => ?_) o.active hbefore).imp fun _ o' h' => h'.2
    rw [yields_outside]
    refine ((preserves_reap hends rounds w.index plan.reapTimeout o'.world h').and
      (hreap w.index o'.world)).mono (fun _ _ h'' => h''.1) ?_
    rintro _ r ⟨hr, rfl, hshort⟩
    exact hr.2.outOfRounds hshort

theorem yields_run_blamed (hreap : ReapsUnless short host.recorded plan.reapTimeout rounds)
    (test : TestCase) (w : σ) :
    Yields (run host.recorded plan test rounds) ⟨w, []⟩
      (fun _ r => Unexpired plan.deadWorkerGrace (marksIn r.deeds))
      fun stop r => Blames plan.deadWorkerGrace short stop r.deeds := by
  have hlength := length_seedsOf_le host.recorded plan ⟨w, []⟩
  refine yields_run host plan rounds (fun hasLogsDir stop w' hvalid => ?_) fun w' => ?_
  · exact blames_of_ne unexpired_nil (ne_died_of_validate plan hvalid)
  · refine yields_orchestrate_of_course host plan rounds
      (C := fun o => Unexpired plan.deadWorkerGrace (marksIn o.log)) (B := Blamed plan short)
      (fun o hgrows => ?_) (fun o o' h hgrows => ?_) (fun e o h => ?_) (fun _ _ => id) fun _ => id
    · rw [yields_bind]
      exact (yields_spawnFrom_vigilant host plan hlength hgrows).imp fun _ o₁ h₁ =>
        yields_sweeps_vigilant host plan rounds hreap h₁
    · change Unexpired plan.deadWorkerGrace (marksIn o'.log)
      rwa [hgrows.log, List.append_nil]
    · refine (yields_endAll_blamed host plan rounds hreap h).imp fun _ o₁ h₁ o₂ hgrows => ?_
      change Blames plan.deadWorkerGrace short (.error e) o₂.log
      rw [hgrows.log, List.append_nil]
      exact h₁

end Campaign

/-- The checks in the record of a run fit together with its result. -/
structure GracePolicy (plan : CampaignPlan) (result : Except Stop Findings)
    (log : List CampaignDeed) : Prop where
  /-- A check at which the period of grace is over is the last of all, and the run returns the error
  that this worker died, unless the rounds were not enough. -/
  expired : ∀ before i c after status, marksIn log = before ++ (i, .checked c) :: after →
    Expired plan.deadWorkerGrace (marksOf i before) c status →
      after = [] ∧
        (result = .error (.error (.workerDied i status)) ∨ result = .error .outOfRounds)
  /-- At no other check is a worker declared dead. -/
  died : ∀ i status, result = .error (.error (.workerDied i status)) →
    (∃ before c, marksIn log = before ++ [(i, .checked c)] ∧
      Expired plan.deadWorkerGrace (marksOf i before) c status) ∨ DiedUnchecked i status log

namespace Campaign

open FuzzCampaign.Action

/-- **The period of grace.** In every world, a run ends because a worker died at the first check at
which the worker is gone and the unbroken run of checks that found it gone began a whole period of
grace before, and at no other check. If the clock goes on and the rounds are enough for a reaping,
the run does return that error. Where completions come over links, a completion that is queued is
taken before its link is found closed. -/
theorem run_grace_period {σ : Type} (host : CampaignHost σ) (plan : CampaignPlan) (rounds : Nat)
    (test : TestCase) (w : σ) {result : Except Stop Findings} {r : Recorded CampaignDeed σ}
    (h : (run host.recorded plan test rounds).outcome ⟨w, []⟩ = (result, r)) :
    GracePolicy plan result r.deeds ∧
    (∀ clock, host.Ticks clock → plan.reapTimeout.nanoseconds + reapInterval.nanoseconds ≤
      rounds * reapInterval.nanoseconds →
        ∀ before i c status, marksIn r.deeds = before ++ [(i, .checked c)] →
          Expired plan.deadWorkerGrace (marksOf i before) c status →
            result = .error (.error (.workerDied i status))) ∧
    ∀ links, host.Linked links → TakenBefore links r := by
  have hexpired : ∀ short, ReapsUnless short host.recorded plan.reapTimeout rounds →
      ∀ before i c after status, marksIn r.deeds = before ++ (i, .checked c) :: after →
        Expired plan.deadWorkerGrace (marksOf i before) c status → after = [] ∧
          (result = .error (.error (.workerDied i status)) ∨
            result = .error .outOfRounds ∧ short) := by
    intro short hreap before i c after status hmarks hc
    have hrun := yields_run_blamed host plan rounds hreap test w
    rcases result with stop | findings
    · refine ((hrun.of_error h).last hmarks hc).imp_right (Or.imp (congrArg _) ?_)
      exact And.imp_left (congrArg _)
    · exact absurd hc (hrun.of_ok h before i c after hmarks status)
  refine ⟨⟨fun before i c after status hmarks hc => ?_, fun i status hdied => ?_⟩, ?_, ?_⟩
  · exact (hexpired True (reapsUnless_true host _ _) before i c after status hmarks hc).imp_right
      (Or.imp_right And.left)
  · subst hdied
    have hrun := yields_run_blamed host plan rounds (reapsUnless_true host _ _) test w
    cases hrun.of_error h with
    | unchecked _ hdied => exact .inr (hdied i status rfl)
    | expired before j c status' hmarks _ hlast hstop =>
      rcases hstop with hstop | ⟨hstop, -⟩
      · cases hstop
        exact .inl ⟨before, c, hmarks, hlast⟩
      · cases hstop
  · intro clock hticks hrounds before i c status hmarks hc
    exact ((hexpired False (reapsUnless_false hticks hrounds) before i c [] status hmarks
      hc).2).resolve_right And.right
  · intro links hlinks
    have hfinal := (yields_run_takenBefore hlinks plan rounds test w).final
    rwa [h] at hfinal

/-- A world in which the worker's link is closed from the start, and the worker goes on running. -/
def hangingUp : CampaignHost Nat :=
  { atOnce (fun _ => .disconnected) fun _ => .disconnected with status := fun _ => pure (.ok none) }

/-- A world in which the worker exits at once, after a failure and a completion that is found
late. -/
def leaving : CampaignHost Nat :=
  { atOnce (fun _ => .empty) fun _ => .got (some anyFailure) with
    completion := fun _ => return if (← get) < 125000000 then .empty else .got ()
    awaitFinished := fun _ d => do
      modify (· + d.nanoseconds)
      return .empty }

/-- A campaign of one worker, which may be gone for 200 ms. -/
def runOne (host : CampaignHost Nat) : Except Stop Findings × Recorded CampaignDeed Nat :=
  (run host.recorded { deadWorkerGrace := .ofMillis 200, reapTimeout := .ofMillis 20 }
    ⟨"m", "t", []⟩ 5).outcome ⟨0, []⟩

/-- Links that were closed before anything was queued in them. -/
def closedLinks (_ : Nat) (_ : UInt64) : Channel := Channel.fresh.dropWorker

theorem linked_hangingUp : hangingUp.Linked closedLinks := by
  have hspent : ∀ s i, (closedLinks s i).Spent := fun _ _ => ⟨rfl, rfl⟩
  refine ⟨fun i s => ⟨_, id, rfl⟩, fun i d s => ⟨_, id, rfl⟩, fun i => ?_, fun i j s h => h⟩
  constructor <;> intros <;> exact hspent _ i

/-- The first check finds the worker gone, and the period of grace ends between the second and the
third. -/
theorem marksIn_hangingUp : marksIn (runOne hangingUp).2.deeds =
    [(0, .checked ⟨none, true, [0, 0]⟩), (0, .checked ⟨none, true, [125000000]⟩),
      (0, .checked ⟨none, true, [250000000]⟩)] := by
  decide +kernel

/-- The count begins anew when the worker has got its decision. -/
theorem marksIn_leaving : marksIn (runOne leaving).2.deeds =
    [(0, .checked ⟨some "exit status: 0", false, [0, 0]⟩), (0, .restarted),
      (0, .checked ⟨some "exit status: 0", false, [250000000, 250000000]⟩),
      (0, .checked ⟨some "exit status: 0", false, [375000000]⟩),
      (0, .checked ⟨some "exit status: 0", false, [500000000]⟩)] := by
  decide +kernel

/-- A worker that only closes its link and one that exits are declared dead at the first check after
the period of grace. -/
theorem run_grace_period_over :
    (runOne hangingUp).1 = .error (.error (.workerDied 0 linkClosed)) ∧
    TakenBefore closedLinks (runOne hangingUp).2 ∧
    (runOne leaving).1 = .error (.error (.workerDied 0 "exit status: 0")) ∧
    GracePolicy { deadWorkerGrace := .ofMillis 200, reapTimeout := .ofMillis 20 } (runOne leaving).1
      (runOne leaving).2.deeds := by
  have hhung := marksIn_hangingUp
  have hleft := marksIn_leaving
  rcases hrun : runOne hangingUp with ⟨result, r⟩
  rcases hrun' : runOne leaving with ⟨result', r'⟩
  rw [hrun] at hhung
  rw [hrun'] at hleft
  obtain ⟨-, hdied, htaken⟩ := run_grace_period hangingUp _ _ _ _ hrun
  obtain ⟨hpolicy, hdied', -⟩ := run_grace_period leaving _ _ _ _ hrun'
  refine ⟨?_, htaken _ linked_hangingUp, ?_, hpolicy⟩
  · have hclock := ticks_atOnce (fun _ => .disconnected) fun _ => .disconnected
    refine hdied (fun time => time)
      ⟨hclock.now_eq, hclock.now, fun _ _ => Nat.le_refl _, hclock.sleep⟩
      (by decide) [(0, .checked ⟨none, true, [0, 0]⟩), (0, .checked ⟨none, true, [125000000]⟩)] 0 _
      linkClosed hhung ⟨rfl, 0, 250000000, ?_, rfl, by decide⟩
    decide
  · have hclock := ticks_atOnce (fun _ => .empty) fun _ => .got (some anyFailure)
    refine hdied' (fun time => time) ⟨hclock.now_eq, hclock.now, hclock.status, hclock.sleep⟩
      (by decide) [(0, .checked ⟨some "exit status: 0", false, [0, 0]⟩), (0, .restarted),
        (0, .checked ⟨some "exit status: 0", false, [250000000, 250000000]⟩),
        (0, .checked ⟨some "exit status: 0", false, [375000000]⟩)] 0 _ "exit status: 0" hleft
      ⟨rfl, 250000000, 500000000, ?_, rfl, by decide⟩
    decide

end Campaign

end FuzzCampaign
