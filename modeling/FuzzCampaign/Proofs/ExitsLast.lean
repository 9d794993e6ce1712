import FuzzCampaign.Proofs.DeclaredDead
import FuzzCampaign.Proofs.LatestCoverage
import FuzzCampaign.Proofs.Upkeep

/-!
# A worker that exits when it is done

A worker may exit, or close its link, only after all that it has to say has arrived. The
orchestrator looks for a completion first and for an exit afterwards, so the worker may signal and
exit between the two. The next look then finds the completion: such a worker is declared dead only
if no next look is made, because the whole period of grace passes while the clock is read twice in a
row. A period of grace of zero always does.

* `Station.isOver`, `Floor.exitsLast`: workers on the floor, one of which exits last of all;
* `Station.Attested`, `Floor.Attests`: what the record says of this worker is so at its station;
* `Floor.Attests.poll`: a completion that is due is found at a worker that has shown that it is
  gone;
* **`Campaign.run_declaredDead`**: why such a worker is declared dead;
* `Campaign.deadAtOnce`: such a worker is declared dead while its completion is queued.
-/

namespace FuzzCampaign

/-! ## Workers that exit last -/

/-- The worker does nothing more, and all that it said has arrived. -/
def Station.isOver (st : Station) : Bool :=
  match st.talk with
  | .ended _ => st.wire.isEmpty
  | _ => false

namespace Floor

variable {ρ α : Type}

/-- Whether the worker of an index is over. -/
def isOver (f : Floor ρ) (i : UInt64) : Bool := (f.stations i).any Station.isOver

/-- An answer on worker `j` that says that it is gone is replaced if `j` is `i` and not over. -/
def unlessOver (i j : UInt64) (isGone : α → Bool) (instead : α) (q : StateM (Floor ρ) α) :
    StateM (Floor ρ) α := do
  let a ← q
  fun f => (if j = i ∧ isGone a = true ∧ f.isOver i = false then instead else a, f)

/-- Whether a look at a worker shows that it has exited. -/
def hasExited : Except CampaignError (Option String) → Bool
  | .ok (some _) => true
  | _ => false

/-- Whether a look into a queue shows that it is closed. -/
def isClosed : Poll Unit → Bool
  | .disconnected => true
  | _ => false

/-- The world of a campaign that has its workers on the floor; worker `i` is not seen to have
exited, nor its link to be closed, before it is over. -/
def exitsLast (i : UInt64) (crew : WorkerTask → Conversation) (env : Surroundings ρ) :
    CampaignHost (Floor ρ) :=
  { host crew env with
    status := fun j => unlessOver i j hasExited (.ok none) ((host crew env).status j)
    completion := fun j => unlessOver i j isClosed .empty ((host crew env).completion j)
    awaitFinished := fun j d =>
      unlessOver i j isClosed .empty ((host crew env).awaitFinished j d) }

end Floor

/-! ## The record and the station -/

namespace Station

variable {ms : List Dispatch} {i : UInt64} {log : List CampaignDeed} {st : Station}

/-- What the record says of a worker that has `ms` to say is so at its station. -/
structure Attested (ms : List Dispatch) (i : UInt64) (log : List CampaignDeed) (st : Station) :
    Prop where
  retells : ∃ arrived left, st.Retells ms arrived left
  signals_eq : signalsOf i log = signalsIn st.diary
  reports_eq : reportsOf i log = informedIn st.diary
  is_over : SeenGone i log → st.isOver = true

theorem isOver_iff : st.isOver = true ↔ (∃ r, st.talk = .ended r) ∧ st.wire = [] := by
  unfold isOver
  rcases st.talk with r | _ | _ | _ <;> simp

/-- A worker that is over stays over. -/
theorem isOver_work (h : st.isOver = true) : st.work.isOver = true := by
  obtain ⟨⟨r, ht⟩, -⟩ := isOver_iff.1 h
  rwa [work_of_ended ht]

theorem isOver_carry (h : st.isOver = true) : st.carry.isOver = true := by
  obtain ⟨-, hwire⟩ := isOver_iff.1 h
  unfold carry
  rwa [hwire]

theorem Attested.work (h : st.Attested ms i log) : st.work.Attested ms i log := by
  obtain ⟨⟨arrived, left, hretells⟩, hsignals, hreports, hover⟩ := h
  obtain ⟨left', hretells'⟩ := hretells.work
  refine ⟨⟨arrived, left', hretells'⟩, ?_, ?_, fun hgone => isOver_work (hover hgone)⟩
  · rw [signalsIn_work, hsignals]
  · rw [informedIn_work, hreports]

theorem Attested.carry (h : st.Attested ms i log) : st.carry.Attested ms i log := by
  obtain ⟨⟨arrived, left, hretells⟩, hsignals, hreports, hover⟩ := h
  obtain ⟨arrived', hretells'⟩ := hretells.carry
  refine ⟨⟨arrived', left, hretells'⟩, ?_, ?_, fun hgone => isOver_carry (hover hgone)⟩
  · rw [diary_carry, hsignals]
  · rw [diary_carry, hreports]

/-- **A completion that is due is queued** when the worker has shown that it is gone. -/
theorem Attested.completions_ne_nil (h : st.Attested ms i log)
    (hdone : completionsNeeded ms ≤ finishedIn ms) (hgone : SeenGone i log)
    (hdue : CompletionDue i log) : st.link.completions ≠ [] := by
  obtain ⟨⟨arrived, left, hretells⟩, hsignals, hreports, hover⟩ := h
  obtain ⟨⟨r, ht⟩, hwire⟩ := isOver_iff.1 (hover hgone)
  -- all that the worker has to say has arrived
  have hleft : left = [] := by
    have hunsaid := hretells.unsaid
    rwa [ht] at hunsaid
  have harrived : ms = arrived := by
    have heq := hretells.eq_append
    rwa [hwire, hleft, List.append_nil, List.append_nil] at heq
  have hfinished := hretells.sound.finished_eq
  rw [← harrived, ← hsignals] at hfinished
  intro hnil
  rw [hnil, List.length_nil, Nat.add_zero] at hfinished
  rcases hdue with hzero | ⟨hone, e, hreported⟩
  · have hneeded : 0 < completionsNeeded ms := by
      unfold completionsNeeded
      split <;> omega
    omega
  · rw [hreports] at hreported
    have hneeded : completionsNeeded ms = 2 := by
      rw [completionsNeeded, hretells.head_exception hreported]
    omega

end Station

/-! ### Steps that are recorded -/

/-- Whether a deed is a look at a worker: for a completion, or for an exit. -/
def CampaignDeed.isLook : CampaignDeed → Bool
  | .polled .. | .looked .. => true
  | _ => false

theorem CampaignDeed.isSignal_of_isLook (d : CampaignDeed) (i : UInt64) (h : d.isLook = false) :
    d.isSignal i = false := by
  cases d with
  | polled => cases h
  | _ => rfl

section

variable {ms : List Dispatch} {i : UInt64} {log : List CampaignDeed} {st : Station}
    {d : CampaignDeed}

theorem seenGone_snoc (h : SeenGone i (log ++ [d])) : SeenGone i log ∨ d.ShowsGone i := by
  obtain ⟨d', hd', hgone⟩ := h
  rcases List.mem_append.1 hd' with hd' | hd'
  · exact .inl ⟨d', hd', hgone⟩
  · exact .inr (List.mem_singleton.1 hd' ▸ hgone)

/-- A completion is missed for the first time when it is looked for. -/
theorem missed_snoc (h : Missed i (log ++ [d])) : Missed i log ∨
    ∃ p, d = .polled i p ∧ SeenGone i log ∧ CompletionDue i log ∧ p ≠ .got () := by
  obtain ⟨before, p, after, heq, hgone, hdue, hp⟩ := h
  rcases List.eq_nil_or_concat after with rfl | ⟨after, d', rfl⟩
  · obtain ⟨rfl, hd⟩ := List.append_inj' heq rfl
    exact .inr ⟨p, List.singleton_inj.1 hd, hgone, hdue, hp⟩
  · rw [List.concat_eq_append, ← List.cons_append, ← List.append_assoc] at heq
    exact .inl ⟨before, p, after, (List.append_inj' heq rfl).1, hgone, hdue, hp⟩

namespace Station

/-- Something is recorded that is nothing to the worker, or that it is gone once it is over. -/
theorem Attested.note (h : st.Attested ms i log) (hsignal : d.isSignal i = false)
    (hreport : d.report? i = none) (hover : d.ShowsGone i → st.isOver = true) :
    st.Attested ms i (log ++ [d]) := by
  refine ⟨h.retells, ?_, ?_, fun hgone => (seenGone_snoc hgone).elim h.is_over hover⟩
  · rw [signalsOf_append, signalsOf_cons, hsignal, h.signals_eq]
    rfl
  · rw [reportsOf_append, reportsOf_cons, hreport, h.reports_eq]
    exact List.append_nil _

theorem Attested.takeCompletion (h : st.Attested ms i log) (hc : st.link.completion.1 = .got ()) :
    st.takeCompletion.Attested ms i (log ++ [.polled i (.got ())]) := by
  obtain ⟨⟨arrived, left, hretells⟩, hsignals, hreports, hover⟩ := h
  refine ⟨⟨arrived, left, hretells.takeCompletion hc⟩, ?_, ?_, fun hgone => hover ?_⟩
  · simp [Station.takeCompletion, Station.note, CampaignDeed.isSignal, hsignals]
  · simp [Station.takeCompletion, Station.note, CampaignDeed.report?, hreports]
  · rcases seenGone_snoc hgone with hgone | ⟨⟨⟩⟩
    exact hgone

theorem Attested.takeException (h : st.Attested ms i log) {r : Option Envelope}
    (hc : st.link.exception.1 = .got r) :
    (st.takeException r).Attested ms i (log ++ [.informed i (.got r)]) := by
  obtain ⟨⟨arrived, left, hretells⟩, hsignals, hreports, hover⟩ := h
  refine ⟨⟨arrived, left, hretells.takeException hc⟩, ?_, ?_, fun hgone => hover ?_⟩
  · simp [Station.takeException, Station.note, CampaignDeed.isSignal, hsignals]
  · simp [Station.takeException, Station.note, CampaignDeed.report?, hreports]
  · rcases seenGone_snoc hgone with hgone | ⟨⟨⟩⟩
    exact hgone

theorem Attested.takeSnapshots (h : st.Attested ms i log) : st.takeSnapshots.Attested ms i log := by
  obtain ⟨⟨arrived, left, hretells⟩, hsignals, hreports, hover⟩ := h
  refine ⟨⟨arrived, left, hretells.takeSnapshots⟩, ?_, ?_, hover⟩
  · simpa [Station.takeSnapshots, Station.note] using hsignals
  · simpa [Station.takeSnapshots, Station.note] using hreports

theorem Attested.command (h : st.Attested ms i log) (c : Command) :
    (st.command c).Attested ms i log := by
  obtain ⟨⟨arrived, left, hretells⟩, hsignals, hreports, hover⟩ := h
  have hcommand := hretells.sound.command_eq c
  refine ⟨⟨arrived, left, hretells.command c⟩, ?_, ?_, ?_⟩
  · rw [hcommand]
    simpa [Station.note] using hsignals
  · rw [hcommand]
    simpa [Station.note] using hreports
  · rw [hcommand]
    exact hover

end Station

end

namespace Floor

/-! ## The record and the floor -/

/-- What the record says of worker `i` is so on the floor, and no completion of it was missed. -/
structure Attests {ρ : Type} (messages : WorkerTask → List Dispatch) (i : UInt64)
    (log : List CampaignDeed) (f : Floor ρ) : Prop where
  absent : f.stations i = none → signalsOf i log = 0 ∧ reportsOf i log = [] ∧ ¬SeenGone i log
  present : ∀ st, f.stations i = some st →
    i ∈ startedIn log ∧ ∃ task, task.index = i ∧ st.Attested (messages task) i log
  not_missed : ¬Missed i log

variable {ρ α : Type} {messages : WorkerTask → List Dispatch} {i j : UInt64}
  {log : List CampaignDeed} {f : Floor ρ} {d : CampaignDeed}

theorem attests_vacant (rest : ρ) : (vacant rest).Attests messages i [] := by
  refine ⟨fun _ => ⟨rfl, rfl, ?_⟩, nofun, ?_⟩
  · rintro ⟨d, hd, -⟩
    cases hd
  · rintro ⟨before, p, after, heq, -⟩
    simp at heq

theorem Attests.of_station (h : f.Attests messages i log) {ρ' : Type} {f' : Floor ρ'}
    (hf : f'.stations i = f.stations i) : f'.Attests messages i log :=
  ⟨hf ▸ h.absent, hf ▸ h.present, h.not_missed⟩

theorem Attests.adjust (h : f.Attests messages i log) (j : UInt64) {g : Station → Station}
    (hg : ∀ ms st, Station.Attested ms i log st → (g st).Attested ms i log) :
    (f.adjust j g).Attests messages i log := by
  by_cases hj : i = j
  · subst hj
    refine ⟨fun hnone => h.absent ?_, fun st' hst' => ?_, h.not_missed⟩
    · simpa [Floor.adjust] using hnone
    · simp only [Floor.adjust, Function.update_self, Option.map_eq_some_iff] at hst'
      obtain ⟨st, hst, rfl⟩ := hst'
      obtain ⟨hstarted, task, htask, hattested⟩ := h.present st hst
      exact ⟨hstarted, task, htask, hg _ _ hattested⟩
  · exact h.of_station (Function.update_of_ne hj ..)

theorem Attests.note (h : f.Attests messages i log) (hsignal : d.isSignal i = false)
    (hreport : d.report? i = none) (hover : d.ShowsGone i → f.isOver i = true)
    (hfound : ∀ p, d = .polled i p → SeenGone i log → CompletionDue i log → p = .got ()) :
    f.Attests messages i (log ++ [d]) := by
  refine ⟨fun hnone => ?_, fun st hst => ?_, fun hmissed => ?_⟩
  · obtain ⟨hsignals, hreports, hgone⟩ := h.absent hnone
    refine ⟨by simp [hsignals, hsignal], by simp [hreports, hreport], fun hgone' => ?_⟩
    rcases seenGone_snoc hgone' with hgone' | hshows
    · exact hgone hgone'
    · have hnot := hover hshows
      rw [isOver, hnone] at hnot
      cases hnot
  · obtain ⟨hstarted, task, htask, hattested⟩ := h.present st hst
    refine ⟨?_, task, htask, hattested.note hsignal hreport fun hshows => ?_⟩
    · rw [startedIn_append]
      exact List.mem_append_left _ hstarted
    · have hyes := hover hshows
      rwa [isOver, hst] at hyes
  · rcases missed_snoc hmissed with hmissed | ⟨p, hd, hgone, hdue, hp⟩
    · exact h.not_missed hmissed
    · exact hp (hfound p hd hgone hdue)

theorem Attests.other (h : f.Attests messages i log) (hlook : d.isLook = false)
    (hreport : d.report? i = none) : f.Attests messages i (log ++ [d]) := by
  refine h.note (d.isSignal_of_isLook i hlook) hreport (fun hshows => ?_) fun p hp => ?_
  · cases hshows <;> cases hlook
  · subst hp
    cases hlook

theorem Attests.take (h : f.Attests messages i log) {st : Station} (hst : f.stations i = some st)
    {g : Station → Station}
    (hg : ∀ ms, st.Attested ms i log → (g st).Attested ms i (log ++ [d]))
    (hfound : ∀ p, d = .polled i p → p = .got ()) :
    (f.adjust i g).Attests messages i (log ++ [d]) := by
  refine ⟨fun hnone => ?_, fun st' hst' => ?_, fun hmissed => ?_⟩
  · simp [Floor.adjust, hst] at hnone
  · simp only [Floor.adjust, Function.update_self, hst, Option.map_some, Option.some.injEq] at hst'
    obtain ⟨hstarted, task, htask, hattested⟩ := h.present st hst
    refine ⟨?_, task, htask, hst' ▸ hg _ hattested⟩
    rw [startedIn_append]
    exact List.mem_append_left _ hstarted
  · rcases missed_snoc hmissed with hmissed | ⟨p, hd, -, -, hp⟩
    · exact h.not_missed hmissed
    · exact hp (hfound p hd)

/-- **Steps without the orchestrator leave the record right.** -/
theorem Attests.aside (h : f.Attests messages i log) (env : Surroundings ρ) (q : StateM ρ α) :
    ((aside env q).run f).2.Attests messages i log := by
  refine keeps_aside env (fun f m h => ?_) (fun _ _ h => h.of_station rfl) q h
  cases m with
  | work j => exact h.adjust j fun _ _ => Station.Attested.work
  | carry j => exact h.adjust j fun _ _ => Station.Attested.carry

theorem Attests.onSuccess (h : f.Attests messages i log) {env : Surroundings ρ}
    {q : StateM ρ (Except CampaignError Unit)} {g : Floor ρ → Floor ρ}
    {r : Except CampaignError Unit} {f' : Floor ρ} (hr : (onSuccess env q g).run f = (r, f')) :
    (∃ e, r = .error e ∧ f'.Attests messages i log) ∨
      (r = .ok () ∧ ∃ f'' : Floor ρ, f''.Attests messages i log ∧ f' = g f'') := by
  have haside := h.aside env q
  rcases onSuccess_cases env hr with ⟨e, rfl, hq⟩ | ⟨rfl, f'', hq, rfl⟩
  · rw [hq] at haside
    exact .inl ⟨e, rfl, haside⟩
  · rw [hq] at haside
    exact .inr ⟨rfl, f'', haside, rfl⟩

/-! ### Answers on the worker -/

theorem isOver_of_unlessOver (isGone : α → Bool) {instead answer : α} (q : StateM (Floor ρ) α)
    (hinstead : isGone instead = false) (h : ((unlessOver i i isGone instead q).run f).1 = answer)
    (hgone : isGone answer = true) : (q.run f).2.isOver i = true := by
  change (if i = i ∧ isGone (q.run f).1 = true ∧ (q.run f).2.isOver i = false then instead
    else (q.run f).1) = answer at h
  by_contra hover
  rw [Bool.not_eq_true] at hover
  by_cases ha : isGone (q.run f).1 = true
  · rw [if_pos ⟨rfl, ha, hover⟩] at h
    rw [← h, hinstead] at hgone
    cases hgone
  · rw [if_neg fun hand => ha hand.2.1] at h
    exact ha (h ▸ hgone)

variable {crew : WorkerTask → Conversation} {env : Surroundings ρ}

theorem Attests.status (h : f.Attests messages i log) (j : UInt64) :
    (((exitsLast i crew env).status j).run f).2.Attests messages i
      (log ++ [.looked j (((exitsLast i crew env).status j).run f).1]) := by
  refine Attests.note (h.aside env (env.host.status j)) rfl rfl (fun hshows => ?_) nofun
  generalize hanswer : (((exitsLast i crew env).status j).run f).1 = answer at hshows
  cases hshows with
  | exited status =>
    exact isOver_of_unlessOver hasExited ((host crew env).status i) rfl hanswer rfl

theorem Attests.look (h : f.Attests messages i log) (j : UInt64) (q : StateM ρ (Poll Unit))
    {r : Poll Unit} {f' : Floor ρ}
    (hr : (Floor.look env j (·.completion.1) (fun _ => Station.takeCompletion) q).run f = (r, f')) :
    (r = .got () ∧ f'.Attests messages i (log ++ [.polled j (.got ())])) ∨
      (r ≠ .got () ∧ f'.Attests messages i log ∧
        ∀ st, f'.stations j = some st → st.link.completion.1 ≠ .got ()) := by
  have haside := h.aside env q
  rcases look_cases env hr with ⟨⟨⟩, st, hst, hc, rfl, rfl⟩ | ⟨rfl, rfl, hnone⟩
  · refine .inl ⟨rfl, ?_⟩
    by_cases hj : j = i
    · subst hj
      exact haside.take hst (fun _ hattested => hattested.takeCompletion hc) fun p hp => by
        cases hp
        rfl
    · refine (haside.of_station (Function.update_of_ne (Ne.symm hj) ..)).note ?_ rfl ?_ ?_
      · simp [CampaignDeed.isSignal, hj]
      · rintro ⟨⟩
      · intro p hp
        cases hp
        exact absurd rfl hj
  · exact .inr ⟨idle_ne_got _ (), haside, fun st hst => hnone st hst ()⟩

/-- **A completion that is due is found** at a worker that has shown that it is gone. -/
theorem Attests.poll (hdone : ∀ task, task.index = i →
      completionsNeeded (messages task) ≤ finishedIn (messages task))
    (h : f.Attests messages i log) (j : UInt64) {q : StateM (Floor ρ) (Poll Unit)}
    {q' : StateM ρ (Poll Unit)}
    (hq : q = Floor.look env j (·.completion.1) (fun _ => Station.takeCompletion) q') :
    ((unlessOver i j isClosed .empty q).run f).2.Attests messages i
      (log ++ [.polled j ((unlessOver i j isClosed .empty q).run f).1]) := by
  generalize hanswer : ((unlessOver i j isClosed .empty q).run f).1 = answer
  change (q.run f).2.Attests messages i (log ++ [.polled j answer])
  have hvalue := hanswer
  change (if j = i ∧ isClosed (q.run f).1 = true ∧ (q.run f).2.isOver i = false then .empty
    else (q.run f).1) = answer at hvalue
  rcases hrun : q.run f with ⟨r, f'⟩
  rw [hrun] at hvalue
  rw [hq] at hrun
  rcases h.look j q' hrun with ⟨rfl, hgot⟩ | ⟨hne, hstay, hnone⟩
  · rw [if_neg fun hand => Bool.false_ne_true hand.2.1] at hvalue
    rwa [← hvalue]
  · have hanswer_ne : answer ≠ .got () := by
      rw [← hvalue]
      split_ifs
      · simp
      · exact hne
    refine hstay.note ?_ rfl (fun hshows => ?_) fun p hp hgone hdue => ?_
    · rcases answer with ⟨⟨⟩⟩ | _ | _
      · exact absurd rfl hanswer_ne
      · rfl
      · rfl
    · cases hshows with
      | hungUp =>
        have hover := isOver_of_unlessOver isClosed q rfl hanswer rfl
        rwa [hq, hrun] at hover
    · -- all that the worker said has arrived, so that there was something to find
      exfalso
      cases hp
      rcases hst : f'.stations i with _ | st
      · exact (hstay.absent hst).2.2 hgone
      · obtain ⟨-, task, htask, hattested⟩ := hstay.present st hst
        have hqueue := hattested.completions_ne_nil (hdone task htask) hgone hdue
        refine hnone st hst ?_
        rcases hcompletions : st.link.completions with _ | ⟨⟨⟩, rest⟩
        · exact absurd hcompletions hqueue
        · simp only [Channel.completion, hcompletions, Poll.ofQueue]

theorem Attests.exception (h : f.Attests messages i log) (j : UInt64) :
    (((host crew env).exception j).run f).2.Attests messages i
      (log ++ [.informed j (((host crew env).exception j).run f).1]) := by
  have haside := h.aside env (env.host.exception j)
  rcases hr : ((host crew env).exception j).run f with ⟨r, f'⟩
  change (Floor.look env j (·.exception.1) (fun r st => st.takeException r)
    (env.host.exception j)).run f = (r, f') at hr
  rcases look_cases env hr with ⟨report, st, hst, hc, rfl, rfl⟩ | ⟨rfl, rfl, -⟩
  · by_cases hj : j = i
    · subst hj
      refine haside.take hst (fun _ hattested => hattested.takeException hc) ?_
      rintro p ⟨⟩
    · refine (haside.of_station (Function.update_of_ne (Ne.symm hj) ..)).other rfl ?_
      simp [CampaignDeed.report?, hj]
  · refine haside.other rfl ?_
    generalize ((Floor.aside env (env.host.exception j)).run f).1 = otherwise
    cases otherwise <;> rfl

theorem Attests.store (crew : WorkerTask → Conversation) (h : f.Attests messages i log)
    (dir : String) (files : List (String × String)) :
    (((host crew env).store dir files).run f).2.Attests messages i log := by
  rcases hr : ((host crew env).store dir files).run f with ⟨r, f'⟩
  rcases h.onSuccess (g := fun f => f.write dir files) hr with ⟨_, _, herror⟩ | ⟨_, f'', hok, rfl⟩
  · exact herror
  · exact hok.of_station rfl

theorem Attests.send (h : f.Attests messages i log) (j : UInt64) (c : Command) :
    (((host crew env).send j c).run f).2.Attests messages i
      (log ++ [.commanded j c (((host crew env).send j c).run f).1]) := by
  rcases hr : ((host crew env).send j c).run f with ⟨r, f'⟩
  rcases h.onSuccess (g := fun f => f.adjust j fun st => st.command c) hr with
    ⟨_, _, herror⟩ | ⟨_, f'', hok, rfl⟩
  · exact herror.other rfl rfl
  · exact (hok.adjust j fun _ _ h => h.command c).other rfl rfl

theorem Attests.spawn (hcrew : ∀ task, task.index = i → (crew task).Says (messages task))
    (h : f.Attests messages i log) (task : WorkerTask)
    (hn : (startedIn (log ++ [.started task (((host crew env).spawn task).run f).1])).Nodup) :
    (((host crew env).spawn task).run f).2.Attests messages i
      (log ++ [.started task (((host crew env).spawn task).run f).1]) := by
  rcases hr : ((host crew env).spawn task).run f with ⟨r, f'⟩
  rw [hr] at hn
  dsimp only at hn ⊢
  rcases h.onSuccess (g := fun f => { f with
      stations := Function.update f.stations task.index (some (.start (crew task))) }) hr with
    ⟨e, rfl, herror⟩ | ⟨rfl, f'', hok, rfl⟩
  · exact herror.other rfl rfl
  · by_cases hi : i = task.index
    · -- the worker was not started before
      have hnew : i ∉ startedIn log := by
        rw [startedIn_append, List.nodup_append] at hn
        intro hmem
        exact hn.2.2 i hmem task.index (List.mem_singleton_self _) hi
      have hnone : f''.stations i = none := by
        rcases hst : f''.stations i with _ | st
        · rfl
        · exact absurd (hok.present st hst).1 hnew
      obtain ⟨hsignals, hreports, hgone⟩ := hok.absent hnone
      refine ⟨fun hst => ?_, fun st hst => ?_, fun hmissed => ?_⟩
      · subst hi
        simp at hst
      · subst hi
        simp only [Function.update_self, Option.some.injEq] at hst
        subst hst
        refine ⟨by simp [startedIn, CampaignDeed.start?], task, rfl,
          ⟨⟨[], _, Station.retells_start (hcrew task rfl)⟩, ?_, ?_, fun hgone' => ?_⟩⟩
        · simp [hsignals, CampaignDeed.isSignal, Station.start, signalsIn]
        · simp [hreports, CampaignDeed.report?, Station.start, informedIn]
        · rcases seenGone_snoc hgone' with hgone' | ⟨⟨⟩⟩
          exact absurd hgone' hgone
      · rcases missed_snoc hmissed with hmissed | ⟨p, hp, -⟩
        · exact hok.not_missed hmissed
        · cases hp
    · have hother : Attests messages i log { f'' with
          stations := Function.update f''.stations task.index (some (.start (crew task))) } :=
        hok.of_station (Function.update_of_ne hi ..)
      exact hother.other rfl rfl

end Floor

/-! ## The record of a campaign -/

namespace Campaign

open FuzzCampaign.Action

variable {ρ α : Type} {messages : WorkerTask → List Dispatch} {i : UInt64}
  {crew : WorkerTask → Conversation} {env : Surroundings ρ}

/-- As long as no two workers were started under one index, the record is right. -/
def Attest (messages : WorkerTask → List Dispatch) (i : UInt64)
    (r : Recorded CampaignDeed (Floor ρ)) : Prop :=
  (startedIn r.deeds).Nodup → r.world.Attests messages i r.deeds

theorem attest_noting {q : StateM (Floor ρ) α} {deed : α → CampaignDeed}
    (h : ∀ f log, f.Attests messages i log → (startedIn (log ++ [deed (q.run f).1])).Nodup →
      (q.run f).2.Attests messages i (log ++ [deed (q.run f).1]))
    (r : Recorded CampaignDeed (Floor ρ)) (hr : Attest messages i r) :
    Attest messages i ((Recorded.noting deed q).run r).2 := by
  intro hn
  refine h r.world r.deeds (hr ?_) hn
  change (startedIn (r.deeds ++ [deed (q.run r.world).1])).Nodup at hn
  rw [startedIn_append] at hn
  exact hn.of_append_left

/-- **The record stays right**, whatever is asked. -/
theorem preserves_attest (env : Surroundings ρ)
    (hcrew : ∀ task, task.index = i → (crew task).Says (messages task))
    (hdone : ∀ task, task.index = i →
      completionsNeeded (messages task) ≤ finishedIn (messages task)) :
    (Floor.exitsLast i crew env).recorded.Preserves (Attest messages i) where
  isDirectory _ _ h hn := (h hn).aside _ _
  freshSeed _ h hn := (h hn).aside _ _
  printLine _ _ h hn := (h hn).aside _ _
  showStatus _ _ h hn := (h hn).aside _ _
  store dir files _ h hn := (h hn).store crew dir files
  spawn task := attest_noting fun _ _ h hn => h.spawn hcrew task hn
  status j := attest_noting fun _ _ h _ => h.status j
  kill _ := attest_noting fun _ _ h _ => (h.aside env _).other rfl rfl
  send j c := attest_noting fun _ _ h _ => h.send j c
  completion j := attest_noting fun _ _ h _ => h.poll hdone j rfl
  awaitFinished j _ := attest_noting fun _ _ h _ => h.poll hdone j rfl
  exception j := attest_noting fun _ _ h _ => h.exception j
  snapshots j := attest_noting fun _ _ h _ =>
    ((h.aside env _).adjust j fun _ _ => Station.Attested.takeSnapshots).other rfl rfl
  decide _ _ := attest_noting fun _ _ h _ => (h.aside env _).other rfl rfl
  now := attest_noting fun _ _ h _ => (h.aside env _).other rfl rfl
  sleep _ := attest_noting fun _ _ h _ => (h.aside env _).other rfl rfl

/-- **A worker that exits when it is done is declared dead only at once.** Let the worker of an
index have all the completions to say that its outcome needs, and let it exit, or close its link,
only when all that it has to say has arrived. Whatever steps are made in which order, whatever the
plan, the other workers, the user and the clock do: if the campaign ends because this worker died,
then the whole period of grace passed within the one look that saw it gone, or its decision was not
delivered, or its question was abandoned, or the world said so itself. -/
theorem run_declaredDead (i : UInt64) (messages : WorkerTask → List Dispatch)
    (hcrew : ∀ task, task.index = i → (crew task).Says (messages task))
    (hdone : ∀ task, task.index = i →
      completionsNeeded (messages task) ≤ finishedIn (messages task))
    (env : Surroundings ρ) (plan : CampaignPlan) (test : TestCase) (rounds : Nat) (rest : ρ)
    {status : String} {r : Recorded CampaignDeed (Floor ρ)}
    (h : (run (Floor.exitsLast i crew env).recorded plan test rounds).outcome ⟨.vacant rest, []⟩ =
      (.error (.error (.workerDied i status)), r)) :
    DeclaredDead plan.deadWorkerGrace i status r.deeds := by
  obtain ⟨hn, hreason⟩ := (yields_run_founded (Floor.exitsLast i crew env) plan rounds test
    (.vacant rest)).of_error h i status rfl
  have hattest : Attest messages i r :=
    (preserves_run (preserves_attest env hcrew hdone) plan rounds test ⟨.vacant rest, []⟩
      fun _ => Floor.attests_vacant rest).of_error h
  exact hreason.resolve_left (hattest hn).not_missed

/-! ### A period of grace of zero -/

/-- An order of steps in which the worker reports that its test passed, and ends, right after it was
looked for a completion. -/
def rightAfterPoll : List (List Move) :=
  List.replicate 7 [] ++ [[.work 0, .work 0, .carry 0, .carry 0]]

/-- A plan for one worker that allows no time. -/
def graceless : CampaignPlan := { processCount := 1, deadWorkerGrace := .ofMillis 0 }

/-- A campaign whose worker passes. -/
def deadAtOnce : Except Stop Findings × Recorded CampaignDeed (Floor (List (List Move))) :=
  (run (Floor.exitsLast 0 (Worker.reporters (fun _ => none) fun _ => [])
    (.scheduled .timedOut)).recorded graceless ⟨"m", "t", []⟩ 3).outcome
      ⟨.vacant rightAfterPoll, []⟩

theorem deadAtOnce_error :
    deadAtOnce.1 = .error (.error (.workerDied 0 "exit status: 0")) := by decide +kernel

/-- **A worker that is done is declared dead**: in a campaign with a valid plan, the worker signals
its completion before it exits, and the completion is still queued when the campaign has ended. -/
theorem finished_worker_declaredDead :
    graceless.validate true = .ok () ∧
    deadAtOnce.1 = .error (.error (.workerDied 0 "exit status: 0")) ∧
    (deadAtOnce.2.world.stations 0).map (fun st => (st.isOver, st.link.completions)) =
      some (true, [()]) := by
  refine ⟨?_, ?_, ?_⟩ <;> decide +kernel

/-- The reason for which the worker is declared dead. -/
theorem run_declaredDead_deadAtOnce :
    deadAtOnce.1 = .error (.error (.workerDied 0 "exit status: 0")) ∧
    DeclaredDead (.ofMillis 0) 0 "exit status: 0" deadAtOnce.2.deeds := by
  have herror := deadAtOnce_error
  rcases hrun : deadAtOnce with ⟨e, r⟩
  rw [hrun] at herror
  subst herror
  refine ⟨rfl, run_declaredDead 0 (fun _ => Worker.reportMessages none) (fun _ _ => ?_)
    (fun _ _ => ?_) _ graceless _ _ _ hrun⟩
  · exact Conversation.says_afterCoverage (Worker.says_conversation none) []
  · decide

end Campaign

end FuzzCampaign
