import FuzzCampaign.Proofs.Course
import FuzzCampaign.Proofs.Talk
import FuzzCampaign.Proofs.Upkeep

/-!
# Where the coverage of a campaign comes from

If some workers of a floor never send coverage, then all coverage that a campaign takes, sums and
stores was sent by the others, whatever the order of steps and however the campaign ends.

* `Station.Honest`: all coverage at a station was sent by its worker, and a silent one sent none;
* `Floor.Sent`, `Tally.SentBy`: coverage that was sent by workers of a kind;
* `Floor.Accounts`: the tally, the disk and the names of the files show no other coverage;
* **`Floor.upholds_accounts`**: every answer of the floor keeps this.
-/

namespace FuzzCampaign

/-! ## Stations -/

namespace Station

/-- The coverage that the worker handed over. -/
def sent (st : Station) : List Snapshot := snapshotsOf (saidIn st.diary)

/-- Nothing is lost at a station, and unless `covers` its worker sends no coverage. -/
structure Honest (covers : Prop) (st : Station) : Prop where
  sound : ∃ arrived, st.Sound arrived
  silent : ¬covers → st.talk.Silent ∧ st.sent = []

variable {covers : Prop} {st : Station}

theorem honest_start {talk : Conversation} (h : ¬covers → talk.Silent) :
    (start talk).Honest covers :=
  ⟨⟨[], sound_start talk⟩, fun hcovers => ⟨h hcovers, rfl⟩⟩

/-- What is queued was sent. -/
theorem Honest.snapshots_sent (h : st.Honest covers) : ∀ s ∈ st.link.snapshots, s ∈ st.sent := by
  obtain ⟨arrived, hsound⟩ := h.sound
  intro s hs
  rw [sent, hsound.said_eq, snapshotsOf_append, hsound.snapshots_eq]
  exact List.mem_append_left _ (List.mem_append_right _ hs)

theorem silent_work (htalk : st.talk.Silent) : st.work.talk.Silent ∧ st.work.sent = st.sent := by
  rcases ht : st.talk with r | ⟨m, next⟩ | next | ⟨e, next⟩
  · rw [work_of_ended ht]
    exact ⟨htalk, rfl⟩
  · rw [ht] at htalk
    rw [work_of_saying ht]
    refine ⟨htalk.2 _, ?_⟩
    cases m with
    | coverage s => exact absurd rfl (htalk.1 s)
    | _ => simp [sent, note]
  · rcases hc : st.link.commands with _ | ⟨c, rest⟩
    · rw [work_of_no_command ht hc]
      exact ⟨htalk, rfl⟩
    · rw [ht] at htalk
      rw [work_of_command ht hc]
      exact ⟨htalk _, by simp [sent, note]⟩
  · rw [ht] at htalk
    rw [work_of_debugging ht]
    exact ⟨htalk, rfl⟩

theorem Honest.work (h : st.Honest covers) : st.work.Honest covers := by
  obtain ⟨arrived, hsound⟩ := h.sound
  refine ⟨⟨arrived, hsound.work⟩, fun hcovers => ?_⟩
  obtain ⟨htalk, hsent⟩ := h.silent hcovers
  exact (silent_work htalk).imp_right fun heq => heq.trans hsent

theorem sent_work : ∀ s ∈ st.sent, s ∈ st.work.sent := by
  intro s hs
  rcases diary_work st with h | ⟨m, h⟩ | ⟨c, h⟩
  · rwa [sent, h]
  · rw [sent, h, saidIn_snoc, snapshotsOf_append]
    exact List.mem_append_left _ hs
  · rw [sent, h, saidIn_snoc, snapshotsOf_append]
    exact List.mem_append_left _ hs

theorem Honest.same {st' : Station} (h : st.Honest covers) (hsound : ∃ arrived, st'.Sound arrived)
    (htalk : st'.talk = st.talk) (hsent : st'.sent = st.sent) : st'.Honest covers :=
  ⟨hsound, by rw [htalk, hsent]; exact h.silent⟩

theorem Honest.carry (h : st.Honest covers) : st.carry.Honest covers := by
  obtain ⟨arrived, hsound⟩ := h.sound
  obtain ⟨more, hsound'⟩ := hsound.carry
  exact h.same ⟨_, hsound'⟩ talk_carry (by rw [sent, diary_carry, sent])

end Station

/-! ## Floors -/

variable {ρ : Type}

/-- The worker of the index sent the snapshot. -/
def Floor.Sent (f : Floor ρ) (i : UInt64) (s : Snapshot) : Prop :=
  ∃ st, f.stations i = some st ∧ s ∈ st.sent

/-- Every part of a tally was sent by its worker, which is one of those. -/
def Tally.SentBy (covers : UInt64 → Prop) (f : Floor ρ) (tally : Tally) : Prop :=
  ∀ i s, tally.latest.get? i = some s → covers i ∧ f.Sent i s

theorem Tally.sentBy_empty (covers : UInt64 → Prop) (f : Floor ρ) :
    Tally.empty.SentBy covers f := by
  intro i s h
  cases h

/-- **A tally to which nobody may send has nothing to store.** -/
theorem Tally.SentBy.files_eq_nil {covers : UInt64 → Prop} {f : Floor ρ} {tally : Tally}
    (h : tally.SentBy covers f) (hnone : ∀ i, ¬covers i) : tally.files = [] := by
  have hempty : tally = .empty := by
    obtain ⟨latest⟩ := tally
    refine congrArg Tally.mk (SortedMap.ext_get? fun i => ?_)
    rcases hi : latest.get? i with _ | s
    · rfl
    · exact absurd (h i s hi).1 (hnone i)
  rw [hempty]
  rfl

namespace Floor

variable {covers : UInt64 → Prop} {dir : String} {tally : Tally} {files : List String}
  {f f' : Floor ρ} {i : UInt64}

/-- What stands on the disk is a file of coverage that was sent by those workers. -/
def Stores (covers : UInt64 → Prop) (dir : String) (f : Floor ρ) (path text : String) : Prop :=
  ∃ tally : Tally, tally.SentBy covers f ∧
    ∃ e ∈ tally.files, path = Path.join dir e.1 ∧ text = e.2

/-- All coverage of a campaign was sent by those workers: what it has summed, and what is on the
disk under the names that it has. -/
structure Accounts (covers : UInt64 → Prop) (dir : String) (f : Floor ρ) (tally : Tally)
    (files : List String) : Prop where
  honest : ∀ i st, f.stations i = some st → st.Honest (covers i)
  tally : tally.SentBy covers f
  disk : ∀ path text, f.disk path = some text → f.Stores covers dir path text
  listed : ∀ path ∈ files, (f.disk path).isSome = true
  unwritten : files = [] → ∀ path, f.disk path = none

theorem accounts_vacant (covers : UInt64 → Prop) (dir : String) (rest : ρ) :
    (vacant rest).Accounts covers dir .empty [] where
  honest _ _ h := by cases h
  tally := Tally.sentBy_empty _ _
  disk _ _ h := by cases h
  listed := List.forall_mem_nil _
  unwritten _ _ := rfl

theorem Tally.SentBy.mono (h : tally.SentBy covers f) (hsent : ∀ j s, f.Sent j s → f'.Sent j s) :
    tally.SentBy covers f' :=
  fun j s hs => ⟨(h j s hs).1, hsent j s (h j s hs).2⟩

theorem Accounts.same (h : f.Accounts covers dir tally files)
    (hhonest : ∀ i st, f'.stations i = some st → st.Honest (covers i))
    (hsent : ∀ j s, f.Sent j s → f'.Sent j s) (hdisk : f'.disk = f.disk) :
    f'.Accounts covers dir tally files where
  honest := hhonest
  tally := Tally.SentBy.mono h.tally hsent
  disk path text hpath := by
    rw [hdisk] at hpath
    obtain ⟨t, ht, hfile⟩ := h.disk path text hpath
    exact ⟨t, Tally.SentBy.mono ht hsent, hfile⟩
  listed := by
    rw [hdisk]
    exact h.listed
  unwritten := by
    rw [hdisk]
    exact h.unwritten

theorem sent_adjust {g : Station → Station} (hg : ∀ st, ∀ s ∈ st.sent, s ∈ (g st).sent) :
    ∀ j s, f.Sent j s → (f.adjust i g).Sent j s := by
  rintro j s ⟨st, hst, hs⟩
  by_cases hj : j = i
  · subst hj
    exact ⟨g st, by simp [adjust, hst], hg st s hs⟩
  · exact ⟨st, by simpa [adjust, hj] using hst, hs⟩

theorem Accounts.adjust (h : f.Accounts covers dir tally files) {g : Station → Station}
    (hhonest : ∀ st, f.stations i = some st → st.Honest (covers i) → (g st).Honest (covers i))
    (hsent : ∀ st, ∀ s ∈ st.sent, s ∈ (g st).sent) :
    (f.adjust i g).Accounts covers dir tally files := by
  refine h.same (fun j st hst => ?_) (sent_adjust hsent) rfl
  by_cases hj : j = i
  · subst hj
    simp only [Floor.adjust, Function.update_self] at hst
    obtain ⟨st', hst', rfl⟩ := Option.map_eq_some_iff.1 hst
    exact hhonest st' hst' (h.honest j st' hst')
  · exact h.honest j st (by simpa [Floor.adjust, hj] using hst)

theorem Accounts.step (h : f.Accounts covers dir tally files) (m : Move) :
    (f.step m).Accounts covers dir tally files := by
  cases m with
  | work i => exact h.adjust (fun _ _ hst => hst.work) fun _ => Station.sent_work
  | carry i =>
    refine h.adjust (fun _ _ hst => hst.carry) fun st s hs => ?_
    rwa [Station.sent, Station.diary_carry]

/-- **Whatever the workers do by themselves, the account stays right.** -/
theorem Accounts.aside {α : Type} (h : f.Accounts covers dir tally files) (env : Surroundings ρ)
    (q : StateM ρ α) : ((aside env q).run f).2.Accounts covers dir tally files := by
  refine keeps_aside (P := fun f : Floor ρ => f.Accounts covers dir tally files) env
    (fun _ m h => h.step m) (fun _ _ h => ?_) q h
  exact h.same h.honest (fun _ _ hs => hs) rfl

theorem Accounts.look {α : Type} (h : f.Accounts covers dir tally files) (env : Surroundings ρ)
    (peek : Channel → Poll α) (take : α → Station → Station) (q : StateM ρ (Poll α))
    (hhonest : ∀ st a, peek st.link = .got a → st.Honest (covers i) → (take a st).Honest (covers i))
    (hsent : ∀ st a, (take a st).sent = st.sent) :
    ((look env i peek take q).run f).2.Accounts covers dir tally files := by
  have haside := h.aside env q
  rcases hrun : (Floor.look env i peek take q).run f with ⟨r, f'⟩
  rcases look_cases env hrun with ⟨a, st, hst, hpeek, -, rfl⟩ | ⟨-, rfl, -⟩
  · refine haside.adjust (fun st' hst' hhonest' => ?_) fun st' s hs => ?_
    · rw [hst] at hst'
      cases hst'
      exact hhonest st a hpeek hhonest'
    · rwa [hsent]
  · exact haside

theorem Accounts.onSuccess (h : f.Accounts covers dir tally files) (env : Surroundings ρ)
    (q : StateM ρ (Except CampaignError Unit)) {g : Floor ρ → Floor ρ}
    (hg : ∀ f : Floor ρ, f.Accounts covers dir tally files →
      (g f).Accounts covers dir tally files) :
    ((onSuccess env q g).run f).2.Accounts covers dir tally files := by
  have haside := h.aside env q
  rcases hrun : (Floor.onSuccess env q g).run f with ⟨r, f'⟩
  rcases onSuccess_cases env hrun with ⟨e, -, hq⟩ | ⟨-, f'', hq, rfl⟩
  · rw [hq] at haside
    exact haside
  · rw [hq] at haside
    exact hg _ haside

/-! ### Files -/

theorem filed_cons (e : String × String) (entries : List (String × String))
    (disk : String → Option String) : filed dir (e :: entries) disk =
      filed dir entries (Function.update disk (Path.join dir e.1) (some e.2)) :=
  rfl

/-- What is on a disk after files are written was written now, or stood there before. -/
theorem filed_eq_some {path text : String} {entries : List (String × String)}
    {disk : String → Option String} (h : filed dir entries disk path = some text) :
    (∃ e ∈ entries, path = Path.join dir e.1 ∧ text = e.2) ∨ disk path = some text := by
  induction entries generalizing disk with
  | nil => exact .inr h
  | cons e entries ih =>
    rw [filed_cons] at h
    rcases ih h with ⟨e', he', hpath⟩ | hupdate
    · exact .inl ⟨e', List.mem_cons_of_mem _ he', hpath⟩
    · by_cases hpath : path = Path.join dir e.1
      · rw [hpath, Function.update_self] at hupdate
        exact .inl ⟨e, List.mem_cons_self, hpath, (Option.some.inj hupdate).symm⟩
      · rw [Function.update_of_ne hpath] at hupdate
        exact .inr hupdate

theorem isSome_filed {path : String} {entries : List (String × String)}
    {disk : String → Option String}
    (h : (∃ e ∈ entries, path = Path.join dir e.1) ∨ (disk path).isSome = true) :
    (filed dir entries disk path).isSome = true := by
  induction entries generalizing disk with
  | nil => exact h.resolve_left fun ⟨e, he, _⟩ => List.not_mem_nil he
  | cons e entries ih =>
    rw [filed_cons]
    refine ih ?_
    by_cases hpath : path = Path.join dir e.1
    · exact .inr (by rw [hpath, Function.update_self]; rfl)
    · rw [Function.update_of_ne hpath]
      refine h.imp_left fun ⟨e', he', heq⟩ => ⟨e', ?_, heq⟩
      rcases List.mem_cons.1 he' with rfl | he'
      · exact absurd heq hpath
      · exact he'

/-- The tally is stored. -/
theorem Accounts.write (h : f.Accounts covers dir tally files) (hne : tally.files ≠ []) :
    (f.write dir tally.files).Accounts covers dir tally (tally.paths dir) where
  honest := h.honest
  tally := h.tally
  disk path text hpath := by
    rcases filed_eq_some hpath with ⟨e, he, hfile⟩ | hpath
    · exact ⟨tally, h.tally, e, he, hfile⟩
    · exact h.disk path text hpath
  listed path hpath := by
    obtain ⟨e, he, rfl⟩ := List.mem_map.1 hpath
    exact isSome_filed (.inl ⟨e, he, rfl⟩)
  unwritten hnil := absurd (List.map_eq_nil_iff.1 hnil) hne

/-! ### Coverage -/

/-- Coverage that is taken was sent by the worker, which is one of those. -/
theorem Accounts.takeSnapshots (h : f.Accounts covers dir tally files) (env : Surroundings ρ)
    (q : StateM ρ (List Snapshot)) :
    ((takeSnapshots env i q).run f).2.Accounts covers dir
      (tally.gather i ((takeSnapshots env i q).run f).1) files := by
  have haside := h.aside env q
  generalize hf : ((Floor.aside env q).run f).2 = f' at haside
  have hrun : (Floor.takeSnapshots env i q).run f =
      ((f'.stations i).elim [] fun st => st.link.snapshots, f'.adjust i Station.takeSnapshots) := by
    rw [← hf]
    rfl
  rw [hrun]
  dsimp only
  have hsent : ∀ st : Station, st.takeSnapshots.sent = st.sent := fun st => by
    simp [Station.takeSnapshots, Station.sent, Station.note]
  have hadjust : (f'.adjust i Station.takeSnapshots).Accounts covers dir tally files := by
    refine haside.adjust (fun st hst hhonest => ?_) fun st s hs => (hsent st).symm ▸ hs
    obtain ⟨arrived, hsound⟩ := hhonest.sound
    exact hhonest.same ⟨arrived, hsound.takeSnapshots⟩ rfl (hsent st)
  rcases hst : f'.stations i with _ | st
  · exact hadjust
  · change Accounts covers dir _ (tally.gather i st.link.snapshots) files
    unfold Tally.gather
    rcases hlast : st.link.snapshots.getLast? with _ | s
    · exact hadjust
    · have hs : s ∈ st.sent :=
        (haside.honest i st hst).snapshots_sent s (List.mem_of_getLast? hlast)
      refine { hadjust with tally := fun j s' hj => ?_ }
      change (tally.latest.insert i s).get? j = some s' at hj
      rw [SortedMap.get?_insert] at hj
      split_ifs at hj with hji
      · obtain rfl : j = i := Std.compare_eq_iff_eq.1 hji
        cases hj
        refine ⟨?_, sent_adjust (fun st s hs => (hsent st).symm ▸ hs) _ _ ⟨st, hst, hs⟩⟩
        by_contra hcovers
        rw [((haside.honest j st hst).silent hcovers).2] at hs
        exact List.not_mem_nil hs
      · exact hadjust.tally j s' hj

/-! ### Questions of a campaign -/

variable {crew : WorkerTask → Conversation} {env : Surroundings ρ} {plan : CampaignPlan}
  {test : TestCase}

theorem tends_accounts (tally : Tally) (files : List String) :
    (host crew env).uncovered.Tends fun f => f.Accounts covers dir tally files := by
  have hcompletion : ∀ i (q : StateM ρ (Poll Unit)) (f : Floor ρ),
      f.Accounts covers dir tally files → ((look env i (·.completion.1)
        (fun _ => Station.takeCompletion) q).run f).2.Accounts covers dir tally files := by
    intro i q f h
    refine h.look env _ _ q (fun st _ hgot hhonest => ?_) fun st _ => ?_
    · obtain ⟨arrived, hsound⟩ := hhonest.sound
      exact hhonest.same ⟨arrived, hsound.takeCompletion hgot⟩ rfl
        (by simp [Station.takeCompletion, Station.sent, Station.note])
    · simp [Station.takeCompletion, Station.sent, Station.note]
  exact {
    printLine := fun _ _ h => h.aside env _
    showStatus := fun _ _ h => h.aside env _
    store := fun _ _ _ h => h
    status := fun _ _ h => h.aside env _
    kill := fun _ _ h => h.aside env _
    send := fun i c f h => by
      have hsent : ∀ st : Station, (st.command c).sent = st.sent := by
        intro st
        unfold Station.command
        rcases st.link.down c with _ | link <;> simp [Station.sent, Station.note]
      refine h.onSuccess env _ fun f h => h.adjust (fun st _ hhonest => ?_)
        fun st s hs => (hsent st).symm ▸ hs
      obtain ⟨arrived, hsound⟩ := hhonest.sound
      refine hhonest.same ⟨arrived, hsound.command c⟩ ?_ (hsent st)
      rw [hsound.command_eq]
      rfl
    completion := fun i f h => hcompletion i _ f h
    awaitFinished := fun i _ f h => hcompletion i _ f h
    snapshots := fun _ _ h => h
    decide := fun _ _ _ h => h.aside env _
    now := fun _ h => h.aside env _
    sleep := fun _ _ h => h.aside env _ }

theorem Accounts.spawn (h : f.Accounts covers dir .empty []) {task : WorkerTask}
    (hsilent : ¬covers task.index → (crew task).Silent) :
    (((host crew env).spawn task).run f).2.Accounts covers dir .empty [] := by
  refine h.onSuccess env _ fun f h => ⟨fun j st hst => ?_, Tally.sentBy_empty _ _,
    fun path text hpath => ?_, List.forall_mem_nil _, h.unwritten⟩
  · dsimp only at hst
    by_cases hj : j = task.index
    · subst hj
      rw [Function.update_self] at hst
      cases hst
      exact Station.honest_start hsilent
    · rw [Function.update_of_ne hj] at hst
      exact h.honest j st hst
  · change f.disk path = some text at hpath
    rw [h.unwritten rfl path] at hpath
    cases hpath

/-- **All coverage comes from the workers that may send it**, in whatever order steps are made. -/
theorem upholds_accounts (env : Surroundings ρ)
    (hsilent : ∀ i seed task, plan.taskOf test i seed = .ok task → ¬covers i → (crew task).Silent) :
    (host crew env).UpholdsAll plan test fun f tally files =>
      f.Accounts covers plan.coverageDir tally files where
  minds tally files := (tends_accounts tally files).minds
  isDirectory _ _ h := h.aside env _
  freshSeed _ h := h.aside env _
  spawn i seed task htask f h := by
    obtain rfl := CampaignPlan.index_of_taskOf htask
    exact h.spawn (hsilent _ seed task htask)
  tends := tends_accounts
  exception tally files i f h := by
    refine h.look env _ _ _ (fun st r hgot hhonest => ?_) fun st r => ?_
    · obtain ⟨arrived, hsound⟩ := hhonest.sound
      exact hhonest.same ⟨arrived, hsound.takeException hgot⟩ rfl
        (by simp [Station.takeException, Station.sent, Station.note])
    · simp [Station.takeException, Station.sent, Station.note]
  gather _ _ i _ h := h.takeSnapshots env _
  store tally files f h hne := by
    rcases hrun : ((host crew env).store plan.coverageDir tally.files).run f with ⟨r, f'⟩
    have haside := h.aside env (env.host.store plan.coverageDir tally.files)
    rcases onSuccess_cases env hrun with ⟨e, rfl, hq⟩ | ⟨rfl, f', hq, rfl⟩
    · rw [hq] at haside
      exact haside
    · rw [hq] at haside
      exact haside.write hne

end Floor

end FuzzCampaign
