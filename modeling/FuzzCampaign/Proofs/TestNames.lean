import FuzzCampaign.Proofs.FaithfulReport
import FuzzCampaign.Proofs.PlanValidity
import FuzzCampaign.Proofs.PositionText
import FuzzCampaign.Worker.Process

/-!
# Names of tests

A name stands for the tests that answer to it. The orchestrator finds the one test that a name
stands for and gives its full name to the workers, and each worker looks for that full name in the
same list.

* `TestCase.Stands`, `TestCase.StandsOnly`: the places in a list that a name stands for;
* `TestCase.find_eq_ok_iff`, `find_eq_ambiguous_iff`, `find_eq_unknown_iff`: what is found;
* `TestCase.eq_of_fullName`: a full name has one module and one function;
* `TestCase.StandsOnly.fullName`: the full name of a test that is found stands for it alone;
* `Campaign.taskOf_of_mem_tasksIn`: the tasks of a campaign;
* **`TestCase.find_agrees`**: every worker of a campaign runs the test of its orchestrator.
-/

namespace FuzzCampaign

namespace TestCase

variable {tests : List TestCase} {query : String} {t u : TestCase} {i j : Nat}

/-! ## What is found -/

/-- The name stands for the test at this place of the list, bare or with its module. -/
def Stands (tests : List TestCase) (query : String) (i : Nat) : Prop :=
  ∃ t, tests[i]? = some t ∧ (query = t.name ∨ query = t.fullName)

/-- The name stands for the test at this place of the list and for no other. -/
def StandsOnly (tests : List TestCase) (query : String) (i : Nat) : Prop :=
  ∀ j, Stands tests query j ↔ j = i

/-- The error of looking for a name that stands for more than one test. -/
def ambiguous (query : String) : CampaignError :=
  .configuration s!"Test name '{query}' is ambiguous; use the qualified name"

theorem answersTo_iff : t.answersTo query = true ↔ query = t.name ∨ query = t.fullName := by
  simp [answersTo]

theorem filter_eq_nil_iff_stands :
    tests.filter (fun t => t.answersTo query) = [] ↔ ∀ i, ¬Stands tests query i := by
  rw [List.filter_eq_nil_iff]
  constructor
  · rintro h i ⟨t, ht, hquery⟩
    exact h t (List.mem_of_getElem? ht) (answersTo_iff.2 hquery)
  · intro h t ht hanswers
    obtain ⟨i, hi⟩ := List.getElem?_of_mem ht
    exact h i ⟨t, hi, answersTo_iff.1 hanswers⟩

theorem filter_eq_singleton_iff_stands :
    tests.filter (fun t => t.answersTo query) = [t] ↔
      ∃ i, tests[i]? = some t ∧ StandsOnly tests query i := by
  constructor
  · intro h
    obtain ⟨before, after, rfl, hbefore, ht, hafter⟩ := List.filter_eq_cons_iff.1 h
    refine ⟨before.length, by simp, fun j => ⟨?_, ?_⟩⟩
    · rintro ⟨u, hu, hquery⟩
      have hanswers := answersTo_iff.2 hquery
      rcases lt_trichotomy j before.length with hlt | heq | hlt
      · rw [List.getElem?_append_left hlt] at hu
        exact absurd hanswers (hbefore u (List.mem_of_getElem? hu))
      · exact heq
      · obtain ⟨k, rfl⟩ := Nat.exists_eq_add_of_lt hlt
        rw [List.getElem?_append_right (by omega),
          show before.length + k + 1 - before.length = k + 1 by omega,
            List.getElem?_cons_succ] at hu
        exact absurd hanswers (List.filter_eq_nil_iff.1 hafter u (List.mem_of_getElem? hu))
    · rintro rfl
      exact ⟨t, by simp, answersTo_iff.1 ht⟩
  · rintro ⟨i, hi, honly⟩
    obtain ⟨hlt, rfl⟩ := List.getElem?_eq_some_iff.1 hi
    obtain ⟨_, hself, hquery⟩ := (honly i).2 rfl
    rw [hi, Option.some.injEq] at hself
    subst hself
    have hother : ∀ j u, tests[j]? = some u → j ≠ i → ¬u.answersTo query = true :=
      fun j u hu hne hanswers => hne ((honly j).1 ⟨u, hu, answersTo_iff.1 hanswers⟩)
    refine List.filter_eq_cons_iff.2 ⟨tests.take i, tests.drop (i + 1), ?_, ?_,
      answersTo_iff.2 hquery, List.filter_eq_nil_iff.2 ?_⟩
    · rw [List.getElem_cons_drop, List.take_append_drop]
    · intro u hu
      obtain ⟨j, hj⟩ := List.getElem?_of_mem hu
      have hji : j < i := by
        have hlength := (List.getElem?_eq_some_iff.1 hj).1
        rw [List.length_take] at hlength
        omega
      rw [List.getElem?_take_of_lt hji] at hj
      exact hother j u hj hji.ne
    · intro u hu
      obtain ⟨j, hj⟩ := List.getElem?_of_mem hu
      rw [List.getElem?_drop] at hj
      exact hother _ u hj (by omega)

theorem find_cases (tests : List TestCase) (query : String) :
    (∃ t, find tests query = .ok t ∧ tests.filter (fun t => t.answersTo query) = [t]) ∨
    (find tests query = .error (.unknownTest query) ∧
      tests.filter (fun t => t.answersTo query) = []) ∨
    (find tests query = .error (ambiguous query) ∧
      2 ≤ (tests.filter fun t => t.answersTo query).length) := by
  unfold find
  generalize tests.filter (fun t => t.answersTo query) = found
  rcases found with _ | ⟨t, _ | ⟨u, rest⟩⟩
  · exact .inr (.inl ⟨rfl, rfl⟩)
  · exact .inl ⟨t, rfl, rfl⟩
  · exact .inr (.inr ⟨rfl, Nat.le_add_left 2 rest.length⟩)

theorem find_eq_ok_iff_filter :
    find tests query = .ok t ↔ tests.filter (fun t => t.answersTo query) = [t] := by
  rcases find_cases tests query with ⟨u, hfind, hfilter⟩ | ⟨hfind, hfilter⟩ | ⟨hfind, hlength⟩
  · simp [hfind, hfilter]
  · simp [hfind, hfilter]
  · rw [hfind]
    refine ⟨nofun, fun hfilter => ?_⟩
    rw [hfilter, List.length_singleton] at hlength
    omega

theorem find_eq_ok_iff :
    find tests query = .ok t ↔ ∃ i, tests[i]? = some t ∧ StandsOnly tests query i :=
  find_eq_ok_iff_filter.trans filter_eq_singleton_iff_stands

theorem find_eq_unknown_iff :
    find tests query = .error (.unknownTest query) ↔ ∀ i, ¬Stands tests query i := by
  rw [← filter_eq_nil_iff_stands]
  rcases find_cases tests query with ⟨u, hfind, hfilter⟩ | ⟨hfind, hfilter⟩ | ⟨hfind, hlength⟩
  · simp [hfind, hfilter]
  · simp [hfind, hfilter]
  · rw [hfind, ambiguous]
    refine ⟨nofun, fun hfilter => ?_⟩
    rw [hfilter] at hlength
    exact absurd hlength (by decide)

/-- A name is ambiguous if it stands for two tests or more. -/
theorem find_eq_ambiguous_iff :
    find tests query = .error (ambiguous query) ↔
      ∃ i j, i ≠ j ∧ Stands tests query i ∧ Stands tests query j := by
  constructor
  · intro h
    have hsome : ∃ i, Stands tests query i := by
      by_contra hnone
      rw [find_eq_unknown_iff.2 (not_exists.1 hnone)] at h
      cases h
    obtain ⟨i, t, ht, hquery⟩ := hsome
    by_contra hone
    -- otherwise the name stands for this test alone, which is then found
    have honly : StandsOnly tests query i := by
      refine fun j => ⟨fun hj => ?_, fun heq => heq ▸ ⟨t, ht, hquery⟩⟩
      by_contra hne
      exact hone ⟨j, i, hne, hj, t, ht, hquery⟩
    rw [find_eq_ok_iff.2 ⟨i, ht, honly⟩] at h
    cases h
  · rintro ⟨i, j, hne, hi, hj⟩
    rcases find_cases tests query with ⟨t, hfind, -⟩ | ⟨hfind, -⟩ | ⟨hfind, -⟩
    · obtain ⟨k, -, honly⟩ := find_eq_ok_iff.1 hfind
      exact absurd (((honly i).1 hi).trans ((honly j).1 hj).symm) hne
    · exact absurd hi (find_eq_unknown_iff.1 hfind i)
    · exact hfind

/-! ## Full names -/

theorem toList_fullName (t : TestCase) :
    t.fullName.toList = t.modulePath.toList ++ ':' :: ':' :: t.name.toList := by
  simp [fullName]

/-- A function without colons is what follows the last colon of its full name. -/
theorem eq_of_fullName (ht : ':' ∉ t.name.toList) (hu : ':' ∉ u.name.toList)
    (h : t.fullName = u.fullName) : t.modulePath = u.modulePath ∧ t.name = u.name := by
  have hreverse := congrArg (fun s : String => s.toList.reverse) h
  simp only [toList_fullName, List.reverse_append, List.reverse_cons, List.append_assoc,
    List.cons_append, List.nil_append] at hreverse
  have hsplit := congrArg (Text.splitOnce ':') hreverse
  rw [Text.splitOnce_append (by simpa using ht), Text.splitOnce_append (by simpa using hu),
    Option.some.injEq, Prod.mk.injEq, List.cons.injEq] at hsplit
  exact ⟨String.toList_inj.1 (List.reverse_injective hsplit.2.2),
    String.toList_inj.1 (List.reverse_injective hsplit.1)⟩

theorem Stands.of_fullName (hnames : ∀ t ∈ tests, ':' ∉ t.name.toList) (hi : tests[i]? = some t)
    (hquery : query = t.name ∨ query = t.fullName) (h : Stands tests t.fullName j) :
    Stands tests query j := by
  obtain ⟨u, hu, hbare | hfull⟩ := h
  · -- a bare name has no colon
    refine absurd ?_ (hnames u (List.mem_of_getElem? hu))
    rw [← hbare, toList_fullName]
    simp
  · obtain ⟨-, hname⟩ := eq_of_fullName (hnames t (List.mem_of_getElem? hi))
      (hnames u (List.mem_of_getElem? hu)) hfull
    exact ⟨u, hu, hquery.imp (·.trans hname) (·.trans hfull)⟩

/-- **The full name of the one test that a name stands for stands for that test alone.** -/
theorem StandsOnly.fullName (hnames : ∀ t ∈ tests, ':' ∉ t.name.toList) (hi : tests[i]? = some t)
    (h : StandsOnly tests query i) : StandsOnly tests t.fullName i := by
  intro j
  obtain ⟨u, hu, hquery⟩ := (h i).2 rfl
  rw [hi, Option.some.injEq] at hu
  subst hu
  constructor
  · exact fun hj => (h j).1 (hj.of_fullName hnames hi hquery)
  · rintro rfl
    exact ⟨t, hi, .inr rfl⟩

end TestCase

/-! ## The tests of workers -/

/-- **However a campaign ends, its workers were to be started with tasks of its plan.** -/
theorem Campaign.taskOf_of_mem_tasksIn {σ : Type} (host : CampaignHost σ) (plan : CampaignPlan)
    (rounds : Nat) {test : TestCase} {w : σ} {result : Except Stop Findings}
    {r : Recorded CampaignDeed σ}
    (h : (Campaign.run host.recorded plan test rounds).outcome ⟨w, []⟩ = (result, r)) :
    ∀ task ∈ tasksIn r.deeds, ∃ i seed, plan.taskOf test i seed = .ok task := by
  let Planned (l : List CampaignDeed) : Prop :=
    ∀ task ∈ tasksIn l, ∃ i seed, plan.taskOf test i seed = .ok task
  have hother : ∀ l d, (∀ task answer, d ≠ .started task answer) → Planned l →
      Planned (l ++ [d]) := by
    intro l d hd hl
    simpa only [Planned, tasksIn_snoc_of_ne hd] using hl
  have htends : host.recorded.Tends fun r => Planned r.deeds :=
    host.tends_recorded fun l d hd => hother l d (by rintro task answer rfl; cases hd)
  have hupholds : host.recorded.UpholdsAll plan test fun r _ _ => Planned r.deeds :=
    { htends.upholds (fun _ _ => hother _ _ nofun) plan with
      isDirectory := fun _ _ hr => hr
      freshSeed := fun _ hr => hr
      spawn := fun i seed task htask r hr task' hmem => by
        change task' ∈ tasksIn (r.deeds ++ [.started task _]) at hmem
        rw [tasksIn_append] at hmem
        rcases List.mem_append.1 hmem with hmem | hmem
        · exact hr task' hmem
        · cases List.mem_singleton.1 hmem
          exact ⟨i, seed, htask⟩ }
  have hrun : Action.Yields (run host.recorded plan test rounds) ⟨w, []⟩
      (fun _ r => Planned r.deeds) fun _ r => Planned r.deeds :=
    (yields_run_upheld hupholds rounds (List.forall_mem_nil _)).mono
      (fun _ _ ⟨_, hr⟩ => hr) fun _ _ ⟨_, _, hr⟩ => hr
  have hfinal := hrun.final
  rwa [h] at hfinal

/-- **Orchestrator and worker run the same test.** A name finds a test if it stands for it alone, is
ambiguous if it stands for more than one, and unknown if it stands for none. The full name of a test
that is found stands for that test alone, so it is what every worker of a campaign finds and
runs. -/
theorem TestCase.find_agrees (tests : List TestCase) (query : String)
    (hnames : ∀ t ∈ tests, ':' ∉ t.name.toList) :
    (∀ t, find tests query = .ok t ↔ ∃ i, tests[i]? = some t ∧ StandsOnly tests query i) ∧
    (find tests query = .error (ambiguous query) ↔
      ∃ i j, i ≠ j ∧ Stands tests query i ∧ Stands tests query j) ∧
    (find tests query = .error (.unknownTest query) ↔ ∀ i, ¬Stands tests query i) ∧
    ∀ t, find tests query = .ok t →
      (∃ i, tests[i]? = some t ∧ StandsOnly tests query i ∧ StandsOnly tests t.fullName i) ∧
      find tests t.fullName = .ok t ∧
      ∀ (σ : Type) (host : CampaignHost σ) plan rounds w result r,
        (Campaign.run host.recorded plan t rounds).outcome ⟨w, []⟩ = (result, r) →
        ∀ task ∈ tasksIn r.deeds, ∀ (τ : Type) (own : WorkerHost τ) bodyOf connect limit,
          Worker.runProcess own tests bodyOf connect task limit =
            (Action.perform (connect task.index) >>= fun _ =>
              Worker.run own t (bodyOf t) task .default limit) := by
  refine ⟨fun t => find_eq_ok_iff, find_eq_ambiguous_iff, find_eq_unknown_iff, fun t hfind => ?_⟩
  obtain ⟨i, hi, honly⟩ := find_eq_ok_iff.1 hfind
  have hfull := honly.fullName hnames hi
  have hagain : find tests t.fullName = .ok t := find_eq_ok_iff.2 ⟨i, hi, hfull⟩
  refine ⟨⟨i, hi, honly, hfull⟩, hagain, ?_⟩
  intro σ host plan rounds w result r hrun task hmem τ own bodyOf connect limit
  obtain ⟨_, _, htask⟩ := Campaign.taskOf_of_mem_tasksIn host plan rounds hrun task hmem
  obtain ⟨_, -, rfl⟩ := CampaignPlan.taskOf_eq_ok_iff.1 htask
  rw [Worker.runProcess, hagain]
  rfl

/-- Two tests of one name in two modules. -/
def namesakes : List TestCase := [⟨"m", "t", []⟩, ⟨"n::m", "t", ["coverage"]⟩]

theorem length_tasksIn_oneFails : (tasksIn Campaign.oneFails.2.deeds).length = 2 := by
  decide +kernel

/-- The bare name of two tests is ambiguous, and with a module the name of one of them is what both
workers of a campaign find. -/
theorem TestCase.find_agrees_namesakes :
    (∀ t ∈ namesakes, ':' ∉ t.name.toList) ∧
    find namesakes "t" = .error (ambiguous "t") ∧
    find namesakes "m::t" = .ok ⟨"m", "t", []⟩ ∧
    (∃ i, StandsOnly namesakes "m::t" i) ∧
    (tasksIn Campaign.oneFails.2.deeds).length = 2 ∧
    ∀ task ∈ tasksIn Campaign.oneFails.2.deeds,
      ∀ (τ : Type) (own : WorkerHost τ) bodyOf connect limit,
        Worker.runProcess own namesakes bodyOf connect task limit =
          (Action.perform (connect task.index) >>= fun _ =>
            Worker.run own ⟨"m", "t", []⟩ (bodyOf ⟨"m", "t", []⟩) task .default limit) := by
  have hnames : ∀ t ∈ namesakes, ':' ∉ t.name.toList := by decide +kernel
  have hfind : find namesakes "m::t" = .ok ⟨"m", "t", []⟩ := by decide +kernel
  have htwice : Stands namesakes "t" 0 ∧ Stands namesakes "t" 1 :=
    ⟨⟨_, rfl, .inl rfl⟩, ⟨_, rfl, .inl rfl⟩⟩
  have hbare := (find_agrees namesakes "t" hnames).2.1.2 ⟨0, 1, by decide, htwice⟩
  obtain ⟨⟨i, -, honly, -⟩, -, hrun⟩ := (find_agrees namesakes "m::t" hnames).2.2.2 _ hfind
  rcases heq : Campaign.oneFails with ⟨result, r⟩
  have htasks := length_tasksIn_oneFails
  rw [heq] at htasks
  exact ⟨hnames, hbare, hfind, ⟨i, honly⟩, htasks, hrun _ _ _ _ _ result r heq⟩

end FuzzCampaign
