import FuzzCampaign.Proofs.Reaping

/-!
# Incidents in a record

An incident is a failure of a worker that the orchestrator has taken. The user is asked about it or
not, a decision is sent, and the second completion of the worker closes the incident; only then can
the next one begin.

* `CampaignDeed.attends?`: the deeds of an incident; `deedsOn`, `questionsOf`, `decisionsOf`;
* `CampaignPlan.prompts`: whether the user is asked;
* `Incident`, `Incident.attach`, `Incident.deeds`: how far an incident has come, and its deeds;
* `Attends`, `Attended`: what a deed does to the incidents, and a record with its incidents;
* `Attended.deedsOn_eq`, `Attended.asked_iff`, **`Attended.apart`**: what the record shows of them.
-/

namespace FuzzCampaign

/-! ## Deeds -/

/-- The worker whose failure is handled with the deed. -/
def CampaignDeed.attends? : CampaignDeed → Option UInt64
  | .informed i (.got (some _)) => some i
  | .asked i _ _ => some i
  | .commanded i (.decision _) _ => some i
  | _ => none

/-- The questions about a worker with their answers. -/
def CampaignDeed.question? (i : UInt64) : CampaignDeed → Option (Envelope × PromptReply)
  | .asked j e reply => if j = i then some (e, reply) else none
  | _ => none

/-- The decision that was sent to a worker, if one was. -/
def CampaignDeed.decision? (i : UInt64) : CampaignDeed → Option Bool
  | .commanded j (.decision attach) _ => if j = i then some attach else none
  | _ => none

/-- The deeds with which the failure of a worker was handled. -/
def deedsOn (i : UInt64) (l : List CampaignDeed) : List CampaignDeed :=
  l.filter fun d => d.attends? = some i

/-- The questions about a worker with their answers, in order. -/
def questionsOf (i : UInt64) (l : List CampaignDeed) : List (Envelope × PromptReply) :=
  l.filterMap (CampaignDeed.question? i)

/-- The decisions that were sent to a worker, whether they came there or not, in order. -/
def decisionsOf (i : UInt64) (l : List CampaignDeed) : List Bool :=
  l.filterMap (CampaignDeed.decision? i)

section

variable {i : UInt64} {l : List CampaignDeed} {d : CampaignDeed}

theorem mem_deedsOn : d ∈ deedsOn i l ↔ d ∈ l ∧ d.attends? = some i := by
  simp [deedsOn]

theorem questionsOf_deedsOn : questionsOf i (deedsOn i l) = questionsOf i l := by
  refine (List.filterMap_filter ..).trans (List.filterMap_congr fun d _ => ?_)
  cases d with
  | asked j e reply =>
    by_cases hj : j = i <;> simp [CampaignDeed.attends?, CampaignDeed.question?, hj]
  | _ => simp [CampaignDeed.question?]

theorem mem_questionsOf {e : Envelope} {reply : PromptReply} :
    (e, reply) ∈ questionsOf i l ↔ .asked i e reply ∈ l := by
  rw [questionsOf, List.mem_filterMap]
  constructor
  · rintro ⟨d, hd, hquestion⟩
    cases d with
    | asked j e' reply' =>
      simp only [CampaignDeed.question?, Option.ite_none_right_eq_some, Option.some_inj,
        Prod.mk.injEq] at hquestion
      obtain ⟨rfl, rfl, rfl⟩ := hquestion
      exact hd
    | _ => cases hquestion
  · exact fun hd => ⟨_, hd, if_pos rfl⟩

theorem decisionsOf_deedsOn : decisionsOf i (deedsOn i l) = decisionsOf i l := by
  refine (List.filterMap_filter ..).trans (List.filterMap_congr fun d _ => ?_)
  rcases d with _ | _ | _ | ⟨j, _ | _, _⟩ | _ | _ | _ | _ | _ | _
  case commanded.decision =>
    by_cases hj : j = i <;> simp [CampaignDeed.attends?, CampaignDeed.decision?, hj]
  all_goals simp [CampaignDeed.decision?]

end

/-! ## Incidents -/

/-- Whether the user is asked about a failure of a worker. -/
def CampaignPlan.prompts (plan : CampaignPlan) (i : UInt64) (e : Envelope) : Bool :=
  plan.asksAbout i && e.canDebug

theorem CampaignPlan.prompts_iff {plan : CampaignPlan} {i : UInt64} {e : Envelope} :
    plan.prompts i e = true ↔ e.origin = .testBody ∧ (plan.passive = false ∨ i = 0) := by
  simp [CampaignPlan.prompts, CampaignPlan.asksAbout, Envelope.canDebug, and_comm]

/-- How far an incident has come: what the user answered, if asked, how the link took
the decision, if it was sent, and whether the worker then said again that it is done. -/
structure Incident where
  index : UInt64
  report : Envelope
  reply? : Option PromptReply := none
  sent? : Option (Except CampaignError Unit) := none
  closed : Bool := false

namespace Incident

/-- The decision. -/
def attach (h : Incident) : Bool := h.reply? = some (.answer true)

theorem attach_iff {h : Incident} : h.attach = true ↔ h.reply? = some (.answer true) :=
  decide_eq_true_iff

/-- The deeds of an incident so far. -/
def deeds (h : Incident) : List CampaignDeed :=
  .informed h.index (.got (some h.report)) ::
    (h.reply?.toList.map (.asked h.index h.report) ++
      h.sent?.toList.map (.commanded h.index (.decision h.attach)))

/-- An incident follows the plan: the user is asked at most where the plan says so, and a decision
is sent when everyone was asked who is to be asked, unless the question was abandoned. -/
structure Proper (plan : CampaignPlan) (h : Incident) : Prop where
  asked : h.reply? ≠ none → plan.prompts h.index h.report = true
  sent : h.sent? ≠ none → h.reply? ≠ some .abandoned ∧
    (h.reply? = none → plan.prompts h.index h.report = false)
  closed : h.closed = true → h.sent? ≠ none

theorem questionsOf_deeds (h : Incident) :
    questionsOf h.index h.deeds = h.reply?.toList.map (h.report, ·) := by
  rcases h with ⟨i, e, _ | reply, _ | answer, closed⟩ <;>
    simp [questionsOf, deeds, CampaignDeed.question?, List.filterMap_cons]

theorem decisionsOf_deeds (h : Incident) :
    decisionsOf h.index h.deeds = h.sent?.toList.map fun _ => h.attach := by
  rcases h with ⟨i, e, _ | reply, _ | answer, closed⟩ <;>
    simp [decisionsOf, deeds, CampaignDeed.decision?, List.filterMap_cons]

end Incident

/-! ## Records with their incidents -/

theorem filter_eq_singleton {α κ : Type} [DecidableEq κ] {f : α → κ} {l : List α}
    (hn : (l.map f).Nodup) {a : α} (ha : a ∈ l) : l.filter (fun b => f b = f a) = [a] := by
  induction l with
  | nil => cases ha
  | cons b l ih =>
    rw [List.map_cons, List.nodup_cons] at hn
    rcases List.mem_cons.1 ha with rfl | ha
    · have hnone : l.filter (fun b => f b = f a) = [] := by
        refine List.filter_eq_nil_iff.2 fun b hb heq => hn.1 ?_
        rw [← of_decide_eq_true heq]
        exact List.mem_map_of_mem hb
      rw [List.filter_cons_of_pos (by simp), hnone]
    · have hne : f b ≠ f a := fun heq => hn.1 (heq ▸ List.mem_map_of_mem ha)
      rw [List.filter_cons_of_neg (by simpa using hne), ih hn.2 ha]

theorem snoc_eq_append_cons {α : Type} {l before rest : List α} {a b : α}
    (h : l ++ [b] = before ++ a :: rest) :
    (rest = [] ∧ b = a ∧ l = before) ∨ ∃ rest', rest = rest' ++ [b] ∧ l = before ++ a :: rest' := by
  rcases rest.eq_nil_or_concat with rfl | ⟨rest', c, rfl⟩
  · obtain ⟨hl, hb⟩ := List.append_inj' h rfl
    exact .inl ⟨rfl, (List.cons.inj hb).1, hl⟩
  · rw [List.concat_eq_append, ← List.cons_append, ← List.append_assoc] at h
    obtain ⟨hl, hb⟩ := List.append_inj' h rfl
    exact .inr ⟨rest', by rw [List.concat_eq_append, (List.cons.inj hb).1], hl⟩

/-- What a deed does to the incidents, of which only the last may be open. -/
inductive Attends (plan : CampaignPlan) : List Incident → CampaignDeed → List Incident → Prop
  | idle {hs d} (hd : d.attends? = none) : Attends plan hs d hs
  | opened {hs i e} (hclosed : ∀ h ∈ hs, h.closed = true) (hi : ∀ h ∈ hs, h.index ≠ i) :
    Attends plan hs (.informed i (.got (some e))) (hs ++ [⟨i, e, none, none, false⟩])
  | asked {hs i e reply} (hprompts : plan.prompts i e = true) :
    Attends plan (hs ++ [⟨i, e, none, none, false⟩]) (.asked i e reply)
      (hs ++ [⟨i, e, some reply, none, false⟩])
  | decided {hs i e reply? attach answer} (hattach : attach = decide (reply? = some (.answer true)))
    (habandoned : reply? ≠ some .abandoned) (hnone : reply? = none → plan.prompts i e = false) :
    Attends plan (hs ++ [⟨i, e, reply?, none, false⟩]) (.commanded i (.decision attach) answer)
      (hs ++ [⟨i, e, reply?, some answer, false⟩])
  | closed {hs i e reply? answer} :
    Attends plan (hs ++ [⟨i, e, reply?, some answer, false⟩]) (.polled i (.got ()))
      (hs ++ [⟨i, e, reply?, some answer, true⟩])

/-- A record with its incidents. -/
inductive Attended (plan : CampaignPlan) : List Incident → List CampaignDeed → Prop
  | nil : Attended plan [] []
  | snoc {hs log d hs'} (h : Attended plan hs log) (hd : Attends plan hs d hs') :
    Attended plan hs' (log ++ [d])

namespace Attends

variable {plan : CampaignPlan} {hs hs' : List Incident} {d : CampaignDeed}
  (hd : Attends plan hs d hs')
include hd

theorem closed_init (h : ∀ g ∈ hs.dropLast, g.closed = true) :
    ∀ g ∈ hs'.dropLast, g.closed = true := by
  cases hd with
  | idle _ => exact h
  | opened hclosed _ =>
    rw [List.dropLast_concat]
    exact hclosed
  | _ =>
    rw [List.dropLast_concat] at h ⊢
    exact h

theorem nodup (h : (hs.map (·.index)).Nodup) : (hs'.map (·.index)).Nodup := by
  cases hd with
  | idle _ => exact h
  | opened _ hi =>
    rw [List.map_append, List.nodup_append]
    refine ⟨h, by simp, fun j hj k hk => ?_⟩
    obtain ⟨g, hg, rfl⟩ := List.mem_map.1 hj
    rw [List.mem_singleton.1 hk]
    exact hi g hg
  | _ => simpa using h

theorem proper (h : ∀ g ∈ hs, g.Proper plan) : ∀ g ∈ hs', g.Proper plan := by
  cases hd with
  | idle _ => exact h
  | opened _ _ =>
    refine List.forall_mem_append.2 ⟨h, List.forall_mem_singleton.2 ?_⟩
    exact ⟨fun hne => absurd rfl hne, fun hne => absurd rfl hne, nofun⟩
  | asked hprompts =>
    have hinit := (List.forall_mem_append.1 h).1
    refine List.forall_mem_append.2 ⟨hinit, List.forall_mem_singleton.2 ?_⟩
    exact ⟨fun _ => hprompts, fun hne => absurd rfl hne, nofun⟩
  | decided _ habandoned hnone =>
    obtain ⟨hinit, hlast⟩ := List.forall_mem_append.1 h
    refine List.forall_mem_append.2 ⟨hinit, List.forall_mem_singleton.2 ?_⟩
    exact ⟨(List.forall_mem_singleton.1 hlast).asked, fun _ => ⟨habandoned, hnone⟩, nofun⟩
  | closed =>
    obtain ⟨hinit, hlast⟩ := List.forall_mem_append.1 h
    have hlast := List.forall_mem_singleton.1 hlast
    refine List.forall_mem_append.2 ⟨hinit, List.forall_mem_singleton.2 ?_⟩
    exact ⟨hlast.asked, hlast.sent, fun _ => nofun⟩

theorem flatMap_deeds (i : UInt64) :
    (hs'.filter fun h => h.index = i).flatMap Incident.deeds =
      (hs.filter fun h => h.index = i).flatMap Incident.deeds ++ deedsOn i [d] := by
  cases hd with
  | idle hd => simp [deedsOn, hd]
  | @opened _ i' e _ _ =>
    by_cases hi : i' = i <;> simp [deedsOn, CampaignDeed.attends?, Incident.deeds, hi]
  | @asked hs i' e reply _ =>
    by_cases hi : i' = i <;> simp [deedsOn, CampaignDeed.attends?, Incident.deeds, hi]
  | @decided hs i' e reply? attach answer hattach _ _ =>
    by_cases hi : i' = i <;>
      simp [deedsOn, CampaignDeed.attends?, Incident.deeds, Incident.attach, hi, hattach]
  | @closed hs i' e reply? answer =>
    by_cases hi : i' = i <;>
      simp [deedsOn, CampaignDeed.attends?, Incident.deeds, Incident.attach, hi]

theorem of_closed {h : Incident} (hh : h ∈ hs') (hclosed : h.closed = true) :
    h ∈ hs ∨ d = .polled h.index (.got ()) := by
  cases hd with
  | idle _ => exact .inl hh
  | closed =>
    rcases List.mem_append.1 hh with hh | hh
    · exact .inl (List.mem_append_left _ hh)
    · rw [List.mem_singleton.1 hh]
      exact .inr rfl
  | opened _ _ =>
    rcases List.mem_append.1 hh with hh | hh
    · exact .inl hh
    · rw [List.mem_singleton.1 hh] at hclosed
      cases hclosed
  | _ =>
    rcases List.mem_append.1 hh with hh | hh
    · exact .inl (List.mem_append_left _ hh)
    · rw [List.mem_singleton.1 hh] at hclosed
      cases hclosed

theorem ne_of_informed {i : UInt64} {e : Envelope} (heq : d = .informed i (.got (some e))) :
    ∀ h ∈ hs, h.index ≠ i := by
  subst heq
  cases hd with
  | idle hd => cases hd
  | opened _ hi => exact hi

/-- While a worker is attended to, the incidents of all others are closed. -/
theorem others_closed (h : ∀ g ∈ hs.dropLast, g.closed = true) {j : UInt64}
    (hj : d.attends? = some j) : ∀ g ∈ hs, g.index ≠ j → g.closed = true := by
  cases hd with
  | idle hd =>
    rw [hd] at hj
    cases hj
  | opened hclosed _ => exact fun g hg _ => hclosed g hg
  | closed => cases hj
  | _ =>
    rw [List.dropLast_concat] at h
    intro g hg hne
    rcases List.mem_append.1 hg with hg | hg
    · exact h g hg
    · rw [List.mem_singleton.1 hg] at hne
      exact absurd (Option.some.inj hj) hne

end Attends

namespace Attended

variable {plan : CampaignPlan} {hs : List Incident} {h : Incident} {log : List CampaignDeed}
  {i : UInt64}

theorem idle (hlog : Attended plan hs log) {d : CampaignDeed} (hd : d.attends? = none) :
    Attended plan hs (log ++ [d]) := hlog.snoc (.idle hd)

theorem closed_init (hlog : Attended plan hs log) : ∀ h ∈ hs.dropLast, h.closed = true := by
  induction hlog with
  | nil => exact List.forall_mem_nil _
  | snoc _ hd ih => exact hd.closed_init ih

theorem nodup (hlog : Attended plan hs log) : (hs.map (·.index)).Nodup := by
  induction hlog with
  | nil => exact List.nodup_nil
  | snoc _ hd ih => exact hd.nodup ih

theorem proper (hlog : Attended plan hs log) : ∀ h ∈ hs, h.Proper plan := by
  induction hlog with
  | nil => exact List.forall_mem_nil _
  | snoc _ hd ih => exact hd.proper ih

theorem deedsOn_eq_flatMap (hlog : Attended plan hs log) (i : UInt64) :
    deedsOn i log = (hs.filter fun h => h.index = i).flatMap Incident.deeds := by
  induction hlog with
  | nil => rfl
  | snoc _ hd ih =>
    rw [hd.flatMap_deeds, ← ih]
    exact List.filter_append ..

/-- **A worker has one incident**, and the deeds on it are those of the incident. -/
theorem deedsOn_eq (hlog : Attended plan hs log) (hh : h ∈ hs) : deedsOn h.index log = h.deeds := by
  rw [hlog.deedsOn_eq_flatMap, filter_eq_singleton hlog.nodup hh]
  exact List.append_nil _

theorem questionsOf_eq (hlog : Attended plan hs log) (hh : h ∈ hs) :
    questionsOf h.index log = h.reply?.toList.map (h.report, ·) := by
  rw [← questionsOf_deedsOn, hlog.deedsOn_eq hh, h.questionsOf_deeds]

theorem decisionsOf_eq (hlog : Attended plan hs log) (hh : h ∈ hs) :
    decisionsOf h.index log = h.sent?.toList.map fun _ => h.attach := by
  rw [← decisionsOf_deedsOn, hlog.deedsOn_eq hh, h.decisionsOf_deeds]

theorem informed_iff (hlog : Attended plan hs log) (hh : h ∈ hs) {e : Envelope} :
    .informed h.index (.got (some e)) ∈ log ↔ e = h.report := by
  have hmem : .informed h.index (.got (some e)) ∈ log ↔
      .informed h.index (.got (some e)) ∈ deedsOn h.index log :=
    ⟨fun hd => mem_deedsOn.2 ⟨hd, rfl⟩, fun hd => (mem_deedsOn.1 hd).1⟩
  rw [hmem, hlog.deedsOn_eq hh]
  simp [Incident.deeds]

theorem asked_iff (hlog : Attended plan hs log) (hh : h ∈ hs) {e : Envelope}
    {reply : PromptReply} :
    .asked h.index e reply ∈ log ↔ e = h.report ∧ h.reply? = some reply := by
  rw [← mem_questionsOf, hlog.questionsOf_eq hh]
  simp [and_comm, eq_comm]

/-- A deed of an incident shows it. -/
theorem exists_of_attends (hlog : Attended plan hs log) {d : CampaignDeed} (hd : d ∈ log)
    (hi : d.attends? = some i) : ∃ h ∈ hs, h.index = i ∧ d ∈ h.deeds := by
  have hmem : d ∈ deedsOn i log := mem_deedsOn.2 ⟨hd, hi⟩
  rw [hlog.deedsOn_eq_flatMap, List.mem_flatMap] at hmem
  obtain ⟨h, hh, hdeeds⟩ := hmem
  rw [List.mem_filter] at hh
  exact ⟨h, hh.1, of_decide_eq_true hh.2, hdeeds⟩

/-- In an incident that is closed the second completion was taken after the failure. -/
theorem polled_of_closed (hlog : Attended plan hs log) (hh : h ∈ hs) (hclosed : h.closed = true)
    {before rest : List CampaignDeed} {e : Envelope}
    (heq : log = before ++ .informed h.index (.got (some e)) :: rest) :
    .polled h.index (.got ()) ∈ rest := by
  induction hlog generalizing rest with
  | nil => simp at heq
  | snoc _ hd ih =>
    rcases snoc_eq_append_cons heq with ⟨-, hinformed, -⟩ | ⟨rest', rfl, hrest⟩
    · rcases hd.of_closed hh hclosed with hh | hpolled
      · exact absurd rfl (hd.ne_of_informed hinformed h hh)
      · rw [hpolled] at hinformed
        cases hinformed
    · rcases hd.of_closed hh hclosed with hh | rfl
      · exact List.mem_append_left _ (ih hh hrest)
      · exact List.mem_append_right _ (List.mem_singleton_self _)

/-- **Incidents are apart**: between a failure and a deed on another worker the second completion
was taken. -/
theorem apart (hlog : Attended plan hs log) {before between after : List CampaignDeed}
    {e : Envelope} {d : CampaignDeed} {j : UInt64}
    (heq : log = before ++ .informed i (.got (some e)) :: (between ++ d :: after))
    (hd : d.attends? = some j) (hne : j ≠ i) : .polled i (.got ()) ∈ between := by
  induction hlog generalizing after with
  | nil => simp at heq
  | @snoc hs log d' hs' hlog hd' ih =>
    rw [← List.cons_append, ← List.append_assoc] at heq
    rcases snoc_eq_append_cons heq with ⟨-, rfl, rfl⟩ | ⟨after', rfl, hlog'⟩
    · obtain ⟨h, hh, rfl, -⟩ := hlog.exists_of_attends
        (List.mem_append_right _ List.mem_cons_self) rfl
      exact hlog.polled_of_closed hh (hd'.others_closed hlog.closed_init hd h hh hne.symm) rfl
    · exact ih (by simpa using hlog')

end Attended

end FuzzCampaign
