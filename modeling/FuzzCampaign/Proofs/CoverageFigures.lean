import FuzzCampaign.CommandLine.Merging
import FuzzCampaign.Proofs.FilesKept
import FuzzCampaign.Proofs.ReapedOnce
import FuzzCampaign.Proofs.Refusal
import Mathlib.Algebra.Order.BigOperators.Group.List
import Mathlib.Algebra.Order.Ring.Nat

/-!
# Figures and their sums

The figures of coverage are exact sums. Each of them exists if and only if its sum is a count, and
what shows a figure aborts if it does not: the status of a campaign, the message of a merge, the
table of a file.

* `addExact_eq_ok_iff`: exact addition;
* `Coverage.hitSum`, `Coverage.counted`, `Coverage.FunctionsFit`: the sums without a bound;
* `Coverage.total_eq_ok_iff`, `Coverage.figure_summary`: the figures are these sums;
* `Coverage.exists_total_iff`, `Coverage.exists_summary_iff`: when there are figures;
* `ShownIf`: an action that shows a figure or aborts;
* **`Coverage.figures_exist_iff`**: the figures, and what shows them.
-/

namespace FuzzCampaign

theorem addExact_eq_ok_iff {a b n : UInt64} :
    addExact a b = .ok n ↔ n.toNat = a.toNat + b.toNat := by
  unfold addExact
  split
  · rename_i h
    have hsum : (a + b).toNat = a.toNat + b.toNat := by
      rw [UInt64.toNat_add]
      exact Nat.mod_eq_of_lt h
    rw [Except.ok.injEq, ← hsum, UInt64.toNat_inj, eq_comm]
  · rename_i h
    have hn : n.toNat < word64 := n.toNat_lt
    refine ⟨nofun, fun heq => ?_⟩
    omega

theorem exists_toNat_eq_iff {k : Nat} : (∃ n : UInt64, n.toNat = k) ↔ k < word64 := by
  refine ⟨fun ⟨n, hn⟩ => hn ▸ n.toNat_lt, fun h => ⟨UInt64.ofNat k, ?_⟩⟩
  rw [UInt64.toNat_ofNat']
  exact Nat.mod_eq_of_lt h

namespace Coverage

/-! ## Sums of hits -/

/-- The sum of the hits of entries. -/
def hitSum (entries : List (String × Position × FunctionHits)) : Nat :=
  (entries.map (·.2.2.hits.toNat)).sum

@[simp] theorem hitSum_nil : hitSum [] = 0 := rfl

@[simp] theorem hitSum_cons (e : String × Position × FunctionHits)
    (entries : List (String × Position × FunctionHits)) :
    hitSum (e :: entries) = e.2.2.hits.toNat + hitSum entries := rfl

theorem hitSum_filter_le (keep : String × Position × FunctionHits → Bool)
    (entries : List (String × Position × FunctionHits)) :
    hitSum (entries.filter keep) ≤ hitSum entries :=
  (List.filter_sublist.map _).sum_le_sum fun _ _ => Nat.zero_le _

theorem foldlM_addExact_eq_ok_iff (entries : List (String × Position × FunctionHits))
    (acc n : UInt64) :
    entries.foldlM (fun n e => addExact n e.2.2.hits) acc = .ok n ↔
      n.toNat = acc.toNat + hitSum entries := by
  induction entries generalizing acc with
  | nil =>
    rw [List.foldlM_nil, hitSum_nil, Nat.add_zero, UInt64.toNat_inj]
    exact pure_eq_ok_iff
  | cons e entries ih =>
    rw [List.foldlM_cons, bind_eq_ok_iff]
    simp only [addExact_eq_ok_iff, ih, hitSum_cons, ← Nat.add_assoc]
    refine ⟨fun ⟨k, hk, hn⟩ => hk ▸ hn, fun hn => ?_⟩
    have hlt : n.toNat < word64 := n.toNat_lt
    obtain ⟨k, hk⟩ := exists_toNat_eq_iff.2 (show acc.toNat + e.2.2.hits.toNat < word64 by omega)
    exact ⟨k, hk, hk ▸ hn⟩

/-- **The total is the sum of all hits**, if this is a count. -/
theorem total_eq_ok_iff {c : Coverage} {n : UInt64} :
    c.total = .ok n ↔ n.toNat = hitSum c.records := by
  rw [total, foldlM_addExact_eq_ok_iff, UInt64.toNat_zero, Nat.zero_add]

theorem exists_total_iff {c : Coverage} : (∃ n, c.total = .ok n) ↔ hitSum c.records < word64 := by
  simp only [total_eq_ok_iff, exists_toNat_eq_iff]

/-! ## Sums by function -/

/-- The figure of a function, zero if it has none. -/
def figure (m : SortedMap String UInt64) (key : String) : Nat := ((m.get? key).getD 0).toNat

theorem figure_insert (m : SortedMap String UInt64) (key key' : String) (n : UInt64) :
    figure (m.insert key n) key' = if key' = key then n.toNat else figure m key' := by
  simp only [figure, SortedMap.get?_insert, Std.compare_eq_iff_eq]
  split_ifs <;> rfl

/-- Count an entry under its key. -/
def countUnder (key : String × Position × FunctionHits → String) (m : SortedMap String UInt64)
    (e : String × Position × FunctionHits) : Except Overflow (SortedMap String UInt64) := do
  let n ← addExact ((m.get? (key e)).getD 0) e.2.2.hits
  return m.insert (key e) n

section

variable {key : String × Position × FunctionHits → String} {m m' : SortedMap String UInt64}

theorem countUnder_eq_ok_iff {e : String × Position × FunctionHits} :
    countUnder key m e = .ok m' ↔
      ∃ n : UInt64, n.toNat = figure m (key e) + e.2.2.hits.toNat ∧ m' = m.insert (key e) n := by
  rw [countUnder, bind_eq_ok_iff]
  simp only [addExact_eq_ok_iff, figure, pure_eq_ok_iff]

theorem hitSum_filter_cons (e : String × Position × FunctionHits)
    (entries : List (String × Position × FunctionHits)) (k : String) :
    hitSum ((e :: entries).filter fun e => key e = k) =
      (if k = key e then e.2.2.hits.toNat else 0) + hitSum (entries.filter fun e => key e = k) := by
  rw [List.filter_cons]
  by_cases h : key e = k
  · simp [h]
  · simp [h, Ne.symm h]

theorem figure_of_foldlM {entries : List (String × Position × FunctionHits)}
    (h : entries.foldlM (countUnder key) m = .ok m') (k : String) :
    figure m' k = figure m k + hitSum (entries.filter fun e => key e = k) := by
  induction entries generalizing m with
  | nil =>
    cases h
    rfl
  | cons e entries ih =>
    rw [List.foldlM_cons, bind_eq_ok_iff] at h
    obtain ⟨m₁, hcount, h⟩ := h
    obtain ⟨n, hn, rfl⟩ := countUnder_eq_ok_iff.1 hcount
    rw [ih h, figure_insert, hitSum_filter_cons]
    split_ifs with hk
    · rw [hn, hk, Nat.add_assoc]
    · rw [Nat.zero_add]

/-- Counting succeeds if and only if every key ends with a figure that is a count. -/
theorem exists_foldlM_iff (entries : List (String × Position × FunctionHits)) :
    (∃ m', entries.foldlM (countUnder key) m = .ok m') ↔
      ∀ k, figure m k + hitSum (entries.filter fun e => key e = k) < word64 := by
  induction entries generalizing m with
  | nil => exact ⟨fun _ k => ((m.get? k).getD 0).toNat_lt, fun _ => ⟨m, rfl⟩⟩
  | cons e entries ih =>
    have hstep : (∃ m', (e :: entries).foldlM (countUnder key) m = .ok m') ↔
        ∃ n : UInt64, n.toNat = figure m (key e) + e.2.2.hits.toNat ∧
          ∀ k, figure (m.insert (key e) n) k + hitSum (entries.filter fun e => key e = k) <
            word64 := by
      simp only [List.foldlM_cons, bind_eq_ok_iff, countUnder_eq_ok_iff, ← ih]
      constructor
      · rintro ⟨m', _, ⟨n, hn, rfl⟩, h⟩
        exact ⟨n, hn, m', h⟩
      · rintro ⟨n, hn, m', h⟩
        exact ⟨m', _, ⟨n, hn, rfl⟩, h⟩
    rw [hstep]
    simp only [hitSum_filter_cons, figure_insert]
    constructor
    · rintro ⟨n, hn, h⟩ k
      have hk := h k
      split_ifs at hk ⊢ with heq
      · rw [heq] at hk ⊢
        omega
      · omega
    · intro h
      have hfirst := h (key e)
      rw [if_pos rfl] at hfirst
      obtain ⟨n, hn⟩ := exists_toNat_eq_iff.2
        (show figure m (key e) + e.2.2.hits.toNat < word64 by omega)
      refine ⟨n, hn, fun k => ?_⟩
      have hk := h k
      split_ifs at hk ⊢ with heq
      · rw [heq] at hk ⊢
        omega
      · omega

end

variable {c : Coverage}

/-- The entries that a summary counts under a key. -/
def counted (c : Coverage) (key : String) : List (String × Position × FunctionHits) :=
  c.records.filter fun e => c.summaryKey e.1 e.2.2.name = key

/-- The hits of every function together are a count. -/
def FunctionsFit (c : Coverage) : Prop := ∀ key, hitSum (c.counted key) < word64

theorem summary_eq_foldlM (c : Coverage) :
    c.summary = c.records.foldlM (countUnder fun e => c.summaryKey e.1 e.2.2.name) .empty := rfl

/-- **The figure of a function is the sum of the hits that are counted for it.** -/
theorem figure_summary {m : SortedMap String UInt64} (h : c.summary = .ok m) (key : String) :
    figure m key = hitSum (c.counted key) := by
  rw [summary_eq_foldlM] at h
  rw [figure_of_foldlM h, figure, SortedMap.get?_empty, Option.getD_none, UInt64.toNat_zero,
    Nat.zero_add]
  rfl

theorem exists_summary_iff : (∃ m, c.summary = .ok m) ↔ c.FunctionsFit := by
  simp only [summary_eq_foldlM, exists_foldlM_iff, figure, SortedMap.get?_empty, Option.getD_none,
    UInt64.toNat_zero, Nat.zero_add]
  rfl

theorem exists_ranked_iff : (∃ rows, c.ranked = .ok rows) ↔ c.FunctionsFit := by
  rw [← exists_summary_iff]
  exact exists_map_eq_ok_iff

theorem exists_functionLines_iff : (∃ lines, c.functionLines = .ok lines) ↔ c.FunctionsFit := by
  rw [← exists_ranked_iff]
  exact exists_map_eq_ok_iff

/-- Where the total is a count, so are its parts. -/
theorem functionsFit_of_total (h : hitSum c.records < word64) : c.FunctionsFit := fun _ =>
  Nat.lt_of_le_of_lt (hitSum_filter_le _ _) h

theorem exists_table_iff : (∃ text, c.table = .ok text) ↔ hitSum c.records < word64 := by
  constructor
  · rintro ⟨text, h⟩
    obtain ⟨rows, -, h⟩ := bind_eq_ok_iff.1 h
    obtain ⟨total, htotal, -⟩ := bind_eq_ok_iff.1 h
    exact exists_total_iff.1 ⟨total, htotal⟩
  · intro h
    obtain ⟨rows, hrows⟩ := exists_ranked_iff.2 (functionsFit_of_total h)
    obtain ⟨total, htotal⟩ := exists_total_iff.2 h
    refine ⟨_, bind_eq_ok_iff.2 ⟨rows, hrows, bind_eq_ok_iff.2 ⟨total, htotal, rfl⟩⟩⟩

end Coverage

/-! ## Where figures are shown -/

/-- An action for which a sum is needed ends with a value if the sum is a count, and aborts with a
world `s'` if it is not. -/
def ShownIf {ε σ : Type} (fits : Prop) (abort : String → ε) (r : Except ε Unit × σ) (s' : σ) :
    Prop :=
  fits ∧ r.1 = .ok () ∨ ¬fits ∧ r = (.error (abort Overflow.add.message), s')

theorem shownIf_of_figure {ε σ α : Type} {fits : Prop} {abort : String → ε}
    {r : Except ε Unit × σ} {s' : σ} {figure : Except Overflow α}
    (h : (∃ a, figure = .ok a) ↔ fits) (hok : ∀ a, figure = .ok a → r.1 = .ok ())
    (herror : figure = .error .add → r = (.error (abort Overflow.add.message), s')) :
    ShownIf fits abort r s' := by
  rcases hfigure : figure with ⟨⟩ | a
  · refine .inr ⟨fun hfits => ?_, herror hfigure⟩
    obtain ⟨a, ha⟩ := h.2 hfits
    rw [hfigure] at ha
    contradiction
  · exact .inl ⟨h.1 ⟨a, hfigure⟩, hok a hfigure⟩

namespace Campaign

/-- The status after a sweep is shown if there is a figure of every function. -/
theorem shown_showStatus {σ : Type} (host : CampaignHost σ) (plan : CampaignPlan)
    (o : Orchestrator σ) :
    ShownIf o.aggregator.full.FunctionsFit Stop.abort ((showStatus host plan).outcome o) o := by
  rw [showStatus, Action.outcome_bind, Action.outcome_get]
  refine shownIf_of_figure Coverage.exists_functionLines_iff (fun lines h => ?_) fun h => ?_
  · simp only [Tally.functionLines, h]
    rfl
  · simp only [Tally.functionLines, h]
    rfl

end Campaign

namespace CommandLine

open CommandAction

variable {σ : Type} {host : CommandHost (StateM σ)} {s s₁ : σ} {c : Coverage}

/-- A merge says how many hits there were if their sum is a count; its file is written by then. -/
theorem shown_mergeInto (console : Console) {files : List String} {output : String}
    (hread : outcome (mergedCoverage host files) s = (.ok c, s₁))
    (hwrite : ((host.writeFile output c.fileText).run s₁).1 = .ok ()) :
    ShownIf (Coverage.hitSum c.records < word64) CommandStop.abort
      (outcome (mergeInto host console files output) s)
      ((host.writeFile output c.fileText).run s₁).2 := by
  rw [mergeInto, outcome_bind, hread]
  dsimp only
  rw [outcome_bind, outcome_ask, hwrite]
  refine shownIf_of_figure Coverage.exists_total_iff (fun n h => ?_) fun h => ?_
  · simp only [h]
    rfl
  · simp only [h]
    rfl

theorem shown_printTable {file : String}
    (hread : outcome (readCoverage host file) s = (.ok c, s₁)) :
    ShownIf (Coverage.hitSum (Coverage.merge [c]).records < word64) CommandStop.abort
      (outcome (printTable host file) s) s₁ := by
  rw [printTable, outcome_bind, hread]
  refine shownIf_of_figure Coverage.exists_table_iff (fun text h => ?_) fun h => ?_
  · simp only [h]
    rfl
  · simp only [h]
    rfl

end CommandLine

/-! ## Every figure -/

namespace Coverage

open CommandLine CommandAction

/-- **There is a figure if and only if its sum is a count**: the total and the table need the sum of
all hits, and the summary, the ranking and the lines of the status the sums by function. A campaign
shows its status, a merge its message and a file its table where there are these figures, and aborts
where there are not, a merge after it has written its file. -/
theorem figures_exist_iff (c : Coverage) :
    ((∃ n, c.total = .ok n) ↔ hitSum c.records < word64) ∧
    ((∃ m, c.summary = .ok m) ↔ c.FunctionsFit) ∧
    ((∃ rows, c.ranked = .ok rows) ↔ c.FunctionsFit) ∧
    ((∃ lines, c.functionLines = .ok lines) ↔ c.FunctionsFit) ∧
    ((∃ text, c.table = .ok text) ↔ hitSum c.records < word64) ∧
    (∀ {σ : Type} (host : CampaignHost σ) (plan : CampaignPlan) (o : Orchestrator σ),
      o.aggregator.full = c →
      ShownIf c.FunctionsFit Stop.abort ((Campaign.showStatus host plan).outcome o) o) ∧
    (∀ {σ : Type} (host : CommandHost (StateM σ)) (console : Console) (files : List String)
      (output : String) (s s₁ : σ), outcome (mergedCoverage host files) s = (.ok c, s₁) →
      ((host.writeFile output c.fileText).run s₁).1 = .ok () →
      ShownIf (hitSum c.records < word64) CommandStop.abort
        (outcome (mergeInto host console files output) s)
        ((host.writeFile output c.fileText).run s₁).2) ∧
    ∀ {σ : Type} (host : CommandHost (StateM σ)) (file : String) (stored : Coverage) (s s₁ : σ),
      outcome (readCoverage host file) s = (.ok stored, s₁) → .merge [stored] = c →
      ShownIf (hitSum c.records < word64) CommandStop.abort
        (outcome (printTable host file) s) s₁ := by
  refine ⟨exists_total_iff, exists_summary_iff, exists_ranked_iff, exists_functionLines_iff,
    exists_table_iff, ?_, ?_, ?_⟩
  · rintro σ host plan o rfl
    exact Campaign.shown_showStatus host plan o
  · exact fun host console files output s s₁ => shown_mergeInto console
  · rintro σ host file stored s s₁ hread rfl
    exact shown_printTable hread

/-- Two positions of a function, the first of which was hit as often as can be counted. -/
def crowded : Coverage :=
  .ofRecords [("a.rs", ⟨1, 1, 1, 9⟩, ⟨"f", maxCount⟩), ("a.rs", ⟨2, 1, 2, 9⟩, ⟨"f", 1⟩)]

/-- A world whose worker has that coverage. -/
def crowdedHost : CampaignHost Unit :=
  { Campaign.onlyFirst with snapshots := fun _ => pure [⟨crowded, .empty⟩] }

/-- **Coverage without figures**: when a worker has submitted it, there is no total, summary,
ranking or table, and the campaign aborts. -/
theorem crowded_overflows :
    (let merged := (Tally.empty.submit 0 ⟨crowded, .empty⟩).full
    merged.total = .error .add ∧ merged.summary = .error .add ∧ merged.ranked = .error .add ∧
      merged.table = .error .add) ∧
    (Campaign.run crowdedHost { processCount := 1 } ⟨"m", "t", []⟩ 1).outcome () =
      (.error (.abort "attempt to add with overflow"), ()) := by
  refine ⟨⟨?_, ?_, ?_, ?_⟩, ?_⟩ <;> decide +kernel

end Coverage

end FuzzCampaign
