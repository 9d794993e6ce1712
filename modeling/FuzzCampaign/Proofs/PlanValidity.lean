import FuzzCampaign.Campaign.Run
import FuzzCampaign.Proofs.CoverageFigures

/-!
# Valid plans

A plan is valid if it satisfies four conditions, and a plan that is not is refused with the first
condition that it violates. The sum of the first port and the number of workers has to be computed
for the third condition, and a plan for which that sum does not fit into a word is not refused: the
validation aborts.

* `CampaignPlan.Condition`, `CampaignPlan.conditions`, `CampaignPlan.flaw?`: the conditions, on
  numbers without a bound;
* `CampaignPlan.SumOverflows`: the plans for which the validation aborts;
* `CampaignPlan.flaw?_of_sumOverflows`: they violate a condition;
* `CampaignPlan.validate_eq_of_flaw?`, `CampaignPlan.validate_eq_ok_iff`: refused and accepted
  plans;
* **`CampaignPlan.validate_eq`**: what the validation comes to;
* `CampaignPlan.taskOf_eq_ok_iff`, `CampaignPlan.portOf_of_valid`: the tasks of a valid plan.
-/

namespace FuzzCampaign

namespace CampaignPlan

/-- A condition on a plan, and the refusal of a plan that violates it. -/
structure Condition where
  holds : Bool
  refusal : CampaignError

/-- The conditions on a plan, in their order. -/
def conditions (c : CampaignPlan) (hasLogsDir : Bool) : List Condition :=
  [⟨1 ≤ c.processCount.toNat, noWorkers⟩,
    ⟨c.coverageWorkers.toNat ≤ c.processCount.toNat, c.tooMuchCoverage⟩,
    ⟨(c.basePort.toNat + c.processCount.toNat - 1 : Int) ≤ 65535, c.portsExceeded⟩,
    ⟨hasLogsDir, c.noLogsDir⟩]

/-- The refusal of the first condition that a plan violates. -/
def flaw? (c : CampaignPlan) (hasLogsDir : Bool) : Option CampaignError :=
  ((c.conditions hasLogsDir).find? fun p => !p.holds).map Condition.refusal

/-- The first two conditions hold, and the sum of the first port and the number of workers does not
fit into a word. -/
def SumOverflows (c : CampaignPlan) : Prop :=
  1 ≤ c.processCount.toNat ∧ c.coverageWorkers.toNat ≤ c.processCount.toNat ∧
    word64 ≤ c.basePort.toNat + c.processCount.toNat

instance (c : CampaignPlan) : Decidable c.SumOverflows := inferInstanceAs (Decidable (_ ∧ _ ∧ _))

variable {c : CampaignPlan} {hasLogsDir : Bool}

theorem flaw?_eq_none_iff : c.flaw? hasLogsDir = none ↔
    1 ≤ c.processCount.toNat ∧ c.coverageWorkers.toNat ≤ c.processCount.toNat ∧
      (c.basePort.toNat + c.processCount.toNat - 1 : Int) ≤ 65535 ∧ hasLogsDir = true := by
  simp [flaw?, conditions]

theorem flaw?_of_sumOverflows (h : c.SumOverflows) :
    c.flaw? hasLogsDir = some c.portsExceeded := by
  obtain ⟨hcount, hcoverage, hsum⟩ := h
  have hports : ¬(c.basePort.toNat + c.processCount.toNat - 1 : Int) ≤ 65535 := by
    unfold word64 at hsum
    omega
  simp [flaw?, conditions, hcount, hcoverage, hports]

theorem addExact_ports (h : c.basePort.toNat + c.processCount.toNat < word64) :
    ∃ firstFree, addExact c.basePort.toUInt64 c.processCount = .ok firstFree ∧
      firstFree.toNat = c.basePort.toNat + c.processCount.toNat := by
  obtain ⟨firstFree, hfree⟩ := exists_toNat_eq_iff.2 h
  exact ⟨firstFree, addExact_eq_ok_iff.2 (by rw [hfree, UInt16.toNat_toUInt64]), hfree⟩

theorem addExact_ports_overflow (h : word64 ≤ c.basePort.toNat + c.processCount.toNat) :
    addExact c.basePort.toUInt64 c.processCount = .error .add := by
  rw [addExact, if_neg (by rw [UInt16.toNat_toUInt64]; omega)]

/-- The validation goes through the conditions in their order, and aborts on the way if the sum for
the third one does not fit. -/
theorem validate_eq_of_flaw? (c : CampaignPlan) (hasLogsDir : Bool) :
    c.validate hasLogsDir =
      if c.SumOverflows then .error (.abort Overflow.add.message)
      else match c.flaw? hasLogsDir with
        | none => .ok ()
        | some refusal => .error (.error refusal) := by
  have hzero : c.processCount = 0 ↔ ¬1 ≤ c.processCount.toNat := by
    rw [← UInt64.toNat_inj, UInt64.toNat_zero]
    omega
  unfold validate
  simp only [hzero, UInt64.lt_iff_toNat_lt]
  by_cases hcount : 1 ≤ c.processCount.toNat
  · by_cases hcoverage : c.coverageWorkers.toNat ≤ c.processCount.toNat
    · rw [if_neg (not_not.2 hcount), if_neg (not_lt.2 hcoverage)]
      by_cases hsum : c.basePort.toNat + c.processCount.toNat < word64
      · obtain ⟨firstFree, hadd, hfree⟩ := addExact_ports hsum
        have hports : word16 < firstFree.toNat ↔
            ¬(c.basePort.toNat + c.processCount.toNat - 1 : Int) ≤ 65535 := by
          unfold word16
          omega
        have hfits : ¬c.SumOverflows := fun h => absurd h.2.2 (not_le.2 hsum)
        rw [hadd, if_neg hfits]
        by_cases hlast : (c.basePort.toNat + c.processCount.toNat - 1 : Int) ≤ 65535
        · cases hasLogsDir <;> simp [flaw?, conditions, hcount, hcoverage, hlast, hports]
        · simp [flaw?, conditions, hcount, hcoverage, hlast, hports]
      · have hoverflows : c.SumOverflows := ⟨hcount, hcoverage, not_lt.1 hsum⟩
        rw [addExact_ports_overflow (not_lt.1 hsum), if_pos hoverflows]
    · have hfits : ¬c.SumOverflows := fun h => hcoverage h.2.1
      rw [if_neg (not_not.2 hcount), if_pos (not_le.1 hcoverage), if_neg hfits]
      simp [flaw?, conditions, hcount, hcoverage]
  · have hfits : ¬c.SumOverflows := fun h => hcount h.1
    rw [if_pos hcount, if_neg hfits]
    simp [flaw?, conditions, hcount]

/-- A plan is accepted if it satisfies all conditions. -/
theorem validate_eq_ok_iff : c.validate hasLogsDir = .ok () ↔
    1 ≤ c.processCount.toNat ∧ c.coverageWorkers.toNat ≤ c.processCount.toNat ∧
      (c.basePort.toNat + c.processCount.toNat - 1 : Int) ≤ 65535 ∧ hasLogsDir = true := by
  rw [validate_eq_of_flaw?, ← flaw?_eq_none_iff]
  split_ifs with hsum
  · rw [flaw?_of_sumOverflows hsum]
    exact ⟨nofun, nofun⟩
  · rcases c.flaw? hasLogsDir with _ | refusal
    · exact ⟨fun _ => rfl, fun _ => rfl⟩
    · exact ⟨nofun, nofun⟩

/-- **What the validation comes to.** A plan is accepted if and only if it satisfies all conditions,
and otherwise refused with the first one that it violates, unless the sum of its first port and its
number of workers does not fit into a word. Then the validation aborts, although the plan violates
the condition on ports. -/
theorem validate_eq (c : CampaignPlan) (hasLogsDir : Bool) :
    (c.validate hasLogsDir =
      if c.SumOverflows then .error (.abort "attempt to add with overflow")
      else match c.flaw? hasLogsDir with
        | none => .ok ()
        | some refusal => .error (.error refusal)) ∧
    (c.validate hasLogsDir = .ok () ↔
      1 ≤ c.processCount.toNat ∧ c.coverageWorkers.toNat ≤ c.processCount.toNat ∧
        (c.basePort.toNat + c.processCount.toNat - 1 : Int) ≤ 65535 ∧ hasLogsDir = true) ∧
    (c.SumOverflows → c.flaw? hasLogsDir = some c.portsExceeded) :=
  ⟨c.validate_eq_of_flaw? hasLogsDir, validate_eq_ok_iff, flaw?_of_sumOverflows⟩

/-- A plan with as many workers as can be counted. -/
def vastPlan : CampaignPlan := { processCount := maxCount }

/-- **The validation aborts**: a plan for too many workers should be refused because of its
ports. -/
theorem validate_vastPlan :
    vastPlan.flaw? true = some (.configuration
      "18446744073709551615 workers starting at port 8545 exceed the port range") ∧
    vastPlan.validate true = .error (.abort "attempt to add with overflow") := by
  refine ⟨?_, ?_⟩ <;> decide +kernel

/-! ## The tasks of a plan -/

theorem taskOf_eq_ok_iff {test : TestCase} {i : UInt64} {seed : Seed} {task : WorkerTask} :
    c.taskOf test i seed = .ok task ↔ ∃ port, c.portOf i = .ok port ∧
      task = ⟨i, test.fullName, seed, port, Path.join c.logsDir (test.logFile i), c.copiesOutput i,
        c.network, c.isMeasured i⟩ := by
  rw [taskOf, bind_eq_ok_iff]
  exact exists_congr fun port => and_congr_right fun _ => pure_eq_ok_iff

/-- **No port of a valid plan is cut off**: every worker gets the port as many places behind the
first one as its index says. -/
theorem portOf_of_valid (h : c.validate hasLogsDir = .ok ()) {i : UInt64}
    (hi : i < c.processCount) :
    ∃ port, c.portOf i = .ok port ∧ port.toNat = c.basePort.toNat + i.toNat := by
  obtain ⟨-, -, hports, -⟩ := validate_eq_ok_iff.1 h
  rw [UInt64.lt_iff_toNat_lt] at hi
  have hlast : c.basePort.toNat + i.toNat < word16 := by
    unfold word16
    omega
  obtain ⟨sum, hsum⟩ := exists_toNat_eq_iff.2 (hlast.trans (by decide : word16 < word64))
  have hadd : addExact c.basePort.toUInt64 i = .ok sum :=
    addExact_eq_ok_iff.2 (by rw [hsum, UInt16.toNat_toUInt64])
  refine ⟨sum.toUInt16, ?_, ?_⟩
  · rw [portOf, hadd, Except.map, if_pos (hsum ▸ hlast)]
  · rw [UInt64.toNat_toUInt16, hsum, Nat.mod_eq_of_lt hlast]

end CampaignPlan

end FuzzCampaign
