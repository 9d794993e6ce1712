import FuzzCampaign.Text.Numeral

/-!
# Counts

Counts are words of 64 bits. Hits are summed up to the largest count; other sums have to fit.

* `addSaturating`: the sum of two counts, no larger than the largest count;
* `addExact`, `Overflow`: the sum of two counts, if it is a count.
-/

namespace FuzzCampaign

/-- The largest count. -/
def maxCount : UInt64 := 18446744073709551615

/-- The sum of two counts, or the largest count if the sum is larger. -/
def addSaturating (a b : UInt64) : UInt64 :=
  if a.toNat + b.toNat < word64 then a + b else maxCount

theorem toNat_addSaturating (a b : UInt64) :
    (addSaturating a b).toNat = min (a.toNat + b.toNat) (word64 - 1) := by
  unfold addSaturating
  split
  · rename_i h
    rw [UInt64.toNat_add, Nat.mod_eq_of_lt (by simpa [word64] using h)]
    omega
  · rename_i h
    have : maxCount.toNat = word64 - 1 := by decide
    omega

/-- A sum that does not fit into its word. -/
inductive Overflow
  | add
  deriving DecidableEq, Repr

/-- The wording of an overflow. -/
def Overflow.message : Overflow → String
  | .add => "attempt to add with overflow"

/-- The sum of two counts, which has to fit into 64 bits. -/
def addExact (a b : UInt64) : Except Overflow UInt64 :=
  if a.toNat + b.toNat < word64 then .ok (a + b) else .error .add

end FuzzCampaign
