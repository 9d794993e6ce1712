import FuzzCampaign.Proofs.PositionText
import Mathlib.Tactic.SplitIfs

/-!
# Which texts are numerals

A numeral is a plus sign, or none, and at least one digit. Every numeral with a value below the
bound is read as its value, and nothing else is read.

* `Numeral.IsNumeral`: the text of a number;
* `Numeral.digit?_eq_some_iff`, `Numeral.readDigits_eq_ok_iff`: digits that are read;
* **`Numeral.readDecimal?_eq_some_iff`**: numerals that are read.
-/

namespace FuzzCampaign

namespace Numeral

/-- A text of the number `n`: decimal digits, with a plus sign before them or not. -/
def IsNumeral (cs : List Char) (n : Nat) : Prop :=
  ∃ digits, (cs = digits ∨ cs = '+' :: digits) ∧ digits ≠ [] ∧
    (∀ c ∈ digits, c.isDigit = true) ∧ Nat.ofDigitChars 10 digits 0 = n

/-! ## Digits -/

theorem isDigit_of_bounds {c : Char} (hlow : '0' ≤ c) (hhigh : c ≤ '9') : c.isDigit = true := by
  simp only [Char.isDigit, Bool.and_eq_true, decide_eq_true_eq]
  exact ⟨hlow, hhigh⟩

theorem digit?_eq_some_iff {c : Char} {d : Nat} :
    digit? 10 c = some d ↔ c.isDigit = true ∧ c.toNat - '0'.toNat = d := by
  constructor
  · intro h
    obtain ⟨hvalue, hsmall⟩ := Option.filter_eq_some_iff.1 h
    simp only [decide_eq_true_eq] at hsmall
    unfold digitValue? at hvalue
    split_ifs at hvalue with hdigit hlower hupper
    · exact ⟨isDigit_of_bounds hdigit.1 hdigit.2, Option.some.inj hvalue⟩
    -- a letter stands for ten or more
    · have := Option.some.inj hvalue
      omega
    · have := Option.some.inj hvalue
      omega
  · rintro ⟨hdigit, rfl⟩
    exact digit?_of_isDigit hdigit

/-- Digits are read if and only if all are decimal and the value stays below the bound. -/
theorem readDigits_eq_ok_iff {bound acc n : Nat} {cs : List Char} (hne : cs ≠ []) :
    readDigits 10 bound acc cs = .ok n ↔
      (∀ c ∈ cs, c.isDigit = true) ∧ Nat.ofDigitChars 10 cs acc = n ∧ n < bound := by
  constructor
  · intro h
    induction cs generalizing acc with
    | nil => contradiction
    | cons c cs ih =>
      unfold readDigits at h
      split at h
      · contradiction
      · rename_i d hd
        obtain ⟨hdigit, rfl⟩ := digit?_eq_some_iff.1 hd
        split_ifs at h with hbound
        rw [Nat.ofDigitChars_cons, Nat.mul_comm, List.forall_mem_cons]
        by_cases hcs : cs = []
        · subst hcs
          cases h
          simpa using ⟨hdigit, hbound⟩
        · obtain ⟨hdigits, hvalue, hlt⟩ := ih hcs h
          exact ⟨⟨hdigit, hdigits⟩, hvalue, hlt⟩
  · rintro ⟨hdigits, rfl, hlt⟩
    exact readDigits_eq hdigits hlt

/-! ## Numerals -/

/-- **What is read as a number are the numerals with a value below the bound.** -/
theorem readDecimal?_eq_some_iff {bound n : Nat} {cs : List Char} :
    readDecimal? bound cs = some n ↔ IsNumeral cs n ∧ n < bound := by
  have hok : readDecimal? bound cs = some n ↔ read 10 bound cs = .ok n := by
    unfold readDecimal?
    cases read 10 bound cs <;> simp [Except.toOption]
  rw [hok]
  constructor
  · intro h
    unfold read at h
    split at h
    · contradiction
    · contradiction
    · rename_i digits hne
      have hdigits : digits ≠ [] := fun hnil => hne (by rw [hnil])
      obtain ⟨hall, hvalue, hlt⟩ := (readDigits_eq_ok_iff hdigits).1 h
      exact ⟨⟨digits, .inr rfl, hdigits, hall, hvalue⟩, hlt⟩
    · rename_i hnil _ _
      obtain ⟨hall, hvalue, hlt⟩ := (readDigits_eq_ok_iff hnil).1 h
      exact ⟨⟨cs, .inl rfl, hnil, hall, hvalue⟩, hlt⟩
  · rintro ⟨⟨digits, hcs, hne, hall, rfl⟩, hlt⟩
    have hread := readDigits_eq hall hlt
    rcases hcs with rfl | rfl
    · rw [read_of_isDigit hall hne, hread]
    · obtain ⟨d, ds, rfl⟩ := List.exists_cons_of_ne_nil hne
      exact hread

theorem IsNumeral.isBlank {cs : List Char} {n : Nat} (h : IsNumeral cs n) {c : Char} (hc : c ∈ cs) :
    Text.isBlank c = false := by
  obtain ⟨digits, rfl | rfl, -, hall, -⟩ := h
  · exact Text.isBlank_of_isDigit (hall c hc)
  · rcases List.mem_cons.1 hc with rfl | hc
    · decide
    · exact Text.isBlank_of_isDigit (hall c hc)

end Numeral

end FuzzCampaign
