import FuzzCampaign.Json.Reader
import FuzzCampaign.Proofs.PositionText

/-!
# Numbers of JSON

An unsigned number is read back from its digits, if what follows does not go on with the number.

* `Json.Ends`: what may follow a number;
* **`Json.readNumber_decimal`**: reading back.
-/

namespace FuzzCampaign

namespace Json

/-- A text that does not go on with a number. -/
def Ends (cs : List Char) : Prop :=
  ∀ c ∈ cs.head?, c.isDigit = false ∧ c ≠ '.' ∧ c ≠ 'e' ∧ c ≠ 'E'

theorem spanDigits_append {ds rest : List Char} (hds : ∀ c ∈ ds, c.isDigit = true) (h : Ends rest) :
    spanDigits (ds ++ rest) = (ds, rest) := by
  have hrest : rest.takeWhile Char.isDigit = [] ∧ rest.dropWhile Char.isDigit = rest := by
    cases rest with
    | nil => exact ⟨rfl, rfl⟩
    | cons c rest => simp [(h c rfl).1]
  rw [spanDigits, List.takeWhile_append_of_pos hds, List.dropWhile_append_of_pos hds, hrest.1,
    hrest.2, List.append_nil]

theorem takeSignificand_eq {n : Nat} {ds : List Char}
    (h : Nat.ofDigitChars 10 ds n < word64) :
    takeSignificand n ds = (Nat.ofDigitChars 10 ds n, []) := by
  induction ds generalizing n with
  | nil => simp [takeSignificand]
  | cons c ds ih =>
    rw [Nat.ofDigitChars_cons, Nat.mul_comm] at h ⊢
    have hfirst := Numeral.le_ofDigitChars ds (n * 10 + (c.toNat - '0'.toNat))
    rw [takeSignificand]
    simp only [if_pos (Nat.lt_of_le_of_lt hfirst h)]
    exact ih h

theorem head?_decimal_ne_zero {n : Nat} (h : 0 < n) : (Numeral.decimal n).head? ≠ some '0' := by
  induction n using Nat.strongRecOn with
  | _ n ih =>
    by_cases hsmall : n < 10
    · rw [Numeral.decimal, Nat.toDigits_of_lt_base hsmall]
      simp only [List.head?_cons, ne_eq, Option.some.injEq, Nat.digitChar_eq_zero]
      omega
    · have hhead := ih (n / 10) (by omega) (by omega)
      obtain ⟨c, cs, hdigits⟩ := List.exists_cons_of_ne_nil (Numeral.decimal_ne_nil (n / 10))
      rw [Numeral.decimal, Nat.toDigits_of_base_le (by omega) (by omega), ← Numeral.decimal]
      rw [hdigits] at hhead ⊢
      exact hhead

theorem decimal_ne_zero_cons (n : Nat) (c : Char) (cs : List Char) :
    Numeral.decimal n ≠ '0' :: c :: cs := by
  intro h
  rcases Nat.eq_zero_or_pos n with rfl | hpos
  · exact absurd h nofun
  · exact head?_decimal_ne_zero hpos (by rw [h]; rfl)

/-- **An unsigned number is read back from its digits.** -/
theorem readNumber_decimal (n : UInt64) {rest : List Char} (h : Ends rest) :
    readNumber true (Numeral.decimal n.toNat ++ rest) = .ok (.unsigned n, rest) := by
  have hvalue : Nat.ofDigitChars 10 (Numeral.decimal n.toNat) 0 = n.toNat :=
    Nat.ofDigitChars_ten_toDigits
  have htake : takeSignificand 0 (Numeral.decimal n.toNat) = (n.toNat, []) := by
    rw [takeSignificand_eq (by rw [hvalue]; exact n.toNat_lt), hvalue]
  have hzero := decimal_ne_zero_cons n.toNat
  have hne := Numeral.decimal_ne_nil n.toNat
  rw [readNumber, spanDigits_append (fun c => Numeral.isDigit_of_mem_decimal) h]
  simp only
  split
  · contradiction
  · contradiction
  · rename_i hdigits
    exact absurd hdigits (hzero _ _)
  · rw [htake]
    simp only
    split
    · exact absurd (h '.' rfl).2.1 (by decide)
    · exact absurd (h 'e' rfl).2.2.1 (by decide)
    · exact absurd (h 'E' rfl).2.2.2 (by decide)
    · simp

end Json

end FuzzCampaign
