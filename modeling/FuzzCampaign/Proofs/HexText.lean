import FuzzCampaign.Text.Hex
import Mathlib.Algebra.Group.Nat.Even
import Mathlib.Tactic.SplitIfs

/-!
# Which texts are bytes in digits

Bytes are read back from their digits. Digits of either case are read if and only if they come in
pairs, and the digits of what was read are those of the text in lower case.

* `Hex.IsDigit`: the digits; `Hex.digitValue?_eq_some_iff`: what a digit stands for;
* `Hex.decode?_encode`: bytes from their digits;
* **`Hex.decode?_eq_some_iff`**, `Hex.exists_decode?_iff`: what is read.
-/

namespace FuzzCampaign

namespace Hex

open Numeral (digitValue?)

/-! ## Digits -/

/-- A hexadecimal digit, in lower or in upper case. -/
def IsDigit (c : Char) : Prop :=
  ('0' ≤ c ∧ c ≤ '9') ∨ ('a' ≤ c ∧ c ≤ 'f') ∨ ('A' ≤ c ∧ c ≤ 'F')

instance : DecidablePred IsDigit := fun _ => by unfold IsDigit; infer_instance

theorem digitValue?_digit : ∀ n < 16, digitValue? (digit n) = some n := by decide

theorem isDigit_iff_isSome {c : Char} : IsDigit c ↔ (digitValue? c).isSome = true := by
  unfold IsDigit digitValue?
  split_ifs <;> simp_all

theorem IsDigit.toNat_lt {c : Char} (h : IsDigit c) : c.toNat < 128 := by
  obtain ⟨-, hle⟩ | ⟨-, hle⟩ | ⟨-, hle⟩ := h
  · have hnine : c.toNat ≤ '9'.toNat := hle
    exact Nat.lt_of_le_of_lt hnine (by decide)
  · have hsmall : c.toNat ≤ 'f'.toNat := hle
    exact Nat.lt_of_le_of_lt hsmall (by decide)
  · have hcapital : c.toNat ≤ 'F'.toNat := hle
    exact Nat.lt_of_le_of_lt hcapital (by decide)

theorem toLower_of_le {c : Char} (h : 128 ≤ c.toNat) : c.toLower = c := by
  have hZ : ¬ c.val ≤ 'Z'.val := fun hle => by
    have hnat : c.toNat ≤ 'Z'.toNat := hle
    have hvalue : 'Z'.toNat = 90 := rfl
    omega
  exact dif_neg fun hcapital => hZ hcapital.2

-- a digit is one of the first 128 characters, and `decide` goes through these
theorem digitValue?_ascii : ∀ m < 128, ∀ n ∈ digitValue? (Char.ofNat m),
    n < 16 ∧ (Char.ofNat m).toLower = digit n := by
  decide

theorem digitValue?_toLower_ascii : ∀ m < 128,
    digitValue? (Char.ofNat m).toLower = digitValue? (Char.ofNat m) := by
  decide

theorem digitValue?_toLower (c : Char) : digitValue? c.toLower = digitValue? c := by
  by_cases hc : c.toNat < 128
  · have hlower := digitValue?_toLower_ascii c.toNat hc
    rwa [Char.ofNat_toNat] at hlower
  · rw [toLower_of_le (Nat.le_of_not_lt hc)]

theorem digitValue?_eq_some_iff {c : Char} {n : Nat} :
    digitValue? c = some n ↔ n < 16 ∧ c.toLower = digit n := by
  constructor
  · intro h
    have hdigit : IsDigit c := isDigit_iff_isSome.2 (by rw [h]; rfl)
    have hvalue := digitValue?_ascii c.toNat hdigit.toNat_lt
    rw [Char.ofNat_toNat] at hvalue
    exact hvalue n h
  · rintro ⟨hn, hlower⟩
    rw [← digitValue?_toLower, hlower, digitValue?_digit n hn]

/-! ## Bytes -/

theorem length_encode (bytes : List UInt8) : (encode bytes).length = 2 * bytes.length := by
  induction bytes with
  | nil => rfl
  | cons b bytes ih =>
    rw [encode, List.length_cons, List.length_cons, List.length_cons, ih]
    omega

theorem decode?_of_map_toLower {cs : List Char} {bytes : List UInt8}
    (h : cs.map Char.toLower = encode bytes) : decode? cs = some bytes := by
  induction bytes generalizing cs with
  | nil =>
    obtain rfl := List.map_eq_nil_iff.1 h
    rfl
  | cons b bytes ih =>
    obtain ⟨high, cs, rfl, hhigh, hcs⟩ := List.map_eq_cons_iff.1 h
    obtain ⟨low, cs, rfl, hlow, hrest⟩ := List.map_eq_cons_iff.1 hcs
    have hb := b.toNat_lt
    have hhigh' := digitValue?_eq_some_iff.2 ⟨by omega, hhigh⟩
    have hlow' := digitValue?_eq_some_iff.2 ⟨by omega, hlow⟩
    rw [decode?, hhigh', hlow', ih hrest]
    simp only [Nat.div_add_mod, Option.map_some, UInt8.ofNat_toNat]

theorem map_toLower_of_decode? {cs : List Char} {bytes : List UInt8} (h : decode? cs = some bytes) :
    cs.map Char.toLower = encode bytes := by
  fun_induction decode? cs generalizing bytes with
  | case1 =>
    cases h
    rfl
  | case2 => contradiction
  | case3 high low r h' l' hlow hhigh ih =>
    obtain ⟨rest, hrest, rfl⟩ := Option.map_eq_some_iff.1 h
    obtain ⟨hh, hhigh⟩ := digitValue?_eq_some_iff.1 hhigh
    obtain ⟨hl, hlow⟩ := digitValue?_eq_some_iff.1 hlow
    have hbyte : (UInt8.ofNat (16 * h' + l')).toNat = 16 * h' + l' :=
      UInt8.toNat_ofNat_of_lt' (by rw [UInt8.size]; omega)
    have hdiv : (16 * h' + l') / 16 = h' := by omega
    have hmod : (16 * h' + l') % 16 = l' := by omega
    rw [List.map_cons, List.map_cons, encode, hbyte, hdiv, hmod, hhigh, hlow, ih hrest]
  | case4 => contradiction

/-- **What is read as bytes are their digits, in either case.** -/
theorem decode?_eq_some_iff {cs : List Char} {bytes : List UInt8} :
    decode? cs = some bytes ↔ cs.map Char.toLower = encode bytes :=
  ⟨map_toLower_of_decode?, decode?_of_map_toLower⟩

theorem toLower_digit : ∀ n < 16, (digit n).toLower = digit n := by decide

theorem map_toLower_encode (bytes : List UInt8) :
    (encode bytes).map Char.toLower = encode bytes := by
  induction bytes with
  | nil => rfl
  | cons b bytes ih =>
    have hb := b.toNat_lt
    have hhigh := toLower_digit (b.toNat / 16) (by omega)
    have hlow := toLower_digit (b.toNat % 16) (by omega)
    rw [encode, List.map_cons, List.map_cons, hhigh, hlow, ih]

/-- **Bytes are read back from their digits.** -/
theorem decode?_encode (bytes : List UInt8) : decode? (encode bytes) = some bytes :=
  decode?_of_map_toLower (map_toLower_encode bytes)

theorem length_of_decode? {cs : List Char} {bytes : List UInt8} (h : decode? cs = some bytes) :
    cs.length = 2 * bytes.length := by
  have hlength := congrArg List.length (map_toLower_of_decode? h)
  rwa [List.length_map, length_encode] at hlength

theorem exists_decode?_iff {cs : List Char} :
    (∃ bytes, decode? cs = some bytes) ↔ (∀ c ∈ cs, IsDigit c) ∧ Even cs.length := by
  fun_induction decode? cs with
  | case1 => simp
  | case2 c => simp
  | case3 high low r h' l' hlow hhigh ih =>
    have hhigh' : IsDigit high := isDigit_iff_isSome.2 (by rw [hhigh]; rfl)
    have hlow' : IsDigit low := isDigit_iff_isSome.2 (by rw [hlow]; rfl)
    have heven : Even (high :: low :: r).length ↔ Even r.length := by
      simp [Nat.even_add_one]
    rw [List.forall_mem_cons, List.forall_mem_cons, heven, and_iff_right hhigh',
      and_iff_right hlow', ← ih]
    constructor
    · rintro ⟨_, h⟩
      obtain ⟨bytes, hbytes, -⟩ := Option.map_eq_some_iff.1 h
      exact ⟨bytes, hbytes⟩
    · rintro ⟨bytes, hbytes⟩
      exact ⟨_, Option.map_eq_some_iff.2 ⟨bytes, hbytes, rfl⟩⟩
  | case4 high low r hnone =>
    simp only [List.forall_mem_cons, isDigit_iff_isSome]
    cases hhigh : digitValue? high with
    | none => simp
    | some h' =>
      cases hlow : digitValue? low with
      | none => simp
      | some l' => exact absurd hlow (hnone h' l' hhigh)

theorem isDigit_of_mem_encode {bytes : List UInt8} {c : Char} (h : c ∈ encode bytes) : IsDigit c :=
  (exists_decode?_iff.1 ⟨bytes, decode?_encode bytes⟩).1 c h

end Hex

end FuzzCampaign
