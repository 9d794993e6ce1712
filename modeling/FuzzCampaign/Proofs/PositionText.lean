import FuzzCampaign.Coverage.Position

/-!
# Positions as text

A position is read back from its text, so different positions have different texts.

* `Numeral.readDigits_eq`: digits are read as their value, as long as it is small enough;
* `Numeral.readDecimal?_decimal`: reading a number back;
* **`Position.parse_text`**, `Position.text_injective`: reading a position back.
-/

namespace FuzzCampaign

/-! ## Numerals -/

namespace Numeral

theorem bounds_of_isDigit {c : Char} (h : c.isDigit = true) : 48 ≤ c.toNat ∧ c.toNat ≤ 57 := by
  simpa [Char.isDigit, UInt32.le_iff_toNat_le] using h

theorem digit?_of_isDigit {c : Char} (h : c.isDigit = true) :
    digit? 10 c = some (c.toNat - '0'.toNat) := by
  obtain ⟨hlow, hhigh⟩ := bounds_of_isDigit h
  have hdigit : '0' ≤ c ∧ c ≤ '9' := ⟨hlow, hhigh⟩
  have hsmall : c.toNat - '0'.toNat < 10 := by
    have hzero : '0'.toNat = 48 := rfl
    omega
  rw [digit?, digitValue?, if_pos hdigit]
  exact Option.filter_some_pos (decide_eq_true hsmall)

theorem le_ofDigitChars (cs : List Char) (n : Nat) : n ≤ Nat.ofDigitChars 10 cs n := by
  induction cs generalizing n with
  | nil => simp
  | cons c cs ih =>
    rw [Nat.ofDigitChars_cons]
    exact Nat.le_trans (by omega) (ih _)

/-- **Digits are read as their value**, if it is below the bound. -/
theorem readDigits_eq {bound n : Nat} {cs : List Char} (h : ∀ c ∈ cs, c.isDigit = true)
    (hbound : Nat.ofDigitChars 10 cs n < bound) :
    readDigits 10 bound n cs = .ok (Nat.ofDigitChars 10 cs n) := by
  induction cs generalizing n with
  | nil => simp [readDigits]
  | cons c cs ih =>
    rw [Nat.ofDigitChars_cons, Nat.mul_comm] at hbound ⊢
    have hfirst := le_ofDigitChars cs (n * 10 + (c.toNat - '0'.toNat))
    rw [readDigits, digit?_of_isDigit (h c List.mem_cons_self)]
    simp only [if_pos (Nat.lt_of_le_of_lt hfirst hbound)]
    exact ih (fun d hd => h d (List.mem_cons_of_mem _ hd)) hbound

theorem isDigit_of_mem_decimal {n : Nat} {c : Char} (h : c ∈ decimal n) : c.isDigit = true :=
  Nat.isDigit_of_mem_toDigits (by omega) (by omega) h

theorem decimal_ne_nil (n : Nat) : decimal n ≠ [] := Nat.toDigits_ne_nil

theorem read_of_isDigit {base bound : Nat} {cs : List Char} (h : ∀ c ∈ cs, c.isDigit = true)
    (hne : cs ≠ []) : read base bound cs = readDigits base bound 0 cs := by
  rcases cs with _ | ⟨c, cs⟩
  · exact absurd rfl hne
  · have hplus : c ≠ '+' := by
      rintro rfl
      exact absurd (h '+' List.mem_cons_self) (by decide)
    unfold read
    split
    · contradiction
    · simp_all
    · simp_all
    · rfl

theorem readDecimal?_decimal {bound n : Nat} (h : n < bound) :
    readDecimal? bound (decimal n) = some n := by
  have hvalue : Nat.ofDigitChars 10 (decimal n) 0 = n := Nat.ofDigitChars_ten_toDigits
  have hdigits : ∀ c ∈ decimal n, c.isDigit = true := fun c => isDigit_of_mem_decimal
  rw [readDecimal?, read_of_isDigit hdigits (decimal_ne_nil n),
    readDigits_eq hdigits (by rwa [hvalue]),
    hvalue]
  rfl

end Numeral

/-! ## Positions -/

namespace Text

theorem splitOnce_append {sep : Char} {cs : List Char} (h : sep ∉ cs) (rest : List Char) :
    splitOnce sep (cs ++ sep :: rest) = some (cs, rest) := by
  induction cs with
  | nil => simp [splitOnce]
  | cons c cs ih =>
    have hne : c ≠ sep := fun hc => h (hc ▸ List.mem_cons_self)
    rw [List.cons_append, splitOnce, if_neg hne, ih fun hc => h (List.mem_cons_of_mem _ hc)]
    rfl

theorem trim_eq_self {cs : List Char} (h : ∀ c ∈ cs, isBlank c = false) : trim cs = cs := by
  have hdrop : ∀ ds : List Char, (∀ c ∈ ds, isBlank c = false) → ds.dropWhile isBlank = ds := by
    intro ds hds
    cases ds with
    | nil => rfl
    | cons d ds => rw [List.dropWhile_cons_of_neg (by simp [hds d List.mem_cons_self])]
  rw [trim, trimStart, hdrop cs h, trimEnd,
    hdrop cs.reverse fun c hc => h c (List.mem_reverse.1 hc),
    List.reverse_reverse]

theorem isBlank_of_isDigit {c : Char} (h : c.isDigit = true) : isBlank c = false := by
  obtain ⟨hlow, hhigh⟩ := Numeral.bounds_of_isDigit h
  simp only [isBlank, Bool.or_eq_false_iff, Bool.and_eq_false_iff, decide_eq_false_iff_not,
    beq_eq_false_iff_ne]
  omega

end Text

namespace Position

open Numeral

theorem not_mem_decimal {c : Char} (h : c.isDigit = false) (n : Nat) : c ∉ decimal n := fun hc => by
  rw [isDigit_of_mem_decimal hc] at h
  contradiction

theorem readNumber?_decimal (n : UInt32) : readNumber? (decimal n.toNat) = some n := by
  rw [readNumber?,
    Text.trim_eq_self fun c hc => Text.isBlank_of_isDigit (isDigit_of_mem_decimal hc),
    readDecimal?_decimal n.toNat_lt]
  simp

theorem readPoint?_append (line column : UInt32) :
    readPoint? (decimal line.toNat ++ ':' :: decimal column.toNat) = some (line, column) := by
  rw [readPoint?, Text.splitOnce_append (not_mem_decimal (by decide) _)]
  simp [readNumber?_decimal]

theorem read?_chars (p : Position) : read? p.chars = some p := by
  have hhyphen : '-' ∉ decimal p.startLine.toNat ++ ':' :: decimal p.startColumn.toNat := by
    simp [not_mem_decimal]
  have hchars : p.chars = (decimal p.startLine.toNat ++ ':' :: decimal p.startColumn.toNat) ++
      '-' :: (decimal p.endLine.toNat ++ ':' :: decimal p.endColumn.toNat) := by
    simp [chars]
  rw [read?, hchars, Text.splitOnce_append hhyphen]
  simp [readPoint?_append]

/-- **A position is read back from its text.** -/
theorem parse_text (p : Position) : parse p.text = .ok p := by
  rw [parse, text, String.toList_ofList, read?_chars]

/-- **Different positions have different texts.** -/
theorem text_injective : Function.Injective text := fun p q h => by
  have hp := parse_text p
  rw [h, parse_text] at hp
  cases hp
  rfl

end Position

end FuzzCampaign
