import FuzzCampaign.Text.Utf8
import Mathlib.Data.String.Basic

/-!
# Text and its bytes

Text can be read back from its bytes, and the bytes of texts stand in the order of the texts.

* `Utf8.Spelled`: the bytes of a character, by its number;
* `Utf8.decode_encode`: reading back;
* **`Utf8.lt_iff_encode_lt`**: the order by characters is the order by bytes.
-/

namespace FuzzCampaign

namespace Utf8

/-! ## One character -/

/-- The bytes of the character with the number `n`. -/
inductive Spelled (n : Nat) : List UInt8 → Prop
  | one (h : n < 0x80) : Spelled n [.ofNat n]
  | two (hlow : 0x80 ≤ n) (hhigh : n < 0x800) :
    Spelled n [.ofNat (n / 64 + 0xC0), .ofNat (n % 64 + 0x80)]
  | three (hlow : 0x800 ≤ n) (hhigh : n < 0x10000) (hsurrogate : n < 0xD800 ∨ 0xDFFF < n) :
    Spelled n [.ofNat (n / 4096 + 0xE0), .ofNat (n / 64 % 64 + 0x80), .ofNat (n % 64 + 0x80)]
  | four (hlow : 0x10000 ≤ n) (hhigh : n < 0x110000) :
    Spelled n [.ofNat (n / 262144 + 0xF0), .ofNat (n / 4096 % 64 + 0x80),
      .ofNat (n / 64 % 64 + 0x80), .ofNat (n % 64 + 0x80)]

theorem spelled_utf8EncodeChar (c : Char) : Spelled c.toNat (String.utf8EncodeChar c) := by
  have hvalid : c.toNat < 0xD800 ∨ 0xDFFF < c.toNat ∧ c.toNat < 0x110000 := c.valid
  unfold String.utf8EncodeChar
  simp only [show c.val.toNat = c.toNat from rfl]
  split_ifs with h₁ h₂ h₃
  · exact .one (by omega)
  · have hsmall : c.toNat / 64 % 0x20 = c.toNat / 64 := by omega
    rw [hsmall]
    exact .two (by omega) (by omega)
  · have hsmall : c.toNat / 4096 % 0x10 = c.toNat / 4096 := by omega
    rw [hsmall]
    exact .three (by omega) (by omega) (by omega)
  · have hsmall : c.toNat / 262144 % 0x08 = c.toNat / 262144 := by omega
    rw [hsmall]
    exact .four (by omega) (by omega)

theorem toNat_ofNat_byte {k : Nat} (h : k < 256) : (UInt8.ofNat k).toNat = k :=
  UInt8.toNat_ofNat'.trans (Nat.mod_eq_of_lt h)

@[simp] theorem isContinuation_low (k : Nat) : isContinuation (.ofNat (k % 64 + 0x80)) = true := by
  have h := toNat_ofNat_byte (k := k % 64 + 0x80) (by omega)
  simp only [isContinuation, UInt8.le_iff_toNat_le, h, Bool.and_eq_true, decide_eq_true_eq]
  exact ⟨Nat.le_add_left _ _, show k % 64 + 128 ≤ 191 by omega⟩

@[simp] theorem lowBits_low (k : Nat) : lowBits (.ofNat (k % 64 + 0x80)) = k % 64 := by
  rw [lowBits, toNat_ofNat_byte (by omega)]
  omega

theorem isSecondOfThree_low {n : Nat} (hlow : 0x800 ≤ n) (hhigh : n < 0x10000)
    (hsurrogate : n < 0xD800 ∨ 0xDFFF < n) :
    isSecondOfThree (.ofNat (n / 4096 + 0xE0)) (.ofNat (n / 64 % 64 + 0x80)) = true := by
  have ha := toNat_ofNat_byte (k := n / 4096 + 0xE0) (by omega)
  have hb := toNat_ofNat_byte (k := n / 64 % 64 + 0x80) (by omega)
  simp only [isSecondOfThree, isContinuation_low, ← UInt8.toNat_inj, UInt8.le_iff_toNat_le, ha, hb,
    UInt8.reduceToNat]
  split_ifs <;> simp <;> omega

theorem isSecondOfFour_low {n : Nat} (hlow : 0x10000 ≤ n) (hhigh : n < 0x110000) :
    isSecondOfFour (.ofNat (n / 262144 + 0xF0)) (.ofNat (n / 4096 % 64 + 0x80)) = true := by
  have ha := toNat_ofNat_byte (k := n / 262144 + 0xF0) (by omega)
  have hb := toNat_ofNat_byte (k := n / 4096 % 64 + 0x80) (by omega)
  simp only [isSecondOfFour, isContinuation_low, ← UInt8.toNat_inj, UInt8.le_iff_toNat_le, ha, hb,
    UInt8.reduceToNat]
  split_ifs <;> simp <;> omega

theorem Spelled.head_eq {n : Nat} {b : UInt8} {bs : List UInt8} (h : Spelled n (b :: bs))
    (rest : List UInt8) : head b (bs ++ rest) = .char (Char.ofNat n) (bs.length + 1) := by
  cases h with
  | one h =>
    have ha := toNat_ofNat_byte (k := n) (by omega)
    simp [head, UInt8.lt_iff_toNat_lt, ha, h]
  | two hlow hhigh =>
    have ha := toNat_ofNat_byte (k := n / 64 + 0xC0) (by omega)
    have hn : (n / 64 + 0xC0) % 32 * 64 + n % 64 = n := by omega
    simp only [head, UInt8.lt_iff_toNat_lt, ha, UInt8.reduceToNat, List.cons_append,
      isContinuation_low, lowBits_low, hn]
    simp (disch := omega) [if_neg, if_pos]
  | three hlow hhigh hsurrogate =>
    have ha := toNat_ofNat_byte (k := n / 4096 + 0xE0) (by omega)
    have hn : (n / 4096 + 0xE0) % 16 * 4096 + n / 64 % 64 * 64 + n % 64 = n := by omega
    simp only [head, UInt8.lt_iff_toNat_lt, ha, UInt8.reduceToNat, List.cons_append,
      isContinuation_low, lowBits_low, isSecondOfThree_low hlow hhigh hsurrogate, hn]
    simp (disch := omega) [if_neg, if_pos]
  | four hlow hhigh =>
    have ha := toNat_ofNat_byte (k := n / 262144 + 0xF0) (by omega)
    have hn : (n / 262144 + 0xF0) % 8 * 262144 + n / 4096 % 64 * 4096 + n / 64 % 64 * 64 + n % 64 =
        n := by omega
    simp only [head, UInt8.lt_iff_toNat_lt, ha, UInt8.reduceToNat, List.cons_append,
      isContinuation_low, lowBits_low, isSecondOfFour_low hlow hhigh, hn]
    simp (disch := omega) [if_neg, if_pos]

/-- Of two characters the lesser has the lesser bytes, whatever follows them. -/
theorem Spelled.append_lt {n m : Nat} {bs bs' : List UInt8} (h : Spelled n bs)
    (h' : Spelled m bs') (hlt : n < m) (rest rest' : List UInt8) : bs ++ rest < bs' ++ rest' := by
  -- every byte by quotients of 64: the first that differs decides
  have hn : n / 4096 = n / 64 / 64 := by omega
  have hm : m / 4096 = m / 64 / 64 := by omega
  have hn' : n / 262144 = n / 64 / 64 / 64 := by omega
  have hm' : m / 262144 = m / 64 / 64 / 64 := by omega
  cases h <;> cases h' <;>
    simp only [List.cons_append, List.cons_lt_cons_iff, UInt8.lt_iff_toNat_lt, ← UInt8.toNat_inj,
      UInt8.toNat_ofNat', hn, hm, hn', hm'] <;>
    clear hn hm hn' hm' <;>
    omega

/-! ## Whole texts -/

@[simp] theorem encode_cons (c : Char) (cs : List Char) :
    encode (c :: cs) = String.utf8EncodeChar c ++ encode cs := rfl

theorem decodeFrom_skip (offset : Nat) (bs rest : List UInt8) :
    decodeFrom offset bs.length (bs ++ rest) = decodeFrom (offset + bs.length) 0 rest := by
  induction bs generalizing offset with
  | nil => rfl
  | cons b bs ih =>
    rw [List.length_cons, List.cons_append, decodeFrom, ih]
    congr 1
    omega

theorem decodeFrom_encode (offset : Nat) (cs : List Char) :
    decodeFrom offset 0 (encode cs) = .ok cs := by
  induction cs generalizing offset with
  | nil => rfl
  | cons c cs ih =>
    have hspelled := spelled_utf8EncodeChar c
    rw [encode_cons]
    generalize String.utf8EncodeChar c = bytes at hspelled ⊢
    rcases bytes with _ | ⟨b, bs⟩
    · cases hspelled
    · rw [List.cons_append, decodeFrom, hspelled.head_eq]
      simp only [Nat.add_sub_cancel, decodeFrom_skip, ih, Char.ofNat_toNat]
      rfl

/-- **Text is read back from its bytes.** -/
theorem decode_encode (cs : List Char) : decode (encode cs) = .ok cs := decodeFrom_encode 0 cs

theorem encode_lt_encode {cs ds : List Char} (h : cs < ds) : encode cs < encode ds := by
  induction h with
  | @nil c cs =>
    obtain ⟨b, bs, hbytes⟩ := List.exists_cons_of_ne_nil (String.utf8EncodeChar_ne_nil (c := c))
    rw [encode_cons, hbytes]
    exact List.nil_lt_cons _ _
  | rel h => exact (spelled_utf8EncodeChar _).append_lt (spelled_utf8EncodeChar _) h _ _
  | cons h ih => exact List.append_left_lt ih

/-- **Texts stand in the order of their bytes.** -/
theorem lt_iff_encode_lt (s t : String) : s < t ↔ encode s.toList < encode t.toList := by
  refine ⟨encode_lt_encode, fun h => ?_⟩
  rcases lt_trichotomy s t with hlt | rfl | hlt
  · exact hlt
  · exact absurd h (List.lt_irrefl _)
  · exact absurd (encode_lt_encode hlt) (List.lt_asymm h)

theorem le_iff_encode_le (s t : String) : s ≤ t ↔ encode s.toList ≤ encode t.toList := by
  rw [← not_lt, lt_iff_encode_lt]
  exact Iff.rfl

end Utf8

end FuzzCampaign
