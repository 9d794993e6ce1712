import FuzzCampaign.Json.Reader
import FuzzCampaign.Proofs.HexText
import FuzzCampaign.Proofs.Refusal

/-!
# Which texts are strings of JSON

The texts of a string in quotes are described without the reader: a character stands for itself,
behind a backslash as a letter, or as the digits of its units. Every such text is read as the
characters it is a text of, and nothing else is read.

* `Json.IsCodeUnit`, `Json.SpellsUnits`, `Json.SpellsChar`, `Json.SpellsChars`: the texts of a
  character and of characters;
* `Json.readHex4_eq_ok_iff`, `Json.readUnit_eq_ok_iff`: the units that are read;
* **`Json.stringAfterQuote_eq_ok_iff`**: the strings that are read;
* `Json.stringAfterQuote_escape`: a string is read back from the text that is written for it.
-/

namespace FuzzCampaign

namespace Utf8

theorem size_cons (c : Char) (cs : List Char) : size (c :: cs) = c.utf8Size + size cs := by
  have hfold : ∀ (cs : List Char) (n : Nat),
      cs.foldl (fun n c => n + c.utf8Size) n = n + cs.foldl (fun n c => n + c.utf8Size) 0 := by
    intro cs
    induction cs with
    | nil => simp
    | cons c cs ih =>
      intro n
      rw [List.foldl_cons, List.foldl_cons, ih (n + c.utf8Size), ih (0 + c.utf8Size)]
      omega
  rw [size, List.foldl_cons, hfold, Nat.zero_add]
  rfl

theorem length_le_size (cs : List Char) : cs.length ≤ size cs := by
  induction cs with
  | nil => simp
  | cons c cs ih =>
    have hpos := c.utf8Size_pos
    rw [size_cons, List.length_cons]
    omega

end Utf8

namespace Json

/-! ## The texts of a string -/

/-- Four digits of a unit of sixteen bits, the highest first and in either case. -/
def IsCodeUnit (digits : List Char) (n : Nat) : Prop :=
  n < 0x10000 ∧
    digits.map Char.toLower = [n / 4096, n / 256 % 16, n / 16 % 16, n % 16].map Hex.digit

/-- The first unit of a character beyond sixteen bits. -/
def highUnit (c : Char) : Nat := 0xD800 + (c.toNat - 0x10000) / 0x400

/-- The second unit of a character beyond sixteen bits. -/
def lowUnit (c : Char) : Nat := 0xDC00 + (c.toNat - 0x10000) % 0x400

/-- The digits of a character's units, and what stands between them: one unit for a character of
sixteen bits, two surrogates for any other. -/
inductive SpellsUnits (c : Char) : List Char → Prop
  | one {digits : List Char} (h : IsCodeUnit digits c.toNat) : SpellsUnits c digits
  | two {high low : List Char} (hc : 0x10000 ≤ c.toNat)
    (hhigh : IsCodeUnit high (highUnit c)) (hlow : IsCodeUnit low (lowUnit c)) :
    SpellsUnits c (high ++ '\\' :: 'u' :: low)

/-- The letters behind a backslash, and what they stand for. -/
def letters : List (Char × Char) :=
  [('"', '"'), ('\\', '\\'), ('/', '/'), ('b', '\x08'), ('f', '\x0c'), ('n', '\n'), ('r', '\r'),
    ('t', '\t')]

/-- The texts of a character in a string. -/
inductive SpellsChar (c : Char) : List Char → Prop
  | plain (hquote : c ≠ '"') (hbackslash : c ≠ '\\') (hcontrol : 0x20 ≤ c.toNat) : SpellsChar c [c]
  | letter {e : Char} (h : (e, c) ∈ letters) : SpellsChar c ['\\', e]
  | units {piece : List Char} (h : SpellsUnits c piece) : SpellsChar c ('\\' :: 'u' :: piece)

/-- The texts of characters in a string. -/
inductive SpellsChars : List Char → List Char → Prop
  | nil : SpellsChars [] []
  | cons {c : Char} {piece s cs : List Char} (h : SpellsChar c piece) (hrest : SpellsChars s cs) :
    SpellsChars (c :: s) (piece ++ cs)

/-! ## Units -/

theorem isCodeUnit_of_digits {a b c d : Char} {i j k l : Nat} (ha : Numeral.digitValue? a = some i)
    (hb : Numeral.digitValue? b = some j) (hc : Numeral.digitValue? c = some k)
    (hd : Numeral.digitValue? d = some l) :
    IsCodeUnit [a, b, c, d] (i * 4096 + j * 256 + k * 16 + l) := by
  obtain ⟨hi, ha⟩ := Hex.digitValue?_eq_some_iff.1 ha
  obtain ⟨hj, hb⟩ := Hex.digitValue?_eq_some_iff.1 hb
  obtain ⟨hk, hc⟩ := Hex.digitValue?_eq_some_iff.1 hc
  obtain ⟨hl, hd⟩ := Hex.digitValue?_eq_some_iff.1 hd
  have hfirst : (i * 4096 + j * 256 + k * 16 + l) / 4096 = i := by omega
  have hsecond : (i * 4096 + j * 256 + k * 16 + l) / 256 % 16 = j := by omega
  have hthird : (i * 4096 + j * 256 + k * 16 + l) / 16 % 16 = k := by omega
  have hfourth : (i * 4096 + j * 256 + k * 16 + l) % 16 = l := by omega
  refine ⟨by omega, ?_⟩
  rw [hfirst, hsecond, hthird, hfourth]
  simp only [List.map_cons, List.map_nil, ha, hb, hc, hd]

theorem IsCodeUnit.exists_eq {digits : List Char} {n : Nat} (h : IsCodeUnit digits n) :
    ∃ a b c d, digits = [a, b, c, d] ∧ Numeral.digitValue? a = some (n / 4096) ∧
      Numeral.digitValue? b = some (n / 256 % 16) ∧ Numeral.digitValue? c = some (n / 16 % 16) ∧
      Numeral.digitValue? d = some (n % 16) := by
  obtain ⟨hn, hdigits⟩ := h
  obtain ⟨a, r, rfl, ha, hdigits⟩ := List.map_eq_cons_iff.1 hdigits
  obtain ⟨b, r, rfl, hb, hdigits⟩ := List.map_eq_cons_iff.1 hdigits
  obtain ⟨c, r, rfl, hc, hdigits⟩ := List.map_eq_cons_iff.1 hdigits
  obtain ⟨d, r, rfl, hd, hdigits⟩ := List.map_eq_cons_iff.1 hdigits
  obtain rfl := List.map_eq_nil_iff.1 hdigits
  exact ⟨a, b, c, d, rfl, Hex.digitValue?_eq_some_iff.2 ⟨by omega, ha⟩,
    Hex.digitValue?_eq_some_iff.2 ⟨by omega, hb⟩, Hex.digitValue?_eq_some_iff.2 ⟨by omega, hc⟩,
    Hex.digitValue?_eq_some_iff.2 ⟨by omega, hd⟩⟩

theorem readHex4_append {digits : List Char} {n : Nat} (h : IsCodeUnit digits n)
    (rest : List Char) : readHex4 (digits ++ rest) = .ok (n, rest) := by
  obtain ⟨a, b, c, d, rfl, ha, hb, hc, hd⟩ := h.exists_eq
  have hsize := Utf8.length_le_size ([a, b, c, d] ++ rest)
  have hvalue : n / 4096 * 4096 + n / 256 % 16 * 256 + n / 16 % 16 * 16 + n % 16 = n := by omega
  simp only [List.cons_append, List.nil_append, List.length_cons] at hsize ⊢
  rw [readHex4, if_neg (by omega), ha, hb, hc, hd]
  simp only [hvalue]

theorem readHex4_eq_ok_iff {cs rest : List Char} {n : Nat} :
    readHex4 cs = .ok (n, rest) ↔ ∃ digits, IsCodeUnit digits n ∧ cs = digits ++ rest := by
  constructor
  · intro h
    unfold readHex4 at h
    split at h
    · contradiction
    · split at h
      · rename_i a b c d r _
        split at h
        · rename_i ha hb hc hd
          cases h
          exact ⟨[a, b, c, d], isCodeUnit_of_digits ha hb hc hd, rfl⟩
        · contradiction
      · contradiction
  · rintro ⟨digits, hdigits, rfl⟩
    exact readHex4_append hdigits rest

theorem isHighSurrogate_iff {n : Nat} :
    isHighSurrogate n = true ↔ 0xD800 ≤ n ∧ n ≤ 0xDBFF := by
  rw [isHighSurrogate, Bool.and_eq_true, decide_eq_true_eq, decide_eq_true_eq]

theorem isLowSurrogate_iff {n : Nat} : isLowSurrogate n = true ↔ 0xDC00 ≤ n ∧ n ≤ 0xDFFF := by
  rw [isLowSurrogate, Bool.and_eq_true, decide_eq_true_eq, decide_eq_true_eq]

theorem toNat_ofNat {n : Nat} (h : n.isValidChar) : (Char.ofNat n).toNat = n := by
  rw [Char.ofNat, dif_pos h]
  rfl

theorem isValidChar_of_unit {n : Nat} (hn : n < 0x10000) (hlow : ¬ isLowSurrogate n = true)
    (hhigh : ¬ isHighSurrogate n = true) : n.isValidChar := by
  rw [isLowSurrogate_iff] at hlow
  rw [isHighSurrogate_iff] at hhigh
  rw [Nat.isValidChar]
  omega

theorem not_surrogate (c : Char) :
    ¬ isLowSurrogate c.toNat = true ∧ ¬ isHighSurrogate c.toNat = true := by
  have hvalid : c.toNat.isValidChar := c.valid
  rw [Nat.isValidChar] at hvalid
  rw [isLowSurrogate_iff, isHighSurrogate_iff]
  omega

/-- The units of a character beyond sixteen bits are surrogates, and they stand for it. -/
theorem surrogates_of_le {c : Char} (hc : 0x10000 ≤ c.toNat) :
    isHighSurrogate (highUnit c) = true ∧ isLowSurrogate (lowUnit c) = true ∧
      (highUnit c - 0xD800) * 0x400 + (lowUnit c - 0xDC00) + 0x10000 = c.toNat := by
  have hvalid : c.toNat.isValidChar := c.valid
  rw [Nat.isValidChar] at hvalid
  rw [isHighSurrogate_iff, isLowSurrogate_iff, highUnit, lowUnit]
  omega

theorem units_of_surrogates {n n' : Nat} (hn : isHighSurrogate n = true)
    (hn' : isLowSurrogate n' = true) {c : Char}
    (hc : c = Char.ofNat ((n - 0xD800) * 0x400 + (n' - 0xDC00) + 0x10000)) :
    0x10000 ≤ c.toNat ∧ highUnit c = n ∧ lowUnit c = n' := by
  rw [isHighSurrogate_iff] at hn
  rw [isLowSurrogate_iff] at hn'
  have hvalue : c.toNat = (n - 0xD800) * 0x400 + (n' - 0xDC00) + 0x10000 := by
    rw [hc, toNat_ofNat]
    rw [Nat.isValidChar]
    omega
  rw [highUnit, lowUnit, hvalue]
  omega

theorem not_isLowSurrogate {n : Nat} (h : isHighSurrogate n = true) :
    ¬ isLowSurrogate n = true := by
  rw [isHighSurrogate_iff] at h
  rw [isLowSurrogate_iff]
  omega

theorem readUnit_surrogates {high low : List Char} {n n' : Nat} (hhigh : IsCodeUnit high n)
    (hlow : IsCodeUnit low n') (hn : isHighSurrogate n = true) (hn' : isLowSurrogate n' = true)
    (rest : List Char) : readUnit (high ++ '\\' :: 'u' :: low ++ rest) =
      .ok (Char.ofNat ((n - 0xD800) * 0x400 + (n' - 0xDC00) + 0x10000), rest) := by
  rw [readUnit, List.append_assoc, readHex4_append hhigh]
  simp [bind, Except.bind, pure, Except.pure, not_isLowSurrogate hn, hn, readHex4_append hlow, hn']

theorem readUnit_append {c : Char} {piece : List Char} (h : SpellsUnits c piece)
    (rest : List Char) : readUnit (piece ++ rest) = .ok (c, rest) := by
  cases h with
  | one h =>
    obtain ⟨hlow, hhigh⟩ := not_surrogate c
    rw [readUnit, readHex4_append h]
    simp [bind, Except.bind, pure, Except.pure, hlow, hhigh]
  | two hc hhigh hlow =>
    obtain ⟨hfirst, hsecond, hvalue⟩ := surrogates_of_le hc
    rw [readUnit_surrogates hhigh hlow hfirst hsecond, hvalue, Char.ofNat_toNat]

theorem readUnit_eq_ok_iff {cs rest : List Char} {c : Char} :
    readUnit cs = .ok (c, rest) ↔ ∃ piece, SpellsUnits c piece ∧ cs = piece ++ rest := by
  constructor
  · intro h
    obtain ⟨⟨n, r⟩, hunit, hread⟩ := bind_eq_ok_iff.1 h
    obtain ⟨digits, hdigits, rfl⟩ := readHex4_eq_ok_iff.1 hunit
    dsimp only at hread
    split_ifs at hread with hlow hhigh
    · -- the first of two surrogates
      split at hread
      · contradiction
      · split at hread
        · contradiction
        · obtain ⟨⟨n', r'⟩, hunit', hread'⟩ := bind_eq_ok_iff.1 hread
          obtain ⟨digits', hdigits', rfl⟩ := readHex4_eq_ok_iff.1 hunit'
          dsimp only at hread'
          split_ifs at hread' with hlow'
          · obtain ⟨hvalue, rfl⟩ := Prod.mk.inj (pure_eq_ok_iff.1 hread')
            obtain ⟨hc, hfirst, hsecond⟩ := units_of_surrogates hhigh hlow' hvalue
            refine ⟨digits ++ '\\' :: 'u' :: digits', .two hc ?_ ?_, ?_⟩
            · rwa [hfirst]
            · rwa [hsecond]
            · rw [List.append_assoc, List.cons_append, List.cons_append]
        · contradiction
      · contradiction
    · obtain ⟨rfl, rfl⟩ := Prod.mk.inj (pure_eq_ok_iff.1 hread)
      refine ⟨digits, .one ?_, rfl⟩
      rwa [toNat_ofNat (isValidChar_of_unit hdigits.1 hlow hhigh)]
  · rintro ⟨piece, hpiece, rfl⟩
    exact readUnit_append hpiece rest

/-! ## Characters -/

theorem escaped?_eq_some_iff {e c : Char} : escaped? e = some c ↔ (e, c) ∈ letters := by
  constructor
  · intro h
    unfold escaped? at h
    split at h
    case h_9 => contradiction
    all_goals
      obtain rfl := Option.some.inj h
      decide
  · intro h
    simp only [letters, List.mem_cons, Prod.mk.injEq, List.not_mem_nil, or_false] at h
    obtain ⟨rfl, rfl⟩ | ⟨rfl, rfl⟩ | ⟨rfl, rfl⟩ | ⟨rfl, rfl⟩ | ⟨rfl, rfl⟩ | ⟨rfl, rfl⟩ |
      ⟨rfl, rfl⟩ | ⟨rfl, rfl⟩ := h <;> rfl

theorem bind_cons (c : Char) (r : Except Fault (List Char × List Char)) :
    (do let (s, rest) ← r; return (c :: s, rest)) = r.map fun p => (c :: p.1, p.2) := by
  cases r <;> rfl

theorem readString_letter {e c : Char} (h : escaped? e = some c) (fuel : Nat) (cs : List Char) :
    readString (fuel + 1) ('\\' :: e :: cs) =
      (readString fuel cs).map fun p => (c :: p.1, p.2) := by
  have hunit : e ≠ 'u' := by
    rintro rfl
    exact absurd h nofun
  rw [readString, if_neg (by decide), if_pos rfl, h, ← bind_cons]
  exact hunit

theorem readString_plain {c : Char} (hquote : c ≠ '"') (hbackslash : c ≠ '\\')
    (hcontrol : ¬c.toNat < 0x20) (fuel : Nat) (cs : List Char) :
    readString (fuel + 1) (c :: cs) = (readString fuel cs).map fun p => (c :: p.1, p.2) := by
  rw [readString.eq_def]
  simp only [if_neg hquote, if_neg hbackslash, if_neg hcontrol]
  exact bind_cons c _

theorem readString_units {c : Char} {piece : List Char} (h : SpellsUnits c piece) (fuel : Nat)
    (cs : List Char) : readString (fuel + 1) ('\\' :: 'u' :: (piece ++ cs)) =
      (readString fuel cs).map fun p => (c :: p.1, p.2) := by
  rw [readString, if_neg (by decide), if_pos rfl, ← bind_cons]
  simp only [readUnit_append h]
  rfl

theorem readString_spelled {c : Char} {piece : List Char} (h : SpellsChar c piece) (fuel : Nat)
    (cs : List Char) : readString (fuel + 1) (piece ++ cs) =
      (readString fuel cs).map fun p => (c :: p.1, p.2) := by
  cases h with
  | plain hquote hbackslash hcontrol =>
    exact readString_plain hquote hbackslash (Nat.not_lt.2 hcontrol) fuel cs
  | letter h => exact readString_letter (escaped?_eq_some_iff.2 h) fuel cs
  | units h => exact readString_units h fuel cs

theorem readString_append {s body : List Char} (h : SpellsChars s body) {fuel : Nat}
    (hfuel : s.length < fuel) (rest : List Char) :
    readString fuel (body ++ '"' :: rest) = .ok (s, rest) := by
  -- one unit of fuel for each character, and one for the closing quote
  induction h generalizing fuel with
  | nil =>
    obtain ⟨fuel, rfl⟩ := Nat.exists_eq_succ_of_ne_zero (Nat.ne_of_gt hfuel)
    simp [readString]
  | cons h _ ih =>
    obtain ⟨fuel, rfl⟩ := Nat.exists_eq_succ_of_ne_zero (Nat.ne_of_gt (Nat.zero_lt_of_lt hfuel))
    rw [List.append_assoc, readString_spelled h, ih (by simpa using hfuel)]
    rfl

theorem SpellsChar.ne_nil {c : Char} {piece : List Char} (h : SpellsChar c piece) : piece ≠ [] := by
  cases h <;> exact nofun

theorem SpellsChars.length_le {s body : List Char} (h : SpellsChars s body) :
    s.length ≤ body.length := by
  induction h with
  | nil => exact Nat.le_refl _
  | cons h _ ih =>
    have hpos := List.length_pos_iff.2 h.ne_nil
    rw [List.length_append, List.length_cons]
    omega

theorem spells_of_readString {fuel : Nat} {cs s rest : List Char}
    (h : readString fuel cs = .ok (s, rest)) :
    ∃ body, SpellsChars s body ∧ cs = body ++ '"' :: rest := by
  induction fuel generalizing cs s with
  | zero => contradiction
  | succ fuel ih =>
    -- one character was read, and what follows it by the hypothesis of the induction
    have hnext : ∀ {c : Char} {piece r : List Char}, SpellsChar c piece →
        (do let (s, r) ← readString fuel r; return (c :: s, r)) = .ok (s, rest) →
        ∃ body, SpellsChars s body ∧ piece ++ r = body ++ '"' :: rest := by
      intro c piece r hpiece hread
      obtain ⟨⟨s', r'⟩, hrest, hread⟩ := bind_eq_ok_iff.1 hread
      obtain ⟨rfl, rfl⟩ := Prod.mk.inj (pure_eq_ok_iff.1 hread)
      obtain ⟨body, hbody, rfl⟩ := ih hrest
      exact ⟨piece ++ body, .cons hpiece hbody, (List.append_assoc _ _ _).symm⟩
    cases cs with
    | nil => contradiction
    | cons c cs =>
      rw [readString.eq_def] at h
      dsimp only at h
      split_ifs at h with hquote hbackslash hcontrol
      · cases h
        exact ⟨[], .nil, by rw [hquote]; rfl⟩
      · subst hbackslash
        split at h
        · contradiction
        · obtain ⟨⟨c, r⟩, hunit, hread⟩ := bind_eq_ok_iff.1 h
          obtain ⟨piece, hpiece, rfl⟩ := readUnit_eq_ok_iff.1 hunit
          exact hnext (.units hpiece) hread
        · split at h
          · rename_i hletter
            exact hnext (.letter (escaped?_eq_some_iff.1 hletter)) h
          · contradiction
      · exact hnext (.plain hquote hbackslash (Nat.le_of_not_lt hcontrol)) h

/-- **What is read behind a quote are the texts of strings.** -/
theorem stringAfterQuote_eq_ok_iff {cs rest : List Char} {s : String} :
    stringAfterQuote cs = .ok (s, rest) ↔
      ∃ body, SpellsChars s.toList body ∧ cs = body ++ '"' :: rest := by
  constructor
  · intro h
    obtain ⟨⟨chars, r⟩, hread, h⟩ := bind_eq_ok_iff.1 h
    obtain ⟨rfl, rfl⟩ := Prod.mk.inj (pure_eq_ok_iff.1 h)
    rw [String.toList_ofList]
    exact spells_of_readString hread
  · rintro ⟨body, hbody, rfl⟩
    have hlength := hbody.length_le
    have hfuel : s.toList.length < (body ++ '"' :: rest).length + 1 := by
      rw [List.length_append]
      omega
    rw [stringAfterQuote, readString_append hbody hfuel]
    simp [bind, Except.bind, pure, Except.pure]

/-! ## The text that is written -/

theorem isCodeUnit_controlDigits : ∀ n < 0x20, IsCodeUnit (controlDigits n) n := by
  unfold IsCodeUnit
  decide

theorem spellsChar_escape (c : Char) : SpellsChar c (escape c) := by
  unfold escape
  split
  case h_8 hquote hbackslash _ _ _ _ _ =>
    split
    · rename_i hcontrol
      exact .units (.one (isCodeUnit_controlDigits c.toNat hcontrol))
    · rename_i hcontrol
      exact .plain hquote hbackslash (Nat.le_of_not_lt hcontrol)
  all_goals exact .letter (by decide)

theorem spellsChars_escape (s : List Char) : SpellsChars s (s.flatMap escape) := by
  induction s with
  | nil => exact .nil
  | cons c s ih =>
    rw [List.flatMap_cons]
    exact .cons (spellsChar_escape c) ih

/-- **A string is read back from its text in quotes.** -/
theorem stringAfterQuote_escape (s : String) (rest : List Char) :
    stringAfterQuote (s.toList.flatMap escape ++ '"' :: rest) = .ok (s, rest) :=
  stringAfterQuote_eq_ok_iff.2 ⟨_, spellsChars_escape s.toList, rfl⟩

end Json

end FuzzCampaign
