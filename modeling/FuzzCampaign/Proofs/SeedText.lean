import FuzzCampaign.Proofs.JsonShapes
import FuzzCampaign.Random.Seed

/-!
# Which texts are seeds

A seed is read back from its digits, with or without `0x` before them, and digits of either case are
read. Another even number of digits is refused with the number of their bytes, and every other text
by its name. What is read from JSON are the strings that are such texts, in whatever way they are
spelled.

* `Hex.IsText`: the texts of digits;
* `Seed.ofHex_eq`, `Seed.ofHex_eq_invalid`: what the reader makes of a text;
* `Seed.ReadExactly`: a reader takes the texts of seeds and nothing else;
* **`Seed.texts_exact`**: the reader of texts and the reader of JSON do.
-/

namespace FuzzCampaign

/-! ## Texts of digits -/

namespace Hex

/-- A text of digits: nothing but them, or `0x` and then nothing but them. -/
structure IsText (text : String) (digits : List Char) : Prop where
  spelled : text.toList = digits ∨ text.toList = '0' :: 'x' :: digits
  isDigit : ∀ c ∈ digits, IsDigit c

theorem IsText.ne_prefix {text : String} {digits : List Char} (h : IsText text digits)
    (r : List Char) : digits ≠ '0' :: 'x' :: r := by
  rintro rfl
  exact absurd (h.isDigit 'x' (by simp)) (by decide)

/-- A text is not a text of two rows of digits. -/
theorem IsText.unique {text : String} {digits digits' : List Char} (h : IsText text digits)
    (h' : IsText text digits') : digits = digits' := by
  rcases h.spelled with hspelled | hspelled <;> rcases h'.spelled with hspelled' | hspelled'
  · exact hspelled.symm.trans hspelled'
  · exact absurd (hspelled.symm.trans hspelled') (h.ne_prefix _)
  · exact absurd (hspelled'.symm.trans hspelled) (h'.ne_prefix _)
  · simpa using hspelled.symm.trans hspelled'

theorem escape_of_isDigit_ascii : ∀ m < 128, IsDigit (Char.ofNat m) →
    Json.escape (Char.ofNat m) = [Char.ofNat m] := by
  decide

theorem flatMap_escape {digits : List Char} (h : ∀ c ∈ digits, IsDigit c) :
    digits.flatMap Json.escape = digits := by
  induction digits with
  | nil => rfl
  | cons c digits ih =>
    rw [List.forall_mem_cons] at h
    have hescape := escape_of_isDigit_ascii c.toNat h.1.toNat_lt
    rw [Char.ofNat_toNat] at hescape
    rw [List.flatMap_cons, hescape h.1, ih h.2]
    rfl

end Hex

namespace Seed

/-! ## Seeds of bytes -/

theorem ofBytes_bytes (s : Seed) : ofBytes s.bytes = .ok s := by
  obtain ⟨⟨bytes, hsize⟩⟩ := s
  simp [ofBytes, Seed.bytes, hsize]

theorem ofBytes_of_length {bytes : List UInt8} (h : bytes.length = 8) :
    ∃ s : Seed, ofBytes bytes = .ok s ∧ s.bytes = bytes := by
  have hsize : bytes.toArray.size = 8 := by simpa using h
  exact ⟨⟨⟨bytes.toArray, hsize⟩⟩, dif_pos hsize, rfl⟩

theorem ofBytes_of_length_ne {bytes : List UInt8} (h : bytes.length ≠ 8) : ofBytes bytes =
    .error (.configuration ("Seed must be 8 bytes long, got " ++ toString bytes.length)) := by
  have hsize : ¬ bytes.toArray.size = 8 := by simpa using h
  rw [ofBytes, dif_neg hsize]
  rfl

/-! ## Seeds of texts -/

theorem toList_hex (s : Seed) : s.hex.toList = Hex.encode s.bytes := by
  rw [hex, String.toList_ofList]

theorem isDigit_of_mem_hex {s : Seed} {c : Char} (h : c ∈ s.hex.toList) : Hex.IsDigit c := by
  rw [toList_hex] at h
  exact Hex.isDigit_of_mem_encode h

theorem isText_hex (s : Seed) : Hex.IsText s.hex s.hex.toList :=
  ⟨.inl rfl, fun _ => isDigit_of_mem_hex⟩

theorem isText_prefixed (s : Seed) : Hex.IsText ("0x" ++ s.hex) s.hex.toList :=
  ⟨.inr String.toList_append, fun _ => isDigit_of_mem_hex⟩

section

variable {text : String} {digits : List Char}

/-- The prefix is left out, and what is left is read in pairs. -/
theorem ofHex_eq (h : Hex.IsText text digits) {bytes : List UInt8}
    (hbytes : Hex.decode? digits = some bytes) : ofHex text = ofBytes bytes := by
  unfold ofHex
  split
  · rename_i r hmarked
    rcases h.spelled with hspelled | hspelled
    · exact absurd (hspelled.symm.trans hmarked) (h.ne_prefix r)
    · obtain rfl : r = digits := by simpa using hmarked.symm.trans hspelled
      simp only [hbytes]
  · rename_i hmarked
    rcases h.spelled with hspelled | hspelled
    · simp only [hspelled, hbytes]
    · exact absurd hspelled (hmarked digits)

theorem ofHex_eq_invalid (h : ∀ digits, Hex.IsText text digits → ¬ Even digits.length) :
    ofHex text = .error (.configuration ("Invalid seed '" ++ text ++ "'")) := by
  have hnone : ∀ digits, text.toList = digits ∨ text.toList = '0' :: 'x' :: digits →
      Hex.decode? digits = none := by
    intro digits hspelled
    refine Option.eq_none_iff_forall_ne_some.2 fun bytes hbytes => ?_
    obtain ⟨hdigits, heven⟩ := Hex.exists_decode?_iff.1 ⟨bytes, hbytes⟩
    exact h digits ⟨hspelled, hdigits⟩ heven
  unfold ofHex
  split
  · rename_i r hmarked
    simp only [hnone r (.inr hmarked)]
    rfl
  · simp only [hnone _ (.inl rfl)]
    rfl

theorem ofHex_of_sixteen (h : Hex.IsText text digits) (hlength : digits.length = 16) :
    ∃ s : Seed, ofHex text = .ok s ∧ s.hex = String.ofList (digits.map Char.toLower) := by
  obtain ⟨bytes, hbytes⟩ := Hex.exists_decode?_iff.2 ⟨h.isDigit, by rw [hlength]; decide⟩
  have hcount := Hex.length_of_decode? hbytes
  have hsize : bytes.length = 8 := by omega
  obtain ⟨s, hs, rfl⟩ := ofBytes_of_length hsize
  refine ⟨s, by rw [ofHex_eq h hbytes, hs], ?_⟩
  rw [Hex.decode?_eq_some_iff.1 hbytes, hex]

theorem ofHex_of_even (h : Hex.IsText text digits) (heven : Even digits.length)
    (hlength : digits.length ≠ 16) : ofHex text = .error (.configuration
      ("Seed must be 8 bytes long, got " ++ toString (digits.length / 2))) := by
  obtain ⟨bytes, hbytes⟩ := Hex.exists_decode?_iff.2 ⟨h.isDigit, heven⟩
  have hcount := Hex.length_of_decode? hbytes
  have hhalf : digits.length / 2 = bytes.length := by omega
  rw [ofHex_eq h hbytes, hhalf, ofBytes_of_length_ne (by omega)]

theorem exists_isText_of_ofHex {s : Seed} (h : ofHex text = .ok s) :
    ∃ digits, Hex.IsText text digits ∧ digits.length = 16 := by
  by_cases heven : ∃ digits, Hex.IsText text digits ∧ Even digits.length
  · obtain ⟨digits, htext, heven⟩ := heven
    refine ⟨digits, htext, ?_⟩
    by_contra hlength
    rw [ofHex_of_even htext heven hlength] at h
    contradiction
  · rw [ofHex_eq_invalid fun digits htext hdigits => heven ⟨digits, htext, hdigits⟩] at h
    contradiction

theorem hex_of_ofHex {s : Seed} (h : Hex.IsText text digits) (hs : ofHex text = .ok s) :
    s.hex = String.ofList (digits.map Char.toLower) := by
  obtain ⟨digits', h', hlength⟩ := exists_isText_of_ofHex hs
  obtain rfl := h.unique h'
  obtain ⟨s', hs', hlower⟩ := ofHex_of_sixteen h hlength
  obtain rfl := Except.ok.inj (hs.symm.trans hs')
  exact hlower

end

/-- **A seed is read back from its digits.** -/
theorem ofHex_hex (s : Seed) : ofHex s.hex = .ok s := by
  rw [ofHex_eq s.isText_hex (by rw [toList_hex, Hex.decode?_encode]), ofBytes_bytes]

theorem ofHex_prefixed (s : Seed) : ofHex ("0x" ++ s.hex) = .ok s := by
  rw [ofHex_eq s.isText_prefixed (by rw [toList_hex, Hex.decode?_encode]), ofBytes_bytes]

/-! ## Readers of seeds -/

/-- A reader takes the texts of seeds and nothing else. What it reads from holds a text, as `Holds`
says, and `refusal` is how it refuses with a message. -/
structure ReadExactly {ε : Type} (read : String → Except ε Seed) (Holds : String → String → Prop)
    (refusal : String → ε) : Prop where
  /-- A seed is read back from its digits, with `0x` before them or not. -/
  back : ∀ source s, Holds source s.hex ∨ Holds source ("0x" ++ s.hex) → read source = .ok s
  /-- A seed is read if and only if the text is one of sixteen digits. -/
  exists_iff : ∀ source, (∃ s, read source = .ok s) ↔
    ∃ text digits, Holds source text ∧ Hex.IsText text digits ∧ digits.length = 16
  /-- The digits of the seed are those of the text in lower case. -/
  lower : ∀ source text digits s, Holds source text → Hex.IsText text digits →
    read source = .ok s → s.hex = String.ofList (digits.map Char.toLower)
  /-- Another even number of digits is refused with the number of their bytes. -/
  miscounted : ∀ source text digits, Holds source text → Hex.IsText text digits →
    Even digits.length → digits.length ≠ 16 →
    read source = .error (refusal
      ("Seed must be 8 bytes long, got " ++ toString (digits.length / 2)))
  /-- Every other text is refused by its name. -/
  garbled : ∀ source text, Holds source text →
    (∀ digits, Hex.IsText text digits → ¬ Even digits.length) →
    read source = .error (refusal ("Invalid seed '" ++ text ++ "'"))

/-- A reader that comes to what is read from the text it finds. -/
theorem readExactly_of_eq {ε : Type} {read : String → Except ε Seed}
    {Holds : String → String → Prop} (wrap : CampaignError → ε)
    (hread : ∀ source text, Holds source text → read source = (ofHex text).mapError wrap)
    (hholds : ∀ source s, read source = .ok s → ∃ text, Holds source text ∧ ofHex text = .ok s) :
    ReadExactly read Holds fun message => wrap (.configuration message) where
  back source s h := by
    rcases h with h | h
    · rw [hread _ _ h, ofHex_hex]
      rfl
    · rw [hread _ _ h, ofHex_prefixed]
      rfl
  exists_iff source := by
    constructor
    · rintro ⟨s, hs⟩
      obtain ⟨text, hsource, htext⟩ := hholds source s hs
      obtain ⟨digits, hdigits, hlength⟩ := exists_isText_of_ofHex htext
      exact ⟨text, digits, hsource, hdigits, hlength⟩
    · rintro ⟨text, digits, hsource, hdigits, hlength⟩
      obtain ⟨s, hs, -⟩ := ofHex_of_sixteen hdigits hlength
      exact ⟨s, by rw [hread _ _ hsource, hs]; rfl⟩
  lower source text digits s hsource hdigits hs := by
    rw [hread _ _ hsource] at hs
    exact hex_of_ofHex hdigits (mapError_eq_ok_iff.1 hs)
  miscounted source text digits hsource hdigits heven hlength := by
    rw [hread _ _ hsource, ofHex_of_even hdigits heven hlength]
    rfl
  garbled source text hsource hnone := by
    rw [hread _ _ hsource, ofHex_eq_invalid hnone]
    rfl

theorem json_compact (s : Seed) : s.json.compact = "\"" ++ s.hex ++ "\"" := by
  refine String.toList_inj.1 ?_
  rw [Json.Value.compact, String.toList_ofList, json, Json.Value.compactChars, Json.quote,
    Hex.flatMap_escape fun _ => isDigit_of_mem_hex, String.toList_append, String.toList_append]
  rfl

/-- **The texts of seeds.** A seed is read back from its digits, with `0x` before them or not. A
text is read as a seed if and only if it is sixteen digits, and those of the seed are these in lower
case; another even number of digits is refused with the number of their bytes, and every other text
by its name. The same holds of JSON, where a string may be spelled in any way. Every string has a
text in JSON, and the one that is written for a seed is its digits in quotes. -/
theorem texts_exact :
    ReadExactly ofHex (fun source text => source = text) .configuration ∧
    ReadExactly (Json.Reader.run reader) Json.IsTextOf
      (fun message => ⟨.shape ("Configuration error: " ++ message), 0, 0⟩) ∧
    (∀ text : String, Json.IsTextOf (Json.Value.text text).compact text) ∧
    ∀ s : Seed, s.json.compact = "\"" ++ s.hex ++ "\"" := by
  refine ⟨?_, ?_, Json.isTextOf_compact, json_compact⟩
  · refine readExactly_of_eq id (fun source text hsource => ?_) fun source s hs => ⟨source, rfl, hs⟩
    rw [hsource]
    cases ofHex text <;> rfl
  · refine readExactly_of_eq (fun e => (⟨.shape e.message, 0, 0⟩ : Json.JsonError))
      (fun source text hsource => ?_) fun source s hs => ?_
    · rw [reader, Json.run_parsed hsource]
      cases ofHex text <;> rfl
    · obtain ⟨text, hsource, htext⟩ := Json.run_parsed_eq_ok_iff.1 hs
      exact ⟨text, hsource, mapError_eq_ok_iff.1 htext⟩

/-- Capitals are read, and a prefix behind an escape; a prefix alone is no byte, and only one prefix
is left out. -/
example : (ofHex "0xABCDEFabcdef0000").map hex = .ok "abcdefabcdef0000" ∧
    (Json.Reader.run reader " \"\\u0030x0102030405060708\"").map hex = .ok "0102030405060708" ∧
    ofHex "0x" = .error (.configuration "Seed must be 8 bytes long, got 0") ∧
    ofHex "0x0x0102030405060708" =
      .error (.configuration "Invalid seed '0x0x0102030405060708'") := by
  decide +kernel

end Seed

end FuzzCampaign
