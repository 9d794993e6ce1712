import FuzzCampaign.Link.Binary
import FuzzCampaign.Proofs.PositionText
import FuzzCampaign.Proofs.TextBytes

/-!
# Messages read back from their binary form

A value whose binary form has a length that fits into eight bytes is read back from it, whatever
bytes follow, and these are left.

* `Binary.Carries`: the binary form of a type carries its values;
* `Binary.carries_list`, `Binary.carries_map`: lists and maps of what is carried;
* **`Binary.carries_worker`**, **`Binary.carries_command`**: the messages of both sides.
-/

namespace FuzzCampaign

namespace Binary

/-- Every value is read back from its binary form if the length of the form is a word. -/
def Carries {α : Type} (encode : α → List UInt8) (decode : Decoder α) : Prop :=
  ∀ (a : α) (rest : List UInt8), (encode a).length < word64 →
    decode (encode a ++ rest) = .ok (a, rest)

theorem ok_bind {ε α β : Type} (a : α) (f : α → Except ε β) : (Except.ok a >>= f) = f a := rfl

/-! ## Numbers and texts -/

@[simp] theorem length_number (width n : Nat) : (number width n).length = width := by
  induction width generalizing n with
  | zero => rfl
  | succ width ih => rw [number, List.length_cons, ih]

theorem decodeNumber_number {width n : Nat} (h : n < 256 ^ width) (rest : List UInt8) :
    decodeNumber width (number width n ++ rest) = .ok (n, rest) := by
  induction width generalizing n with
  | zero =>
    obtain rfl : n = 0 := by simpa using h
    rfl
  | succ width ih =>
    have hhigh : n / 256 < 256 ^ width := Nat.div_lt_of_lt_mul (by rwa [Nat.pow_succ'] at h)
    have hlow := Utf8.toNat_ofNat_byte (k := n % 256) (by omega)
    rw [number, List.cons_append, decodeNumber, ih hhigh, hlow]
    simp only [Except.map, Nat.mod_add_div]

theorem decodeNumber_uint16 (n : UInt16) (rest : List UInt8) :
    decodeNumber 2 (number 2 n.toNat ++ rest) = .ok (n.toNat, rest) :=
  decodeNumber_number n.toNat_lt rest

theorem decodeNumber_uint32 (n : UInt32) (rest : List UInt8) :
    decodeNumber 4 (number 4 n.toNat ++ rest) = .ok (n.toNat, rest) :=
  decodeNumber_number n.toNat_lt rest

theorem decodeNumber_uint64 (n : UInt64) (rest : List UInt8) :
    decodeNumber 8 (number 8 n.toNat ++ rest) = .ok (n.toNat, rest) :=
  decodeNumber_number n.toNat_lt rest

theorem decodeNumber_length {n : Nat} (h : n < word64) (rest : List UInt8) :
    decodeNumber 8 (length n ++ rest) = .ok (n, rest) :=
  decodeNumber_number h rest

theorem decodeVariant_variant {n count : Nat} (h : n < count) (hcount : count ≤ word32)
    (rest : List UInt8) : decodeVariant count (variant n ++ rest) = .ok (n, rest) := by
  have hn : n < 256 ^ 4 := Nat.lt_of_lt_of_le h hcount
  rw [decodeVariant, variant, decodeNumber_number hn, ok_bind]
  exact if_pos h

/-- **A text is read back.** -/
theorem carries_text : Carries text decodeText := by
  intro s rest h
  have hbytes : (Utf8.encode s.toList).length < word64 := by
    simp only [text, List.length_append] at h
    omega
  rw [text, List.append_assoc, decodeText, decodeNumber_length hbytes, ok_bind]
  simp only [List.length_append, Nat.not_lt.2 (Nat.le_add_right _ _), if_false,
    List.take_left, List.drop_left, Utf8.decode_encode, String.ofList_toList]
  rfl

theorem text_ne_nil (s : String) : text s ≠ [] := by
  rw [← List.length_pos_iff, text, List.length_append, length, length_number]
  omega

theorem carries_position : Carries (fun p : Position => text p.text) decodePosition := by
  intro p rest h
  rw [decodePosition, carries_text _ rest h, ok_bind]
  simp only [Position.parse_text]
  rfl

theorem carries_hits : Carries hits decodeHits := by
  intro f rest h
  simp only [hits, List.length_append] at h
  rw [hits, List.append_assoc, decodeHits, carries_text _ _ (by omega), ok_bind]
  simp only [decodeNumber_uint64, ok_bind, UInt64.ofNat_toNat]
  rfl

/-! ## Pairs, options, lists and maps -/

section

variable {α β κ : Type} {item : α → List UInt8} {decode : Decoder α}

theorem Carries.pair (h : Carries item decode) {other : β → List UInt8} {decode' : Decoder β}
    (h' : Carries other decode') :
    Carries (fun p : α × β => item p.1 ++ other p.2) (decodePair decode decode') := by
  intro p rest hlength
  simp only [List.length_append] at hlength
  rw [List.append_assoc, decodePair, h _ _ (by omega), ok_bind]
  simp only [h' _ _ (Nat.lt_of_le_of_lt (Nat.le_add_left _ _) hlength), ok_bind]
  rfl

theorem Carries.option (h : Carries item decode) :
    Carries (Binary.option item) (decodeOption decode) := by
  intro a rest hlength
  cases a with
  | none => rfl
  | some a =>
    simp only [Binary.option, List.length_cons] at hlength
    have ha := h a rest (by omega)
    rw [Binary.option, List.cons_append, decodeOption]
    change (decode (item a ++ rest) >>= fun p => pure (some p.1, p.2)) = _
    rw [ha]
    rfl

theorem length_le_flatMap (h : ∀ a, item a ≠ []) (items : List α) :
    items.length ≤ (items.flatMap item).length := by
  induction items with
  | nil => simp
  | cons a items ih =>
    have hpos := List.length_pos_iff.2 (h a)
    rw [List.flatMap_cons, List.length_append, List.length_cons]
    omega

theorem decodeItems_flatMap (h : Carries item decode) {items : List α}
    (hlength : (items.flatMap item).length < word64) {fuel : Nat} (hfuel : items.length ≤ fuel)
    (rest : List UInt8) :
    decodeItems decode fuel items.length (items.flatMap item ++ rest) = .ok (items, rest) := by
  induction items generalizing fuel with
  | nil => cases fuel <;> rfl
  | cons a items ih =>
    obtain ⟨fuel, rfl⟩ := Nat.exists_eq_succ_of_ne_zero (Nat.ne_zero_of_lt hfuel)
    simp only [List.flatMap_cons, List.length_append] at hlength
    rw [List.flatMap_cons, List.append_assoc, List.length_cons, decodeItems, h _ _ (by omega),
      ok_bind]
    simp only [ih (by omega) (Nat.le_of_succ_le_succ hfuel), ok_bind]
    rfl

/-- **A list is read back** if no item takes no bytes. -/
theorem Carries.list (h : Carries item decode) (hne : ∀ a, item a ≠ []) :
    Carries (Binary.list item) (decodeList decode) := by
  intro items rest hlength
  have hcount := length_le_flatMap hne items
  simp only [Binary.list, List.length_append] at hlength
  rw [Binary.list, List.append_assoc, decodeList, decodeNumber_length (by omega), ok_bind]
  refine decodeItems_flatMap h (by omega) ?_ rest
  rw [List.length_append]
  omega

/-- **A map is read back.** -/
theorem Carries.map [Ord κ] [Std.TransOrd κ] [Std.LawfulEqOrd κ] {key : κ → List UInt8}
    {decodeKey : Decoder κ} (hkey : Carries key decodeKey) (hne : ∀ k, key k ≠ [])
    (h : Carries item decode) :
    Carries (fun m : SortedMap κ α => Binary.list (fun e => key e.1 ++ item e.2) m.toList)
      (decodeMap decodeKey decode) := by
  intro m rest hlength
  have hlist := (hkey.pair h).list fun e => by simp [hne]
  rw [decodeMap, hlist _ _ hlength]
  simp only [Except.map, SortedMap.ofList_toList]

end

/-! ## Coverage and failures -/

theorem carries_fileCoverage :
    Carries fileCoverage (decodeMap decodePosition decodeHits) :=
  carries_position.map (fun p => text_ne_nil p.text) carries_hits

theorem carries_coverage : Carries coverage decodeCoverage :=
  carries_text.map text_ne_nil carries_fileCoverage

theorem carries_snapshot : Carries snapshot decodeSnapshot := by
  intro s rest h
  simp only [snapshot, List.length_append] at h
  rw [snapshot, List.append_assoc, decodeSnapshot, carries_coverage _ _ (by omega), ok_bind]
  simp only [carries_coverage _ _ (Nat.lt_of_le_of_lt (Nat.le_add_left _ _) h), ok_bind]
  rfl

theorem carries_locals :
    Carries (list fun l : String × String => text l.1 ++ text l.2)
      (decodeList (decodePair decodeText decodeText)) :=
  (carries_text.pair carries_text).list fun l => by simp [text_ne_nil]

theorem carries_stackFrame : Carries stackFrame decodeStackFrame := by
  intro f rest h
  simp only [stackFrame, List.length_append] at h
  have hfile : (text f.file).length < word64 := by omega
  have hfunction : (text f.function).length < word64 := by omega
  have hlocals := Nat.lt_of_le_of_lt (Nat.le_add_left _ _) h
  simp only [stackFrame, List.append_assoc, decodeStackFrame, carries_text _ _ hfile,
    decodeNumber_uint32, carries_text _ _ hfunction, carries_locals _ _ hlocals,
    ok_bind, UInt32.ofNat_toNat]
  rfl

theorem stackFrame_ne_nil (f : StackFrame) : stackFrame f ≠ [] := by
  simp [stackFrame, text_ne_nil]

theorem decodeOrigin_origin (o : Origin) (rest : List UInt8) :
    decodeOrigin (origin o ++ rest) = .ok (o, rest) := by
  cases o with
  | testBody =>
    rw [origin, decodeOrigin, decodeVariant_variant (by omega) (by decide)]
    rfl
  | harness =>
    rw [origin, decodeOrigin, decodeVariant_variant (by omega) (by decide)]
    rfl

theorem carries_envelope : Carries envelope decodeEnvelope := by
  intro e rest h
  simp only [envelope, List.length_append] at h
  have hkind : (text e.kind).length < word64 := by omega
  have hmessage : (text e.message).length < word64 := by omega
  have hframes := Nat.lt_of_le_of_lt (Nat.le_add_left _ _) h
  simp only [envelope, List.append_assoc, decodeEnvelope, decodeNumber_uint16,
    carries_text _ _ hkind, carries_text _ _ hmessage, decodeOrigin_origin,
    carries_stackFrame.list stackFrame_ne_nil _ _ hframes, ok_bind, UInt16.ofNat_toNat]
  rfl

/-! ## The messages -/

/-- **What a worker sends is read back.** -/
theorem carries_worker : Carries encodeWorker decodeWorker := by
  intro m rest h
  cases m with
  | hello index version =>
    simp only [encodeWorker, List.append_assoc, decodeWorker,
      decodeVariant_variant (show 0 < 4 by omega) (by decide), decodeNumber_uint64,
      decodeNumber_uint16, ok_bind, UInt64.ofNat_toNat, UInt16.ofNat_toNat]
    rfl
  | exception report =>
    simp only [encodeWorker, List.length_append] at h
    have hreport := Nat.lt_of_le_of_lt (Nat.le_add_left _ _) h
    simp only [encodeWorker, List.append_assoc, decodeWorker,
      decodeVariant_variant (show 1 < 4 by omega) (by decide),
      carries_envelope.option _ _ hreport, ok_bind]
    rfl
  | coverage s =>
    simp only [encodeWorker, List.length_append] at h
    have hs := Nat.lt_of_le_of_lt (Nat.le_add_left _ _) h
    simp only [encodeWorker, List.append_assoc, decodeWorker,
      decodeVariant_variant (show 2 < 4 by omega) (by decide), carries_snapshot _ _ hs, ok_bind]
    rfl
  | finished =>
    simp only [encodeWorker, decodeWorker, decodeVariant_variant (show 3 < 4 by omega) (by decide),
      ok_bind]
    rfl

/-- **What the orchestrator sends is read back.** -/
theorem carries_command : Carries encodeCommand decodeCommand := by
  intro m rest h
  cases m with
  | decision attach =>
    simp only [encodeCommand, List.append_assoc, decodeCommand,
      decodeVariant_variant (show 0 < 2 by omega) (by decide), ok_bind]
    cases attach <;> rfl
  | shutdown =>
    simp only [encodeCommand, decodeCommand,
      decodeVariant_variant (show 1 < 2 by omega) (by decide), ok_bind]
    rfl

end Binary

end FuzzCampaign
