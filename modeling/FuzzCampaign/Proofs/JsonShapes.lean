import FuzzCampaign.Proofs.JsonText
import Mathlib.Data.List.TakeWhile

/-!
# More shapes read back

Truth values, one of some names, strings in a form of their own, values that may be missing, and
lists. An item of a list, or a value that may be missing, is told from what else may stand in its
place by the first character of its text.

* `Json.reads_boolean`, `Json.reads_parsed`, `Json.reads_choice`: scalars;
* `Json.IsTextOf`: the whole texts of a string; **`Json.run_parsed_eq_ok_iff`**: which texts are
  read as a string in a form of its own;
* `Json.Opens`: a text that begins like a string or an object;
* `Json.reads_option`, `Json.reads_sequence`: what is built of them;
* `Json.Printable`: no character of a text is a control, `Json.printable_object`.
-/

namespace FuzzCampaign

namespace Json

variable {α β ι : Type}

theorem Reads.mono {reader : Reader α} {levels levels' : Nat} {v : Value} {a : α}
    (h : Reads reader levels v a) (hle : levels ≤ levels') : Reads reader levels' v a :=
  fun _ _ _ _ hdepth => h (Nat.lt_of_le_of_lt hle hdepth)

/-! ## Scalars -/

theorem reads_boolean (b : Bool) : Reads Reader.boolean 0 (.bool b) b := by
  intro depth ws cs rest _ hws hcs _
  cases hcs with
  | true =>
    rw [Reader.boolean, List.cons_append, dropSpace_append hws rfl]
    rfl
  | false =>
    rw [Reader.boolean, List.cons_append, dropSpace_append hws rfl]
    rfl

theorem reads_parsed {parse : String → Except String α} {s : String} {a : α}
    (h : parse s = .ok a) : Reads (Reader.parsed parse) 0 (.text s) a := by
  intro depth ws cs rest hdepth hws hcs hrest
  rw [Reader.parsed]
  simp only [reads_text s hdepth hws hcs hrest, h]

theorem reads_choice {names : List (String × α)} {name : String} {p : String × α}
    (h : names.find? (fun p => p.1 = name) = some p) :
    Reads (Reader.choice names) 0 (.text name) p.2 := by
  intro depth ws cs rest _ hws hcs _
  cases hcs
  rw [Reader.choice, quote_append, dropSpace_append hws rfl]
  simp only [stringAfterQuote_escape, h]
  rfl

/-! ## Strings, however they are spelled -/

/-- A whole text of a string: its characters in quotes, with white space around them or none. -/
def IsTextOf (source s : String) : Prop :=
  ∃ before body after, source.toList = before ++ '"' :: (body ++ '"' :: after) ∧
    Space before ∧ SpellsChars s.toList body ∧ Space after

theorem isTextOf_compact (s : String) : IsTextOf (Value.text s).compact s := by
  refine ⟨[], s.toList.flatMap escape, [], ?_, space_nil, spellsChars_escape _, space_nil⟩
  rw [Value.compact, String.toList_ofList, Value.compactChars, quote]
  rfl

theorem dropSpace_eq_nil_iff {cs : List Char} : dropSpace cs = [] ↔ Space cs :=
  List.dropWhile_eq_nil_iff

theorem text_eq_ok_iff {depth : Nat} {cs rest : List Char} {s : String} :
    Reader.text depth cs = .ok (s, rest) ↔ ∃ before body,
      cs = before ++ '"' :: (body ++ '"' :: rest) ∧ Space before ∧ SpellsChars s.toList body := by
  constructor
  · intro h
    unfold Reader.text Reader.textFor at h
    split at h
    · contradiction
    · rename_i r hdrop
      obtain ⟨body, hbody, rfl⟩ := stringAfterQuote_eq_ok_iff.1 h
      refine ⟨cs.takeWhile isSpace, body, ?_, fun c hc => List.mem_takeWhile_imp hc, hbody⟩
      rw [← hdrop]
      exact List.takeWhile_append_dropWhile.symm
    · contradiction
  · rintro ⟨before, body, rfl, hbefore, hbody⟩
    rw [Reader.text, Reader.textFor, dropSpace_append hbefore rfl]
    exact stringAfterQuote_eq_ok_iff.2 ⟨body, hbody, rfl⟩

section

variable {parse : String → Except String α} {source s : String}

/-- A string in a form of its own is what the reader of that form makes of it. -/
theorem run_parsed (h : IsTextOf source s) :
    Reader.run (Reader.parsed parse) source = (parse s).mapError fun m => ⟨.shape m, 0, 0⟩ := by
  obtain ⟨before, body, after, hsource, hbefore, hbody, hafter⟩ := h
  have htext : Reader.text nestingLimit source.toList = .ok (s, after) :=
    text_eq_ok_iff.2 ⟨before, body, hsource, hbefore, hbody⟩
  have hdone := dropSpace_eq_nil_iff.2 hafter
  rw [Reader.run, Reader.parsed]
  simp only [htext]
  cases parse s with
  | error m => rfl
  | ok a =>
    simp only [hdone]
    rfl

/-- **Nothing is read in a form of its own but a string that is of the form.** -/
theorem run_parsed_eq_ok_iff {a : α} : Reader.run (Reader.parsed parse) source = .ok a ↔
    ∃ s, IsTextOf source s ∧ parse s = .ok a := by
  constructor
  · intro h
    unfold Reader.run Reader.parsed at h
    cases htext : Reader.text nestingLimit source.toList with
    | error e =>
      simp only [htext] at h
      contradiction
    | ok p =>
      obtain ⟨before, body, hsource, hbefore, hbody⟩ := text_eq_ok_iff.1 htext
      simp only [htext] at h
      cases hparse : parse p.1 with
      | error m =>
        simp only [hparse] at h
        contradiction
      | ok a' =>
        simp only [hparse] at h
        split at h
        · rename_i hdone
          cases h
          exact ⟨p.1, ⟨before, body, p.2, hsource, hbefore, hbody, dropSpace_eq_nil_iff.1 hdone⟩,
            hparse⟩
        · contradiction
  · rintro ⟨s, hs, ha⟩
    rw [run_parsed hs, ha]
    rfl

end

/-! ## Values that may be missing -/

/-- A text that begins with a quote or with the brace of an object. -/
def Opens (cs : List Char) : Prop := ∃ r, cs = '"' :: r ∨ cs = '\x7b' :: r

theorem opens_text {s : String} {cs : List Char} (h : Spells (.text s) cs) : Opens cs := by
  cases h
  exact ⟨_, .inl rfl⟩

theorem opens_object {fields : List (String × Value)} {cs : List Char}
    (h : Spells (.object fields) cs) : Opens cs := by
  cases h
  exact ⟨_, .inr rfl⟩

theorem Opens.append {cs : List Char} (h : Opens cs) (rest : List Char) : Opens (cs ++ rest) := by
  obtain ⟨r, rfl | rfl⟩ := h
  · exact ⟨r ++ rest, .inl rfl⟩
  · exact ⟨r ++ rest, .inr rfl⟩

theorem Opens.dropSpace_append {cs : List Char} (h : Opens cs) {ws : List Char} (hws : Space ws) :
    dropSpace (ws ++ cs) = cs := by
  obtain ⟨r, rfl | rfl⟩ := h
  · exact Json.dropSpace_append hws rfl r
  · exact Json.dropSpace_append hws rfl r

theorem reads_none (inner : Reader α) : Reads (Reader.option inner) 0 .null none := by
  intro depth ws cs rest _ hws hcs _
  cases hcs
  rw [Reader.option, List.cons_append, dropSpace_append hws rfl]
  rfl

theorem reads_some {inner : Reader α} {levels : Nat} {v : Value} {a : α}
    (h : Reads inner levels v a) (hopens : ∀ cs, Spells v cs → Opens cs) :
    Reads (Reader.option inner) levels v (some a) := by
  intro depth ws cs rest hdepth hws hcs hrest
  have hcs' := (hopens cs hcs).append rest
  have hread : inner depth (cs ++ rest) = .ok (a, rest) := h hdepth space_nil hcs hrest
  rw [Reader.option, hcs'.dropSpace_append hws]
  split
  · rename_i heq
    obtain ⟨r, hr | hr⟩ := hcs' <;>
    · rw [hr] at heq
      exact absurd (List.cons.inj heq).1 (by decide)
  · rw [hread]
    rfl

theorem reads_option {inner : Reader α} {levels : Nat} {json : α → Value} (a? : Option α)
    (h : ∀ a, Reads inner levels (json a) a) (hopens : ∀ a cs, Spells (json a) cs → Opens cs) :
    Reads (Reader.option inner) levels (a?.elim .null json) a? := by
  cases a? with
  | none => exact (reads_none inner).mono (Nat.zero_le _)
  | some a => exact reads_some (h a) (hopens a)

theorem Reads.fieldOption {reader : Reader β} {levels : Nat} {v : Value} {b? : Option β}
    (h : Reads (Reader.option reader) levels v b?) (name : String) (put : Option β → α → α)
    (a : α) : Reads ((Field.ofOption name reader put).read a) levels v (put b? a) := by
  intro depth ws cs rest hdepth hws hcs hrest
  show (Reader.option reader depth (ws ++ (cs ++ rest))).map _ = _
  rw [h hdepth hws hcs hrest]
  rfl

/-! ## Lists -/

namespace Reader

theorem nextItem_separates {first : Bool} {sep cs : List Char} (h : Separates first sep)
    (hcs : Opens cs) : nextItem first (sep ++ cs) = .ok (true, cs) := by
  cases h with
  | first h =>
    rw [nextItem, hcs.dropSpace_append h]
    obtain ⟨r, rfl | rfl⟩ := hcs <;> rfl
  | later h h' =>
    rw [nextItem, List.append_assoc, List.cons_append, dropSpace_append h rfl]
    simp only [hcs.dropSpace_append h']
    obtain ⟨r, rfl | rfl⟩ := hcs <;> rfl

theorem nextItem_end (first : Bool) {ws : List Char} (h : Space ws) (cs : List Char) :
    nextItem first (ws ++ ']' :: cs) = .ok (false, ']' :: cs) := by
  rw [nextItem, dropSpace_append h rfl]
  rfl

end Reader

theorem ends_spellsItems {vs : List Value} {cs : List Char} (h : SpellsItems false vs cs)
    (rest : List Char) : Ends (cs ++ rest) := by
  cases h with
  | done h =>
    rw [List.append_assoc]
    exact ends_append h (ends_cons (by simp) _)
  | next hsep =>
    cases hsep with
    | later h h' =>
      simp only [List.append_assoc, List.cons_append]
      exact ends_append h (ends_cons (by simp) _)

section

variable {item : Reader α} {levels : Nat} {json : ι → Value} {content : ι → α} {l : List ι}

theorem length_lt_of_spellsItems {first : Bool} {cs : List Char}
    (hopens : ∀ i ∈ l, ∀ cs, Spells (json i) cs → Opens cs)
    (h : SpellsItems first (l.map json) cs) : l.length < cs.length := by
  induction l generalizing first cs with
  | nil =>
    cases h
    simp
  | cons i l ih =>
    cases h with
    | next hsep h hrest =>
      have hlength := ih (fun j hj => hopens j (List.mem_cons_of_mem _ hj)) hrest
      obtain ⟨r, rfl | rfl⟩ := hopens i List.mem_cons_self _ h <;>
      · simp only [List.length_append, List.length_cons]
        omega

theorem items_eq (hitem : ∀ i ∈ l, Reads item levels (json i) (content i))
    (hopens : ∀ i ∈ l, ∀ cs, Spells (json i) cs → Opens cs) {depth : Nat} (hdepth : levels < depth)
    {fuel : Nat} (hfuel : l.length < fuel) {first : Bool} {cs : List Char}
    (hcs : SpellsItems first (l.map json) cs) (acc : List α) (rest : List Char) :
    Reader.items item depth fuel first acc (cs ++ rest) =
      .ok (acc.reverse ++ l.map content, ']' :: rest) := by
  induction l generalizing fuel first cs acc with
  | nil =>
    obtain ⟨fuel, rfl⟩ := Nat.exists_eq_succ_of_ne_zero (Nat.ne_of_gt hfuel)
    cases hcs with
    | done h =>
      rw [Reader.items, List.append_assoc, List.cons_append, Reader.nextItem_end _ h]
      simp
  | cons i l ih =>
    obtain ⟨fuel, rfl⟩ := Nat.exists_eq_succ_of_ne_zero (Nat.ne_of_gt (Nat.zero_lt_of_lt hfuel))
    cases hcs with
    | next hsep h hrest =>
      have hread := hitem i List.mem_cons_self hdepth space_nil h (ends_spellsItems hrest rest)
      have hopen := (hopens i List.mem_cons_self _ h).append
      rw [List.nil_append] at hread
      rw [Reader.items, List.append_assoc, List.append_assoc,
        Reader.nextItem_separates hsep (hopen _)]
      simp only [hread]
      rw [ih (fun j hj => hitem j (List.mem_cons_of_mem _ hj))
        (fun j hj => hopens j (List.mem_cons_of_mem _ hj)) (by simpa using hfuel) hrest]
      simp

theorem reads_sequence (hitem : ∀ i ∈ l, Reads item levels (json i) (content i))
    (hopens : ∀ i ∈ l, ∀ cs, Spells (json i) cs → Opens cs) :
    Reads (Reader.sequence item) (levels + 1) (.list (l.map json)) (l.map content) := by
  intro depth ws cs rest hdepth hws hcs hrest
  cases hcs with
  | @list _ cs hcs =>
    have hlength := length_lt_of_spellsItems hopens hcs
    have hclose : Reader.listEnd.close (']' :: rest) = .ok rest := rfl
    rw [Reader.sequence, List.cons_append, dropSpace_append hws rfl]
    refine enter_eq hclose (fun depth hdepth => ?_) hdepth
    have hfuel : l.length < (cs ++ rest).length + 1 := by
      rw [List.length_append]
      omega
    exact items_eq hitem hopens hdepth hfuel hcs [] rest

end

/-! ## Controls -/

/-- No character is a control. -/
def Printable (cs : List Char) : Prop := ∀ c ∈ cs, 0x20 ≤ c.toNat

-- by the members of the list: the type of characters is finite, and far too large to go through
instance (cs : List Char) : Decidable (Printable cs) :=
  List.decidableBAll (fun c : Char => 0x20 ≤ c.toNat) cs

theorem printable_cons {c : Char} {cs : List Char} (hc : 0x20 ≤ c.toNat) (h : Printable cs) :
    Printable (c :: cs) := by
  intro d hd
  rcases List.mem_cons.1 hd with rfl | hd
  · exact hc
  · exact h d hd

theorem Printable.append {cs ds : List Char} (hcs : Printable cs) (hds : Printable ds) :
    Printable (cs ++ ds) := by
  intro c hc
  rcases List.mem_append.1 hc with hc | hc
  · exact hcs c hc
  · exact hds c hc

theorem printable_controlDigits : ∀ n < 0x20, Printable (controlDigits n) := by decide

theorem printable_escape (c : Char) : Printable (escape c) := by
  unfold escape
  split
  case h_8 =>
    split
    · rename_i hcontrol
      exact printable_cons (by decide) (printable_cons (by decide)
        (printable_controlDigits c.toNat hcontrol))
    · rename_i hcontrol
      exact printable_cons (Nat.le_of_not_lt hcontrol) nofun
  all_goals exact printable_cons (by decide) (printable_cons (by decide) nofun)

theorem printable_quote (s : String) : Printable (quote s) := by
  have hinner : Printable (s.toList.flatMap escape) := by
    intro c hc
    obtain ⟨d, -, hd⟩ := List.mem_flatMap.1 hc
    exact printable_escape d c hd
  exact (printable_cons (by decide) hinner).append (printable_cons (by decide) nofun)

theorem printable_decimal (n : Nat) : Printable (Numeral.decimal n) := by
  intro c hc
  have hdigit := Numeral.isDigit_of_mem_decimal hc
  simp only [Char.isDigit, Bool.and_eq_true, decide_eq_true_eq] at hdigit
  have hzero : '0'.toNat ≤ c.toNat := hdigit.1
  exact Nat.le_trans (by decide) hzero

theorem printable_bool (b : Bool) : Printable (Value.bool b).compactChars := by
  cases b with
  | true =>
    rw [Value.compactChars]
    decide
  | false =>
    rw [Value.compactChars]
    decide

theorem printable_compactFields {fields : List (String × Value)}
    (h : ∀ f ∈ fields, Printable f.2.compactChars) : Printable (compactFields fields) := by
  induction fields with
  | nil =>
    rw [compactFields]
    exact printable_cons (by decide) nofun
  | cons f fields ih =>
    have hvalue := h f List.mem_cons_self
    rw [compactFields, compactField]
    exact (printable_cons (by decide) ((printable_quote f.1).append
      (printable_cons (by decide) hvalue))).append
      (ih fun g hg => h g (List.mem_cons_of_mem _ hg))

theorem printable_object {fields : List (String × Value)}
    (h : ∀ f ∈ fields, Printable f.2.compactChars) :
    Printable (Value.object fields).compactChars := by
  cases fields with
  | nil =>
    rw [Value.compactChars]
    decide
  | cons f fields =>
    have hvalue := h f List.mem_cons_self
    rw [Value.compactChars, compactField]
    exact (printable_cons (by decide) ((printable_quote f.1).append
      (printable_cons (by decide) hvalue))).append
      (printable_compactFields fun g hg => h g (List.mem_cons_of_mem _ hg))

end Json

end FuzzCampaign
