import FuzzCampaign.Json.Record
import FuzzCampaign.Proofs.JsonNumbers
import FuzzCampaign.Proofs.JsonStrings

/-!
# JSON read back

A value has many texts, which differ in the white space between the tokens. A reader of the shape of
a value reads it from each of them.

* `Json.Spells`: the texts of a value;
* `Json.spells_prettyChars`, `Json.spells_compactChars`: the two texts written are among them;
* `Json.Reads`: a reader takes every text of a value;
* `Json.reads_text`, `Json.reads_unsigned`, `Json.reads_map`, `Json.reads_record`: the shapes;
* **`Json.Reads.run_eq`**: whole texts.
-/

namespace FuzzCampaign

namespace Json

/-! ## The texts of a value -/

/-- White space between tokens. -/
def Space (cs : List Char) : Prop := ∀ c ∈ cs, isSpace c = true

/-- What stands before an entry of a list or an object: a comma, unless it is the first. -/
inductive Separates : Bool → List Char → Prop
  | first {ws : List Char} (h : Space ws) : Separates true ws
  | later {ws ws' : List Char} (h : Space ws) (h' : Space ws') :
    Separates false (ws ++ ',' :: ws')

mutual

/-- The texts of a value. -/
inductive Spells : Value → List Char → Prop
  | null : Spells .null ['n', 'u', 'l', 'l']
  | true : Spells (.bool true) ['t', 'r', 'u', 'e']
  | false : Spells (.bool false) ['f', 'a', 'l', 's', 'e']
  | number (n : Number) : Spells (.number n) n.text
  | text (s : String) : Spells (.text s) (quote s)
  | list {items : List Value} {cs : List Char} (h : SpellsItems true items cs) :
    Spells (.list items) ('[' :: cs)
  | object {fields : List (String × Value)} {cs : List Char} (h : SpellsFields true fields cs) :
    Spells (.object fields) ('\x7b' :: cs)

/-- The texts of the items of a list, up to its end. -/
inductive SpellsItems : Bool → List Value → List Char → Prop
  | done {first : Bool} {ws : List Char} (h : Space ws) : SpellsItems first [] (ws ++ [']'])
  | next {first : Bool} {v : Value} {vs : List Value} {sep cs rest : List Char}
    (hsep : Separates first sep) (h : Spells v cs) (hrest : SpellsItems false vs rest) :
    SpellsItems first (v :: vs) (sep ++ (cs ++ rest))

/-- The texts of the fields of an object, up to its end. -/
inductive SpellsFields : Bool → List (String × Value) → List Char → Prop
  | done {first : Bool} {ws : List Char} (h : Space ws) : SpellsFields first [] (ws ++ ['\x7d'])
  | next {first : Bool} {k : String} {v : Value} {fields : List (String × Value)}
    {sep ws ws' cs rest : List Char} (hsep : Separates first sep) (hws : Space ws)
    (hws' : Space ws') (h : Spells v cs) (hrest : SpellsFields false fields rest) :
    SpellsFields first ((k, v) :: fields)
      (sep ++ (quote k ++ (ws ++ ':' :: (ws' ++ (cs ++ rest)))))

end

/-! ## The indented text -/

theorem space_newline (level : Nat) : Space (newline level) := by
  intro c hc
  rcases List.mem_cons.1 hc with rfl | hc
  · rfl
  · rw [List.eq_of_mem_replicate hc]
    rfl

theorem space_nil : Space [] := nofun

theorem separates_comma (level : Nat) : Separates false (',' :: newline level) :=
  .later space_nil (space_newline level)

theorem space_blank : Space [' '] := by simp [Space, isSpace]

theorem spellsFields_cons {first : Bool} {k : String} {v : Value} {fields : List (String × Value)}
    {sep ws cs rest : List Char} (hsep : Separates first sep) (hws : Space ws) (h : Spells v cs)
    (hrest : SpellsFields false fields rest) :
    SpellsFields first ((k, v) :: fields) (sep ++ (quote k ++ ':' :: (ws ++ cs)) ++ rest) := by
  simpa using SpellsFields.next hsep space_nil hws h hrest

mutual

theorem spells_prettyChars (level : Nat) : ∀ v : Value, Spells v (v.prettyChars level)
  | .null => by rw [Value.prettyChars]; exact .null
  | .bool true => by rw [Value.prettyChars]; exact .true
  | .bool false => by rw [Value.prettyChars]; exact .false
  | .number n => by rw [Value.prettyChars]; exact .number n
  | .text s => by rw [Value.prettyChars]; exact .text s
  | .list [] => by rw [Value.prettyChars]; exact .list (.done space_nil)
  | .list (v :: vs) => by
    rw [Value.prettyChars, List.cons_append, List.cons_append, List.append_assoc]
    exact .list
      (.next (.first (space_newline _)) (spells_prettyChars _ v) (spells_prettyItems _ vs))
  | .object [] => by rw [Value.prettyChars]; exact .object (.done space_nil)
  | .object ((k, v) :: fields) => by
    rw [Value.prettyChars, prettyField]
    exact .object (spellsFields_cons (.first (space_newline _)) space_blank
      (spells_prettyChars _ v) (spells_prettyFields _ fields))

theorem spells_prettyItems (level : Nat) :
    ∀ vs : List Value, SpellsItems false vs (prettyItems level vs)
  | [] => by
    rw [prettyItems]
    exact .done (space_newline level)
  | v :: vs => by
    rw [prettyItems, List.append_assoc]
    exact .next (separates_comma _) (spells_prettyChars _ v) (spells_prettyItems level vs)

theorem spells_prettyFields (level : Nat) :
    ∀ fields : List (String × Value), SpellsFields false fields (prettyFields level fields)
  | [] => by
    rw [prettyFields]
    exact .done (space_newline level)
  | (k, v) :: fields => by
    rw [prettyFields, prettyField]
    exact spellsFields_cons (separates_comma _) space_blank (spells_prettyChars _ v)
      (spells_prettyFields level fields)

end

/-! ## The text without white space -/

mutual

theorem spells_compactChars : ∀ v : Value, Spells v v.compactChars
  | .null => by rw [Value.compactChars]; exact .null
  | .bool true => by rw [Value.compactChars]; exact .true
  | .bool false => by rw [Value.compactChars]; exact .false
  | .number n => by rw [Value.compactChars]; exact .number n
  | .text s => by rw [Value.compactChars]; exact .text s
  | .list [] => by rw [Value.compactChars]; exact .list (.done space_nil)
  | .list (v :: vs) => by
    rw [Value.compactChars]
    exact .list (.next (.first space_nil) (spells_compactChars v) (spells_compactItems vs))
  | .object [] => by rw [Value.compactChars]; exact .object (.done space_nil)
  | .object ((k, v) :: fields) => by
    rw [Value.compactChars, compactField]
    exact .object (spellsFields_cons (.first space_nil) space_nil (spells_compactChars v)
      (spells_compactFields fields))

theorem spells_compactItems : ∀ vs : List Value, SpellsItems false vs (compactItems vs)
  | [] => by
    rw [compactItems]
    exact .done space_nil
  | v :: vs => by
    rw [compactItems]
    exact .next (.later space_nil space_nil) (spells_compactChars v) (spells_compactItems vs)

theorem spells_compactFields :
    ∀ fields : List (String × Value), SpellsFields false fields (compactFields fields)
  | [] => by
    rw [compactFields]
    exact .done space_nil
  | (k, v) :: fields => by
    rw [compactFields, compactField]
    exact spellsFields_cons (.later space_nil space_nil) space_nil (spells_compactChars v)
      (spells_compactFields fields)

end

/-! ## Tokens -/

theorem dropSpace_append {ws : List Char} (hws : Space ws) {c : Char} (hc : isSpace c = false)
    (cs : List Char) : dropSpace (ws ++ c :: cs) = c :: cs := by
  rw [dropSpace, List.dropWhile_append_of_pos hws, List.dropWhile_cons_of_neg (by simp [hc])]

theorem quote_append (k : String) (cs : List Char) :
    quote k ++ cs = '"' :: (k.toList.flatMap escape ++ '"' :: cs) := by
  simp [quote]

theorem ends_cons {c : Char} (h : isSpace c = true ∨ c = ',' ∨ c = ']' ∨ c = '\x7d')
    (cs : List Char) : Ends (c :: cs) := by
  intro d hd
  obtain rfl : c = d := by simpa using hd
  simp only [isSpace, Bool.or_eq_true, decide_eq_true_eq] at h
  rcases h with (((rfl | rfl) | rfl) | rfl) | rfl | rfl | rfl <;> decide

theorem ends_append {ws : List Char} (hws : Space ws) {cs : List Char} (hcs : Ends cs) :
    Ends (ws ++ cs) := by
  cases ws with
  | nil => exact hcs
  | cons c ws => exact ends_cons (.inl (hws c List.mem_cons_self)) _

namespace Reader

theorem nextKey_separates {first : Bool} {sep : List Char} (h : Separates first sep)
    (cs : List Char) : nextKey first (sep ++ '"' :: cs) = .ok (true, cs) := by
  cases h with
  | first h =>
    rw [nextKey, dropSpace_append h rfl]
    rfl
  | later h h' =>
    rw [nextKey, List.append_assoc, List.cons_append, dropSpace_append h rfl]
    simp [dropSpace_append h' (c := '"') rfl]

theorem nextKey_end (first : Bool) {ws : List Char} (h : Space ws) (cs : List Char) :
    nextKey first (ws ++ '\x7d' :: cs) = .ok (false, '\x7d' :: cs) := by
  rw [nextKey, dropSpace_append h rfl]
  rfl

theorem colon_append {ws : List Char} (h : Space ws) (cs : List Char) :
    colon (ws ++ ':' :: cs) = .ok cs := by
  rw [colon, dropSpace_append h rfl]
  rfl

end Reader

theorem ends_spellsFields {fields : List (String × Value)} {cs : List Char}
    (h : SpellsFields false fields cs) (rest : List Char) : Ends (cs ++ rest) := by
  cases h with
  | done h =>
    rw [List.append_assoc]
    exact ends_append h (ends_cons (by simp) _)
  | next hsep =>
    cases hsep with
    | later h h' =>
      simp only [List.append_assoc, List.cons_append]
      exact ends_append h (ends_cons (by simp) _)

theorem length_lt_of_spellsFields {first : Bool} {fields : List (String × Value)} {cs : List Char}
    (h : SpellsFields first fields cs) : fields.length < cs.length := by
  induction fields generalizing first cs with
  | nil =>
    cases h
    simp
  | cons f fields ih =>
    cases h with
    | next hsep hws hws' h hrest =>
      have hlength := ih hrest
      simp only [List.length_append, List.length_cons]
      omega

/-! ## Readers -/

/-- A reader takes every text of a value, if more than `levels` levels of nesting are left and what
follows does not go on with a number. -/
def Reads {α : Type} (reader : Reader α) (levels : Nat) (v : Value) (a : α) : Prop :=
  ∀ ⦃depth ws cs rest⦄, levels < depth → Space ws → Spells v cs → Ends rest →
    reader depth (ws ++ (cs ++ rest)) = .ok (a, rest)

theorem reads_textFor (expected s : String) : Reads (Reader.textFor expected) 0 (.text s) s := by
  intro depth ws cs rest _ hws hcs _
  cases hcs
  rw [Reader.textFor, quote_append, dropSpace_append hws rfl]
  exact stringAfterQuote_escape s rest

theorem reads_text (s : String) : Reads Reader.text 0 (.text s) s := reads_textFor _ s

theorem isSpace_of_isDigit {c : Char} (h : c.isDigit = true) : isSpace c = false := by
  refine Bool.eq_false_iff.2 fun hspace => ?_
  simp only [isSpace, Bool.or_eq_true, decide_eq_true_eq] at hspace
  rcases hspace with ((rfl | rfl) | rfl) | rfl <;> exact absurd h (by decide)

theorem reads_unsigned {n : UInt64} {bound : Nat} (h : n.toNat < bound) (expected : String) :
    Reads (Reader.unsigned bound expected) 0 (.number (.unsigned n)) n.toNat := by
  intro depth ws cs rest _ hws hcs hrest
  cases hcs
  have hread := readNumber_decimal n hrest
  obtain ⟨c, ds, hdigits⟩ := List.exists_cons_of_ne_nil (Numeral.decimal_ne_nil n.toNat)
  have hc : c.isDigit = true := Numeral.isDigit_of_mem_decimal (n := n.toNat) (by simp [hdigits])
  rw [hdigits, List.cons_append] at hread
  rw [Number.text, hdigits, List.cons_append, Reader.unsigned,
    dropSpace_append hws (isSpace_of_isDigit hc)]
  split
  · contradiction
  · rename_i heq
    rw [(List.cons.inj heq).1] at hc
    exact absurd hc (by decide)
  · rename_i heq
    cases heq
    rw [if_pos hc, hread]
    simp [Reader.integer, h]

/-! ### Objects -/

/-- What the reader of an object's entries comes to, entry by entry. -/
inductive Takes {σ κ : Type} (key : σ → String → Except String κ) (entry : σ → κ → Reader σ)
    (levels : Nat) : σ → List (String × Value) → σ → Prop
  | nil {s : σ} : Takes key entry levels s [] s
  | cons {s s' s'' : σ} {k : String} {i : κ} {v : Value} {fields : List (String × Value)}
    (hkey : key s k = .ok i) (hentry : Reads (entry s i) levels v s')
    (hfields : Takes key entry levels s' fields s'') :
    Takes key entry levels s ((k, v) :: fields) s''

theorem Takes.entries_eq {σ κ : Type} {key : σ → String → Except String κ}
    {entry : σ → κ → Reader σ} {levels : Nat} {s s' : σ} {fields : List (String × Value)}
    (h : Takes key entry levels s fields s') {depth : Nat} (hdepth : levels < depth) {fuel : Nat}
    (hfuel : fields.length < fuel) {first : Bool} {cs : List Char}
    (hcs : SpellsFields first fields cs) (rest : List Char) :
    Reader.entries key entry depth fuel first s (cs ++ rest) = .ok (s', '\x7d' :: rest) := by
  -- one unit of fuel for each entry, and one for the end
  induction h generalizing fuel first cs with
  | nil =>
    obtain ⟨fuel, rfl⟩ := Nat.exists_eq_succ_of_ne_zero (Nat.ne_of_gt hfuel)
    cases hcs with
    | done h =>
      rw [Reader.entries, List.append_assoc, List.cons_append, Reader.nextKey_end _ h]
      rfl
  | cons hkey hentry _ ih =>
    obtain ⟨fuel, rfl⟩ := Nat.exists_eq_succ_of_ne_zero (Nat.ne_of_gt (Nat.zero_lt_of_lt hfuel))
    cases hcs with
    | next hsep hws hws' h hrest =>
      have hread := hentry hdepth hws' h (ends_spellsFields hrest rest)
      simp only [List.append_assoc, List.cons_append, quote_append]
      rw [Reader.entries, Reader.nextKey_separates hsep]
      simp only [stringAfterQuote_escape, hkey, Reader.colon_append hws, hread]
      exact ih (by simpa using hfuel) hrest

/-- The entries of a whole object; the length of the text is fuel enough. -/
theorem Takes.entries_length_eq {σ κ : Type} {key : σ → String → Except String κ}
    {entry : σ → κ → Reader σ} {levels : Nat} {s s' : σ} {fields : List (String × Value)}
    (h : Takes key entry levels s fields s') {depth : Nat} (hdepth : levels < depth)
    {cs : List Char} (hcs : SpellsFields true fields cs) (rest : List Char) :
    Reader.entries key entry depth ((cs ++ rest).length + 1) true s (cs ++ rest) =
      .ok (s', '\x7d' :: rest) := by
  have hlength := length_lt_of_spellsFields hcs
  refine h.entries_eq hdepth ?_ hcs rest
  rw [List.length_append]
  omega

theorem enter_eq {α : Type} {inner : Reader α} {bracket : Reader.Bracket} {levels : Nat} {c : Char}
    {cs rest rest' : List Char} {a : α} (hclose : bracket.close rest = .ok rest')
    (h : ∀ depth, levels < depth → inner depth cs = .ok (a, rest)) {depth : Nat}
    (hdepth : levels + 1 < depth) :
    Reader.enter depth (c :: cs) bracket inner = .ok (a, rest') := by
  obtain ⟨depth, rfl⟩ : ∃ d, depth = d + 2 := ⟨depth - 2, by omega⟩
  rw [Reader.enter, List.drop_one, List.tail_cons, h (depth + 1) (by omega)]
  · simp only [hclose]
    rfl
  · exact nofun

theorem close_objectEnd (rest : List Char) :
    Reader.objectEnd.close ('\x7d' :: rest) = .ok rest := rfl

theorem reads_map {κ α ι : Type} [Ord κ] [Std.TransOrd κ] [Std.LawfulEqOrd κ]
    {key : String → Except String κ} {value : Reader α} {levels : Nat} (l : List ι)
    {name : ι → String} {json : ι → Value} {place : ι → κ} {content : ι → α}
    (hkey : ∀ i ∈ l, key (name i) = .ok (place i))
    (hvalue : ∀ i ∈ l, Reads value levels (json i) (content i)) :
    Reads (Reader.map key value) (levels + 1) (.object (l.map fun i => (name i, json i)))
      (SortedMap.ofList (l.map fun i => (place i, content i))) := by
  have htakes : ∀ m : SortedMap κ α, Takes (fun _ name => key name)
      (fun m k d cs => (value d cs).map fun p => (m.insert k p.1, p.2)) levels m
      (l.map fun i => (name i, json i))
      ((l.map fun i => (place i, content i)).foldl (fun m e => m.insert e.1 e.2) m) := by
    induction l with
    | nil => exact fun _ => .nil
    | cons i l ih =>
      intro m
      have hentry :
          Reads (fun d cs => (value d cs).map fun p => (m.insert (place i) p.1, p.2)) levels
          (json i) (m.insert (place i) (content i)) := by
        intro depth ws cs rest hdepth hws hcs hrest
        simp only [hvalue i List.mem_cons_self hdepth hws hcs hrest]
        rfl
      exact .cons (hkey i List.mem_cons_self) hentry (ih
        (fun j hj => hkey j (List.mem_cons_of_mem _ hj))
        (fun j hj => hvalue j (List.mem_cons_of_mem _ hj)) _)
  intro depth ws cs rest hdepth hws hcs hrest
  cases hcs with
  | object hcs =>
    rw [Reader.map, List.cons_append, dropSpace_append hws rfl]
    exact enter_eq (close_objectEnd rest)
      (fun _ hdepth => (htakes .empty).entries_length_eq hdepth hcs rest) hdepth

/-- What the fields of a record come to when they are given in the order of declaration. -/
inductive Fills {α : Type} (levels : Nat) :
    List (Field α) → List (String × Value) → α → α → Prop
  | nil {a : α} : Fills levels [] [] a a
  | cons {f : Field α} {fs : List (Field α)} {v : Value} {fields : List (String × Value)}
    {a a' a'' : α} (hread : Reads (f.read a) levels v a')
      (hfields : Fills levels fs fields a' a'') :
    Fills levels (f :: fs) ((f.name, v) :: fields) a a''

theorem Reads.field {α β : Type} {reader : Reader β} {levels : Nat} {v : Value} {b : β}
    (h : Reads reader levels v b) (name : String) (put : β → α → α) (a : α) :
    Reads ((Field.of name reader put).read a) levels v (put b a) := by
  intro depth ws cs rest hdepth hws hcs hrest
  show (reader depth (ws ++ (cs ++ rest))).map _ = _
  rw [h hdepth hws hcs hrest]
  rfl

theorem Fills.takes {α : Type} {levels : Nat} {all fs : List (Field α)}
    {fields : List (String × Value)} {a b : α} (h : Fills levels fs fields a b)
    (refuse : String → Option String) (before : List (Field α)) (hall : all = before ++ fs)
    (hnodup : (all.map (·.name)).Nodup) :
    Takes (fun p key => Reader.fieldOf all refuse p.seen key) Reader.fieldValue levels
      ⟨a, (before.map (·.name)).reverse⟩ fields ⟨b, (all.map (·.name)).reverse⟩ := by
  -- the fields in `before` are those that were seen
  induction h generalizing before with
  | nil =>
    obtain rfl : all = before := by simpa using hall
    exact .nil
  | @cons f fs v fields a a' b hread _ ih =>
    subst hall
    rw [List.map_append, List.map_cons] at hnodup
    have hseen : f.name ∉ before.map (·.name) := fun hmem =>
      (List.nodup_append.1 hnodup).2.2 _ hmem _ List.mem_cons_self rfl
    have hfind : (before ++ f :: fs).find? (fun g => g.name = f.name) = some f := by
      have hnone : before.find? (fun g => g.name = f.name) = none :=
        List.find?_eq_none.2 fun g hg hname =>
          hseen (List.mem_map.2 ⟨g, hg, of_decide_eq_true hname⟩)
      rw [List.find?_append, hnone]
      simp
    have hkey : Reader.fieldOf (before ++ f :: fs) refuse (before.map (·.name)).reverse f.name =
        .ok (some f) := by
      simp [Reader.fieldOf, hfind, hseen]
    have hentry : Reads (Reader.fieldValue ⟨a, (before.map (·.name)).reverse⟩ (some f)) levels v
        ⟨a', f.name :: (before.map (·.name)).reverse⟩ := by
      intro depth ws cs rest hdepth hws hcs hrest
      simp only [Reader.fieldValue, hread hdepth hws hcs hrest]
      rfl
    refine .cons hkey hentry ?_
    simpa using ih (before ++ [f]) (by simp)

/-- A record is read from an object with its fields in the order of declaration, if they fit
together. -/
theorem reads_recordWith {α β : Type} {levels : Nat} (name shortList : String)
    {fields : List (Field α)} {blank a : α} {b : β} {values : List (String × Value)}
    (refuse : String → Option String) {check : α → Except String β}
    (h : Fills levels fields values blank a) (hcheck : check a = .ok b)
    (hnodup : (fields.map (·.name)).Nodup) :
    Reads (Reader.recordWith name shortList fields blank refuse check) (levels + 1)
      (.object values) b := by
  intro depth ws cs rest hdepth hws hcs hrest
  have htakes : Takes (fun (p : Reader.Gathered α) key =>
      Reader.fieldOf fields refuse p.seen key) Reader.fieldValue levels ⟨blank, []⟩ values
      ⟨a, (fields.map (·.name)).reverse⟩ := h.takes refuse [] rfl hnodup
  cases hcs with
  | object hcs =>
    have hmissing : fields.find? (fun f => f.required &&
        !((fields.map (·.name)).reverse.contains f.name)) = none := by
      refine List.find?_eq_none.2 fun f hf => ?_
      have hmem : f.name ∈ fields.map (·.name) := List.mem_map_of_mem hf
      simp [hmem]
    rw [Reader.recordWith, List.cons_append, dropSpace_append hws rfl]
    refine enter_eq (close_objectEnd rest) (fun depth hdepth => ?_) hdepth
    simp only [htakes.entries_length_eq hdepth hcs rest, hmissing, hcheck]

theorem reads_record {α : Type} {levels : Nat} (name : String) {fields : List (Field α)}
    {blank a : α} {values : List (String × Value)} (h : Fills levels fields values blank a)
    (hnodup : (fields.map (·.name)).Nodup) :
    Reads (Reader.record name fields blank) (levels + 1) (.object values) a :=
  reads_recordWith _ _ _ h rfl hnodup

/-! ## Whole texts -/

/-- **A value is read back from each of its texts.** -/
theorem Reads.run_eq {α : Type} {reader : Reader α} {levels : Nat} {v : Value} {a : α}
    (h : Reads reader levels v a) (hlevels : levels < nestingLimit) {cs : List Char}
    (hcs : Spells v cs) : Reader.run reader (String.ofList cs) = .ok a := by
  have hread : reader nestingLimit ([] ++ (cs ++ [])) = .ok (a, []) :=
    h hlevels space_nil hcs nofun
  rw [List.nil_append, List.append_nil] at hread
  rw [Reader.run, String.toList_ofList]
  simp only [hread]
  rfl

theorem Reads.run_pretty {α : Type} {reader : Reader α} {levels : Nat} {v : Value} {a : α}
    (h : Reads reader levels v a) (hlevels : levels < nestingLimit) :
    Reader.run reader v.pretty = .ok a := h.run_eq hlevels (spells_prettyChars 0 v)

theorem Reads.run_compact {α : Type} {reader : Reader α} {levels : Nat} {v : Value} {a : α}
    (h : Reads reader levels v a) (hlevels : levels < nestingLimit) :
    Reader.run reader v.compact = .ok a := h.run_eq hlevels (spells_compactChars v)

end Json

end FuzzCampaign
