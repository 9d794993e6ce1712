import FuzzCampaign.Proofs.CoverageFigures
import FuzzCampaign.Proofs.PositionText
import Mathlib.Data.List.Perm.Subperm

/-!
# Keys of a summary

A summary counts an entry under the bare name of its function if no other entry has that name, and
under its file and name, with a colon between them, otherwise. Both kinds of keys are texts, so a
name with a colon can be taken for a file and a name. Only then are different functions counted
together.

* `Coverage.mem_records`, `Coverage.nodup_records`: the entries of coverage;
* `Coverage.NamedAlone`, `Coverage.summaryKey_of_alone`, `Coverage.summaryKey_of_shared`: the two
  kinds of keys;
* `Coverage.Alike`, `Coverage.summaryKey_eq_iff`: which entries are counted together;
* `Coverage.qualified_inj`: names without colons;
* **`Coverage.counted_together_iff`**: when functions are told apart, and `Coverage.misread`,
  coverage where they are not.
-/

namespace FuzzCampaign

namespace Coverage

variable {c : Coverage} {file file' : String} {p p' : Position} {f f' : FunctionHits}

/-! ## Entries -/

theorem mem_records : (file, p, f) ∈ c.records ↔ c.record? file p = some f := by
  rw [records, List.mem_flatMap, record?, Option.bind_eq_some_iff]
  simp only [Prod.exists, List.mem_map, Prod.mk.injEq, SortedMap.mem_toList]
  constructor
  · rintro ⟨_, positions, hfile, _, _, hp, rfl, rfl, rfl⟩
    exact ⟨positions, hfile, hp⟩
  · rintro ⟨positions, hfile, hp⟩
    exact ⟨file, positions, hfile, p, f, hp, rfl, rfl, rfl⟩

theorem nodup_records (c : Coverage) : c.records.Nodup := by
  refine List.nodup_flatMap.2 ⟨fun e _ => ?_, ?_⟩
  · refine e.2.nodup_toList.map fun r r' heq => ?_
    simpa [Prod.ext_iff] using heq
  · refine (List.pairwise_map.1 c.nodup_keys).imp fun {e e'} hne => ?_
    simp only [Function.onFun, List.disjoint_left, List.mem_map, not_exists, not_and]
    rintro _ ⟨r, -, rfl⟩ r' - heq
    exact hne (congrArg Prod.fst heq).symm

/-! ## The two kinds of keys -/

/-- No entry at another place has a function of this name. -/
def NamedAlone (c : Coverage) (file : String) (p : Position) (name : String) : Prop :=
  ∀ file' p' f, c.record? file' p' = some f → f.name = name → file' = file ∧ p' = p

theorem length_le_one_iff {α : Type} {l : List α} (hl : l.Nodup) {a : α} (ha : a ∈ l) :
    l.length ≤ 1 ↔ ∀ b ∈ l, b = a := by
  constructor
  · intro hlength b hb
    obtain ⟨x, rfl⟩ :=
      List.length_eq_one_iff.1 (Nat.le_antisymm hlength (List.length_pos_of_mem ha))
    rw [List.mem_singleton] at ha hb
    rw [ha, hb]
  · intro h
    exact (List.subperm_of_subset hl fun b hb => List.mem_singleton.2 (h b hb)).length_le

/-- A name stands alone if it is counted once. -/
theorem nameCount_le_one_iff (h : c.record? file p = some f) :
    c.nameCount f.name ≤ 1 ↔ c.NamedAlone file p f.name := by
  have hmem : ∀ e : String × Position × FunctionHits,
      e ∈ c.records.filter (fun e => e.2.2.name = f.name) ↔
        c.record? e.1 e.2.1 = some e.2.2 ∧ e.2.2.name = f.name := fun e => by
    rw [List.mem_filter, decide_eq_true_eq]
    exact and_congr_left' mem_records
  rw [nameCount, List.countP_eq_length_filter,
    length_le_one_iff (c.nodup_records.filter _) ((hmem (file, p, f)).2 ⟨h, rfl⟩)]
  simp only [hmem]
  constructor
  · intro honly file' p' f' hrecord hname
    cases honly (file', p', f') ⟨hrecord, hname⟩
    exact ⟨rfl, rfl⟩
  · rintro halone ⟨file', p', f'⟩ ⟨hrecord, hname⟩
    obtain ⟨rfl, rfl⟩ := halone file' p' f' hrecord hname
    rw [h, Option.some.injEq] at hrecord
    rw [hrecord]

/-- A name with its file. -/
def qualified (file name : String) : String := file ++ ":" ++ name

theorem summaryKey_eq (c : Coverage) (file name : String) :
    c.summaryKey file name = if 1 < c.nameCount name then qualified file name else name :=
  rfl

theorem summaryKey_of_alone (h : c.record? file p = some f) (halone : c.NamedAlone file p f.name) :
    c.summaryKey file f.name = f.name := by
  rw [summaryKey_eq, if_neg (Nat.not_lt.2 ((nameCount_le_one_iff h).2 halone))]

theorem summaryKey_of_shared (h : c.record? file p = some f)
    (hshared : ¬c.NamedAlone file p f.name) : c.summaryKey file f.name = qualified file f.name := by
  rw [summaryKey_eq, if_pos (Nat.not_le.1 ((nameCount_le_one_iff h).not.2 hshared))]

/-! ## Entries of one key -/

/-- Entries of one file and one name, or entries of which at least one is counted under its file and
name, and whose keys read the same. -/
inductive Alike (c : Coverage) (file : String) (p : Position) (name : String) (file' : String)
    (p' : Position) (name' : String) : Prop
  | same (hfile : file = file') (hname : name = name')
  | shared (h : ¬c.NamedAlone file p name) (h' : ¬c.NamedAlone file' p' name')
    (htext : qualified file name = qualified file' name')
  | left (h : ¬c.NamedAlone file p name) (h' : c.NamedAlone file' p' name')
    (htext : qualified file name = name')
  | right (h : c.NamedAlone file p name) (h' : ¬c.NamedAlone file' p' name')
    (htext : name = qualified file' name')

/-- **Entries of one key.** -/
theorem summaryKey_eq_iff (h : c.record? file p = some f) (h' : c.record? file' p' = some f') :
    c.summaryKey file f.name = c.summaryKey file' f'.name ↔
      c.Alike file p f.name file' p' f'.name := by
  constructor
  · intro heq
    by_cases ha : c.NamedAlone file p f.name <;> by_cases ha' : c.NamedAlone file' p' f'.name
    · rw [summaryKey_of_alone h ha, summaryKey_of_alone h' ha'] at heq
      exact .same (ha file' p' f' h' heq.symm).1.symm heq
    · rw [summaryKey_of_alone h ha, summaryKey_of_shared h' ha'] at heq
      exact .right ha ha' heq
    · rw [summaryKey_of_shared h ha, summaryKey_of_alone h' ha'] at heq
      exact .left ha ha' heq
    · rw [summaryKey_of_shared h ha, summaryKey_of_shared h' ha'] at heq
      exact .shared ha ha' heq
  · rintro (⟨hfile, hname⟩ | ⟨ha, ha', htext⟩ | ⟨ha, ha', htext⟩ | ⟨ha, ha', htext⟩)
    · rw [hfile, hname]
    · rw [summaryKey_of_shared h ha, summaryKey_of_shared h' ha', htext]
    · rw [summaryKey_of_shared h ha, summaryKey_of_alone h' ha', htext]
    · rw [summaryKey_of_alone h ha, summaryKey_of_shared h' ha', htext]

/-! ## Names without colons -/

theorem toList_qualified (file name : String) :
    (qualified file name).toList = file.toList ++ ':' :: name.toList := by
  simp [qualified]

theorem qualified_ne (file name : String) : qualified file name ≠ name := by
  intro h
  have hlength := congrArg (fun s : String => s.toList.length) h
  simp only [toList_qualified, List.length_append, List.length_cons] at hlength
  omega

/-- A name without colons is what follows the last colon. -/
theorem qualified_inj {name name' : String} (hname : ':' ∉ name.toList)
    (hname' : ':' ∉ name'.toList)
    (h : qualified file name = qualified file' name') : file = file' ∧ name = name' := by
  have hreverse := congrArg (fun s : String => s.toList.reverse) h
  simp only [toList_qualified, List.reverse_append, List.reverse_cons, List.append_assoc,
    List.singleton_append] at hreverse
  have hsplit := congrArg (Text.splitOnce ':') hreverse
  rw [Text.splitOnce_append (by simpa using hname), Text.splitOnce_append (by simpa using hname'),
    Option.some.injEq, Prod.mk.injEq] at hsplit
  exact ⟨String.toList_inj.1 (List.reverse_injective hsplit.2),
    String.toList_inj.1 (List.reverse_injective hsplit.1)⟩

theorem ne_qualified {name name' : String} (hname : ':' ∉ name.toList) :
    name ≠ qualified file name' := by
  rintro rfl
  exact hname (by simp [toList_qualified])

theorem Alike.same_of_plain {name name' : String} (h : c.Alike file p name file' p' name')
    (hname : ':' ∉ name.toList) (hname' : ':' ∉ name'.toList) : file = file' ∧ name = name' := by
  cases h with
  | same hfile heq => exact ⟨hfile, heq⟩
  | shared _ _ htext => exact qualified_inj hname hname' htext
  | left _ _ htext => exact absurd htext.symm (ne_qualified hname')
  | right _ _ htext => exact absurd htext (ne_qualified hname)

/-- The key of an entry is the only one under which it is counted. -/
theorem mem_counted (h : c.record? file p = some f) {key : String} :
    (file, p, f) ∈ c.counted key ↔ key = c.summaryKey file f.name := by
  rw [counted, List.mem_filter, mem_records, decide_eq_true_eq, eq_comm (a := key)]
  exact and_iff_right h

theorem exists_counted_iff (h : c.record? file p = some f) (h' : c.record? file' p' = some f') :
    (∃ key, (file, p, f) ∈ c.counted key ∧ (file', p', f') ∈ c.counted key) ↔
      c.Alike file p f.name file' p' f'.name := by
  simp only [mem_counted h, mem_counted h', exists_eq_left]
  exact summaryKey_eq_iff h h'

/-- **When entries are counted together.** The figure of a key is the sum of the hits of its
entries. Two entries have one key if and only if they are of one file and one name, or else their
keys read the same by way of a colon; so entries whose names have no colon are counted together only
if they are of one file and one name. -/
theorem counted_together_iff (c : Coverage) {file file' : String} {p p' : Position}
    {f f' : FunctionHits} (h : c.record? file p = some f) (h' : c.record? file' p' = some f') :
    ((∃ key, (file, p, f) ∈ c.counted key ∧ (file', p', f') ∈ c.counted key) ↔
      c.Alike file p f.name file' p' f'.name) ∧
    (':' ∉ f.name.toList → ':' ∉ f'.name.toList →
      ((∃ key, (file, p, f) ∈ c.counted key ∧ (file', p', f') ∈ c.counted key) ↔
        file = file' ∧ f.name = f'.name)) ∧
    ∀ m, c.summary = .ok m → ∀ key, figure m key = hitSum (c.counted key) := by
  refine ⟨exists_counted_iff h h', fun hname hname' => ?_, fun m hm key => figure_summary hm key⟩
  rw [exists_counted_iff h h']
  constructor
  · exact fun halike => halike.same_of_plain hname hname'
  · rintro ⟨hfile, heq⟩
    exact .same hfile heq

/-- A function of two files, and in a third file one whose name reads like the first with its
file. -/
def misread : Coverage :=
  .ofRecords [("A", ⟨1, 1, 1, 9⟩, ⟨"f", 1⟩), ("B", ⟨1, 1, 1, 9⟩, ⟨"f", 2⟩),
    ("C", ⟨1, 1, 1, 9⟩, ⟨"A:f", 4⟩)]

/-- The functions of two files are counted together, as one name has a colon, and those of one name
are not. -/
theorem counted_together_misread :
    (merge [misread]).record? "A" ⟨1, 1, 1, 9⟩ = some ⟨"f", 1⟩ ∧
    (merge [misread]).record? "B" ⟨1, 1, 1, 9⟩ = some ⟨"f", 2⟩ ∧
    (merge [misread]).record? "C" ⟨1, 1, 1, 9⟩ = some ⟨"A:f", 4⟩ ∧
    (merge [misread]).Alike "A" ⟨1, 1, 1, 9⟩ "f" "C" ⟨1, 1, 1, 9⟩ "A:f" ∧
    ':' ∉ "f".toList ∧
    ¬∃ key, ("A", ⟨1, 1, 1, 9⟩, ⟨"f", 1⟩) ∈ (merge [misread]).counted key ∧
      ("B", ⟨1, 1, 1, 9⟩, ⟨"f", 2⟩) ∈ (merge [misread]).counted key := by
  have hA : (merge [misread]).record? "A" ⟨1, 1, 1, 9⟩ = some ⟨"f", 1⟩ := by decide +kernel
  have hB : (merge [misread]).record? "B" ⟨1, 1, 1, 9⟩ = some ⟨"f", 2⟩ := by decide +kernel
  have hC : (merge [misread]).record? "C" ⟨1, 1, 1, 9⟩ = some ⟨"A:f", 4⟩ := by decide +kernel
  have hplain : ':' ∉ "f".toList := by decide
  have htogether : ("A", ⟨1, 1, 1, 9⟩, ⟨"f", 1⟩) ∈ (merge [misread]).counted "A:f" ∧
      ("C", ⟨1, 1, 1, 9⟩, ⟨"A:f", 4⟩) ∈ (merge [misread]).counted "A:f" := by decide +kernel
  refine ⟨hA, hB, hC, (counted_together_iff _ hA hC).1.1 ⟨_, htogether⟩, hplain, fun hkey => ?_⟩
  obtain ⟨hfile, -⟩ := ((counted_together_iff _ hA hB).2.1 hplain hplain).1 hkey
  exact absurd hfile (by decide)

/-- **Different functions can be counted together**: the hits of two files and two names are added
under one key. -/
theorem functions_added_together :
    ("A", ⟨1, 1, 1, 9⟩, ⟨"f", 1⟩) ∈ (merge [misread]).counted "A:f" ∧
    ("C", ⟨1, 1, 1, 9⟩, ⟨"A:f", 4⟩) ∈ (merge [misread]).counted "A:f" ∧
    (merge [misread]).summary.map (·.toList) = .ok [("A:f", 5), ("B:f", 2)] := by
  decide +kernel

end Coverage

end FuzzCampaign
