import FuzzCampaign.Proofs.SummaryKeys
import Mathlib.Data.String.Basic

/-!
# Summaries keep every hit

Where the sum of all hits is a count there is a summary, a ranking and a table, and all of them show
every hit once.

* `Coverage.isSome_get?_of_foldlM`, `Coverage.get?_summary`: what a summary has under a key;
* `Coverage.counted_perm`: every entry is counted under one key;
* `Coverage.Outranks`, `Coverage.ranked_of_summary`: the ranking;
* `Text.InColumns`, `Coverage.Tabulated`, `Coverage.tabulated_table`: the table and its columns;
* `Coverage.KeepsHits`, **`Coverage.summary_keeps_hits`**: all figures of coverage.
-/

namespace FuzzCampaign

/-! ## Columns of text -/

namespace Text

theorem length_le_utf8ByteSize (s : String) : s.length ≤ s.utf8ByteSize := by
  obtain ⟨cs, rfl⟩ : ∃ cs, s = String.ofList cs := ⟨s.toList, s.ofList_toList.symm⟩
  rw [String.length_ofList, String.utf8ByteSize_ofList]
  induction cs with
  | nil => exact Nat.zero_le _
  | cons c cs ih =>
    have hc := c.utf8Size_pos
    rw [List.length_cons, String.utf8Len_cons]
    omega

/-- A line has its two cells, the second one from a column on, and blanks between them. -/
def InColumns (column : Nat) (cells : String × String) (line : String) : Prop :=
  ∃ blanks, 2 ≤ blanks ∧ cells.1.length + blanks = column ∧
    line = cells.1 ++ String.ofList (List.replicate blanks ' ') ++ cells.2

end Text

namespace Coverage

open Text

variable {c : Coverage} {m : SortedMap String UInt64}

/-! ## What a summary has -/

/-- A key has a figure exactly if it had one before or something is counted under it. -/
theorem isSome_get?_of_foldlM {key : String × Position × FunctionHits → String}
    {entries : List (String × Position × FunctionHits)} {m m' : SortedMap String UInt64}
    (h : entries.foldlM (countUnder key) m = .ok m') (k : String) :
    (m'.get? k).isSome ↔ (m.get? k).isSome ∨ ∃ e ∈ entries, key e = k := by
  induction entries generalizing m with
  | nil =>
    cases h
    simp
  | cons e entries ih =>
    rw [List.foldlM_cons, bind_eq_ok_iff] at h
    obtain ⟨m₁, hcount, h⟩ := h
    obtain ⟨n, -, rfl⟩ := countUnder_eq_ok_iff.1 hcount
    rw [ih h, SortedMap.get?_insert, List.exists_mem_cons_iff]
    by_cases hk : k = key e
    · simp [hk]
    · simp [hk, Ne.symm hk]

/-- **A summary has a key exactly if entries are counted under it**, with the sum of their hits. -/
theorem get?_summary (h : c.summary = .ok m) {key : String} {n : UInt64} :
    m.get? key = some n ↔ c.counted key ≠ [] ∧ n.toNat = hitSum (c.counted key) := by
  have hfigure := figure_summary h key
  have hsome := isSome_get?_of_foldlM h key
  have hcounted : (∃ e ∈ c.records, c.summaryKey e.1 e.2.2.name = key) ↔ c.counted key ≠ [] := by
    simp [counted, List.filter_eq_nil_iff]
  rw [SortedMap.get?_empty, hcounted] at hsome
  rw [← hfigure, figure]
  cases hget : m.get? key with
  | none =>
    rw [hget] at hsome
    have hnil : c.counted key = [] := by simpa using hsome
    simp [hnil]
  | some k =>
    rw [hget] at hsome
    have hne : c.counted key ≠ [] := by simpa using hsome
    simp [hne, UInt64.toNat_inj, eq_comm]

theorem mem_keys (h : c.summary = .ok m) {key : String} : key ∈ m.keys ↔ c.counted key ≠ [] := by
  rw [SortedMap.keys, List.mem_map]
  constructor
  · rintro ⟨⟨key, n⟩, hmem, rfl⟩
    exact ((get?_summary h).1 (SortedMap.mem_toList.1 hmem)).1
  · intro hne
    have hlt : hitSum (c.counted key) < word64 := exists_summary_iff.1 ⟨m, h⟩ key
    obtain ⟨n, hn⟩ := exists_toNat_eq_iff.2 hlt
    exact ⟨(key, n), SortedMap.mem_toList.2 ((get?_summary h).2 ⟨hne, hn⟩), rfl⟩

/-- **Every entry is counted once**, under one key. -/
theorem counted_perm (h : c.summary = .ok m) : (m.keys.flatMap c.counted).Perm c.records := by
  have hnodup : (m.keys.flatMap c.counted).Nodup := by
    refine List.nodup_flatMap.2 ⟨fun key _ => c.nodup_records.filter _, m.nodup_keys.imp ?_⟩
    intro key key' hne
    refine List.disjoint_left.2 fun e he he' => hne ?_
    rw [counted, List.mem_filter, decide_eq_true_eq] at he he'
    exact he.2.symm.trans he'.2
  refine (List.perm_ext_iff_of_nodup hnodup c.nodup_records).2 fun e => ?_
  rw [List.mem_flatMap]
  constructor
  · rintro ⟨key, -, he⟩
    exact List.mem_of_mem_filter he
  · intro he
    have hcounted : e ∈ c.counted (c.summaryKey e.1 e.2.2.name) :=
      List.mem_filter.2 ⟨he, decide_eq_true rfl⟩
    exact ⟨_, (mem_keys h).2 (List.ne_nil_of_mem hcounted), hcounted⟩

theorem hitSum_perm {entries entries' : List (String × Position × FunctionHits)}
    (h : entries.Perm entries') : hitSum entries = hitSum entries' :=
  (h.map _).sum_eq

theorem hitSum_flatMap {α : Type} (l : List α) (g : α → List (String × Position × FunctionHits)) :
    hitSum (l.flatMap g) = (l.map fun a => hitSum (g a)).sum := by
  induction l with
  | nil => rfl
  | cons a l ih =>
    rw [List.flatMap_cons, hitSum, List.map_append, List.sum_append, ← hitSum, ← hitSum, ih,
      List.map_cons, List.sum_cons]

/-- **The figures of a summary add up to all hits.** -/
theorem sum_summary (h : c.summary = .ok m) :
    (m.toList.map (·.2.toNat)).sum = hitSum c.records := by
  rw [← hitSum_perm (counted_perm h), hitSum_flatMap, SortedMap.keys, List.map_map]
  refine congrArg List.sum (List.map_congr_left fun e he => ?_)
  exact ((get?_summary h).1 (SortedMap.mem_toList.1 he)).2

/-! ## The ranking -/

/-- One function stands before another: it has more hits, or as many and the lesser key. -/
def Outranks (a b : String × UInt64) : Prop := b.2 < a.2 ∨ a.2 = b.2 ∧ a.1 < b.1

theorem ranksBefore_iff {a b : String × UInt64} :
    ranksBefore a b = true ↔ b.2 < a.2 ∨ a.2 = b.2 ∧ a.1 ≤ b.1 := by
  simp [ranksBefore]

theorem ranksBefore_trans (a b d : String × UInt64) (h : ranksBefore a b = true)
    (h' : ranksBefore b d = true) : ranksBefore a d = true := by
  rw [ranksBefore_iff] at h h' ⊢
  rcases h with hlt | ⟨heq, hle⟩ <;> rcases h' with hlt' | ⟨heq', hle'⟩
  · exact .inl (UInt64.lt_trans hlt' hlt)
  · exact .inl (heq' ▸ hlt)
  · exact .inl (heq ▸ hlt')
  · exact .inr ⟨heq.trans heq', hle.trans hle'⟩

theorem ranksBefore_total (a b : String × UInt64) :
    (ranksBefore a b || ranksBefore b a) = true := by
  rw [Bool.or_eq_true, ranksBefore_iff, ranksBefore_iff]
  by_cases heq : a.2 = b.2
  · exact (le_total a.1 b.1).imp (fun hle => .inr ⟨heq, hle⟩) fun hle => .inr ⟨heq.symm, hle⟩
  · exact (UInt64.lt_or_lt_of_ne heq).symm.imp .inl .inl

/-- **The ranking is the summary in strict order.** -/
theorem ranked_of_summary (h : c.summary = .ok m) :
    ∃ rows, c.ranked = .ok rows ∧ rows.Perm m.toList ∧ rows.Pairwise Outranks := by
  have hperm := List.mergeSort_perm m.toList ranksBefore
  refine ⟨_, by rw [ranked, h]; rfl, hperm, ?_⟩
  have hkeys : (m.toList.mergeSort ranksBefore).Pairwise fun a b => a.1 ≠ b.1 :=
    List.pairwise_map.1 ((hperm.map _).nodup_iff.2 m.nodup_keys)
  refine (hkeys.and (List.pairwise_mergeSort ranksBefore_trans ranksBefore_total _)).imp ?_
  rintro a b ⟨hne, hle⟩
  exact (ranksBefore_iff.1 hle).imp_right fun ⟨heq, hle⟩ => ⟨heq, lt_of_le_of_ne hle hne⟩

/-! ## The table -/

/-- A cell that is no wider than its column stands in its column. -/
theorem inColumns_tableRow {width : Nat} {left : String} (h : left.length ≤ width)
    (right : String) :
    InColumns (width + 2) (left, right) (tableRow width left right) := by
  refine ⟨width - left.length + 2, by omega, by dsimp only; omega, ?_⟩
  rw [tableRow, padEnd, List.replicate_add, String.ofList_append, ← String.append_assoc]
  rfl

/-- The cells of a table: the heading, the functions, and the total. -/
def tableCells (rows : List (String × UInt64)) (total : UInt64) : List (String × String) :=
  (functionHeading, "Hits") :: rows.map (fun r => (r.1, toString r.2)) ++
    [("Total", toString total)]

/-- A text is a table of functions: it has a line for each row of cells, all with the same
columns. -/
def Tabulated (rows : List (String × UInt64)) (total : UInt64) (text : String) : Prop :=
  ∃ column lines, text = String.join (lines.map (· ++ "\n")) ∧
    List.Forall₂ (InColumns column) (tableCells rows total) lines

theorem le_foldl_max {α : Type} (g : α → Nat) (l : List α) (n : Nat) :
    n ≤ l.foldl (fun n a => max n (g a)) n ∧ ∀ a ∈ l, g a ≤ l.foldl (fun n a => max n (g a)) n := by
  induction l generalizing n with
  | nil => exact ⟨le_rfl, List.forall_mem_nil _⟩
  | cons a l ih =>
    obtain ⟨hn, hl⟩ := ih (max n (g a))
    exact ⟨(le_max_left _ _).trans hn, List.forall_mem_cons.2 ⟨(le_max_right _ _).trans hn, hl⟩⟩

/-- **The columns of a table stand below each other**: a name has no more characters than bytes. -/
theorem tabulated_table {rows : List (String × UInt64)} {total : UInt64}
    (hrows : c.ranked = .ok rows) (htotal : c.total = .ok total) :
    ∃ text, c.table = .ok text ∧ Tabulated rows total text := by
  refine ⟨_, bind_eq_ok_iff.2 ⟨rows, hrows, bind_eq_ok_iff.2 ⟨total, htotal, rfl⟩⟩, ?_⟩
  obtain ⟨hheading, hnames⟩ := le_foldl_max (fun r : String × UInt64 => r.1.utf8ByteSize) rows
    functionHeading.utf8ByteSize
  generalize List.foldl _ functionHeading.utf8ByteSize rows = width at hheading hnames ⊢
  have hlines : tableRow width functionHeading "Hits" ::
      rows.map (fun r => tableRow width r.1 (toString r.2)) ++
        [tableRow width "Total" (toString total)] =
      (tableCells rows total).map fun cells => tableRow width cells.1 cells.2 := by
    simp [tableCells]
  refine ⟨width + 2, _, rfl, ?_⟩
  rw [hlines, List.forall₂_map_right_iff, List.forall₂_same]
  refine fun cells hcells => inColumns_tableRow ?_ _
  have hwidth : 8 ≤ width := hheading
  simp only [tableCells, List.mem_append, List.mem_cons, List.mem_map, List.not_mem_nil,
    or_false] at hcells
  rcases hcells with (rfl | ⟨r, hr, rfl⟩) | rfl
  · exact (length_le_utf8ByteSize functionHeading).trans hheading
  · exact (length_le_utf8ByteSize r.1).trans (hnames r hr)
  · exact (show "Total".length ≤ 8 by decide).trans hwidth

/-! ## All figures -/

/-- The figures of coverage that lose no hit. -/
structure KeepsHits (c : Coverage) (total : UInt64) (m : SortedMap String UInt64)
    (rows : List (String × UInt64)) (text : String) : Prop where
  total_eq : total.toNat = hitSum c.records
  /-- An entry is counted under one key: its bare name if no other entry has that name, and else its
  file and name. -/
  key : ∀ file p f, c.record? file p = some f → ∃ key,
    (∀ key', (file, p, f) ∈ c.counted key' ↔ key' = key) ∧
    (key = f.name ↔ c.NamedAlone file p f.name) ∧
    (¬c.NamedAlone file p f.name → key = qualified file f.name)
  /-- The entries of all keys are all entries. -/
  counted_perm : (m.keys.flatMap c.counted).Perm c.records
  get?_eq_some_iff : ∀ key n,
    m.get? key = some n ↔ c.counted key ≠ [] ∧ n.toNat = hitSum (c.counted key)
  sum_eq : (m.toList.map (·.2.toNat)).sum = total.toNat
  rows_perm : rows.Perm m.toList
  rows_pairwise : rows.Pairwise Outranks
  tabulated : Tabulated rows total text
  /-- The total of a table is the sum of its rows. -/
  rows_sum_eq : (rows.map (·.2.toNat)).sum = total.toNat

/-- **No hit is lost in the figures.** Where the sum of all hits is a count there are a total, a
summary, a ranking and a table. Every entry is counted once, under the bare name of its function if
no other entry has that name and under its file and name otherwise, and the figures of the keys add
up to the total. The ranking has the keys with more hits first, and the lesser of two keys with as
many hits; the table shows them in this order, with all hits below each other. -/
theorem summary_keeps_hits (c : Coverage) (h : hitSum c.records < word64) :
    ∃ total m rows text, c.total = .ok total ∧ c.summary = .ok m ∧ c.ranked = .ok rows ∧
      c.table = .ok text ∧ KeepsHits c total m rows text := by
  obtain ⟨total, htotal⟩ := exists_total_iff.2 h
  obtain ⟨m, hm⟩ := exists_summary_iff.2 (functionsFit_of_total h)
  obtain ⟨rows, hrows, hperm, hpairwise⟩ := ranked_of_summary hm
  obtain ⟨text, htext, htabulated⟩ := tabulated_table hrows htotal
  have hsum := (sum_summary hm).trans (total_eq_ok_iff.1 htotal).symm
  refine ⟨total, m, rows, text, htotal, hm, hrows, htext, ?_⟩
  refine ⟨total_eq_ok_iff.1 htotal, fun file p f hf => ?_, counted_perm hm,
    fun key n => get?_summary hm, hsum, hperm, hpairwise, htabulated, ?_⟩
  · refine ⟨c.summaryKey file f.name, fun key' => mem_counted hf, ?_, summaryKey_of_shared hf⟩
    refine ⟨fun hbare => ?_, summaryKey_of_alone hf⟩
    by_contra hshared
    rw [summaryKey_of_shared hf hshared] at hbare
    exact qualified_ne file f.name hbare
  · rw [← hsum]
    exact (hperm.map _).sum_eq

/-- A function of two files, and one whose name has more bytes than characters. -/
def namesakes : Coverage :=
  .merge [.ofRecords [("a", ⟨1, 1, 1, 9⟩, ⟨"f", 3⟩), ("b", ⟨1, 1, 1, 9⟩, ⟨"f", 4⟩)],
    .ofRecords [("b", ⟨2, 1, 2, 9⟩, ⟨"größer_als", 3⟩)]]

def namesakesTable : String :=
  "Function      Hits\nb:f           4\na:f           3\ngrößer_als    3\nTotal         10\n"

theorem ranked_namesakes :
    namesakes.ranked = .ok [("b:f", 4), ("a:f", 3), ("größer_als", 3)] := by
  have hsummary : namesakes.summary.map (·.toList) =
      .ok [("a:f", 3), ("b:f", 4), ("größer_als", 3)] := by
    decide +kernel
  have hhits : ranksBefore ("a:f", 3) ("b:f", 4) = false := by decide +kernel
  have hhits' : ranksBefore ("b:f", 4) ("größer_als", 3) = true := by decide +kernel
  have hname : ranksBefore ("a:f", 3) ("größer_als", 3) = true := by decide +kernel
  have hsorted : [("a:f", 3), ("b:f", 4), ("größer_als", 3)].mergeSort ranksBefore =
      [("b:f", 4), ("a:f", 3), ("größer_als", 3)] := by
    simp [List.mergeSort, hhits, hhits', hname]
  have hranked : namesakes.ranked =
      (namesakes.summary.map (·.toList)).map (List.mergeSort · ranksBefore) := by
    rw [ranked]
    cases namesakes.summary <;> rfl
  rw [hranked, hsummary]
  exact congrArg Except.ok hsorted

theorem table_namesakes : namesakes.table = .ok namesakesTable := by
  have htotal : namesakes.total = .ok 10 := by decide +kernel
  rw [table, ranked_namesakes, htotal]
  decide +kernel

/-- The two functions of one name are told apart, and the columns stand below each other. -/
theorem summary_keeps_hits_namesakes :
    hitSum namesakes.records < word64 ∧
    ∃ total m rows, namesakes.ranked = .ok rows ∧
      KeepsHits namesakes total m rows namesakesTable := by
  have hfits : hitSum namesakes.records < word64 := by decide +kernel
  obtain ⟨total, m, rows, text, -, -, hrows, htext, hkeeps⟩ := summary_keeps_hits namesakes hfits
  cases htext.symm.trans table_namesakes
  exact ⟨hfits, total, m, rows, hrows, hkeeps⟩

end Coverage

end FuzzCampaign
