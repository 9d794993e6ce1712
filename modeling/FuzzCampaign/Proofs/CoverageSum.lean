import FuzzCampaign.Coverage.Sum
import FuzzCampaign.Proofs.TextBytes
import Mathlib.Algebra.GroupWithZero.Nat
import Mathlib.Algebra.Order.BigOperators.Group.List
import Mathlib.Data.List.Perm.Basic

/-!
# The sum of coverage

What a sum has at a position is put together from what each part has there. Putting together is
commutative and associative, so neither the order of the parts nor their grouping matters.

* `FunctionHits.join`, `Coverage.joined`: hits put together;
* `Coverage.record?_merge`: a sum, position by position;
* `Coverage.Reduced`: coverage that leaves no trace of what was not hit;
* `Coverage.SameSum`, `Coverage.merge_perm`, `Coverage.merge_flatten`: order and grouping;
* **`Coverage.merge_spec`**: the counts, the names and the entries of a sum.
-/

namespace FuzzCampaign

/-! ## Putting hits together -/

namespace FunctionHits

/-- The hits of a function put together; of two names the lesser stays. -/
def join (f g : FunctionHits) : FunctionHits := ⟨min f.name g.name, addSaturating f.hits g.hits⟩

instance : Std.Commutative join where
  comm f g := by
    have hhits : addSaturating f.hits g.hits = addSaturating g.hits f.hits := by
      rw [← UInt64.toNat_inj, toNat_addSaturating, toNat_addSaturating, Nat.add_comm]
    rw [join, join, min_comm, hhits]

instance : Std.Associative join where
  assoc f g h := by
    have hhits : addSaturating (addSaturating f.hits g.hits) h.hits =
        addSaturating f.hits (addSaturating g.hits h.hits) := by
      simp only [← UInt64.toNat_inj, toNat_addSaturating]
      omega
    simp only [join, min_assoc, hhits]

end FunctionHits

namespace Coverage

open FunctionHits

theorem some_joinHits (f : FunctionHits) (o : Option FunctionHits) :
    some (joinHits f o) = Option.merge join (some f) o := by
  cases o with
  | none => rfl
  | some g =>
    have hcomm : join f g = join g f := Std.Commutative.comm f g
    rw [joinHits, Option.merge_some_some, hcomm, join, min_comm, min_def_lt]

/-- All hits of a list put together. -/
def joined (l : List (Option FunctionHits)) : Option FunctionHits :=
  l.foldr (Option.merge join) none

@[simp] theorem joined_nil : joined [] = none := rfl

@[simp] theorem joined_cons (o : Option FunctionHits) (l : List (Option FunctionHits)) :
    joined (o :: l) = Option.merge join o (joined l) := rfl

theorem merge_join_assoc (o o' o'' : Option FunctionHits) :
    Option.merge join (Option.merge join o o') o'' =
      Option.merge join o (Option.merge join o' o'') :=
  Std.Associative.assoc o o' o''

theorem joined_append (l l' : List (Option FunctionHits)) :
    joined (l ++ l') = Option.merge join (joined l) (joined l') := by
  induction l with
  | nil => simp
  | cons o l ih => rw [List.cons_append, joined_cons, ih, joined_cons, merge_join_assoc]

theorem joined_flatMap {α : Type} (l : List α) (f : α → List (Option FunctionHits)) :
    joined (l.flatMap f) = joined (l.map fun a => joined (f a)) := by
  induction l with
  | nil => rfl
  | cons a l ih => rw [List.flatMap_cons, joined_append, ih, List.map_cons, joined_cons]

theorem joined_perm {l l' : List (Option FunctionHits)} (h : l.Perm l') : joined l = joined l' :=
  h.foldr_op_eq

theorem joined_eq_none {l : List (Option FunctionHits)} : joined l = none ↔ ∀ o ∈ l, o = none := by
  induction l with
  | nil => simp
  | cons o l ih => simp [Option.merge_eq_none_iff, ih]

theorem toNat_hits_joined (l : List (Option FunctionHits)) :
    (joined l).elim 0 (·.hits.toNat) =
      min (l.map fun o => o.elim 0 (·.hits.toNat)).sum (word64 - 1) := by
  induction l with
  | nil => rfl
  | cons o l ih =>
    rw [List.map_cons, List.sum_cons, joined_cons]
    generalize joined l = o' at ih ⊢
    rcases o with _ | f <;> rcases o' with _ | g
    · simpa using ih
    · simpa using ih
    · have hf := f.hits.toNat_lt
      simp at ih ⊢
      omega
    · simp only [Option.elim_some, Option.merge_some_some, join, toNat_addSaturating] at ih ⊢
      omega

/-- The name that stays is the least of all names. -/
theorem name_joined {l : List (Option FunctionHits)} {f : FunctionHits} (h : joined l = some f) :
    (∃ g, some g ∈ l ∧ g.name = f.name) ∧ ∀ g, some g ∈ l → f.name ≤ g.name := by
  induction l generalizing f with
  | nil => simp at h
  | cons o l ih =>
    rcases o with _ | g
    · obtain ⟨⟨g, hg, hname⟩, hleast⟩ := ih (by simpa using h)
      refine ⟨⟨g, List.mem_cons_of_mem _ hg, hname⟩, fun g' hg' => hleast g' ?_⟩
      simpa using hg'
    · rcases hl : joined l with _ | f'
      · obtain rfl : g = f := by simpa [hl] using h
        refine ⟨⟨g, List.mem_cons_self, rfl⟩, fun g' hg' => ?_⟩
        rcases List.mem_cons.1 hg' with hg' | hg'
        · cases hg'
          exact le_rfl
        · exact absurd (joined_eq_none.1 hl _ hg') nofun
      · obtain ⟨⟨g', hg', hname⟩, hleast⟩ := ih hl
        obtain rfl : join g f' = f := by simpa [hl] using h
        constructor
        · rcases min_choice g.name f'.name with hmin | hmin
          · exact ⟨g, List.mem_cons_self, hmin.symm⟩
          · exact ⟨g', List.mem_cons_of_mem _ hg', hname.trans hmin.symm⟩
        · intro g'' hg''
          rcases List.mem_cons.1 hg'' with hg'' | hg''
          · cases hg''
            exact min_le_left _ _
          · exact (min_le_right _ _).trans (hleast g'' hg'')

/-! ## A sum, position by position -/

/-- What a part adds at a position of a file: what stands there, unless it has no hits. -/
def counted? (file : String) (p : Position) (c : Coverage) : Option FunctionHits :=
  (c.record? file p).filter (·.hits ≠ 0)

/-- What an entry adds at a position of a file. -/
def entryAt (file : String) (p : Position) (e : String × Position × FunctionHits) :
    Option FunctionHits :=
  if e.1 = file ∧ e.2.1 = p ∧ e.2.2.hits ≠ 0 then some e.2.2 else none

theorem record?_addRecord (c : Coverage) (e : String × Position × FunctionHits) (file : String)
    (p : Position) : (c.addRecord e).record? file p =
      Option.merge join (entryAt file p e) (c.record? file p) := by
  unfold addRecord entryAt
  by_cases hhits : e.2.2.hits = 0
  · simp [hhits]
  · rw [if_neg hhits, record?_update]
    by_cases hplace : file = e.1 ∧ p = e.2.1
    · obtain ⟨rfl, rfl⟩ := hplace
      simp [hhits, some_joinHits]
    · have hplace' : ¬(e.1 = file ∧ e.2.1 = p ∧ e.2.2.hits ≠ 0) := fun h =>
        hplace ⟨h.1.symm, h.2.1.symm⟩
      rw [if_neg hplace, if_neg hplace', Option.merge_none_left]

theorem record?_foldl_addRecord (l : List (String × Position × FunctionHits)) (c : Coverage)
    (file : String) (p : Position) : (l.foldl addRecord c).record? file p =
      Option.merge join (joined (l.map (entryAt file p))) (c.record? file p) := by
  induction l generalizing c with
  | nil => simp
  | cons e l ih =>
    have hcomm : Option.merge join (joined (l.map (entryAt file p))) (entryAt file p e) =
      Option.merge join (entryAt file p e) (joined (l.map (entryAt file p))) :=
      Std.Commutative.comm _ _
    rw [List.foldl_cons, ih, record?_addRecord, ← merge_join_assoc, hcomm, List.map_cons,
      joined_cons]

/-- Of the entries of a map only the one of the key counts. -/
theorem joined_toList {K V : Type} [Ord K] [Std.TransOrd K] [Std.LawfulEqOrd K] (m : SortedMap K V)
    (k : K) (g : K × V → Option FunctionHits) (hg : ∀ e, e.1 ≠ k → g e = none) :
    joined (m.toList.map g) = (m.get? k).bind fun v => g (k, v) := by
  obtain ⟨l, h⟩ := m
  show joined (l.map g) = (SortedMap.find k l).bind fun v => g (k, v)
  induction l with
  | nil => rfl
  | cons e l ih =>
    obtain ⟨k', v⟩ := e
    have hl : ∀ e ∈ l, compare k' e.1 = .lt := fun e he => List.rel_of_pairwise_cons h he
    have hrest : compare k k' ≠ .gt → joined (l.map g) = none := by
      intro hle
      refine joined_eq_none.2 fun o ho => ?_
      obtain ⟨e, he, rfl⟩ := List.mem_map.1 ho
      refine hg e ?_
      rintro rfl
      exact hle (Std.OrientedCmp.gt_of_lt (hl e he))
    have hhead : compare k k' ≠ .eq → g (k', v) = none := fun hne => hg _ fun heq =>
      hne (by simp [← heq, Std.ReflCmp.compare_self])
    rw [List.map_cons, joined_cons, SortedMap.find]
    cases hk : compare k k' with
    | lt => simp [hrest (by simp [hk]), hhead (by simp [hk])]
    | eq =>
      obtain rfl := Std.LawfulEqCmp.eq_of_compare hk
      simp [hrest (by simp)]
    | gt => simp [hhead (by simp [hk]), ih h.of_cons]

theorem joined_records (c : Coverage) (file : String) (p : Position) :
    joined (c.records.map (entryAt file p)) = c.counted? file p := by
  have hposition : ∀ positions : FileCoverage,
      joined (positions.toList.map fun r => entryAt file p (file, r.1, r.2)) =
        (positions.get? p).filter (·.hits ≠ 0) := by
    intro positions
    rw [joined_toList positions p _ fun r hr => by simp [entryAt, hr]]
    cases positions.get? p <;> simp [entryAt, Option.filter]
  have hfile : ∀ e : String × FileCoverage, e.1 ≠ file →
      joined (e.2.toList.map fun r => entryAt file p (e.1, r.1, r.2)) = none := by
    intro e he
    refine joined_eq_none.2 fun o ho => ?_
    obtain ⟨r, -, rfl⟩ := List.mem_map.1 ho
    simp [entryAt, he]
  rw [records, List.map_flatMap, joined_flatMap]
  simp only [List.map_map, Function.comp_def]
  rw [joined_toList c file _ hfile, counted?, record?]
  simp only [hposition]
  cases c.get? file <;> rfl

/-- **A sum, position by position**: what the parts add there, put together. -/
theorem record?_merge (parts : List Coverage) (file : String) (p : Position) :
    (merge parts).record? file p = joined (parts.map (counted? file p)) := by
  have hempty : record? .empty file p = none := rfl
  rw [merge, record?_foldl_addRecord, List.map_flatMap, joined_flatMap, hempty,
    Option.merge_none_right]
  simp only [joined_records]

/-! ## No trace of what was not hit -/

/-- Coverage without zero counts and without files that have no positions. -/
structure Reduced (c : Coverage) : Prop where
  hit : ∀ file p f, c.record? file p = some f → f.hits ≠ 0
  covered : ∀ file positions, c.get? file = some positions → positions.isEmpty = false

theorem Reduced.counted?_eq {c : Coverage} (h : c.Reduced) (file : String) (p : Position) :
    c.counted? file p = c.record? file p := by
  rw [counted?]
  cases hf : c.record? file p with
  | none => rfl
  | some f => exact Option.filter_some_pos (by simpa using h.hit file p f hf)

theorem Reduced.ext {c d : Coverage} (hc : c.Reduced) (hd : d.Reduced)
    (h : ∀ file p, c.record? file p = d.record? file p) : c = d := by
  -- a file that only one of the two has would have a position that only one of them has
  have hnone : ∀ {c d : Coverage}, c.Reduced → (∀ file p, c.record? file p = d.record? file p) →
      ∀ file, d.get? file = none → c.get? file = none := by
    intro c d hc h file hfile
    by_contra hne
    obtain ⟨positions, hpositions⟩ := Option.ne_none_iff_exists'.1 hne
    obtain ⟨p, f, hf⟩ := SortedMap.isEmpty_eq_false_iff.1 (hc.covered _ _ hpositions)
    have hrecord := h file p
    rw [record?, record?, hpositions, hfile, Option.bind_some, hf] at hrecord
    exact absurd hrecord nofun
  refine SortedMap.ext_get? fun file => ?_
  cases hd' : d.get? file with
  | none => exact hnone hc h file hd'
  | some positions =>
    cases hc' : c.get? file with
    | none =>
      have hsymm := hnone hd (fun file p => (h file p).symm) file hc'
      exact absurd (hd'.symm.trans hsymm) nofun
    | some positions' =>
      refine congrArg some (SortedMap.ext_get? fun p => ?_)
      simpa [record?, hc', hd'] using h file p

/-- What is written stands somewhere, so no file is left without positions. -/
theorem covered_update {c : Coverage} (file : String) (p : Position)
    (f : Option FunctionHits → FunctionHits)
    (h : ∀ file positions, c.get? file = some positions → positions.isEmpty = false) :
    ∀ file' positions, (c.update file p f).get? file' = some positions →
      positions.isEmpty = false := by
  intro file' positions hfile
  rw [update, SortedMap.get?_upsert] at hfile
  split_ifs at hfile
  · cases hfile
    have hplaced := SortedMap.get?_upsert ((c.get? file).getD .empty) p p f
    rw [if_pos Std.ReflCmp.compare_self] at hplaced
    exact SortedMap.isEmpty_eq_false_iff.2 ⟨_, _, hplaced⟩
  · exact h file' positions hfile

theorem covered_addRecord {c : Coverage} (e : String × Position × FunctionHits)
    (h : ∀ file positions, c.get? file = some positions → positions.isEmpty = false) :
    ∀ file positions, (c.addRecord e).get? file = some positions → positions.isEmpty = false := by
  unfold addRecord
  split_ifs
  · exact h
  · exact covered_update _ _ _ h

theorem Reduced.update {c : Coverage} (h : c.Reduced) (file : String) (p : Position)
    {f : Option FunctionHits → FunctionHits} (hf : (f (c.record? file p)).hits ≠ 0) :
    (c.update file p f).Reduced where
  hit file' p' g hg := by
    rw [record?_update] at hg
    split_ifs at hg
    · exact Option.some.inj hg ▸ hf
    · exact h.hit file' p' g hg
  covered := covered_update file p f h.covered

theorem covered_foldl_addRecord (l : List (String × Position × FunctionHits)) {c : Coverage}
    (h : ∀ file positions, c.get? file = some positions → positions.isEmpty = false) :
    ∀ file positions, (l.foldl addRecord c).get? file = some positions →
      positions.isEmpty = false := by
  induction l generalizing c with
  | nil => exact h
  | cons e l ih => exact ih (covered_addRecord e h)

theorem counted?_eq_some {c : Coverage} {file : String} {p : Position} {g : FunctionHits} :
    c.counted? file p = some g ↔ c.record? file p = some g ∧ g.hits ≠ 0 := by
  rw [counted?, Option.filter_eq_some_iff, decide_eq_true_eq]

theorem some_mem_counted? {parts : List Coverage} {file : String} {p : Position}
    {g : FunctionHits} : some g ∈ parts.map (counted? file p) ↔
      ∃ c ∈ parts, c.record? file p = some g ∧ g.hits ≠ 0 := by
  simp only [List.mem_map, counted?_eq_some]

theorem toNat_hits_merge {parts : List Coverage} {file : String} {p : Position} {f : FunctionHits}
    (h : (merge parts).record? file p = some f) : f.hits.toNat =
      min (parts.map fun c => ((c.hits? file p).getD 0).toNat).sum (word64 - 1) := by
  have hcounts : ∀ c : Coverage, (c.counted? file p).elim 0 (·.hits.toNat) =
      ((c.hits? file p).getD 0).toNat := by
    intro c
    rw [counted?, hits?]
    cases c.record? file p with
    | none => rfl
    | some g => by_cases hg : g.hits = 0 <;> simp [Option.filter, hg]
  have hsum := toNat_hits_joined (parts.map (counted? file p))
  rw [← record?_merge, h, List.map_map] at hsum
  simpa only [Function.comp_def, hcounts, Option.elim_some] using hsum

/-- **A sum is reduced.** -/
theorem reduced_merge (parts : List Coverage) : (merge parts).Reduced where
  hit file p f h := by
    have hjoined := (record?_merge parts file p).symm.trans h
    obtain ⟨⟨g, hg, -⟩, -⟩ := name_joined hjoined
    obtain ⟨c, hc, hrecord, hpositive⟩ := some_mem_counted?.1 hg
    have hle : g.hits.toNat ≤ (parts.map fun c => ((c.hits? file p).getD 0).toNat).sum :=
      List.le_sum_of_mem (List.mem_map.2 ⟨c, hc, by simp [hits?, hrecord]⟩)
    have hsum := toNat_hits_merge h
    have hlargest : word64 - 1 = 18446744073709551615 := rfl
    rw [ne_eq, ← UInt64.toNat_inj] at hpositive ⊢
    rw [UInt64.toNat_zero] at hpositive ⊢
    omega
  covered := covered_foldl_addRecord _ nofun

/-! ## Order and grouping -/

/-- Two lists of parts that add the same at every position. -/
def SameSum (parts parts' : List Coverage) : Prop :=
  ∀ file p, joined (parts.map (counted? file p)) = joined (parts'.map (counted? file p))

theorem sameSum_refl (parts : List Coverage) : SameSum parts parts := fun _ _ => rfl

theorem SameSum.trans {parts parts' parts'' : List Coverage} (h : SameSum parts parts')
    (h' : SameSum parts' parts'') : SameSum parts parts'' :=
  fun file p => (h file p).trans (h' file p)

theorem SameSum.append {parts parts' more more' : List Coverage} (h : SameSum parts parts')
    (h' : SameSum more more') : SameSum (parts ++ more) (parts' ++ more') := by
  intro file p
  rw [List.map_append, List.map_append, joined_append, joined_append, h, h']

theorem sameSum_perm {parts parts' : List Coverage} (h : parts.Perm parts') :
    SameSum parts parts' :=
  fun _ _ => joined_perm (h.map _)

theorem sameSum_merge (parts : List Coverage) : SameSum [merge parts] parts := by
  intro file p
  rw [List.map_singleton, joined_cons, joined_nil, Option.merge_none_right,
    (reduced_merge parts).counted?_eq, record?_merge]

theorem SameSum.merge_eq {parts parts' : List Coverage} (h : SameSum parts parts') :
    merge parts = merge parts' :=
  (reduced_merge _).ext (reduced_merge _) fun file p => by
    rw [record?_merge, record?_merge, h]

/-- **The order of the parts does not matter.** -/
theorem merge_perm {parts parts' : List Coverage} (h : parts.Perm parts') :
    merge parts = merge parts' :=
  (sameSum_perm h).merge_eq

/-- **The parts may be summed in groups first.** -/
theorem merge_flatten (groups : List (List Coverage)) :
    merge (groups.map merge) = merge groups.flatten := by
  have hsame : SameSum (groups.map merge) groups.flatten := by
    induction groups with
    | nil => exact sameSum_refl []
    | cons group groups ih => exact (sameSum_merge group).append ih
  exact hsame.merge_eq

theorem Reduced.merge_singleton {c : Coverage} (h : c.Reduced) : merge [c] = c :=
  (reduced_merge _).ext h fun file p => by
    simp [record?_merge, h.counted?_eq]

/-! ## The specification -/

/-- **A sum is the saturating sum of the counts, position by position.** It has a position exactly
if some part has hits there; the count is the sum of all counts, or the largest count; the name is
the least, byte by byte, that comes with hits. Nothing else is in it, and the order of the parts
does not matter. -/
theorem merge_spec (parts : List Coverage) :
    (∀ file p,
      (((merge parts).record? file p).isSome ↔
        ∃ c ∈ parts, ∃ g, c.record? file p = some g ∧ g.hits ≠ 0) ∧
      ∀ f, (merge parts).record? file p = some f →
        f.hits.toNat = min (parts.map fun c => ((c.hits? file p).getD 0).toNat).sum (word64 - 1) ∧
        (∃ c ∈ parts, ∃ g, c.record? file p = some g ∧ g.hits ≠ 0 ∧ g.name = f.name) ∧
        ∀ c ∈ parts, ∀ g, c.record? file p = some g → g.hits ≠ 0 →
          Utf8.encode f.name.toList ≤ Utf8.encode g.name.toList) ∧
    (merge parts).Reduced ∧ ∀ parts', parts.Perm parts' → merge parts' = merge parts := by
  refine ⟨fun file p => ⟨?_, fun f h => ?_⟩, reduced_merge parts, fun _ h => (merge_perm h).symm⟩
  · rw [record?_merge, Option.isSome_iff_ne_none, ne_eq, joined_eq_none]
    constructor
    · intro h
      obtain ⟨o, ho⟩ := not_forall.1 h
      obtain ⟨ho, hne⟩ := not_forall.1 ho
      obtain ⟨g, rfl⟩ := Option.ne_none_iff_exists'.1 hne
      obtain ⟨c, hc, hg⟩ := some_mem_counted?.1 ho
      exact ⟨c, hc, g, hg⟩
    · rintro ⟨c, hc, g, hg⟩ hnone
      exact absurd (hnone _ (some_mem_counted?.2 ⟨c, hc, hg⟩)) nofun
  · obtain ⟨⟨g, hg, hname⟩, hleast⟩ := name_joined ((record?_merge parts file p).symm.trans h)
    obtain ⟨c, hc, hrecord, hpositive⟩ := some_mem_counted?.1 hg
    refine ⟨toNat_hits_merge h, ⟨c, hc, g, hrecord, hpositive, hname⟩, fun c hc g hrecord hg => ?_⟩
    exact (Utf8.le_iff_encode_le _ _).1 (hleast g (some_mem_counted?.2 ⟨c, hc, hrecord, hg⟩))

/-- The count stops at the largest, and a name without hits does not stay. -/
example : (merge [.ofRecords [("c", ⟨1, 2, 3, 4⟩, ⟨"g", 18446744073709551615⟩)],
      .ofRecords [("c", ⟨1, 2, 3, 4⟩, ⟨"f", 1⟩)],
      .ofRecords [("c", ⟨1, 2, 3, 4⟩, ⟨"a", 0⟩)]]).record? "c" ⟨1, 2, 3, 4⟩ =
    some ⟨"f", 18446744073709551615⟩ := by decide +kernel

end Coverage

end FuzzCampaign
