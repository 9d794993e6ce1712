/-!
# Sorted maps

A finite map is a list of key-value pairs in strictly increasing order of the keys, so two maps
with the same look-ups are the same value and the order of listing is the order of the keys.

* `SortedMap`, `SortedMap.toList`, `SortedMap.ofList`;
* `get?`, `upsert` (the one primitive that writes), `insert`, `erase`;
* `get?_upsert`, `get?_insert`: what a write does to the look-ups;
* `mem_toList`: what is listed; `ext_get?`: maps with the same look-ups are the same;
* `get?_ofList`: the look-ups of the map of a list.
-/

namespace FuzzCampaign

variable {K V : Type} [Ord K]

/-- A finite map, listed in strictly increasing order of its keys. -/
structure SortedMap (K V : Type) [Ord K] where
  toList : List (K × V)
  increasing : toList.Pairwise (fun a b => compare a.1 b.1 = .lt)
  deriving DecidableEq

namespace SortedMap

/-- The map without entries. -/
def empty : SortedMap K V := ⟨[], .nil⟩

instance : EmptyCollection (SortedMap K V) := ⟨empty⟩
instance : Inhabited (SortedMap K V) := ⟨empty⟩

/-- Whether the map has no entry. -/
def isEmpty (m : SortedMap K V) : Bool := m.toList.isEmpty

/-- The number of entries. -/
def size (m : SortedMap K V) : Nat := m.toList.length

/-- The keys in increasing order. -/
def keys (m : SortedMap K V) : List K := m.toList.map (·.1)

/-- The values in the order of their keys. -/
def values (m : SortedMap K V) : List V := m.toList.map (·.2)

/-! ## Look-up -/

/-- Look-up in a list of pairs in increasing order. -/
def find (k : K) : List (K × V) → Option V
  | [] => none
  | (k', v) :: r =>
    match compare k k' with
    | .lt => none
    | .eq => some v
    | .gt => find k r

/-- The value of a key. -/
def get? (m : SortedMap K V) (k : K) : Option V := find k m.toList

/-- Whether a key has a value. -/
def contains (m : SortedMap K V) (k : K) : Bool := (m.get? k).isSome

/-! ## Writing -/

/-- Write one entry of a list of pairs in increasing order. -/
def place (k : K) (f : Option V → V) : List (K × V) → List (K × V)
  | [] => [(k, f none)]
  | (k', v) :: r =>
    match compare k k' with
    | .lt => (k, f none) :: (k', v) :: r
    | .eq => (k', f (some v)) :: r
    | .gt => (k', v) :: place k f r

theorem key_of_mem_place [Std.LawfulEqOrd K] {k : K} {f : Option V → V} {l : List (K × V)}
    {e : K × V} (h : e ∈ place k f l) : e.1 = k ∨ ∃ e' ∈ l, e'.1 = e.1 := by
  induction l with
  | nil => simp [place] at h; simp [h]
  | cons p r ih =>
    obtain ⟨k', v⟩ := p
    rw [place] at h
    split at h
    · rcases List.mem_cons.1 h with rfl | h
      · exact .inl rfl
      · exact .inr ⟨e, h, rfl⟩
    · rcases List.mem_cons.1 h with rfl | h
      · exact .inr ⟨(k', v), by simp, rfl⟩
      · exact .inr ⟨e, List.mem_cons_of_mem _ h, rfl⟩
    · rcases List.mem_cons.1 h with rfl | h
      · exact .inr ⟨(k', v), by simp, rfl⟩
      · rcases ih h with h | ⟨e', h, he⟩
        · exact .inl h
        · exact .inr ⟨e', List.mem_cons_of_mem _ h, he⟩

theorem place_increasing [Std.TransOrd K] [Std.LawfulEqOrd K] (k : K) (f : Option V → V)
    {l : List (K × V)} (h : l.Pairwise (fun a b => compare a.1 b.1 = .lt)) :
    (place k f l).Pairwise (fun a b => compare a.1 b.1 = .lt) := by
  induction l with
  | nil => simp [place]
  | cons p r ih =>
    obtain ⟨k', v⟩ := p
    have hr : ∀ e ∈ r, compare k' e.1 = .lt := fun e he => List.rel_of_pairwise_cons h he
    rw [place]
    split
    · rename_i hlt
      refine .cons (fun e he => ?_) h
      rcases List.mem_cons.1 he with rfl | he
      · exact hlt
      · exact Std.TransCmp.lt_trans hlt (hr e he)
    · exact .cons (fun e he => hr e he) h.of_cons
    · rename_i hgt
      refine .cons (fun e he => ?_) (ih h.of_cons)
      rcases key_of_mem_place he with hk | ⟨e', he', hk⟩
      · simpa [hk] using Std.OrientedCmp.lt_of_gt hgt
      · simpa [← hk] using hr e' he'

/-- Write the value of `k`, given the value it had. -/
def upsert [Std.TransOrd K] [Std.LawfulEqOrd K] (m : SortedMap K V) (k : K) (f : Option V → V) :
    SortedMap K V :=
  ⟨place k f m.toList, place_increasing k f m.increasing⟩

/-- Set the value of `k`. -/
def insert [Std.TransOrd K] [Std.LawfulEqOrd K] (m : SortedMap K V) (k : K) (v : V) :
    SortedMap K V :=
  m.upsert k fun _ => v

/-- Remove the entry of `k`. -/
def erase (m : SortedMap K V) (k : K) : SortedMap K V :=
  ⟨m.toList.filter (fun e => compare k e.1 != .eq), m.increasing.filter _⟩

/-- The map of a list of pairs; a later pair replaces an earlier one of the same key. -/
def ofList [Std.TransOrd K] [Std.LawfulEqOrd K] (l : List (K × V)) : SortedMap K V :=
  l.foldl (fun m e => m.insert e.1 e.2) empty

/-! ## What the writes do to the look-ups -/

@[simp] theorem get?_empty (k : K) : (empty : SortedMap K V).get? k = none := rfl

theorem find_place [Std.TransOrd K] [Std.LawfulEqOrd K] (k q : K) (f : Option V → V)
    (l : List (K × V)) :
    find q (place k f l) = if compare q k = .eq then some (f (find k l)) else find q l := by
  induction l with
  | nil => cases h : compare q k <;> simp [place, find, h]
  | cons p r ih =>
    obtain ⟨k', v⟩ := p
    by_cases hq : compare q k = .eq
    · obtain rfl := Std.LawfulEqCmp.eq_of_compare hq
      simp only [hq, if_true, place]
      cases h : compare q k' with
      | lt => simp [find, h]
      | eq => simp [find, h]
      | gt => simp only [find, h]; rw [ih]; simp
    · simp only [hq, if_false] at ih ⊢
      simp only [place]
      cases h : compare k k' with
      | lt =>
        simp only [find]
        cases h' : compare q k with
        | lt => simp [Std.TransCmp.lt_trans h' h]
        | eq => exact absurd h' hq
        | gt => rfl
      | eq =>
        obtain rfl := Std.LawfulEqCmp.eq_of_compare h
        simp only [find]
        cases h' : compare q k with
        | lt => rfl
        | eq => exact absurd h' hq
        | gt => rfl
      | gt => simp only [find]; rw [ih]

theorem get?_upsert [Std.TransOrd K] [Std.LawfulEqOrd K] (m : SortedMap K V) (k q : K)
    (f : Option V → V) :
    (m.upsert k f).get? q = if compare q k = .eq then some (f (m.get? k)) else m.get? q :=
  find_place k q f m.toList

theorem get?_insert [Std.TransOrd K] [Std.LawfulEqOrd K] (m : SortedMap K V) (k q : K) (v : V) :
    (m.insert k v).get? q = if compare q k = .eq then some v else m.get? q :=
  get?_upsert m k q _

/-! ## What is listed -/

theorem find_eq_some_iff [Std.TransOrd K] [Std.LawfulEqOrd K] {l : List (K × V)}
    (h : l.Pairwise fun a b => compare a.1 b.1 = .lt) {k : K} {v : V} :
    find k l = some v ↔ (k, v) ∈ l := by
  induction l with
  | nil => simp [find]
  | cons p r ih =>
    obtain ⟨k', v'⟩ := p
    have hr : ∀ e ∈ r, compare k' e.1 = .lt := fun e he => List.rel_of_pairwise_cons h he
    have hnot : compare k k' ≠ .gt → (k, v) ∉ r := fun hle he =>
      hle (Std.OrientedCmp.gt_of_lt (hr (k, v) he))
    rw [find, List.mem_cons, Prod.mk.injEq]
    cases hk : compare k k' with
    | lt =>
      have hne : k ≠ k' := by
        rintro rfl
        simp [Std.ReflCmp.compare_self] at hk
      simp [hne, hnot (by simp [hk])]
    | eq =>
      obtain rfl := Std.LawfulEqCmp.eq_of_compare hk
      simp [hnot (by simp), eq_comm]
    | gt =>
      have hne : k ≠ k' := by
        rintro rfl
        simp [Std.ReflCmp.compare_self] at hk
      simp [hne, ih h.of_cons]

/-- A map lists the entries that a look-up finds. -/
theorem mem_toList [Std.TransOrd K] [Std.LawfulEqOrd K] {m : SortedMap K V} {k : K} {v : V} :
    (k, v) ∈ m.toList ↔ m.get? k = some v :=
  (find_eq_some_iff m.increasing).symm

theorem get?_erase [Std.TransOrd K] [Std.LawfulEqOrd K] {m : SortedMap K V} {k q : K} {v : V} :
    (m.erase k).get? q = some v ↔ q ≠ k ∧ m.get? q = some v := by
  rw [← mem_toList, ← mem_toList, erase, List.mem_filter, and_comm, bne_iff_ne, ne_eq,
    Std.LawfulEqCmp.compare_eq_iff_eq, eq_comm]

theorem isEmpty_eq_false_iff [Std.TransOrd K] [Std.LawfulEqOrd K] {m : SortedMap K V} :
    m.isEmpty = false ↔ ∃ k v, m.get? k = some v := by
  rw [isEmpty, List.isEmpty_eq_false_iff_exists_mem]
  simp only [Prod.exists, mem_toList]

/-- The keys of a map are different. -/
theorem nodup_keys [Std.TransOrd K] (m : SortedMap K V) : (m.toList.map (·.1)).Nodup := by
  refine List.pairwise_map.2 (m.increasing.imp ?_)
  rintro a b hlt heq
  simp [heq, Std.ReflCmp.compare_self] at hlt

theorem nodup_toList [Std.TransOrd K] (m : SortedMap K V) : m.toList.Nodup :=
  (List.pairwise_map.1 m.nodup_keys).imp fun hne heq => hne (congrArg Prod.fst heq)

/-- **Maps with the same look-ups are the same.** -/
theorem ext_get? [Std.TransOrd K] [Std.LawfulEqOrd K] {m n : SortedMap K V}
    (h : ∀ k, m.get? k = n.get? k) : m = n := by
  have hmem : ∀ e : K × V, e ∈ m.toList ↔ e ∈ n.toList := fun e => by
    rw [mem_toList, mem_toList, h]
  have hperm : m.toList.Perm n.toList :=
    (List.perm_ext_iff_of_nodup m.nodup_toList n.nodup_toList).2 hmem
  have hlist : m.toList = n.toList := by
    refine hperm.eq_of_pairwise (fun a b _ _ hab hba => ?_) m.increasing n.increasing
    rw [Std.OrientedCmp.gt_of_lt hab] at hba
    contradiction
  cases m
  cases n
  simpa using hlist

/-! ## Maps of lists -/

theorem get?_foldl_insert [Std.TransOrd K] [Std.LawfulEqOrd K] {l : List (K × V)}
    (h : (l.map (·.1)).Nodup) (m : SortedMap K V) (k : K) (v : V) :
    (l.foldl (fun m e => m.insert e.1 e.2) m).get? k = some v ↔
      (k, v) ∈ l ∨ k ∉ l.map (·.1) ∧ m.get? k = some v := by
  induction l generalizing m with
  | nil => simp
  | cons e l ih =>
    obtain ⟨k', v'⟩ := e
    obtain ⟨hnot, hl⟩ := List.nodup_cons.1 h
    rw [List.foldl_cons, ih hl, get?_insert]
    by_cases hk : k = k'
    · subst hk
      have hmem : (k, v) ∉ l := fun he => hnot (List.mem_map.2 ⟨(k, v), he, rfl⟩)
      simp [Std.ReflCmp.compare_self, hmem, hnot, eq_comm]
    · have hcompare : compare k k' ≠ .eq := fun he => hk (Std.LawfulEqCmp.eq_of_compare he)
      simp [hk, hcompare]

/-- Of different keys each has the value that is listed with it. -/
theorem get?_ofList [Std.TransOrd K] [Std.LawfulEqOrd K] {l : List (K × V)}
    (h : (l.map (·.1)).Nodup) {k : K} {v : V} : (ofList l).get? k = some v ↔ (k, v) ∈ l := by
  rw [ofList, get?_foldl_insert h]
  simp

/-- A map of different keys lists what it was made of. -/
theorem toList_ofList_perm [Std.TransOrd K] [Std.LawfulEqOrd K] {l : List (K × V)}
    (h : (l.map (·.1)).Nodup) : (ofList l).toList.Perm l := by
  have hl : l.Nodup := (List.pairwise_map.1 h).imp fun hne heq => hne (congrArg Prod.fst heq)
  refine (List.perm_ext_iff_of_nodup (nodup_toList _) hl).2 fun e => ?_
  rw [mem_toList, get?_ofList h]

/-- A map is the map of its entries. -/
theorem ofList_toList [Std.TransOrd K] [Std.LawfulEqOrd K] (m : SortedMap K V) :
    ofList m.toList = m :=
  ext_get? fun k => Option.ext fun v => by rw [get?_ofList m.nodup_keys, mem_toList]

end SortedMap

end FuzzCampaign
