import FuzzCampaign.Coverage.File
import FuzzCampaign.Proofs.JsonText
import FuzzCampaign.Proofs.TextBytes
import Mathlib.Data.List.Nodup

/-!
# Coverage files read back

A coverage file is read back as the coverage that was stored, whatever names and counts it has.

* `Coverage.get?_byText`: the positions of a file by their texts;
* `Coverage.reads_json`: the reader of coverage takes the JSON of coverage;
* `Coverage.ofFileBytes_fileText`: the file as bytes;
* **`Coverage.fileText_reads_back`**: the file and the order of its keys.
-/

namespace FuzzCampaign

open Json

namespace Coverage

/-! ## Positions by their texts -/

theorem nodup_texts (positions : FileCoverage) :
    ((positions.toList.map fun e => (e.1.text, e.2)).map (·.1)).Nodup := by
  have hkeys := positions.nodup_keys.map Position.text_injective
  rwa [List.map_map] at hkeys ⊢

/-- No entry is lost or merged when the positions are listed by their texts. -/
theorem get?_byText {positions : FileCoverage} {key : String} {f : FunctionHits} :
    (byText positions).get? key = some f ↔ ∃ p, positions.get? p = some f ∧ p.text = key := by
  rw [byText, SortedMap.get?_ofList (nodup_texts positions), List.mem_map]
  simp only [Prod.exists, SortedMap.mem_toList, Prod.mk.injEq]
  constructor
  · rintro ⟨p, g, hget, htext, rfl⟩
    exact ⟨p, hget, htext⟩
  · rintro ⟨p, hget, htext⟩
    exact ⟨p, f, hget, htext, rfl⟩

theorem size_byText (positions : FileCoverage) : (byText positions).size = positions.size := by
  have hlength := (SortedMap.toList_ofList_perm (nodup_texts positions)).length_eq
  rwa [List.length_map] at hlength

/-! ## The reader -/

theorem reads_hits (f : FunctionHits) : Reads hitsReader 1 (hitsJson f) f := by
  have hname := (reads_text f.name).field "name"
    (fun name (g : FunctionHits) => { g with name }) default
  have hhits := (reads_unsigned f.hits.toNat_lt "u64").field "coverageHits"
    (fun n (g : FunctionHits) => { g with hits := UInt64.ofNat n }) ⟨f.name, 0⟩
  rw [UInt64.ofNat_toNat] at hhits
  exact reads_record _ (.cons hname (.cons hhits .nil)) (by decide)

/-- The position of a key of a file. -/
def positionOf (key : String) : Position := (Position.parse key).toOption.getD default

theorem positionOf_text (p : Position) : positionOf p.text = p := by
  rw [positionOf, Position.parse_text]
  rfl

/-- Every key of a file is the text of its position. -/
theorem parse_key {positions : FileCoverage} {r : String × FunctionHits}
    (h : r ∈ (byText positions).toList) : (positionOf r.1).text = r.1 := by
  obtain ⟨p, -, htext⟩ := get?_byText.1 (SortedMap.mem_toList.1 h)
  rw [← htext, positionOf_text]

theorem ofList_byText (positions : FileCoverage) :
    SortedMap.ofList ((byText positions).toList.map fun r => (positionOf r.1, r.2)) =
      positions := by
  have hnodup :
      (((byText positions).toList.map fun r => (positionOf r.1, r.2)).map (·.1)).Nodup := by
    refine List.Nodup.of_map Position.text ?_
    rw [List.map_map, List.map_map]
    have hkeys := (byText positions).nodup_keys
    rwa [← List.map_congr_left fun r hr => parse_key hr] at hkeys
  refine SortedMap.ext_get? fun p => Option.ext fun f => ?_
  rw [SortedMap.get?_ofList hnodup, List.mem_map]
  constructor
  · rintro ⟨r, hr, heq⟩
    obtain ⟨q, hget, htext⟩ := get?_byText.1 (SortedMap.mem_toList.1 hr)
    rw [← htext, positionOf_text, Prod.mk.injEq] at heq
    obtain ⟨rfl, rfl⟩ := heq
    exact hget
  · intro hget
    refine ⟨(p.text, f), SortedMap.mem_toList.2 (get?_byText.2 ⟨p, hget, rfl⟩), ?_⟩
    rw [positionOf_text]

theorem reads_positions (positions : FileCoverage) :
    Reads (Reader.map (fun s => (Position.parse s).mapError (·.message)) hitsReader) 2
      (.object ((byText positions).toList.map fun r => (r.1, hitsJson r.2))) positions := by
  have hkey : ∀ r ∈ (byText positions).toList,
      (Position.parse r.1).mapError (·.message) = .ok (positionOf r.1) := by
    intro r hr
    rw [← parse_key hr, Position.parse_text, positionOf_text]
    rfl
  have hread : Reads (Reader.map (fun s => (Position.parse s).mapError (·.message)) hitsReader) 2
      (.object ((byText positions).toList.map fun r => (r.1, hitsJson r.2)))
      (SortedMap.ofList ((byText positions).toList.map fun r => (positionOf r.1, r.2))) :=
    reads_map _ hkey fun r _ => reads_hits r.2
  rwa [ofList_byText] at hread

/-- **The reader of coverage takes the JSON of coverage.** -/
theorem reads_json (c : Coverage) : Reads reader 3 c.json c := by
  have hread : Reads reader 3 c.json (SortedMap.ofList (c.toList.map fun e => (e.1, e.2))) :=
    reads_map _ (fun _ _ => rfl) fun e _ => reads_positions e.2
  rwa [List.map_id', SortedMap.ofList_toList] at hread

theorem ofFileText_fileText (c : Coverage) : ofFileText c.fileText = .ok c := by
  rw [ofFileText, fileText, (reads_json c).run_pretty (by decide)]
  rfl

theorem ofFileBytes_fileText (c : Coverage) :
    ofFileBytes (Utf8.encode c.fileText.toList) = .ok c := by
  rw [ofFileBytes, Utf8.decode_encode]
  simp only [String.ofList_toList]
  exact ofFileText_fileText c

/-! ## The file -/

theorem pairwise_keys {V : Type} (m : SortedMap String V) :
    m.toList.Pairwise fun a b => a.1 < b.1 :=
  m.increasing.imp compare_lt_iff_lt.1

/-- **A coverage file is read back as the coverage that was stored**, from its text and from its
bytes. Its keys are in strictly increasing order at both levels, and every position stands there
once, under its text. -/
theorem fileText_reads_back (c : Coverage) :
    ofFileText c.fileText = .ok c ∧ ofFileBytes (Utf8.encode c.fileText.toList) = .ok c ∧
    ∃ rows : FileCoverage → List (String × Value),
      c.fileText = (Value.object (c.toList.map fun e => (e.1, .object (rows e.2)))).pretty ∧
      c.toList.Pairwise (fun a b => a.1 < b.1) ∧
      ∀ positions, (rows positions).Pairwise (fun a b => a.1 < b.1) ∧
        (rows positions).length = positions.size ∧
        ∀ p f, positions.get? p = some f → (p.text, hitsJson f) ∈ rows positions := by
  refine ⟨ofFileText_fileText c, ofFileBytes_fileText c,
    fun positions => (byText positions).toList.map fun r => (r.1, hitsJson r.2), rfl,
    pairwise_keys c, fun positions => ⟨?_, ?_, fun p f h => ?_⟩⟩
  · exact List.pairwise_map.2 (pairwise_keys (byText positions))
  · rw [List.length_map]
    exact size_byText positions
  · exact List.mem_map.2 ⟨(p.text, f), SortedMap.mem_toList.2 (get?_byText.2 ⟨p, h, rfl⟩), rfl⟩

end Coverage

end FuzzCampaign
