import FuzzCampaign.Count
import FuzzCampaign.Coverage.Position
import FuzzCampaign.SortedMap

/-!
# Coverage

Coverage says for every source file and position which function stands there and how often it was
hit.

* `FunctionHits`: a function and its hits; `Coverage`: by file and position;
* `Coverage.hits?`, `Coverage.record?`, `Coverage.records`: the views of coverage;
* `Snapshot`: what a worker has covered in all and in its last transaction.
-/

namespace FuzzCampaign

/-- A function and how often it was hit. -/
structure FunctionHits where
  name : String
  hits : UInt64
  deriving DecidableEq, Repr, Inhabited

/-- The positions of one file. -/
abbrev FileCoverage : Type := SortedMap Position FunctionHits

/-- The functions hit, by file and position. -/
abbrev Coverage : Type := SortedMap String FileCoverage

namespace Coverage

/-- What stands at a position of a file. -/
def record? (c : Coverage) (file : String) (p : Position) : Option FunctionHits :=
  (c.get? file).bind fun positions => positions.get? p

/-- The hits of a position of a file. -/
def hits? (c : Coverage) (file : String) (p : Position) : Option UInt64 :=
  (c.record? file p).map (·.hits)

/-- Write what stands at a position of a file, given what stood there. -/
def update (c : Coverage) (file : String) (p : Position)
    (f : Option FunctionHits → FunctionHits) : Coverage :=
  c.upsert file fun positions => (positions.getD .empty).upsert p f

/-- The entries of coverage, by file and then by position. -/
def records (c : Coverage) : List (String × Position × FunctionHits) :=
  c.toList.flatMap fun e => e.2.toList.map fun r => (e.1, r.1, r.2)

/-- Coverage from entries; a later entry replaces an earlier one of the same place. -/
def ofRecords (entries : List (String × Position × FunctionHits)) : Coverage :=
  entries.foldl (fun c e => c.update e.1 e.2.1 fun _ => e.2.2) .empty

theorem record?_update (c : Coverage) (file file' : String) (p p' : Position)
    (f : Option FunctionHits → FunctionHits) :
    (c.update file p f).record? file' p' =
      if file' = file ∧ p' = p then some (f (c.record? file p)) else c.record? file' p' := by
  unfold update record?
  rw [SortedMap.get?_upsert]
  have hfile : compare file' file = .eq ↔ file' = file := Std.compare_eq_iff_eq
  have hp : compare p' p = .eq ↔ p' = p := Std.compare_eq_iff_eq
  by_cases h : file' = file
  · subst h
    simp only [hfile, if_true, Option.bind_some, SortedMap.get?_upsert, hp, true_and]
    by_cases h' : p' = p
    · subst h'
      cases c.get? file' <;> simp
    · cases c.get? file' <;> simp [h']
  · simp [h]

end Coverage

/-- What a worker has covered: in its whole run, and since its last transaction began. -/
structure Snapshot where
  full : Coverage
  perTransaction : Coverage
  deriving DecidableEq, Inhabited

end FuzzCampaign
