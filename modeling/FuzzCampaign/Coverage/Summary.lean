import FuzzCampaign.Coverage.Sum

/-!
# Figures of coverage

The hits of whole functions, and tables of them. A function is called by its bare name if that name
occurs once, and otherwise by its file and name. The sums are exact: they fail on a count that does
not fit into 64 bits.

* `Coverage.total`, `Coverage.summary`, `Coverage.ranked`;
* `Coverage.functionLines`, `Coverage.table`: the figures as text.
-/

namespace FuzzCampaign

namespace Coverage

/-- The sum of all hits. -/
def total (c : Coverage) : Except Overflow UInt64 :=
  c.records.foldlM (fun n e => addExact n e.2.2.hits) 0

/-- How many entries have a function of this name. -/
def nameCount (c : Coverage) (name : String) : Nat :=
  c.records.countP fun e => e.2.2.name = name

/-- What a function is called in a summary: its bare name if it is the only one of that name. -/
def summaryKey (c : Coverage) (file name : String) : String :=
  if 1 < c.nameCount name then s!"{file}:{name}" else name

/-- The hits of every function. -/
def summary (c : Coverage) : Except Overflow (SortedMap String UInt64) :=
  c.records.foldlM (fun m e => do
    let key := c.summaryKey e.1 e.2.2.name
    let n ← addExact ((m.get? key).getD 0) e.2.2.hits
    return m.insert key n) .empty

/-- Whether a function stands before another in a ranking: more hits first, then the lesser name. -/
def ranksBefore (a b : String × UInt64) : Bool :=
  b.2 < a.2 || (a.2 = b.2 && a.1 ≤ b.1)

/-- The functions with their hits, the most hit first. -/
def ranked (c : Coverage) : Except Overflow (List (String × UInt64)) :=
  c.summary.map fun m => m.toList.mergeSort ranksBefore

/-- A line for every function, the most hit first. -/
def functionLines (c : Coverage) : Except Overflow (List String) :=
  c.ranked.map fun rows => rows.map fun r => s!"{r.1}: {r.2}"

/-- The heading of the column of functions. -/
def functionHeading : String := "Function"

/-- A row of a table: a cell padded to `width` characters, and a second one. -/
def tableRow (width : Nat) (left right : String) : String := Text.padEnd width left ++ "  " ++ right

/-- The table of functions with their hits and the total. The first column is as wide as the longest
name has bytes. -/
def table (c : Coverage) : Except Overflow String := do
  let rows ← c.ranked
  let width := rows.foldl (fun n r => max n r.1.utf8ByteSize) functionHeading.utf8ByteSize
  let total ← c.total
  let lines := tableRow width functionHeading "Hits" ::
    rows.map (fun r => tableRow width r.1 (toString r.2)) ++
    [tableRow width "Total" (toString total)]
  return String.join (lines.map (· ++ "\n"))

end Coverage

end FuzzCampaign
