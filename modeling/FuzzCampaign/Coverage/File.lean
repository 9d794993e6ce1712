import FuzzCampaign.Coverage.Sum
import FuzzCampaign.Json.Record

/-!
# Coverage files

Coverage is stored as a JSON object of objects: file, then the text of the position, then the
function with its hits.

* `Coverage.json`: positions in the order of their texts, as in a file;
* `Coverage.fileText`: the text of a coverage file;
* `Coverage.reader`, `Coverage.ofFileText`: coverage from the text of a file;
* `Coverage.ofFileBytes`: coverage from the bytes of a file.
-/

namespace FuzzCampaign

open Json

namespace Coverage

/-- The JSON of a function and its hits. -/
def hitsJson (f : FunctionHits) : Value :=
  .object [("name", .text f.name), ("coverageHits", .number (.unsigned f.hits))]

/-- The positions of a file by their texts. -/
def byText (positions : FileCoverage) : SortedMap String FunctionHits :=
  SortedMap.ofList (positions.toList.map fun e => (e.1.text, e.2))

/-- The JSON of coverage, with the positions in the order of their texts. -/
def json (c : Coverage) : Value :=
  .object (c.toList.map fun e =>
    (e.1, .object ((byText e.2).toList.map fun r => (r.1, hitsJson r.2))))

/-- The JSON of coverage, with the positions in their own order. -/
def messageJson (c : Coverage) : Value :=
  .object (c.toList.map fun e =>
    (e.1, .object (e.2.toList.map fun r => (r.1.text, hitsJson r.2))))

/-- The text of a coverage file. -/
def fileText (c : Coverage) : String := c.json.pretty

/-- The reader of a function and its hits. -/
def hitsReader : Reader FunctionHits :=
  Reader.record "FunctionCoverageRecord"
    [.of "name" Reader.text fun name f => { f with name },
      .of "coverageHits" (Reader.unsigned word64 "u64")
        fun n f => { f with hits := UInt64.ofNat n }]
    default

/-- The reader of coverage. -/
def reader : Reader Coverage :=
  Reader.map .ok (Reader.map (fun s => (Position.parse s).mapError (·.message)) hitsReader)

/-- The coverage of a file's text. -/
def ofFileText (text : String) : Except CampaignError Coverage :=
  (Reader.run reader text).mapError .json

/-- What is said of a file whose bytes are no text. -/
def notText : String := "stream did not contain valid UTF-8"

/-- The coverage of a file's bytes. -/
def ofFileBytes (bytes : List UInt8) : Except CampaignError Coverage :=
  match Utf8.decode bytes with
  | .ok cs => ofFileText (String.ofList cs)
  | .error _ => .error (.io notText)

end Coverage

end FuzzCampaign
