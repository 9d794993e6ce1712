import FuzzCampaign.Link.Channel

/-!
# Lines read on request

The input of a program is read by a helper, which runs beside it: a line for each request. Requests
and lines are queued between the two, so a request that the program has given up is still served.
Where a line is expected, `none` is the end of the input.

* `LineHelper`, `LineReader`: the helper, and the queues between it and the program;
* `LineReader.request`, `LineReader.receive`: the program's end;
* `LineReader.work`, `LineReader.vanish`: the helper's end.
-/

namespace FuzzCampaign

/-- What a helper is about to do. -/
inductive LineHelper
  /-- It waits for a request. -/
  | idle
  /-- It reads a line. -/
  | reading
  /-- It has read a line, and hands it over. -/
  | holding (line? : Option String)
  | gone
  deriving DecidableEq, Repr

/-- The requests that the helper has not seen, the helper, and the lines that it has handed over. -/
structure LineReader where
  requests : Nat
  helper : LineHelper
  lines : List (Option String)
  deriving DecidableEq, Repr

namespace LineReader

/-- Nobody reads. -/
def absent : LineReader := ⟨0, .gone, []⟩

/-- A helper that has just begun. -/
def started : LineReader := ⟨0, .idle, []⟩

/-! ## The program's end -/

/-- Request a line, if there is a helper. -/
def request (r : LineReader) : Option LineReader :=
  if r.helper = .gone then none else some { r with requests := r.requests + 1 }

/-- Look for a line. -/
def receive (r : LineReader) : Poll (Option String) × LineReader :=
  let (found, lines) := Poll.ofQueue (r.helper ≠ .gone) r.lines
  (found, { r with lines })

/-! ## The helper's end -/

/-- The helper goes on, if it can; `typed` is the input that is not read yet. -/
def work (r : LineReader) (typed : List (Option String)) : LineReader × List (Option String) :=
  match r.helper with
  | .idle =>
    match r.requests with
    | 0 => (r, typed)
    | requests + 1 => ({ r with requests, helper := .reading }, typed)
  | .reading =>
    match typed with
    | [] => (r, typed)
    | line? :: typed => ({ r with helper := .holding line? }, typed)
  | .holding line? => ({ r with helper := .idle, lines := r.lines ++ [line?] }, typed)
  | .gone => (r, typed)

/-- The helper breaks off; a line that it has not handed over is lost. -/
def vanish (r : LineReader) : LineReader := { r with helper := .gone }

end LineReader

end FuzzCampaign
