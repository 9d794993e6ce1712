import FuzzCampaign.Campaign.Findings
import FuzzCampaign.Text.Style

/-!
# Reports of a command

A command reports in lines, each with a mark: a symbol where colours are wanted, and a word
otherwise. A quiet command reports failures only.

* `Notice`: the kinds of lines;
* `Console`, `Console.say`: how a command reports;
* `Console.campaign`: the report of a campaign.
-/

namespace FuzzCampaign

/-- The kinds of lines. -/
inductive Notice
  | success
  | failure
  | warning
  | info
  deriving DecidableEq, Repr

namespace Notice

/-- The symbol of a kind. -/
def symbol : Notice → String
  | .success => "✓"
  | .failure => "✗"
  | .warning => "⚠"
  | .info => "ℹ"

/-- The word of a kind. -/
def word : Notice → String
  | .success => "PASS"
  | .failure => "FAIL"
  | .warning => "WARN"
  | .info => "INFO"

/-- The colour of a symbol. -/
def colour : Notice → Colour
  | .success => .green
  | .failure => .red
  | .warning => .yellow
  | .info => .blue

end Notice

/-- How a command reports: with symbols or words, whether the symbols are styled, and whether it
keeps to failures. -/
structure Console where
  symbols : Bool
  styled : Bool
  quiet : Bool
  deriving DecidableEq, Repr

namespace Console

/-- The mark of a line. -/
def mark (r : Console) (n : Notice) : String :=
  if r.symbols then (Style.strongOf n.colour).paint r.styled n.symbol else n.word

/-- A line of a kind; nothing for a line that a quiet command leaves out. -/
def say (r : Console) (n : Notice) (message : String) : String :=
  if r.quiet && n ≠ .failure then "" else s!"{r.mark n} {message}\n"

/-- The line on a worker. -/
def worker (r : Console) (w : Finding) : String :=
  let name := s!"process #{w.index} (seed {w.seed.hex})"
  match w.outcome with
  | .passed => r.say .success name
  | .failed e attached =>
    r.say .failure (s!"{name}: {e.text}" ++ if attached then ", debugger attached" else "")

/-- The lines on a campaign, of which the last one comes in any case. -/
def campaign (r : Console) (report : Findings) : String :=
  String.join (report.workers.map r.worker) ++
    String.join (report.coverageFiles.map fun f => r.say .info s!"coverage written to {f}") ++
    report.summary ++ "\n"

end Console

end FuzzCampaign
