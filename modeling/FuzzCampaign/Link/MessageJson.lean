import FuzzCampaign.Coverage.File
import FuzzCampaign.Json.Access
import FuzzCampaign.Link.Message

/-!
# Messages in JSON

A message is an object with the name of the message as its key, or that name alone if there is
nothing more to say. Reading takes what is missing as empty.

* `StackFrame.json`, `Envelope.json`; `StackFrame.ofJson`, `Envelope.ofJson`;
* `Snapshot.json`; `Snapshot.ofJson`;
* `Dispatch.json`, `Command.json`; `Dispatch.ofJson`, `Command.ofJson`.
-/

namespace FuzzCampaign

open Json

/-! ## Reports -/

/-- The JSON of values with names. -/
def localsJson (locals : List (String × String)) : Value :=
  .list (locals.map fun v => .list [.text v.1, .text v.2])

/-- The values with names in JSON. -/
def localsOfJson (v : Value) : List (String × String) :=
  v.toItems.filterMap fun e => match e.toItems with
    | [name, value] => some (name.toText, value.toText)
    | _ => none

/-- The JSON of a frame. -/
def StackFrame.json (f : StackFrame) : Value :=
  .object [("file", .text f.file), ("line", .ofNat f.line.toNat), ("function", .text f.function),
    ("locals", localsJson f.locals)]

/-- The frame in JSON. -/
def StackFrame.ofJson (v : Value) : StackFrame :=
  ⟨v.textOf "file", UInt32.ofNat (v.natOf "line"), v.textOf "function",
    localsOfJson (v.part "locals")⟩

/-- The JSON of a report. -/
def Envelope.json (e : Envelope) : Value :=
  .object [("version", .ofNat e.version.toNat), ("kind", .text e.kind),
    ("message", .text e.message), ("origin", .text e.origin.name),
    ("frames", .list (e.frames.map StackFrame.json))]

/-- The report in JSON. -/
def Envelope.ofJson (v : Value) : Envelope :=
  ⟨UInt16.ofNat (v.natOf "version"), v.textOf "kind", v.textOf "message",
    if v.textOf "origin" = Origin.harness.name then .harness else .testBody,
    (v.itemsOf "frames").map StackFrame.ofJson⟩

/-! ## Coverage -/

/-- The JSON of a snapshot. -/
def Snapshot.json (s : Snapshot) : Value :=
  .object [("full", s.full.messageJson), ("per_transaction", s.perTransaction.messageJson)]

/-- The snapshot in JSON. -/
def Snapshot.ofJson (v : Value) : Except JsonError Snapshot := do
  let coverage (key : String) := Reader.run Coverage.reader (v.part key).compact
  return ⟨← coverage "full", ← coverage "per_transaction"⟩

/-! ## Messages -/

/-- The JSON of a worker's message. -/
def Dispatch.json : Dispatch → Value
  | .hello index version =>
    .object [("Hello", .object [("index", .number (.unsigned index)),
      ("protocol_version", .ofNat version.toNat)])]
  | .exception report => .object [("Exception", report.elim .null Envelope.json)]
  | .coverage s => .object [("Coverage", s.json)]
  | .finished => .text "Finished"

/-- The worker's message in JSON. -/
def Dispatch.ofJson (v : Value) : Except JsonError Dispatch :=
  match v.toFields with
  | [("Hello", h)] => .ok (.hello (h.wordOf "index") (UInt16.ofNat (h.natOf "protocol_version")))
  | [("Exception", .null)] => .ok (.exception none)
  | [("Exception", e)] => .ok (.exception (some (.ofJson e)))
  | [("Coverage", s)] => (Snapshot.ofJson s).map .coverage
  | _ => .ok .finished

/-- The JSON of a command. -/
def Command.json : Command → Value
  | .decision attach => .object [("Decision", .object [("attach", .bool attach)])]
  | .shutdown => .text "Shutdown"

/-- The command in JSON. -/
def Command.ofJson (v : Value) : Command :=
  match v.given? "Decision" with
  | some d => .decision (d.flagOf "attach")
  | none => .shutdown

end FuzzCampaign
