import FuzzCampaign.Failure.Envelope
import FuzzCampaign.Text.Utf8

/-!
# The debugger

A session walks the frames of a failure. It reads commands, a line each, until one ends it or the
input ends.

* `DebugState`: a failure and the selected frame; `DebugState.start`;
* `DebugCommand.parse`: what a line asks for;
* `DebugState.step`: the frame selected by a command, and what is shown;
* `DebugState.session`: a whole session, from its input to its output.
-/

namespace FuzzCampaign

/-- A failure that is looked into, and the number of the selected frame. -/
structure DebugState where
  envelope : Envelope
  selected : Nat
  deriving DecidableEq, Repr

/-- What a line asks for. -/
inductive DebugCommand
  | nothing
  | stack
  /-- Select a frame by its number. -/
  | frame (n? : Option Nat)
  | up
  | down
  | locals
  | print (name? : Option String)
  | help
  | quit
  | unknown (word : String)
  deriving DecidableEq, Repr

namespace DebugCommand

/-- What a command word with its argument asks for. -/
def ofWords (word : String) (argument? : Option String) : DebugCommand :=
  match word with
  | "where" | "bt" => .stack
  | "frame" | "f" =>
    .frame (argument?.bind fun a => Numeral.readDecimal? word64 a.toList)
  | "up" | "u" => .up
  | "down" | "d" => .down
  | "locals" | "l" => .locals
  | "print" | "p" => .print argument?
  | "help" | "h" => .help
  | "continue" | "c" | "quit" | "q" => .quit
  | word => .unknown word

/-- What a line asks for. -/
def parse (line : List Char) : DebugCommand :=
  match (Text.words line).map String.ofList with
  | [] => .nothing
  | word :: rest => ofWords word rest.head?

end DebugCommand

namespace DebugState

/-- A session starts at the frame that failed. -/
def start (e : Envelope) : DebugState := ⟨e, e.frames.length - 1⟩

/-- The selected frame. -/
def frame? (d : DebugState) : Option StackFrame := d.envelope.frames[d.selected]?

/-- What is asked before every command. -/
def prompt : String := "(chainfuzz) "

/-- The commands. -/
def helpLines : List String :=
  ["Commands:",
    "  where, bt          show all frames",
    "  frame N, f N       select frame N",
    "  up / down          move towards the caller / the failure",
    "  locals, l          show watched values of the selected frame",
    "  print NAME, p NAME show one watched value",
    "  help, h            this text",
    "  continue, c, quit, q",
    "                     leave the debugger"]

/-- A frame with its number, marked if it is selected. -/
def frameLine (selected : Bool) (n : Nat) (f : StackFrame) : String :=
  (if selected then "> #" else "  #") ++ toString n ++ " " ++ f.text

/-- The selected frame, shown. -/
def frameLines (d : DebugState) : List String :=
  match d.frame? with
  | some f => [frameLine true d.selected f]
  | none => ["*** No frames"]

/-- All frames, shown. -/
def stackLines (d : DebugState) : List String :=
  d.envelope.frames.mapIdx fun i f => frameLine (i = d.selected) i f

/-- The values of the selected frame, shown. -/
def localLines (d : DebugState) : List String :=
  match d.frame?.map (·.locals) with
  | none | some [] => ["(no watched values)"]
  | some locals => locals.map fun l => l.1 ++ " = " ++ l.2

/-- One value of the selected frame, shown. -/
def valueLines (d : DebugState) (name : String) : List String :=
  match d.frame?.bind fun f => f.locals.find? fun l => l.1 = name with
  | some l => [l.2]
  | none => [s!"*** Name '{name}' is not defined"]

/-- Select a frame and show it. -/
def select (d : DebugState) (n : Nat) : DebugState × List String :=
  let d := { d with selected := n }
  (d, d.frameLines)

/-- Carry out a command that does not end the session. -/
def step (d : DebugState) : DebugCommand → DebugState × List String
  | .nothing => (d, [])
  | .stack => (d, d.stackLines)
  | .frame n? =>
    match n? with
    | some n => if n < d.envelope.frames.length then d.select n else (d, ["*** No such frame"])
    | none => (d, ["*** No such frame"])
  | .up => if d.selected = 0 then (d, ["*** Oldest frame"]) else d.select (d.selected - 1)
  | .down =>
    if d.envelope.frames.length ≤ d.selected + 1 then (d, ["*** Newest frame"])
    else d.select (d.selected + 1)
  | .locals => (d, d.localLines)
  | .print name? =>
    match name? with
    | some name => (d, d.valueLines name)
    | none => (d, ["*** Usage: print NAME"])
  | .help => (d, helpLines)
  | .quit => (d, [])
  | .unknown word => (d, [s!"*** Unknown command '{word}', try 'help'"])

/-- Lines of output. -/
def shown (lines : List String) : String := String.join (lines.map (· ++ "\n"))

/-- How a session ends: the selected frame, the output, the error that ended it, if one did, and
the input that it left. -/
structure SessionEnd where
  debugger : DebugState
  output : String
  error? : Option CampaignError
  unread : List UInt8
  deriving DecidableEq, Repr

/-- The bytes of the first line, with the newline, and the bytes behind it. -/
def takeLine : List UInt8 → List UInt8 × List UInt8
  | [] => ([], [])
  | b :: bs =>
    if b = 10 then ([b], bs)
    else
      let (line, rest) := takeLine bs
      (b :: line, rest)

/-- The error of a line that is no text. -/
def lineNotText : CampaignError := .io "stream did not contain valid UTF-8"

/-- The commands of a session from a state on. The fuel is the number of bytes of the input. -/
def commands : Nat → DebugState → List UInt8 → SessionEnd
  | 0, d, input => ⟨d, prompt ++ "\n", none, input⟩
  | _ + 1, d, [] => ⟨d, prompt ++ "\n", none, []⟩
  | fuel + 1, d, input =>
    let (line, rest) := takeLine input
    match Utf8.decode line with
    | .error _ => ⟨d, prompt, some lineNotText, rest⟩
    | .ok line =>
      match DebugCommand.parse line with
      | .quit => ⟨d, prompt, none, rest⟩
      | command =>
        let (d, lines) := d.step command
        let ending := commands fuel d rest
        { ending with output := prompt ++ shown lines ++ ending.output }

/-- A whole session over its input. -/
def session (e : Envelope) (input : List UInt8) : SessionEnd :=
  let d := start e
  let ending := commands (input.length + 1) d input
  { ending with output := shown (e.text :: d.frameLines) ++ ending.output }

end DebugState

end FuzzCampaign
