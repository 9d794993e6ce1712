import FuzzCampaign.Campaign.Question
import FuzzCampaign.Text.Utf8

/-!
# A terminal from a script

A terminal at which some input is typed already. Its input may end there; otherwise a reader waits
for more.

* `ScriptedTerminal`; `ScriptedTerminal.host`.
-/

namespace FuzzCampaign

/-- A terminal: the input not read yet, whether it ends there, the clock, whether workers are seen
alive, and the output. -/
structure ScriptedTerminal where
  input : List UInt8
  hasEnded : Bool
  clock : Nat := 0
  /-- Successive answers whether a worker is alive; the last one is used again and again. -/
  alive : List Bool := []
  output : String := ""

namespace ScriptedTerminal

/-- What a reader gets, if it gets anything, and the terminal after it. -/
def read? (t : ScriptedTerminal) : Option (Option String × ScriptedTerminal) :=
  let line := t.input.takeWhile (· ≠ 10)
  let rest := t.input.drop line.length
  if rest = [] && !t.hasEnded then none
  else
    let bytes := line ++ rest.take 1
    let line? := match bytes, Utf8.decode bytes with
      | [], _ | _, .error _ => none
      | _, .ok text => some (String.ofList text)
    some (line?, { t with input := rest.drop 1 })

/-- Whether the worker is seen alive. -/
def stillRuns : StateM ScriptedTerminal Bool := do
  let t ← get
  match t.alive with
  | [] => return true
  | [a] => return a
  | a :: alive =>
    set { t with alive }
    return a

/-- The terminal as a question sees it. -/
def host : TerminalHost ScriptedTerminal where
  now := return (← get).clock
  print text := modify fun t => { t with output := t.output ++ text }
  startReader := return true
  requestLine := return true
  awaitLine d := do
    let t ← get
    match t.read? with
    | some (line?, t) =>
      set t
      return .got line?
    | none =>
      set { t with clock := t.clock + d.nanoseconds }
      return .empty
  discardLine := do
    match (← get).read? with
    | some (_, t) =>
      set t
      return true
    | none => return false

end ScriptedTerminal

end FuzzCampaign
