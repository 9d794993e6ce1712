import FuzzCampaign.Chain.Network

/-!
# Node processes

A node is a process of a network's program, which its worker owns until it stops it.

* `ExitStatus`: how a process ended, and its text;
* `RunningNode`: a node; `RunningNode.status?`, `RunningNode.stop`.
-/

namespace FuzzCampaign

/-- How a process ended. -/
inductive ExitStatus
  | code (n : Nat)
  | signal (n : Nat)
  deriving DecidableEq, Repr

/-- The names of the signals, from number one on. -/
def signalNames : List String :=
  ["SIGHUP", "SIGINT", "SIGQUIT", "SIGILL", "SIGTRAP", "SIGABRT", "SIGBUS", "SIGFPE", "SIGKILL",
    "SIGUSR1", "SIGSEGV", "SIGUSR2", "SIGPIPE", "SIGALRM", "SIGTERM", "SIGSTKFLT", "SIGCHLD",
    "SIGCONT", "SIGSTOP", "SIGTSTP", "SIGTTIN", "SIGTTOU", "SIGURG", "SIGXCPU", "SIGXFSZ",
    "SIGVTALRM", "SIGPROF", "SIGWINCH", "SIGIO", "SIGPWR", "SIGSYS"]

/-- The text of a status. -/
def ExitStatus.text : ExitStatus → String
  | .code n => s!"exit status: {n}"
  | .signal n =>
    match n with
    | 0 => "signal: 0"
    | k + 1 =>
      match signalNames[k]? with
      | some name => s!"signal: {n} ({name})"
      | none => s!"signal: {n}"

/-- What became of the process of a node: it runs, it ended by itself, or it was stopped and is
gone. -/
inductive NodeState
  | running
  | exited (status : ExitStatus)
  | stopped
  deriving DecidableEq, Repr

/-- A node and its process. -/
structure RunningNode where
  network : Network
  port : UInt16
  state : NodeState
  deriving DecidableEq, Repr

namespace RunningNode

/-- The text of how the node ended, if it did. -/
def status? (n : RunningNode) : Option String :=
  match n.state with
  | .running => none
  | .exited status => some status.text
  | .stopped => some "stopped"

/-- Whether there is still a process to stop. -/
def hasProcess (n : RunningNode) : Bool := n.state ≠ .stopped

/-- Stop the node; stopping it again changes nothing. -/
def stop (n : RunningNode) : RunningNode := { n with state := .stopped }

end RunningNode

end FuzzCampaign
