import FuzzCampaign.CommandLine.Program

/-!
# The tool as a program

Files and the terminal are those of the system. Programs of networks cannot be started from here, so
the check of a node ends with that refusal.
-/

namespace FuzzCampaign

/-- The words of the system for a refusal. -/
def systemReason : IO.Error → String
  | .noFileOrDirectory _ code _ => s!"No such file or directory (os error {code})"
  | .permissionDenied _ code _ => s!"Permission denied (os error {code})"
  | .alreadyExists _ code _ => s!"File exists (os error {code})"
  | e => toString e

/-- Carry out something that the system may refuse. -/
def trySystem {α : Type} (act : IO α) : IO (Except String α) := do
  try return .ok (← act) catch e => return .error (systemReason e)

/-- The system as the world of a command. No command of the tool asks for a directory: that is for a
program that starts campaigns of its own. -/
def systemHost : CommandHost IO where
  fileBytes path := trySystem do return (← IO.FS.readBinFile path).toList
  writeFile path text := trySystem (IO.FS.writeFile path text)
  makeDirectories path := trySystem (IO.FS.createDirAll path)
  isDirectory _ := return true
  printOut text := do (← IO.getStdout).putStr text
  printErr text := do (← IO.getStderr).putStr text

/-- The refusal to start the program of a network. -/
def cannotStart (network : Network) : CampaignError :=
  network.startFailure "Operation not permitted (os error 1)"

/-- What is said of words that make no command. -/
def usageText : String :=
  "usage: chainfuzz coverage merge FILES -o OUTPUT\n" ++
    "       chainfuzz coverage summary FILE\n" ++
    "       chainfuzz node check [--network NETWORK] [--port PORT]\n" ++
    "       chainfuzz node list\n"

/-- Answer a command line that makes no command. -/
def refuse (e : UsageError) : IO UInt32 := do
  match e with
  | .version title => (← IO.getStdout).putStr (Tool.versionText title)
  | .help => (← IO.getStdout).putStr usageText
  | _ => (← IO.getStderr).putStr usageText
  return UInt32.ofNat e.exitCode

/-- Carry out a command line; gives the exit code. -/
def runTool (words : List String) : IO UInt32 := do
  match ToolCommand.parse words with
  | .error e => refuse e
  | .ok (flags, command) =>
    let check := fun network _ => return Except.error (cannotStart network)
    return UInt32.ofNat (← Tool.run systemHost false check flags command)

end FuzzCampaign

/-- The tool. -/
def main (words : List String) : IO UInt32 := FuzzCampaign.runTool words
