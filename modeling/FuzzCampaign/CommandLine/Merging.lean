import FuzzCampaign.CommandLine.Console
import FuzzCampaign.CommandLine.Host
import FuzzCampaign.Coverage.File
import FuzzCampaign.Coverage.Summary

/-!
# Commands on coverage files

* `mergedCoverage`: the coverage of several files together;
* `mergeInto`: writes it into a file;
* `printTable`: prints a table of the functions of a file.
-/

namespace FuzzCampaign

namespace CommandLine

open CommandAction

variable {m : Type → Type} [Monad m]

/-- Read a coverage file. -/
def readCoverage (host : CommandHost m) (file : String) : CommandAction m Coverage := do
  match ← ask (host.fileBytes file) with
  | .error reason => throw (.failed (.campaign (.io reason)))
  | .ok bytes => orFail (Coverage.ofFileBytes bytes)

/-- The failure of a merge of nothing. -/
def nothingToMerge : CommandError := .invalidArgument "no coverage files given"

/-- Merge coverage files, as if each came from a worker of its own. -/
def mergedCoverage (host : CommandHost m) (files : List String) : CommandAction m Coverage := do
  if files.isEmpty then throw (.failed nothingToMerge)
  else return Coverage.merge (← files.mapM (readCoverage host))

/-- Merge coverage files into a file. -/
def mergeInto (host : CommandHost m) (console : Console) (files : List String)
    (output : String) : CommandAction m Unit := do
  let merged ← mergedCoverage host files
  orStop (.failed <| .io ·) (← ask (host.writeFile output merged.fileText))
  let total ← orAbort merged.total
  ask (host.printErr (console.say .success
    s!"merged {files.length} files ({total} hits) into {output}"))

/-- Print a table of the functions of a coverage file. -/
def printTable (host : CommandHost m) (file : String) : CommandAction m Unit := do
  let coverage ← readCoverage host file
  let table ← orAbort (Coverage.merge [coverage]).table
  ask (host.printOut table)

end CommandLine

end FuzzCampaign
