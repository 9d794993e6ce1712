/-!
# Paths

Paths are texts with slashes between their parts.

* `Path.join`.
-/

namespace FuzzCampaign

namespace Path

/-- The path of `name` in the directory `dir`. -/
def join (dir name : String) : String :=
  if name.startsWith "/" then name
  else if dir = "" then name
  else if dir.endsWith "/" then dir ++ name
  else dir ++ "/" ++ name

end Path

end FuzzCampaign
