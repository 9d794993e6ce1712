import FuzzCampaign.Chain.Http

/-!
# A server from a script

A server that gives its replies one after the other. When they are used up nobody listens any more.

* `ScriptedServer`; `ScriptedServer.post`.
-/

namespace FuzzCampaign

/-- A server: the replies left, and the requests it got. -/
structure ScriptedServer where
  replies : List HttpReply
  requests : List HttpRequest := []

/-- Post a request. -/
def ScriptedServer.post (r : HttpRequest) : StateM ScriptedServer HttpReply := do
  match ← get with
  | ⟨[], _⟩ => return .failed "connection refused"
  | ⟨reply :: replies, requests⟩ =>
    set (ScriptedServer.mk replies (requests ++ [r]))
    return reply

end FuzzCampaign
