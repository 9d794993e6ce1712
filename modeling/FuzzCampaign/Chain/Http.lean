import FuzzCampaign.Chain.Client

/-!
# Requests over HTTP

A request is posted to the root of the node's address. Whatever the status of the answer, its body
is the response.

* `HttpRequest`, `HttpRequest.ofText`;
* `HttpReply`, `HttpReply.response`;
* `httpExchange`.
-/

namespace FuzzCampaign

/-- A request as it is posted. -/
structure HttpRequest where
  line : String
  contentType : String
  body : String
  deriving DecidableEq, Repr

/-- The posting of a request's text. -/
def HttpRequest.ofText (text : String) : HttpRequest :=
  ⟨"POST / HTTP/1.1", "application/json", text⟩

/-- What comes of a request: an answer, or the reason why there is none. -/
inductive HttpReply
  | answered (status : Nat) (body : String)
  | failed (reason : String)
  deriving DecidableEq, Repr

/-- The response in a reply. -/
def HttpReply.response : HttpReply → Except CampaignError String
  | .answered _ body => .ok body
  | .failed reason => .error (.transport reason)

/-- The exchange of a request over HTTP. -/
def httpExchange {σ : Type} (post : HttpRequest → StateM σ HttpReply) : Exchange σ := fun text => do
  return (← post (.ofText text)).response

end FuzzCampaign
