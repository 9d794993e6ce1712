import FuzzCampaign.Link.Channel
import FuzzCampaign.Link.Frame

/-!
# The control server

Workers in processes of their own connect to the orchestrator. Each worker that is expected is
registered under its index; a connection that opens with its greeting claims the registration, and
from then on its messages go to the queues of that registration and to no others.

* `Registration`: the queues of an expected worker, and the connection that its commands go to;
* `Switchboard`, `Switchboard.register`;
* `Switchboard.greet`: what the first frame of a connection does;
* `Switchboard.route`: what a later frame does;
* `Switchboard.advance`: one step of a connection, between which others do theirs;
* `Switchboard.serve`: a whole connection that is alone;
* `Switchboard.down`: a command on the way to the connection of a worker.
-/

namespace FuzzCampaign

/-- An expected worker: its queues, the connection that its commands go to, and the bytes on the way
there. -/
structure Registration where
  index : UInt64
  link : Channel
  connection? : Option Nat
  sent : List UInt8
  deriving DecidableEq

/-- The server: the registrations in order, and for each index the place of the one that still waits
for its worker. -/
structure Switchboard where
  registrations : List Registration
  waiting : SortedMap UInt64 Nat

/-- How far a connection has come: it has not greeted yet, it has claimed the registration of a
place, commands for that place go to it, or the server has closed it. -/
inductive ConnectionState
  | unclaimed
  | claimed (place : Nat)
  | serving (place : Nat)
  | closed (e? : Option CampaignError)
  deriving DecidableEq, Repr

/-- A connection: how far it has come, and the bytes that its worker sends from there on. -/
structure Connection where
  state : ConnectionState
  input : List UInt8
  deriving DecidableEq, Repr

namespace Switchboard

/-- A server that expects nobody. -/
def idle : Switchboard := ⟨[], .empty⟩

/-- The registration of a place. -/
def registration? (s : Switchboard) (place : Nat) : Option Registration :=
  s.registrations[place]?

/-- Change the registration of a place. -/
def modify (s : Switchboard) (place : Nat) (f : Registration → Registration) : Switchboard :=
  { s with registrations := s.registrations.modify place f }

/-- Change the queues of a place. -/
def relink (s : Switchboard) (place : Nat) (f : Channel → Channel) : Switchboard :=
  s.modify place fun r => { r with link := f r.link }

/-- Give up the sending end of a registration. -/
def disconnect (s : Switchboard) (place : Nat) : Switchboard :=
  s.relink place fun link => { link with hasWorker := false }

/-- Expect a worker; an earlier registration of its index that still waits is given up. -/
def register (s : Switchboard) (index : UInt64) : Switchboard :=
  let s' := match s.waiting.get? index with
    | some place => s.disconnect place
    | none => s
  { registrations := s'.registrations ++ [⟨index, .fresh, none, []⟩]
    waiting := s'.waiting.insert index s'.registrations.length }

/-! ## Connections -/

/-- The error of a connection that says nothing. -/
def silent : CampaignError := .protocol "connection closed before hello"

/-- The error of a connection that begins with another message. -/
def noGreeting : CampaignError := .protocol "first frame was not a hello"

/-- The error of a worker with another version of the protocol. -/
def versionMismatch (index : UInt64) (version : UInt16) : CampaignError :=
  .protocol s!"worker #{index} speaks protocol {version}, expected {linkVersion}"

/-- The error of a worker that nobody expects. -/
def unexpected (index : UInt64) : CampaignError :=
  .protocol s!"unexpected connection from worker #{index}"

/-- The index that a greeting announces, and the place that it claims. -/
def claim (s : Switchboard) : Dispatch → Except CampaignError (UInt64 × Nat)
  | .hello index version =>
    if version ≠ linkVersion then .error (versionMismatch index version)
    else
      match s.waiting.get? index with
      | some place => .ok (index, place)
      | none => .error (unexpected index)
  | _ => .error noGreeting

/-- A registration that waits no longer. -/
def assign (s : Switchboard) (index : UInt64) : Switchboard :=
  { s with waiting := s.waiting.erase index }

/-- The first frame of a connection. -/
def greet (s : Switchboard) : Frame.Reading Dispatch → Switchboard × ConnectionState
  | .ended => (s, .closed (some silent))
  | .failed e _ => (s, .closed (some e))
  | .message m _ =>
    match s.claim m with
    | .error e => (s, .closed (some e))
    | .ok (index, place) => (s.assign index, .claimed place)

/-- Send the commands of a place to a connection. -/
def connect (s : Switchboard) (connection : Nat) (place : Nat) : Switchboard :=
  s.modify place fun r => { r with connection? := some connection }

/-- Queue a message of the worker of a place. -/
def deliver (s : Switchboard) (place : Nat) (m : Dispatch) :
    Except CampaignError Switchboard :=
  match s.registration? place with
  | none => .ok s
  | some r => (r.link.send m).map fun link => s.relink place fun _ => link

/-- A later frame of a connection that serves a place. -/
def route (s : Switchboard) (place : Nat) :
    Frame.Reading Dispatch → Switchboard × ConnectionState
  | .ended => (s.disconnect place, .closed none)
  | .failed e _ => (s.disconnect place, .closed (some e))
  | .message m _ =>
    match s.deliver place m with
    | .ok s => (s, .serving place)
    | .error e => (s.disconnect place, .closed (some e))

/-- The next step of a connection. It reads a frame, except that between its greeting and the next
frame it only takes over the commands. -/
def advance (s : Switchboard) (connection : Nat) (c : Connection) : Switchboard × Connection :=
  match c.state with
  | .unclaimed =>
    let frame := Frame.read Binary.decodeWorker c.input
    let (s, state) := s.greet frame
    (s, ⟨state, frame.rest⟩)
  | .claimed place => (s.connect connection place, ⟨.serving place, c.input⟩)
  | .serving place =>
    let frame := Frame.read Binary.decodeWorker c.input
    let (s, state) := s.route place frame
    (s, ⟨state, frame.rest⟩)
  | .closed _ => (s, c)

/-- So many steps of a connection, or as many as it takes until the server closes it. -/
def serveFrom (connection : Nat) : Nat → Switchboard → Connection → Switchboard × Connection
  | 0, s, c => (s, c)
  | fuel + 1, s, c =>
    match s.advance connection c with
    | (s, ⟨.closed e?, rest⟩) => (s, ⟨.closed e?, rest⟩)
    | (s, c) => serveFrom connection fuel s c

/-- A whole connection, whose bytes end when its worker stops sending. The fuel is the number of
bytes and of the steps in which none is read. -/
def serve (s : Switchboard) (connection : Nat) (bytes : List UInt8) : Switchboard × Connection :=
  serveFrom connection (bytes.length + 3) s ⟨.unclaimed, bytes⟩

/-! ## Commands -/

/-- The error of a command to a worker that has not connected. -/
def notConnected (index : UInt64) : CampaignError :=
  .protocol s!"worker #{index} has not connected"

/-- Send a command to the worker of a place, over its connection. -/
def down (s : Switchboard) (place : Nat) (m : Command) : Except CampaignError Switchboard :=
  match s.registration? place with
  | none => .ok s
  | some r =>
    match r.connection? with
    | none => .error (notConnected r.index)
    | some _ => do
      let bytes ← Frame.write (Binary.encodeCommand m)
      return s.modify place fun r => { r with sent := r.sent ++ bytes }

end Switchboard

end FuzzCampaign
