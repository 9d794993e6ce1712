import FuzzCampaign.Failure.Envelope

/-!
# Capturing panics

A body may panic: the panic is recorded where it is raised, and its payload unwinds the body until
something catches it. A capture tells a body that returned from one that a panic left.

* `Payload`: what a panic carries;
* `Body`: bodies that panic, swallow panics, raise payloads again and capture bodies of their own;
* `Body.run`: what a body does to the record; `Body.capture`: a captured body.
-/

namespace FuzzCampaign

namespace PanicGuard

/-- What a panic carries: a text, or something else. -/
inductive Payload
  | text (s : String)
  | other
  deriving DecidableEq, Repr

/-- The text of a payload. -/
def Payload.message : Payload → String
  | .text s => s
  | .other => "Box<dyn Any>"

/-- A body that ends with a value of `α`, or in a panic. -/
inductive Body (α : Type)
  | done (a : α)
  /-- Panic at a place, with the backtrace of that place. -/
  | panic (payload : Payload) (location? : Option (String × UInt32)) (backtrace : String)
  /-- Unwind with a payload that was caught before; nothing is recorded. -/
  | resume (payload : Payload)
  /-- Run a part, swallow its panic if there is one, and go on. -/
  | swallow (part next : Body α)
  /-- Capture a part and go on. -/
  | nested (part next : Body α)

/-- Whether panics are recorded at present, and the last record. -/
structure Recorder where
  recording : Bool
  record? : Option Panic
  deriving DecidableEq, Repr

/-- Nothing is being recorded. -/
def Recorder.idle : Recorder := ⟨false, none⟩

/-- Forget the last record and begin to record. -/
def Recorder.begin : Recorder := ⟨true, none⟩

/-- End a recording; the record of a body that a panic left is used up. -/
def Recorder.finish {α : Type} (outcome : Except Payload α) (r : Recorder) : Recorder :=
  match outcome with
  | .ok _ => { r with recording := false }
  | .error _ => .idle

/-- Run a body: the value or the payload it ends with, and the recorder after it. -/
def Body.run {α : Type} : Body α → Recorder → Except Payload α × Recorder
  | .done a, r => (.ok a, r)
  | .panic payload location? backtrace, r =>
    (.error payload,
      if r.recording then ⟨true, some ⟨payload.message, location?, backtrace⟩⟩ else r)
  | .resume payload, r => (.error payload, r)
  | .swallow part next, r => next.run (part.run r).2
  | .nested part next, _ =>
    let (outcome, r) := part.run .begin
    next.run (r.finish outcome)

/-- The panic that a capture reports: the last one recorded, or the bare payload. -/
def reported (r : Recorder) (payload : Payload) : Panic :=
  r.record?.getD ⟨payload.message, none, ""⟩

/-- Run a body and tell its value from the panic that left it. -/
def Body.capture {α : Type} (body : Body α) : Except Panic α × Recorder :=
  let (outcome, r) := body.run .begin
  (outcome.mapError (reported r), r.finish outcome)

end PanicGuard

end FuzzCampaign
