import FuzzCampaign.Campaign.LineReader
import FuzzCampaign.Campaign.Question
import FuzzCampaign.Proofs.Outcome

/-!
# Questions at a terminal, in any order of steps

Lines are typed at a terminal, and read by the helper of its reader, while questions are asked one
after another. Before a question gets an answer from its world, anything may have happened there:
lines may have been typed, the helper may have gone on, or have broken off. What happens is for the
surroundings to say, as are the clock and the workers, so a statement about all surroundings is one
about all schedules.

* `TerminalEvent`, `Terminal`: a terminal and what has happened there;
* `typedIn`, `deliveredIn`, `consumedIn`, `requestsIn`, `ownIn`: the parts of a diary;
* `TerminalWorld`, `TerminalWorld.host`: the world of a question at the terminal;
* `TerminalWorld.session`: questions one after another.
-/

namespace FuzzCampaign

/-- What happens at a terminal. -/
inductive TerminalEvent
  /-- Somebody typed a line, or ended the input. -/
  | typed (line? : Option String)
  /-- The helper handed a line over. -/
  | delivered (line? : Option String)
  /-- A question began, for so long at most. -/
  | began (timeout? : Option Duration)
  /-- A line that had come since an earlier question was thrown away. -/
  | discarded (line? : Option String)
  | readClock (now : Nat)
  | printed (text : String)
  /-- The question looked after the worker. -/
  | looked (alive : Bool)
  | requested
  /-- The question took a line. -/
  | took (line? : Option String)
  /-- No line came in time. -/
  | waited
  /-- It turned out that nobody reads. -/
  | unreadable
  /-- The question ended. -/
  | replied (reply : PromptReply)
  deriving DecidableEq

/-! ## The parts of a diary -/

namespace TerminalEvent

/-- What was typed. -/
def typed? : TerminalEvent → Option (Option String)
  | .typed line? => some line?
  | _ => none

/-- What was handed over. -/
def delivered? : TerminalEvent → Option (Option String)
  | .delivered line? => some line?
  | _ => none

/-- What a question took or threw away. -/
def consumed? : TerminalEvent → Option (Option String)
  | .took line? | .discarded line? => some line?
  | _ => none

/-- What the clock showed. -/
def clock? : TerminalEvent → Option Nat
  | .readClock now => some now
  | _ => none

def isRequest : TerminalEvent → Bool
  | .requested => true
  | _ => false

/-- Whether it is the questions that did it. -/
def isOwn : TerminalEvent → Bool
  | .typed _ | .delivered _ => false
  | _ => true

end TerminalEvent

/-- The lines that were typed. -/
def typedIn (diary : List TerminalEvent) : List (Option String) :=
  diary.filterMap TerminalEvent.typed?

/-- The lines that the helper handed over. -/
def deliveredIn (diary : List TerminalEvent) : List (Option String) :=
  diary.filterMap TerminalEvent.delivered?

/-- The lines that questions took or threw away. -/
def consumedIn (diary : List TerminalEvent) : List (Option String) :=
  diary.filterMap TerminalEvent.consumed?

/-- How many lines were requested. -/
def requestsIn (diary : List TerminalEvent) : Nat := diary.countP TerminalEvent.isRequest

/-- What the questions did. -/
def ownIn (diary : List TerminalEvent) : List TerminalEvent := diary.filter TerminalEvent.isOwn

section

variable (d : List TerminalEvent) (e : TerminalEvent)

@[simp] theorem typedIn_snoc : typedIn (d ++ [e]) = typedIn d ++ e.typed?.toList := by
  cases e <;> simp [typedIn, TerminalEvent.typed?]

@[simp] theorem deliveredIn_snoc :
    deliveredIn (d ++ [e]) = deliveredIn d ++ e.delivered?.toList := by
  cases e <;> simp [deliveredIn, TerminalEvent.delivered?]

@[simp] theorem consumedIn_snoc : consumedIn (d ++ [e]) = consumedIn d ++ e.consumed?.toList := by
  cases e <;> simp [consumedIn, TerminalEvent.consumed?]

@[simp] theorem requestsIn_snoc : requestsIn (d ++ [e]) = requestsIn d + e.isRequest.toNat := by
  cases e <;> simp [requestsIn, TerminalEvent.isRequest]

variable {e}

theorem ownIn_snoc_of_own (h : e.isOwn = true) : ownIn (d ++ [e]) = ownIn d ++ [e] := by
  simp [ownIn, h]

theorem ownIn_snoc_of_not_own (h : e.isOwn = false) : ownIn (d ++ [e]) = ownIn d := by
  simp [ownIn, h]

end

/-! ## The terminal -/

/-- A terminal: the lines that are typed and not read, the reader, and what has happened. -/
structure Terminal where
  typed : List (Option String)
  reader : LineReader
  diary : List TerminalEvent

/-- What happens at a terminal by itself. -/
inductive TerminalMove
  /-- Somebody types a line, or ends the input. -/
  | type (line? : Option String)
  /-- The helper goes on. -/
  | work
  /-- The helper breaks off. -/
  | vanish
  deriving DecidableEq, Repr

namespace Terminal

/-- A terminal at which nothing has been typed or asked. -/
def fresh : Terminal := ⟨[], .absent, []⟩

/-- Add to what has happened. -/
def note (t : Terminal) (e : TerminalEvent) : Terminal := { t with diary := t.diary ++ [e] }

/-- The helper goes on. -/
def work (t : Terminal) : Terminal :=
  let (reader, typed) := t.reader.work t.typed
  let t' := { t with reader, typed }
  match t.reader.helper with
  | .holding line? => t'.note (.delivered line?)
  | _ => t'

/-- The helper takes a request, reads a line, hands a line over, or cannot go on. -/
theorem work_cases (t : Terminal) :
    t.work = t ∨
    (∃ n, t.reader.helper = .idle ∧ t.reader.requests = n + 1 ∧
      t.work = { t with reader := { t.reader with requests := n, helper := .reading } }) ∨
    (∃ line? rest, t.reader.helper = .reading ∧ t.typed = line? :: rest ∧
      t.work = { t with reader := { t.reader with helper := .holding line? }, typed := rest }) ∨
    (∃ line?, t.reader.helper = .holding line? ∧
      t.work = { t with reader := { t.reader with
        helper := .idle, lines := t.reader.lines ++ [line?] } }.note (.delivered line?)) := by
  rcases hhelper : t.reader.helper with _ | _ | line? | _
  · rcases hrequests : t.reader.requests with _ | n
    · left
      simp [work, LineReader.work, hhelper, hrequests]
    · right; left
      exact ⟨n, rfl, rfl, by simp [work, LineReader.work, hhelper, hrequests]⟩
  · rcases htyped : t.typed with _ | ⟨line?, rest⟩
    · left
      simp only [work, LineReader.work, hhelper, htyped]
      rw [← htyped]
    · right; right; left
      exact ⟨line?, rest, rfl, rfl, by simp [work, LineReader.work, hhelper, htyped]⟩
  · right; right; right
    exact ⟨line?, rfl, by simp [work, LineReader.work, hhelper]⟩
  · left
    simp [work, LineReader.work, hhelper]

/-- A step that needs no question. -/
def step (t : Terminal) : TerminalMove → Terminal
  | .type line? => { t with typed := t.typed ++ [line?] }.note (.typed line?)
  | .work => t.work
  | .vanish => { t with reader := t.reader.vanish }

/-- A question starts the reader, if that is possible. -/
def start (t : Terminal) (possible : Bool) : Terminal :=
  if possible then { t with reader := .started } else t.note .unreadable

/-- A question requests a line. -/
def request (t : Terminal) : Bool × Terminal :=
  match t.reader.request with
  | some reader => (true, { t with reader }.note .requested)
  | none => (false, t.note .unreadable)

/-- What a look for a line comes to. -/
def heard : Poll (Option String) → TerminalEvent
  | .got line? => .took line?
  | .empty => .waited
  | .disconnected => .unreadable

/-- A question looks for a line. -/
def await (t : Terminal) : Poll (Option String) × Terminal :=
  let (found, reader) := t.reader.receive
  (found, { t with reader }.note (heard found))

/-- A question throws a line away. -/
def discard (t : Terminal) : Bool × Terminal :=
  match t.reader.receive with
  | (.got line?, reader) => (true, { t with reader }.note (.discarded line?))
  | _ => (false, t)

end Terminal

/-! ## The world of a question -/

/-- Everything around a terminal: what happens before the next answer, and what else a world
answers. -/
structure TerminalWorld (ρ : Type) where
  moves : StateM ρ (List TerminalMove)
  now : StateM ρ Nat
  /-- Whether a reader can be started. -/
  canRead : StateM ρ Bool

/-- A question: how long it is open at most, whether its worker is seen alive, and the rounds that
it is followed for. -/
structure TerminalQuestion (ρ : Type) where
  timeout? : Option Duration
  alive : StateM ρ Bool
  rounds : Nat

namespace TerminalWorld

variable {ρ α : Type} (world : TerminalWorld ρ)

/-- What happens before the next answer. -/
def turn (s : Terminal × ρ) : Terminal × ρ :=
  ((world.moves s.2).1.foldl Terminal.step s.1, (world.moves s.2).2)

/-- Ask the surroundings; their answer makes a difference to the terminal. -/
def aside (q : StateM ρ α) (f : α → Terminal → Terminal) : StateM (Terminal × ρ) α := fun s =>
  let (t, rest) := world.turn s
  ((q rest).1, f (q rest).1 t, (q rest).2)

/-- Use the terminal. -/
def use (f : Terminal → α × Terminal) : StateM (Terminal × ρ) α := fun s =>
  let (t, rest) := world.turn s
  ((f t).1, (f t).2, rest)

/-- The world of a question at the terminal. -/
def host : TerminalHost (Terminal × ρ) where
  now := world.aside world.now fun now t => t.note (.readClock now)
  print text := world.use fun t => ((), t.note (.printed text))
  startReader := world.aside world.canRead fun possible t => t.start possible
  requestLine := world.use Terminal.request
  awaitLine _ := world.use Terminal.await
  discardLine := world.use Terminal.discard

/-- A look after a worker. -/
def look (alive : StateM ρ Bool) : StateM (Terminal × ρ) Bool :=
  world.aside alive fun a t => t.note (.looked a)

/-- Add to what has happened at the terminal. -/
def record (e : TerminalEvent) : StateM (Terminal × ρ) Unit := modify fun s => (s.1.note e, s.2)

/-- Questions one after another; `reader?` is what is left of those before. -/
def session : List (TerminalQuestion ρ) → Option Bool → Action (Terminal × ρ) (List PromptReply)
  | [], _ => return []
  | q :: questions, reader? => do
    Action.ask (record (.began q.timeout?))
    let (reply, reader?) ←
      TerminalPrompt.ask world.host q.timeout? (world.look q.alive) reader? q.rounds
    Action.ask (record (.replied reply))
    let replies ← session questions reader?
    return reply :: replies

end TerminalWorld

end FuzzCampaign
