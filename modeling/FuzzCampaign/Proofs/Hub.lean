import FuzzCampaign.Proofs.FrameStream
import Mathlib.Data.List.Induction

/-!
# A server among its connections

The threads of a server take turns. Between two steps of a connection others do theirs, workers are
registered, and the orchestrator looks into queues, drops its end of a link or sends a command.

* `Queue`, `Dispatch.queue?`, `Channel.queued`, `Channel.take`: the queues of a link as a family;
* `Occurrence`, `Hub`, `Hub.run`: the server, its connections and what came to the
  orchestrator, after whatever has happened;
* `Switchboard.closed_serve`, `Hub.foldl_turn`: a connection that is alone;
* `greeting?`, `passable`: what the bytes of a connection say;
* `Docket.claimant?`: the connection that is to have a place.
-/

namespace FuzzCampaign

/-! ## The queues of a link -/

/-- The queues from a worker to the orchestrator. -/
inductive Queue
  | completions
  | exceptions
  | snapshots
  deriving DecidableEq

/-- The queue of a message; a greeting has none. -/
def Dispatch.queue? : Dispatch → Option Queue
  | .hello _ _ => none
  | .exception _ => some .exceptions
  | .coverage _ => some .snapshots
  | .finished => some .completions

/-- The messages that belong into a queue. -/
def onQueue (q : Queue) (ms : List Dispatch) : List Dispatch := ms.filter fun m => m.queue? = some q

@[simp] theorem onQueue_nil (q : Queue) : onQueue q [] = [] := rfl

@[simp] theorem onQueue_append (q : Queue) (ms ms' : List Dispatch) :
    onQueue q (ms ++ ms') = onQueue q ms ++ onQueue q ms' := List.filter_append ..

/-- What a look has found. -/
def Poll.got? {α : Type} : Poll α → Option α
  | .got a => some a
  | _ => none

namespace Channel

variable {c c' : Channel} {m : Dispatch}

/-- The messages in a queue. -/
def queued (c : Channel) : Queue → List Dispatch
  | .completions => c.completions.map fun _ => .finished
  | .exceptions => c.exceptions.map .exception
  | .snapshots => c.snapshots.map .coverage

/-- Look into a queue. -/
def take (c : Channel) : Queue → Option Dispatch × Channel
  | .completions => (c.completion.1.got?.map fun _ => .finished, c.completion.2)
  | .exceptions => (c.exception.1.got?.map .exception, c.exception.2)
  | .snapshots => (c.snapshot.1.got?.map .coverage, c.snapshot.2)

@[simp] theorem hasOrchestrator_take (q : Queue) :
    (c.take q).2.hasOrchestrator = c.hasOrchestrator := by
  cases q <;> rfl

/-- A message that is found was in front of its queue, and no other queue is changed. -/
theorem onQueue_take (q q' : Queue) :
    onQueue q' (c.take q).1.toList ++ (c.take q).2.queued q' = c.queued q' := by
  rcases c with ⟨completions, exceptions, snapshots, commands, _ | _, hasOrchestrator⟩ <;>
    cases q <;> cases q' <;> cases completions <;> cases exceptions <;> cases snapshots <;> rfl

theorem queued_enqueue (h : c.enqueue m = .ok c') (q : Queue) :
    c'.queued q = c.queued q ++ onQueue q [m] := by
  cases m with
  | hello index version => cases h
  | _ =>
    cases h
    cases q <;> simp [queued, onQueue, Dispatch.queue?]

theorem hasOrchestrator_enqueue (h : c.enqueue m = .ok c') :
    c'.hasOrchestrator = c.hasOrchestrator := by
  cases m <;> cases h <;> rfl

theorem hasOrchestrator_send (h : c.send m = .ok c') : c'.hasOrchestrator = c.hasOrchestrator := by
  unfold send at h
  rcases henqueue : c.enqueue m with e | link
  · rw [henqueue] at h
    cases h
  · rw [henqueue] at h
    rcases hlistens : c.hasOrchestrator with _ | _
    · simp [hlistens, bind, Except.bind, throw, throwThe, MonadExceptOf.throw] at h
    · simp only [hlistens, bind, Except.bind, if_true, pure, Except.pure, Except.ok.injEq] at h
      rw [← h, hasOrchestrator_enqueue henqueue, hlistens]

/-- As long as the orchestrator listens, all messages are accepted that have a queue. -/
theorem send_of_queue? (hc : c.hasOrchestrator = true) (hm : m.queue?.isSome = true) :
    ∃ c', c.send m = .ok c' ∧ c.enqueue m = .ok c' := by
  cases m with
  | hello index version => cases hm
  | _ => exact ⟨_, if_pos hc, rfl⟩

end Channel

/-! ## The system -/

/-- What happens at a server. -/
inductive Occurrence
  | register (index : UInt64)
  /-- The thread of a connection does its next step. -/
  | turn (connection : Nat)
  /-- The orchestrator looks into a queue of a place. -/
  | look (place : Nat) (queue : Queue)
  /-- The orchestrator drops its end of a link. -/
  | hangUp (place : Nat)
  | command (place : Nat) (c : Command)
  deriving DecidableEq

/-- A server with its connections, and for each place the messages that the orchestrator has taken
and the commands that were accepted. -/
structure Hub where
  board : Switchboard
  connections : Nat → Connection
  taken : Nat → List Dispatch
  accepted : Nat → List Command

namespace Hub

/-- Before anything has happened; each connection has the bytes that its peer will send. -/
def start (inputs : Nat → List UInt8) : Hub :=
  ⟨.idle, fun c => ⟨.unclaimed, inputs c⟩, fun _ => [], fun _ => []⟩

/-- What an occurrence does. -/
def step (x : Hub) : Occurrence → Hub
  | .register index => { x with board := x.board.register index }
  | .turn c =>
    let (board, connection) := x.board.advance c (x.connections c)
    { x with board, connections := Function.update x.connections c connection }
  | .look place q =>
    match x.board.registration? place with
    | none => x
    | some r =>
      { x with
        board := x.board.relink place fun link => (link.take q).2
        taken := Function.update x.taken place (x.taken place ++ (r.link.take q).1.toList) }
  | .hangUp place => { x with board := x.board.relink place Channel.dropOrchestrator }
  | .command place m =>
    match x.board.registration? place, x.board.down place m with
    | some _, .ok board =>
      { x with board, accepted := Function.update x.accepted place (x.accepted place ++ [m]) }
    | _, _ => x

/-- The server after some occurrences, whatever their order. -/
def run (inputs : Nat → List UInt8) (es : List Occurrence) : Hub := es.foldl step (start inputs)

@[simp] theorem run_nil (inputs : Nat → List UInt8) : run inputs [] = start inputs := rfl

@[simp] theorem run_snoc (inputs : Nat → List UInt8) (es : List Occurrence) (e : Occurrence) :
    run inputs (es ++ [e]) = (run inputs es).step e := List.foldl_append

end Hub

/-! ## A connection that is alone -/

namespace Switchboard

theorem serveFrom_closed (connection fuel : Nat) (s : Switchboard) (e? : Option CampaignError)
    (rest : List UInt8) :
    serveFrom connection fuel s ⟨.closed e?, rest⟩ = (s, ⟨.closed e?, rest⟩) := by
  cases fuel <;> rfl

/-- Steps of a connection without others in between. -/
theorem serveFrom_succ (connection fuel : Nat) (s : Switchboard) (c : Connection) :
    serveFrom connection (fuel + 1) s c =
      serveFrom connection fuel (s.advance connection c).1 (s.advance connection c).2 := by
  rw [serveFrom]
  rcases s.advance connection c with ⟨s', ⟨_ | _ | _ | e?, rest⟩⟩
  · rfl
  · rfl
  · rfl
  · exact (serveFrom_closed connection fuel s' e? rest).symm

theorem closed_of_serving (connection fuel : Nat) (s : Switchboard) (place : Nat)
    (bytes : List UInt8)
    (h : bytes.length < fuel) :
    ∃ e?, (serveFrom connection fuel s ⟨.serving place, bytes⟩).2.state = .closed e? := by
  induction fuel generalizing s bytes with
  | zero => exact absurd h (Nat.not_lt_zero _)
  | succ fuel ih =>
    rw [serveFrom_succ, advance]
    dsimp only
    rcases hread : Frame.read Binary.decodeWorker bytes with ⟨m, rest⟩ | _ | ⟨e, rest⟩
    · rw [route]
      rcases s.deliver place m with e | s'
      · exact ⟨some e, by rw [serveFrom_closed]⟩
      · have hrest := Frame.length_lt_of_read hread
        exact ih s' rest (by omega)
    · exact ⟨none, by rw [route, serveFrom_closed]⟩
    · exact ⟨some e, by rw [route, serveFrom_closed]⟩

/-- **Every connection comes to an end.** -/
theorem closed_serve (s : Switchboard) (connection : Nat) (bytes : List UInt8) :
    ∃ e?, (s.serve connection bytes).2.state = .closed e? := by
  rw [serve, serveFrom_succ, advance]
  dsimp only
  rcases hread : Frame.read Binary.decodeWorker bytes with ⟨m, rest⟩ | _ | ⟨e, rest⟩
  · rw [greet]
    rcases s.claim m with e | ⟨index, place⟩
    · exact ⟨some e, by rw [serveFrom_closed]⟩
    · have hrest := Frame.length_lt_of_read hread
      dsimp only
      rw [serveFrom_succ]
      exact closed_of_serving connection _ _ place rest (by omega)
  · exact ⟨some silent, by rw [greet, serveFrom_closed]⟩
  · exact ⟨some e, by rw [greet, serveFrom_closed]⟩

end Switchboard

theorem Hub.foldl_turn (x : Hub) (c n : Nat) :
    (List.replicate n (.turn c)).foldl step x =
      { x with
        board := (Switchboard.serveFrom c n x.board (x.connections c)).1
        connections :=
          Function.update x.connections c
            (Switchboard.serveFrom c n x.board (x.connections c)).2 } := by
  induction n generalizing x with
  | zero =>
    change x = { x with connections := Function.update x.connections c (x.connections c) }
    rw [Function.update_eq_self]
  | succ n ih =>
    rw [List.replicate_succ, List.foldl_cons, ih, Switchboard.serveFrom_succ]
    simp only [step, Function.update_self, Function.update_idem]

/-! ## What the bytes of a connection say -/

/-- The index with which a connection greets, if its first frame is a greeting in the version of the
protocol. -/
def greeting? (bytes : List UInt8) : Option UInt64 :=
  match Frame.read Binary.decodeWorker bytes with
  | .message (.hello index version) _ => if version = linkVersion then some index else none
  | _ => none

/-- The messages in some bytes up to the first bad frame, greeting or the end. -/
def messages (bytes : List UInt8) : List Dispatch :=
  (Frame.readAll Binary.decodeWorker bytes).1.takeWhile fun m => m.queue?.isSome

/-- The messages of a connection behind its first frame, up to the first bad frame, greeting or the
end. -/
def passable (bytes : List UInt8) : List Dispatch :=
  ((Frame.readAll Binary.decodeWorker bytes).1.drop 1).takeWhile fun m => m.queue?.isSome

/-- The bytes behind the first frame. -/
def behindFirst (bytes : List UInt8) : List UInt8 := (Frame.read Binary.decodeWorker bytes).rest

section

variable {bytes : List UInt8} {index : UInt64}

theorem greeting?_eq_some_iff : greeting? bytes = some index ↔
    Frame.read Binary.decodeWorker bytes =
      .message (.hello index linkVersion) (behindFirst bytes) := by
  unfold greeting? behindFirst
  rcases Frame.read Binary.decodeWorker bytes with ⟨_ | _ | _ | _, rest⟩ | _ | ⟨e, rest⟩
  case message.hello i version =>
    by_cases hversion : version = linkVersion <;> simp [Frame.Reading.rest, hversion]
  all_goals simp

theorem passable_of_greeting? (h : greeting? bytes = some index) :
    passable bytes = messages (behindFirst bytes) := by
  rw [passable, Frame.readAll_of_message (greeting?_eq_some_iff.1 h), messages, List.drop_one,
    List.tail_cons]

theorem messages_of_message {m : Dispatch} {rest : List UInt8}
    (h : Frame.read Binary.decodeWorker bytes = .message m rest) (hm : m.queue?.isSome = true) :
    messages bytes = m :: messages rest := by
  rw [messages, Frame.readAll_of_message h]
  exact List.takeWhile_cons_of_pos hm

theorem messages_of_hello {version : UInt16} {rest : List UInt8}
    (h : Frame.read Binary.decodeWorker bytes = .message (.hello index version) rest) :
    messages bytes = [] := by
  rw [messages, Frame.readAll_of_message h]
  rfl

theorem messages_of_ended (h : Frame.read Binary.decodeWorker bytes = .ended) :
    messages bytes = [] := by
  rw [messages, Frame.readAll_of_ended h]
  rfl

theorem messages_of_failed {e : CampaignError} {rest : List UInt8}
    (h : Frame.read Binary.decodeWorker bytes = .failed e rest) : messages bytes = [] := by
  rw [messages, Frame.readAll_of_failed h]
  rfl

end

/-! ## Who is to have a place -/

/-- The indexes that were registered, and the connections whose first frame was looked at, each with
the number of registrations before it, all in order. -/
structure Docket where
  indexes : List UInt64
  arrivals : List (Nat × Nat)

/-- How many steps a connection has done. -/
def turnsIn (c : Nat) (es : List Occurrence) : Nat := es.count (.turn c)

namespace Docket

/-- What an occurrence adds. -/
def note (d : Docket) : Occurrence → Docket
  | .register index => { d with indexes := d.indexes ++ [index] }
  | .turn c =>
    if c ∈ d.arrivals.map (·.1) then d
    else { d with arrivals := d.arrivals ++ [(c, d.indexes.length)] }
  | _ => d

/-- All that was noted of some occurrences. -/
def ofList (es : List Occurrence) : Docket := es.foldl note ⟨[], []⟩

/-- The connection that is to have a place: the first that came after the registration and greets
with its index. -/
def claimant? (d : Docket) (inputs : Nat → List UInt8) (place : Nat) : Option Nat :=
  d.indexes[place]?.bind fun index =>
    (d.arrivals.find? fun a => place < a.2 ∧ greeting? (inputs a.1) = some index).map (·.1)

variable {d : Docket} {inputs : Nat → List UInt8} {es : List Occurrence} {e : Occurrence}
  {place c : Nat} {index : UInt64}

@[simp] theorem ofList_snoc : ofList (es ++ [e]) = (ofList es).note e := List.foldl_append

theorem nodup_of_snoc (h : (ofList (es ++ [e])).indexes.Nodup) : (ofList es).indexes.Nodup := by
  rw [ofList_snoc] at h
  cases e with
  | register index => exact (List.nodup_append.1 h).1
  | turn c =>
    rw [note] at h
    split_ifs at h <;> exact h
  | _ => exact h

theorem mem_arrivals : c ∈ (ofList es).arrivals.map (·.1) ↔ .turn c ∈ es := by
  induction es using List.reverseRecOn with
  | nil => simp [ofList]
  | append_singleton es e ih =>
    rw [ofList_snoc, List.mem_append, List.mem_singleton, ← ih]
    cases e with
    | turn c' =>
      rw [note]
      split_ifs with hc'
      · exact ⟨.inl, fun h => h.elim id fun heq => by cases heq; exact hc'⟩
      · simp
    | _ => simp [note]

/-- No connection comes after registrations that are still to be made. -/
theorem le_length_of_mem_arrivals {a : Nat × Nat} (ha : a ∈ (ofList es).arrivals) :
    a.2 ≤ (ofList es).indexes.length := by
  induction es using List.reverseRecOn with
  | nil => cases ha
  | append_singleton es e ih =>
    rw [ofList_snoc] at ha ⊢
    cases e with
    | register index =>
      rw [note, List.length_append]
      exact Nat.le_add_right_of_le (ih ha)
    | turn c' =>
      rw [note] at ha ⊢
      split_ifs at ha ⊢
      · exact ih ha
      · rcases List.mem_append.1 ha with ha | ha
        · exact ih ha
        · rw [List.mem_singleton.1 ha]
    | _ => exact ih ha

theorem claimant?_register (hd : ∀ a ∈ d.arrivals, a.2 ≤ d.indexes.length) (index : UInt64) :
    (d.note (.register index)).claimant? inputs place = d.claimant? inputs place := by
  unfold claimant?
  rw [note]
  rcases Nat.lt_trichotomy place d.indexes.length with hlt | rfl | hgt
  · rw [List.getElem?_append_left hlt]
  · rw [List.getElem?_concat_length, List.getElem?_eq_none (Nat.le_refl _)]
    refine Option.map_eq_none_iff.2 (List.find?_eq_none.2 fun a ha hafter => ?_)
    have hbefore := hd a ha
    simp only [decide_eq_true_eq] at hafter
    omega
  · rw [List.getElem?_eq_none (by simp; omega), List.getElem?_eq_none (by omega)]

/-- A connection that comes gets the place of the index that it greets with, if no other has it. -/
theorem claimant?_turn (hc : c ∉ d.arrivals.map (·.1)) :
    (d.note (.turn c)).claimant? inputs place = (d.claimant? inputs place).or
      (if ∃ index, d.indexes[place]? = some index ∧ greeting? (inputs c) = some index
        then some c else none) := by
  unfold claimant?
  rw [note, if_neg hc]
  rcases hindex : d.indexes[place]? with _ | index
  · simp
  · have hplace := (List.getElem?_eq_some_iff.1 hindex).1
    rw [Option.bind_some, Option.bind_some, List.find?_append, List.find?_singleton]
    simp only [hplace, true_and, Option.some_inj, exists_eq_left', Option.map_or]
    by_cases hgreeting : greeting? (inputs c) = some index <;> simp [hgreeting]

theorem claimant?_append (h : (ofList es).claimant? inputs place = some c)
    (more : List Occurrence) :
    (ofList (es ++ more)).claimant? inputs place = some c := by
  induction more using List.reverseRecOn with
  | nil => rwa [List.append_nil]
  | append_singleton more e ih =>
    rw [← List.append_assoc, ofList_snoc]
    cases e with
    | register index =>
      rw [claimant?_register fun _ => le_length_of_mem_arrivals]
      exact ih
    | turn c' =>
      by_cases hc : c' ∈ (ofList (es ++ more)).arrivals.map (·.1)
      · rw [note, if_pos hc]
        exact ih
      · rw [claimant?_turn hc, ih, Option.some_or]
    | _ => exact ih

end Docket

end FuzzCampaign
