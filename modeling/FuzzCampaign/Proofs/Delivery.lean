import FuzzCampaign.Proofs.Floor

/-!
# Nothing is lost between a worker and the orchestrator

What a worker has said is what arrived, followed by what is on the wire; what arrived of a kind is
what the orchestrator took of that kind, followed by what is still queued. The same holds of
commands on their way down.

* `saidIn`, `heardIn`, `commandedIn`, `informedIn`, `gatheredIn`, `signalsIn`: the parts of a diary;
* `Station.Sound`: nothing is lost at a station, **`Station.Sound.work`**, `Station.Sound.carry` and
  the other steps keep it.
-/

namespace FuzzCampaign

/-! ## The parts of a diary -/

namespace LinkEvent

@[simp] def said? : LinkEvent → Option Dispatch
  | .said m => some m
  | _ => none

@[simp] def heard? : LinkEvent → Option Command
  | .heard c => some c
  | _ => none

@[simp] def commanded? : LinkEvent → Option Command
  | .commanded c => some c
  | _ => none

@[simp] def informed? : LinkEvent → Option (Option Envelope)
  | .informed report => some report
  | _ => none

@[simp] def snapshots : LinkEvent → List Snapshot
  | .gathered l => l
  | _ => []

@[simp] def isSignal : LinkEvent → Bool
  | .signalled => true
  | _ => false

end LinkEvent

/-- The messages that the worker handed over. -/
def saidIn (diary : List LinkEvent) : List Dispatch := diary.filterMap LinkEvent.said?

/-- The commands that the worker received. -/
def heardIn (diary : List LinkEvent) : List Command := diary.filterMap LinkEvent.heard?

/-- The commands that the orchestrator sent. -/
def commandedIn (diary : List LinkEvent) : List Command := diary.filterMap LinkEvent.commanded?

/-- The outcomes that the orchestrator took. -/
def informedIn (diary : List LinkEvent) : List (Option Envelope) :=
  diary.filterMap LinkEvent.informed?

/-- The coverage that the orchestrator took. -/
def gatheredIn (diary : List LinkEvent) : List Snapshot := diary.flatMap LinkEvent.snapshots

/-- How many completions the orchestrator took. -/
def signalsIn (diary : List LinkEvent) : Nat := diary.countP LinkEvent.isSignal

section

variable (d : List LinkEvent) (e : LinkEvent)

@[simp] theorem saidIn_snoc : saidIn (d ++ [e]) = saidIn d ++ e.said?.toList := by
  cases e <;> simp [saidIn, LinkEvent.said?]

@[simp] theorem heardIn_snoc : heardIn (d ++ [e]) = heardIn d ++ e.heard?.toList := by
  cases e <;> simp [heardIn, LinkEvent.heard?]

@[simp] theorem commandedIn_snoc :
    commandedIn (d ++ [e]) = commandedIn d ++ e.commanded?.toList := by
  cases e <;> simp [commandedIn, LinkEvent.commanded?]

@[simp] theorem informedIn_snoc : informedIn (d ++ [e]) = informedIn d ++ e.informed?.toList := by
  cases e <;> simp [informedIn, LinkEvent.informed?]

@[simp] theorem gatheredIn_snoc : gatheredIn (d ++ [e]) = gatheredIn d ++ e.snapshots := by
  simp [gatheredIn]

@[simp] theorem signalsIn_snoc : signalsIn (d ++ [e]) = signalsIn d + e.isSignal.toNat := by
  cases e <;> simp [signalsIn, LinkEvent.isSignal]

end

/-! ## Soundness -/

namespace Station

/-- Nothing is lost at a station where `arrived` has come through the link. -/
structure Sound (arrived : List Dispatch) (st : Station) : Prop where
  listens : st.link.hasWorker = true
  said_eq : saidIn st.diary = arrived ++ st.wire
  finished_eq : finishedIn arrived = signalsIn st.diary + st.link.completions.length
  exceptions_eq : exceptionsOf arrived = informedIn st.diary ++ st.link.exceptions
  snapshots_eq : snapshotsOf arrived = gatheredIn st.diary ++ st.link.snapshots
  commanded_eq : commandedIn st.diary = heardIn st.diary ++ st.link.commands

theorem sound_start (talk : Conversation) : (start talk).Sound [] :=
  ⟨rfl, rfl, rfl, rfl, rfl, rfl⟩

variable {arrived : List Dispatch} {st : Station}

/-! ## Steps of a station -/

theorem receive_of_cons {ch : Channel} {c : Command} {rest : List Command}
    (h : ch.commands = c :: rest) : ch.receive = (.got c, { ch with commands := rest }) := by
  simp only [Channel.receive, h, Poll.ofQueue]

theorem work_of_no_command {next : Except CampaignError Command → Conversation}
    (ht : st.talk = .hearing next) (hc : st.link.commands = []) : st.work = st := by
  unfold work
  rw [ht]
  simp only [Channel.receive, hc, Poll.ofQueue]
  cases st.link.hasOrchestrator <;> rfl

theorem work_of_command {next : Except CampaignError Command → Conversation} {c : Command}
    {rest : List Command} (ht : st.talk = .hearing next) (hc : st.link.commands = c :: rest) :
    st.work = { st with talk := next (.ok c), link := { st.link with commands := rest } }.note
      (.heard c) := by
  unfold work
  rw [ht]
  simp only [receive_of_cons hc]

theorem work_of_saying {m : Dispatch} {next : Except CampaignError Unit → Conversation}
    (ht : st.talk = .saying m next) :
    st.work = { st with talk := next (.ok ()), wire := st.wire ++ [m] }.note (.said m) := by
  unfold work
  rw [ht]

theorem work_of_debugging {e : Envelope} {next : Conversation} (ht : st.talk = .debugging e next) :
    st.work = { st with talk := next } := by
  unfold work
  rw [ht]

theorem work_of_ended {r : Except Stop WorkerEnd} (ht : st.talk = .ended r) : st.work = st := by
  unfold work
  rw [ht]

/-- **A worker that goes on loses nothing.** -/
theorem Sound.work (h : st.Sound arrived) : st.work.Sound arrived := by
  obtain ⟨hl, hsaid, hfinished, hexceptions, hsnapshots, hcommanded⟩ := h
  rcases ht : st.talk with r | ⟨m, next⟩ | next | ⟨e, next⟩
  · rw [work_of_ended ht]
    exact ⟨hl, hsaid, hfinished, hexceptions, hsnapshots, hcommanded⟩
  · rw [work_of_saying ht]
    constructor <;> simp [note, *]
  · rcases hc : st.link.commands with _ | ⟨c, rest⟩
    · rw [work_of_no_command ht hc]
      exact ⟨hl, hsaid, hfinished, hexceptions, hsnapshots, hcommanded⟩
    · rw [work_of_command ht hc]
      constructor <;> simp [note, *]
  · rw [work_of_debugging ht]
    exact ⟨hl, hsaid, hfinished, hexceptions, hsnapshots, hcommanded⟩

theorem diary_work (st : Station) : st.work.diary = st.diary ∨
    (∃ m, st.work.diary = st.diary ++ [.said m]) ∨ ∃ c, st.work.diary = st.diary ++ [.heard c] := by
  unfold work
  rcases st.talk with r | ⟨m, next⟩ | next | ⟨e, next⟩
  · exact .inl rfl
  · exact .inr (.inl ⟨m, rfl⟩)
  · rcases h : st.link.receive with ⟨c | _ | _, link⟩
    · exact .inr (.inr ⟨c, rfl⟩)
    · exact .inl rfl
    · exact .inl rfl
  · exact .inl rfl

theorem gatheredIn_work (st : Station) : gatheredIn st.work.diary = gatheredIn st.diary := by
  rcases diary_work st with h | ⟨m, h⟩ | ⟨c, h⟩ <;> simp [h]

theorem signalsIn_work (st : Station) : signalsIn st.work.diary = signalsIn st.diary := by
  rcases diary_work st with h | ⟨m, h⟩ | ⟨c, h⟩ <;> simp [h]

theorem informedIn_work (st : Station) : informedIn st.work.diary = informedIn st.diary := by
  rcases diary_work st with h | ⟨m, h⟩ | ⟨c, h⟩ <;> simp [h]

theorem talk_carry : st.carry.talk = st.talk := by
  unfold carry
  rcases st.wire with _ | ⟨m, wire⟩
  · rfl
  · rcases h : st.link.enqueue m with _ | link
    · simp only [h]
    · simp only [h]

theorem diary_carry : st.carry.diary = st.diary := by
  unfold carry
  rcases st.wire with _ | ⟨m, wire⟩
  · rfl
  · rcases h : st.link.enqueue m with _ | link
    · simp only [h]
    · simp only [h]

theorem Sound.carry (h : st.Sound arrived) : ∃ more, st.carry.Sound (arrived ++ more) := by
  obtain ⟨hl, hsaid, hfinished, hexceptions, hsnapshots, hcommanded⟩ := h
  unfold Station.carry
  rcases hw : st.wire with _ | ⟨m, wire⟩
  · refine ⟨[], ?_⟩
    simp only [List.append_nil]
    exact ⟨hl, hsaid, hfinished, hexceptions, hsnapshots, hcommanded⟩
  · refine ⟨[m], ?_⟩
    rw [hw] at hsaid
    cases m <;> constructor <;>
      simp [Channel.enqueue, Nat.add_assoc, *]

/-! ## Steps of the orchestrator -/

theorem ofQueue_got {α : Type} {isOpen : Bool} {l : List α} {a : α}
    (h : (Poll.ofQueue isOpen l).1 = .got a) : ∃ rest, l = a :: rest := by
  cases l with
  | nil => cases isOpen <;> cases h
  | cons b rest =>
    cases h
    exact ⟨rest, rfl⟩

theorem completions_of_got (h : st.link.completion.1 = .got ()) :
    ∃ rest, st.link.completions = () :: rest :=
  ofQueue_got h

theorem exceptions_of_got {r : Option Envelope} (h : st.link.exception.1 = .got r) :
    ∃ rest, st.link.exceptions = r :: rest :=
  ofQueue_got h

theorem Sound.takeCompletion (h : st.Sound arrived) (hc : st.link.completion.1 = .got ()) :
    st.takeCompletion.Sound arrived := by
  obtain ⟨hl, hsaid, hfinished, hexceptions, hsnapshots, hcommanded⟩ := h
  obtain ⟨rest, hr⟩ := completions_of_got hc
  rw [hr, List.length_cons] at hfinished
  constructor <;> simp [Station.takeCompletion, note, Channel.completion, Poll.ofQueue, *]
  omega

theorem Sound.takeException (h : st.Sound arrived) {r : Option Envelope}
    (hc : st.link.exception.1 = .got r) : (st.takeException r).Sound arrived := by
  obtain ⟨hl, hsaid, hfinished, hexceptions, hsnapshots, hcommanded⟩ := h
  obtain ⟨rest, hr⟩ := exceptions_of_got hc
  constructor <;> simp [Station.takeException, note, Channel.exception, Poll.ofQueue, *]

theorem Sound.takeSnapshots (h : st.Sound arrived) : st.takeSnapshots.Sound arrived := by
  obtain ⟨hl, hsaid, hfinished, hexceptions, hsnapshots, hcommanded⟩ := h
  constructor <;> simp [Station.takeSnapshots, note, *]

theorem Sound.command_eq (h : st.Sound arrived) (c : Command) :
    st.command c = { st with link := { st.link with commands := st.link.commands ++ [c] } }.note
      (.commanded c) := by
  simp only [Station.command, Channel.down, h.listens, if_true]

theorem Sound.command (h : st.Sound arrived) (c : Command) : (st.command c).Sound arrived := by
  rw [h.command_eq]
  obtain ⟨hl, hsaid, hfinished, hexceptions, hsnapshots, hcommanded⟩ := h
  constructor <;> simp [note, *]

end Station

end FuzzCampaign
