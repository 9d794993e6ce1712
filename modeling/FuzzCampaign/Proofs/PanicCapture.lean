import FuzzCampaign.Worker.PanicGuard
import Mathlib.Tactic.SplitIfs

/-!
# What a capture reports

* `Body.ending`, `Body.last`, `Body.history`: how a body ends, its last act, and what it has done
  that a recorder notices, the latest event first;
* `Body.run_eq`: a run ends as the body does, with the recorder that has noted its history;
* `Recording`, `OnRecord`: whether panics are recorded after a history, and the panic that is on
  record; `recording_noted`, `onRecord_noted`: that is what the recorder holds;
* **`Body.capture_reports`**: a capture returns what its body returns. The panic it reports is the
  one on record, else the bare payload that left the body. The two agree for a panic of a body that
  captures nothing itself; `Body.swallowed_first_reported` is a body where they do not.
-/

namespace FuzzCampaign

namespace PanicGuard

variable {α : Type}

/-! ## Bodies without a recorder -/

/-- How a body ends: with its value, or with the payload that leaves it. -/
def Body.ending : Body α → Except Payload α
  | .done a => .ok a
  | .panic payload _ _ | .resume payload => .error payload
  | .swallow _ next | .nested _ next => next.ending

/-- The last act of a body: its value, a panic of its own or a payload that it hands on. -/
def Body.last : Body α → Body α
  | .swallow _ next | .nested _ next => next.last
  | body => body

/-- What a recorder notices of a body. -/
inductive Event
  /-- A panic is raised. -/
  | raised (panic : Panic)
  /-- A capture begins. -/
  | entered
  /-- A captured body returns. -/
  | returned
  /-- A panic leaves a captured body. -/
  | left
  deriving DecidableEq, Repr

/-- Whether an event ends a capture. -/
def Event.ends : Event → Bool
  | .returned | .left => true
  | .raised _ | .entered => false

/-- The end of a capture whose body ends in some way. -/
def Event.closing : Except Payload α → Event
  | .ok _ => .returned
  | .error _ => .left

/-- The events of a body, the latest first. -/
def Body.history : Body α → List Event
  | .done _ | .resume _ => []
  | .panic payload location? backtrace => [.raised ⟨payload.message, location?, backtrace⟩]
  | .swallow part next => next.history ++ part.history
  | .nested part next => next.history ++ .closing part.ending :: (part.history ++ [.entered])

/-- A recorder after one more event. -/
def Recorder.note : Event → Recorder → Recorder
  | .raised panic, r => if r.recording then ⟨true, some panic⟩ else r
  | .entered, _ => .begin
  | .returned, r => { r with recording := false }
  | .left, _ => .idle

/-- A recorder that began with a capture and has noted a history. -/
def Recorder.after (history : List Event) : Recorder := history.foldr Recorder.note .begin

@[simp]
theorem Recorder.after_cons (event : Event) (history : List Event) :
    Recorder.after (event :: history) = (Recorder.after history).note event := rfl

theorem Recorder.note_raised (panic : Panic) (r : Recorder) :
    r.note (.raised panic) = if r.recording then ⟨true, some panic⟩ else r := rfl

theorem Recorder.finish_eq_note (outcome : Except Payload α) (r : Recorder) :
    r.finish outcome = r.note (.closing outcome) := by
  cases outcome <;> rfl

/-- **A run ends as the body does, with the recorder that has noted its history.** -/
theorem Body.run_eq (body : Body α) (r : Recorder) :
    body.run r = (body.ending, body.history.foldr Recorder.note r) := by
  induction body generalizing r with
  | done a => rfl
  | panic payload location? backtrace => rfl
  | resume payload => rfl
  | swallow part next ih₁ ih₂ =>
    show next.run (part.run r).2 = _
    rw [ih₁, ih₂, Body.history, List.foldr_append]
    rfl
  | nested part next ih₁ ih₂ =>
    show next.run ((part.run .begin).2.finish (part.run .begin).1) = _
    rw [ih₁, ih₂, Recorder.finish_eq_note, Body.history, List.foldr_append, List.foldr_cons,
      List.foldr_append]
    rfl

/-- A panic that a body raises as its last act is its latest event. -/
theorem Body.history_of_last {payload : Payload} {location? : Option (String × UInt32)}
    {backtrace : String} {body : Body α} (h : body.last = .panic payload location? backtrace) :
    ∃ earlier, body.history = .raised ⟨payload.message, location?, backtrace⟩ :: earlier := by
  induction body with
  | done | resume => cases h
  | panic =>
    cases h
    exact ⟨[], rfl⟩
  | swallow part next _ ih | nested part next _ ih =>
    obtain ⟨earlier, h'⟩ := ih h
    exact ⟨_, by rw [Body.history, h', List.cons_append]⟩

theorem Body.ending_of_last {payload : Payload} {location? : Option (String × UInt32)}
    {backtrace : String} {body : Body α} (h : body.last = .panic payload location? backtrace) :
    body.ending = .error payload := by
  induction body with
  | done | resume => cases h
  | panic =>
    cases h
    rfl
  | swallow part next _ ih | nested part next _ ih => exact ih h

theorem Body.entered_mem_of_ends {body : Body α} {event : Event} (he : event ∈ body.history)
    (hend : event.ends) : .entered ∈ body.history := by
  induction body with
  | done | resume => cases he
  | panic =>
    cases List.mem_singleton.mp he
    cases hend
  | swallow part next ih₁ ih₂ =>
    rw [Body.history, List.mem_append] at he ⊢
    exact he.elim (fun h => .inl (ih₂ h)) fun h => .inr (ih₁ h)
  | nested part next => simp [Body.history]

/-! ## What is on record -/

/-- Panics are recorded after a history that began with a capture: whenever a capture inside it has
ended, another has begun since. -/
def Recording (history : List Event) : Prop :=
  ∀ later event earlier, history = later ++ event :: earlier → event.ends → .entered ∈ later

/-- A panic is on record after a history: it was recorded when it was raised; since then no capture
has begun and none was left by a panic; and no panic was raised later unless a capture had returned
in between. -/
def OnRecord (history : List Event) (panic : Panic) : Prop :=
  ∃ later earlier, history = later ++ .raised panic :: earlier ∧ Recording earlier ∧
    .entered ∉ later ∧ .left ∉ later ∧
    ∀ last other first, later = last ++ .raised other :: first → .returned ∈ first

variable {history : List Event} {panic other : Panic}

theorem recording_nil : Recording [] := by
  intro later event earlier h
  simp at h

theorem recording_raised : Recording (.raised panic :: history) ↔ Recording history := by
  constructor
  · intro h later event earlier he hend
    have := h (.raised panic :: later) event earlier (by rw [he]; rfl) hend
    simpa using this
  · intro h later event earlier he hend
    obtain ⟨rfl, he'⟩ | ⟨later', rfl, he'⟩ := List.cons_eq_append_iff.mp he
    · cases he'
      cases hend
    · exact List.mem_cons_of_mem _ (h later' event earlier he' hend)

theorem recording_entered : Recording (.entered :: history) := by
  intro later event earlier he hend
  obtain ⟨rfl, he⟩ | ⟨later', rfl, -⟩ := List.cons_eq_append_iff.mp he
  · cases he
    cases hend
  · exact List.mem_cons_self

theorem not_recording_of_ends {event : Event} (hend : event.ends) :
    ¬ Recording (event :: history) := fun h => by
  simpa using h [] event history rfl hend

/-- Where panics were recorded before some events but are not after them, and among these no
capture has begun and none was left by a panic, one has returned. -/
theorem returned_mem {later earlier : List Event} (hearlier : Recording earlier)
    (hentered : .entered ∉ later) (hleft : .left ∉ later)
    (h : ¬ Recording (later ++ .raised panic :: earlier)) : .returned ∈ later := by
  induction later with
  | nil => exact absurd (recording_raised.mpr hearlier) h
  | cons event later ih =>
    cases event with
    | raised other =>
      refine List.mem_cons_of_mem _ (ih ?_ ?_ fun h' => h (recording_raised.mpr h'))
      · exact fun hm => hentered (List.mem_cons_of_mem _ hm)
      · exact fun hm => hleft (List.mem_cons_of_mem _ hm)
    | entered => exact absurd List.mem_cons_self hentered
    | returned => exact List.mem_cons_self
    | left => exact absurd List.mem_cons_self hleft

theorem Recording.returned_notMem {later earlier : List Event}
    (h : Recording (later ++ earlier)) (hentered : .entered ∉ later) : .returned ∉ later := by
  intro hm
  obtain ⟨last, first, rfl⟩ := List.append_of_mem hm
  have := h last .returned (first ++ earlier) (by simp) rfl
  exact hentered (List.mem_append_left _ this)

theorem not_onRecord_nil : ¬ OnRecord [] panic := by
  rintro ⟨later, earlier, h, -⟩
  simp at h

theorem onRecord_raised (h : Recording history) :
    OnRecord (.raised other :: history) panic ↔ panic = other := by
  constructor
  · rintro ⟨later, earlier, he, -, hentered, -, hraised⟩
    obtain ⟨rfl, he⟩ | ⟨later', rfl, rfl⟩ := List.cons_eq_append_iff.mp he
    · cases he
      rfl
    · have hm : .returned ∈ later' := hraised [] other later' rfl
      exact absurd hm (h.returned_notMem fun hm => hentered (List.mem_cons_of_mem _ hm))
  · rintro rfl
    exact ⟨[], history, rfl, h, List.not_mem_nil, List.not_mem_nil, by simp⟩

/-- What is on record stays so while no capture begins and none is left by a panic, and no panic is
recorded. -/
theorem onRecord_cons {event : Event} (hentered : event ≠ .entered) (hleft : event ≠ .left)
    (hnew : ∀ other, event = .raised other → ¬ Recording history) :
    OnRecord (event :: history) panic ↔ OnRecord history panic := by
  constructor
  · rintro ⟨later, earlier, he, hearlier, hentered', hleft', hraised⟩
    obtain ⟨rfl, he'⟩ | ⟨later', rfl, he'⟩ := List.cons_eq_append_iff.mp he
    · obtain ⟨rfl, rfl⟩ := List.cons.inj he'
      exact absurd hearlier (hnew panic rfl)
    · refine ⟨later', earlier, he', hearlier, ?_, ?_, ?_⟩
      · exact fun hm => hentered' (List.mem_cons_of_mem _ hm)
      · exact fun hm => hleft' (List.mem_cons_of_mem _ hm)
      · intro last other first hother
        exact hraised (event :: last) other first (by rw [hother]; rfl)
  · rintro ⟨later, earlier, rfl, hearlier, hentered', hleft', hraised⟩
    refine ⟨event :: later, earlier, rfl, hearlier, ?_, ?_, ?_⟩
    · exact List.not_mem_cons_of_ne_of_not_mem hentered.symm hentered'
    · exact List.not_mem_cons_of_ne_of_not_mem hleft.symm hleft'
    · intro last other first hother
      obtain ⟨rfl, h⟩ | ⟨last', rfl, h⟩ := List.cons_eq_append_iff.mp hother
      · obtain ⟨rfl, rfl⟩ := List.cons.inj h
        exact returned_mem hearlier hentered' hleft' (hnew other rfl)
      · exact hraised last' other first h

theorem not_onRecord_cons {event : Event} (h : event = .entered ∨ event = .left) :
    ¬ OnRecord (event :: history) panic := by
  rintro ⟨later, earlier, he, -, hentered, hleft, -⟩
  obtain ⟨rfl, he'⟩ | ⟨later', rfl, -⟩ := List.cons_eq_append_iff.mp he
  · obtain ⟨rfl, -⟩ := List.cons.inj he'
    simp at h
  · rcases h with rfl | rfl
    · exact hentered List.mem_cons_self
    · exact hleft List.mem_cons_self

/-! ## The recorder -/

/-- Panics are recorded after a history iff the recorder that has noted it says so. -/
theorem recording_noted (history : List Event) :
    (Recorder.after history).recording = true ↔ Recording history := by
  induction history with
  | nil => exact iff_of_true rfl recording_nil
  | cons event history ih =>
    rw [Recorder.after_cons]
    cases event with
    | raised panic =>
      rw [recording_raised, ← ih, Recorder.note_raised]
      split_ifs with hr
      · exact iff_of_true rfl hr
      · rfl
    | entered => exact iff_of_true rfl recording_entered
    | returned => exact iff_of_false Bool.false_ne_true (not_recording_of_ends rfl)
    | left => exact iff_of_false Bool.false_ne_true (not_recording_of_ends rfl)

/-- **A recorder that has noted a history holds the panic that is on record after it.** -/
theorem onRecord_noted (history : List Event) (panic : Panic) :
    (Recorder.after history).record? = some panic ↔ OnRecord history panic := by
  induction history with
  | nil => exact iff_of_false nofun not_onRecord_nil
  | cons event history ih =>
    rw [Recorder.after_cons]
    cases event with
    | raised other =>
      rw [Recorder.note_raised]
      by_cases hr : (Recorder.after history).recording = true
      · rw [if_pos hr, onRecord_raised ((recording_noted history).mp hr)]
        exact Option.some_inj.trans eq_comm
      · have hnot : ¬ Recording history := fun h => hr ((recording_noted history).mpr h)
        rw [if_neg hr, ih]
        exact Iff.symm (onRecord_cons nofun nofun fun _ _ => hnot)
    | entered => exact iff_of_false nofun (not_onRecord_cons (.inl rfl))
    | returned => exact ih.trans (Iff.symm (onRecord_cons nofun nofun nofun))
    | left => exact iff_of_false nofun (not_onRecord_cons (.inr rfl))

/-! ## Captured bodies -/

theorem Body.capture_eq (body : Body α) :
    body.capture.1 = body.ending.mapError (reported (.after body.history)) := by
  show (body.run .begin).1.mapError (reported (body.run .begin).2) = _
  rw [Body.run_eq]
  rfl

/-- The panic on record is the one reported; if none is, the payload is all there is to report. -/
theorem reported_after_eq_iff (history : List Event) (payload : Payload) (panic : Panic) :
    reported (.after history) payload = panic ↔
      OnRecord history panic ∨
        (∀ other, ¬ OnRecord history other) ∧ panic = ⟨payload.message, none, ""⟩ := by
  simp only [← onRecord_noted, reported]
  cases (Recorder.after history).record? with
  | none => simp [eq_comm]
  | some other => simp

/-- What a capture makes of a body. -/
structure Body.Reports (body : Body α) : Prop where
  /-- It returns a value iff the body does, and the same. -/
  returns : ∀ a, body.capture.1 = .ok a ↔ body.ending = .ok a
  /-- It reports a panic iff a payload leaves the body: the panic that is on record then, or the
  bare message of the payload if none is. -/
  fails : ∀ panic, body.capture.1 = .error panic ↔
    ∃ payload, body.ending = .error payload ∧ (OnRecord body.history panic ∨
      (∀ other, ¬ OnRecord body.history other) ∧ panic = ⟨payload.message, none, ""⟩)
  /-- The message is that of the payload that left the body iff none is on record with another. -/
  agrees : ∀ payload, body.ending = .error payload →
    ((∃ panic, body.capture.1 = .error panic ∧ panic.message = payload.message) ↔
      ∀ other, OnRecord body.history other → other.message = payload.message)
  /-- If the last act of the body is a panic of its own, and it makes no capture, it is that panic
  which is reported, with its place and its backtrace, whatever the body has swallowed before. -/
  own : ∀ payload location? backtrace, body.last = .panic payload location? backtrace →
    .entered ∉ body.history → body.capture.1 = .error ⟨payload.message, location?, backtrace⟩

theorem Body.onRecord_of_last {payload : Payload} {location? : Option (String × UInt32)}
    {backtrace : String} {body : Body α} (h : body.last = .panic payload location? backtrace)
    (hentered : .entered ∉ body.history) :
    OnRecord body.history ⟨payload.message, location?, backtrace⟩ := by
  obtain ⟨earlier, hhistory⟩ := Body.history_of_last h
  have hrecording : Recording earlier := by
    intro later event first hearlier hend
    have hmem : event ∈ body.history := by rw [hhistory, hearlier]; simp
    exact absurd (Body.entered_mem_of_ends hmem hend) hentered
  rw [hhistory]
  exact (onRecord_raised hrecording).mpr rfl

/-- **A capture returns what its body returns, and reports a panic iff one leaves the body: the
panic that is on record then, or the bare message of what left the body.** -/
theorem Body.capture_reports (body : Body α) : body.Reports where
  returns a := by
    rw [Body.capture_eq]
    cases body.ending with
    | ok b =>
      show Except.ok b = Except.ok a ↔ Except.ok b = Except.ok a
      rw [Except.ok.injEq, Except.ok.injEq]
    | error payload => exact iff_of_false nofun nofun
  fails panic := by
    rw [Body.capture_eq]
    cases body.ending with
    | ok a => exact iff_of_false nofun fun ⟨_, h, _⟩ => nomatch h
    | error payload =>
      have hreported := reported_after_eq_iff body.history payload panic
      constructor
      · intro h
        exact ⟨payload, rfl, hreported.mp (Except.error.inj h)⟩
      · rintro ⟨payload', hpayload, h⟩
        cases hpayload
        exact congrArg Except.error (hreported.mpr h)
  agrees payload h := by
    rw [Body.capture_eq, h]
    constructor
    · rintro ⟨panic, hpanic, hmessage⟩ other hother
      have : reported (.after body.history) payload = other :=
        (reported_after_eq_iff _ _ _).mpr (.inl hother)
      rw [← this, Except.error.inj hpanic, hmessage]
    · intro hall
      refine ⟨_, rfl, ?_⟩
      obtain hr | ⟨-, hr⟩ := (reported_after_eq_iff body.history payload _).mp rfl
      · exact hall _ hr
      · rw [hr]
  own payload location? backtrace h hentered := by
    rw [Body.capture_eq, Body.ending_of_last h]
    have hrecord := Body.onRecord_of_last h hentered
    exact congrArg Except.error ((reported_after_eq_iff _ _ _).mpr (.inl hrecord))

/-- A body that swallows a panic and then hands on another payload. -/
def Body.swallowedFirst : Body Unit :=
  .swallow (.panic (.text "first") (some ("walk.rs", 7)) "0: walk") (.resume (.text "second"))

/-- **The panic that a body has swallowed is reported in place of the one that left it.** -/
theorem Body.swallowed_first_reported :
    Body.swallowedFirst.ending = .error (.text "second") ∧
      Body.swallowedFirst.capture.1 = .error ⟨"first", some ("walk.rs", 7), "0: walk"⟩ ∧
      ¬ ∃ panic, Body.swallowedFirst.capture.1 = .error panic ∧ panic.message = "second" := by
  refine ⟨rfl, rfl, ?_⟩
  rintro ⟨panic, h, hmessage⟩
  cases h
  exact absurd hmessage (by decide)

-- Nor does a capture inside a body leave the recording on: the body's own panic is not recorded.
example : (Body.nested (.swallow (.panic (.text "first") none "") (.done ()))
    (.panic (.text "second") (some ("walk.rs", 9)) "0: walk")).capture.1 =
      .error ⟨"first", none, ""⟩ := rfl

end PanicGuard

end FuzzCampaign
