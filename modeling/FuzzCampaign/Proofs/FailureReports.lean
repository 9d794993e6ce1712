import FuzzCampaign.Proofs.Mirroring
import FuzzCampaign.Proofs.WatchedValues
import FuzzCampaign.Scripted.Worker

/-!
# Reports of failures

The report of a body that failed shows the frames of the call stack, and on the last of them the
latest of the values that the body watched. If the place of a panic is known, the last frame is
there, and it is added only if the backtrace does not end there already.

* `Backtrace.locals_parse`, `Envelope.latest_withLocals`: the frames of a report;
* `Envelope.errorText_eq`: the text of an error with causes;
* `Envelope.Reports`, `Worker.reported_reportOf`: what the report of a failure shows;
* **`Worker.runBody_reported`**: every run of a body is reported so.
-/

namespace FuzzCampaign

variable {σ : Type}

/-! ## Frames -/

/-- A frame without the values that were watched in it. -/
def StackFrame.bare (f : StackFrame) : StackFrame := { f with locals := [] }

/-- Where a frame is. -/
def StackFrame.place (f : StackFrame) : String × UInt32 := (f.file, f.line)

/-- The last of the frames is at a place. -/
def EndsAt (place : String × UInt32) (frames : List StackFrame) : Prop :=
  frames.getLast?.map StackFrame.place = some place

namespace Backtrace

theorem locals_addLine {frames : List StackFrame} (h : ∀ f ∈ frames, f.locals = [])
    (line : List Char) : ∀ f ∈ addLine frames line, f.locals = [] := by
  unfold addLine
  split
  · exact List.forall_mem_cons.2 ⟨rfl, h⟩
  · split
    · have h := List.forall_mem_cons.1 h
      exact List.forall_mem_cons.2 ⟨h.1, h.2⟩
    · exact h
  · exact h

theorem locals_parse (text : String) : ∀ f ∈ parse text, f.locals = [] := by
  intro f hf
  have hlines : ∀ f ∈ (Text.lines text.toList).foldl addLine [], f.locals = [] :=
    List.foldlRecOn (motive := fun frames => ∀ f ∈ frames, f.locals = []) _ addLine
      (List.forall_mem_nil _) fun _ h line _ => locals_addLine h line
  exact hlines f (List.mem_filter.1 hf).1

end Backtrace

theorem map_bare_of_locals {frames : List StackFrame} (h : ∀ f ∈ frames, f.locals = []) :
    frames.map StackFrame.bare = frames := by
  refine (List.map_congr_left fun f hf => ?_).trans (List.map_id frames)
  rw [StackFrame.bare, ← h f hf]
  rfl

theorem endsAt_snoc {place : String × UInt32} {outer : List StackFrame} {f : StackFrame} :
    EndsAt place (outer ++ [f]) ↔ f.place = place := by
  simp [EndsAt]

theorem endsAt_map_bare {place : String × UInt32} {frames : List StackFrame} :
    EndsAt place (frames.map StackFrame.bare) ↔ EndsAt place frames := by
  rw [EndsAt, List.getLast?_map, Option.map_map]
  rfl

namespace Envelope

section

variable (test : String) (locals : List (String × String))

theorem withLocals_snoc (outer : List StackFrame) (last : StackFrame) :
    withLocals test locals (outer ++ [last]) = outer ++ [{ last with locals }] := by
  simp [withLocals]

/-- There is a last frame, and no values but on it. -/
theorem latest_withLocals {calls : List (String × String)} (hlatest : Latest calls locals)
    {frames : List StackFrame} (h : ∀ f ∈ frames, f.locals = []) :
    ∃ outer last, withLocals test locals frames = outer ++ [last] ∧
      (∀ f ∈ outer, f.locals = []) ∧ Latest calls last.locals := by
  rcases List.eq_nil_or_concat' frames with rfl | ⟨outer, last, rfl⟩
  · exact ⟨[], _, rfl, List.forall_mem_nil _, hlatest⟩
  · refine ⟨outer, _, withLocals_snoc test locals outer last, fun f hf => ?_, hlatest⟩
    exact h f (List.mem_append_left _ hf)

theorem bare_withLocals {frames : List StackFrame} (h : ∀ f ∈ frames, f.locals = []) :
    (withLocals test locals frames).map StackFrame.bare =
      if frames = [] then [.unknown test] else frames := by
  rcases List.eq_nil_or_concat' frames with rfl | ⟨outer, last, rfl⟩
  · rfl
  · rw [if_neg (List.append_ne_nil_of_right_ne_nil _ (List.cons_ne_nil _ _)), withLocals_snoc]
    have hbare := map_bare_of_locals h
    rw [List.map_append] at hbare ⊢
    exact hbare

end

/-! ### The frames of a panic -/

section

variable {test : String} {p : Panic} {place : String × UInt32}

theorem panicFrames_of_none (h : p.location? = none) :
    panicFrames test p = Backtrace.parse p.backtrace := by
  rw [panicFrames, h]

/-- The place of a panic is not added to a backtrace that ends there. -/
theorem panicFrames_of_endsAt (h : p.location? = some place)
    (hends : EndsAt place (Backtrace.parse p.backtrace)) :
    panicFrames test p = Backtrace.parse p.backtrace := by
  obtain ⟨f, hlast, rfl⟩ := Option.map_eq_some_iff.1 hends
  simp [panicFrames, h, hlast, StackFrame.place]

theorem panicFrames_of_not_endsAt (h : p.location? = some place)
    (hends : ¬EndsAt place (Backtrace.parse p.backtrace)) :
    panicFrames test p = Backtrace.parse p.backtrace ++ [⟨place.1, place.2, test, []⟩] := by
  rcases hlast : (Backtrace.parse p.backtrace).getLast? with _ | f
  · simp [panicFrames, h, List.getLast?_eq_none_iff.1 hlast]
  · have hf : ¬(f.file = place.1 ∧ f.line = place.2) := fun ⟨hfile, hline⟩ =>
      hends (by rw [EndsAt, hlast, Option.map_some, StackFrame.place, hfile, hline])
    simp only [panicFrames, h, hlast, if_neg hf]

variable (test p) in
theorem locals_panicFrames : ∀ f ∈ panicFrames test p, f.locals = [] := by
  have hparse := Backtrace.locals_parse p.backtrace
  rcases h : p.location? with _ | place
  · exact panicFrames_of_none h ▸ hparse
  · by_cases hends : EndsAt place (Backtrace.parse p.backtrace)
    · exact panicFrames_of_endsAt h hends ▸ hparse
    · rw [panicFrames_of_not_endsAt h hends]
      exact List.forall_mem_append.2 ⟨hparse, List.forall_mem_singleton.2 rfl⟩

end

/-- Each cause of an error stands on a line of its own below its text. -/
theorem errorText_eq (e : TestError) :
    errorText e = "\n".intercalate (e.message :: e.causes.map ("  caused by: " ++ ·)) := by
  obtain ⟨message, causes⟩ := e
  induction causes generalizing message with
  | nil => rfl
  | cons cause causes ih =>
    refine (ih (message ++ "\n  caused by: " ++ cause)).trans ?_
    have hsplit : message ++ "\n  caused by: " ++ cause =
        message ++ "\n" ++ ("  caused by: " ++ cause) := by
      rw [show "\n  caused by: " = "\n" ++ "  caused by: " from rfl]
      simp only [String.append_assoc]
    rw [hsplit, String.intercalate_cons_append, List.map_cons, String.intercalate_cons_cons]

end Envelope

/-! ## Reports -/

namespace BodyFailure

/-- The lines of the message of a failure. -/
def lines : BodyFailure → List String
  | .error e => e.message :: e.causes.map ("  caused by: " ++ ·)
  | .panic p => [p.message]

/-- The frames of the backtrace of a failure; an error has none. -/
def stack : BodyFailure → List StackFrame
  | .error _ => []
  | .panic p => Backtrace.parse p.backtrace

/-- Where a failure was raised, as far as that is known. -/
def place? : BodyFailure → Option (String × UInt32)
  | .error _ => none
  | .panic p => p.location?

end BodyFailure

namespace Envelope

/-- The report of a failure of a test's body, which came after calls that watched values. -/
structure Reports (test : String) (calls : List (String × String)) (failure : BodyFailure)
    (e : Envelope) : Prop where
  origin : e.origin = .testBody
  message : e.message = "\n".intercalate failure.lines
  /-- There is a last frame, and on it, and on no other, are the latest values. -/
  watched : ∃ outer last, e.frames = outer ++ [last] ∧ (∀ f ∈ outer, f.locals = []) ∧
    Latest calls last.locals
  placed : ∀ place, failure.place? = some place → EndsAt place e.frames
  /-- A place at which the backtrace ends is not added. -/
  known : ∀ place, failure.place? = some place → EndsAt place failure.stack →
    e.frames.map StackFrame.bare = failure.stack
  added : ∀ place, failure.place? = some place → ¬EndsAt place failure.stack →
    e.frames.map StackFrame.bare = failure.stack ++ [⟨place.1, place.2, test, []⟩]
  unplaced : failure.place? = none →
    e.frames.map StackFrame.bare = if failure.stack = [] then [.unknown test] else failure.stack

theorem reports_ofTestError (test : String) {calls values : List (String × String)}
    (h : Latest calls values) (e : TestError) :
    Reports test calls (.error e) (ofTestError test e values) where
  origin := rfl
  message := errorText_eq e
  watched := latest_withLocals test values h (List.forall_mem_nil _)
  placed _ := nofun
  known _ := nofun
  added _ := nofun
  unplaced _ := bare_withLocals test values (List.forall_mem_nil _)

section

variable (test : String) (values : List (String × String)) {p : Panic} {place : String × UInt32}

theorem bare_ofPanic_of_endsAt (hplace : p.location? = some place)
    (hends : EndsAt place (Backtrace.parse p.backtrace)) :
    (ofPanic test p values).frames.map StackFrame.bare = Backtrace.parse p.backtrace := by
  refine (bare_withLocals test values (locals_panicFrames test p)).trans ?_
  rw [panicFrames_of_endsAt hplace hends, if_neg]
  intro hnil
  rw [hnil] at hends
  cases hends

theorem bare_ofPanic_of_not_endsAt (hplace : p.location? = some place)
    (hends : ¬EndsAt place (Backtrace.parse p.backtrace)) :
    (ofPanic test p values).frames.map StackFrame.bare =
      Backtrace.parse p.backtrace ++ [⟨place.1, place.2, test, []⟩] := by
  refine (bare_withLocals test values (locals_panicFrames test p)).trans ?_
  rw [panicFrames_of_not_endsAt hplace hends]
  exact if_neg (List.append_ne_nil_of_right_ne_nil _ (List.cons_ne_nil _ _))

end

theorem reports_ofPanic (test : String) {calls values : List (String × String)}
    (h : Latest calls values) (p : Panic) :
    Reports test calls (.panic p) (ofPanic test p values) where
  origin := rfl
  message := rfl
  watched := latest_withLocals test values h (locals_panicFrames test p)
  placed place hplace := by
    by_cases hends : EndsAt place (Backtrace.parse p.backtrace)
    · exact endsAt_map_bare.1 (bare_ofPanic_of_endsAt test values hplace hends ▸ hends)
    · refine endsAt_map_bare.1 ?_
      rw [bare_ofPanic_of_not_endsAt test values hplace hends]
      exact endsAt_snoc.2 rfl
  known _ := bare_ofPanic_of_endsAt test values
  added _ := bare_ofPanic_of_not_endsAt test values
  unplaced hplace := by
    refine (bare_withLocals test values (locals_panicFrames test p)).trans ?_
    rw [panicFrames_of_none hplace]
    rfl

end Envelope

/-! ## Runs -/

/-- What a run reports: nothing if the body returned, and otherwise its failure. -/
inductive Reported (test : String) (calls : List (String × String)) :
    Except BodyFailure Unit → Option Envelope → Prop
  | passed : Reported test calls (.ok ()) none
  | failed {failure : BodyFailure} {e : Envelope} (h : e.Reports test calls failure) :
    Reported test calls (.error failure) (some e)

namespace Worker

theorem reported_reportOf {test : TestCase} {calls values : List (String × String)}
    (h : Latest calls values) (ending : Except BodyFailure Unit) :
    Reported test.fullName calls ending (reportOf test values ending) := by
  rcases ending with (e | p) | _
  · exact .failed (Envelope.reports_ofTestError test.fullName h e)
  · exact .failed (Envelope.reports_ofPanic test.fullName h p)
  · exact .passed

variable (host : WorkerHost σ) (test : TestCase) (task : WorkerTask)

/-- The bench at which a body begins. -/
def firstBench (client : RpcClient) (probe? : Option Probe) (s : σ) : Bench σ :=
  ⟨((Bench.writeLog host task.tee (beginLine test task)).run s).2, client, .ofSeed task.seed, [],
    probe?, none⟩

/-- **The report of a run** says how the body ended, with the latest of the values that it
watched. -/
theorem runBody_reported (body : FuzzBody σ) (work : WatchWork (body host task))
    (client : RpcClient) (probe? : Option Probe) (s : σ) :
    let b := firstBench host test task client probe? s
    Reported test.fullName (work.calls b) ((body host task).run.run b).1
      ((runBody host test body task client probe?).run s).1 := by
  intro b
  have hreport : ((runBody host test body task client probe?).run s).1 =
      reportOf test ((atBench host (body host task)).run b).2.watched
        ((body host task).run.run b).1 := rfl
  have hwatched : ((atBench host (body host task)).run b).2.watched =
      ((body host task).run.run b).2.watched :=
    (Bench.watched_dropArgument host _).trans (Bench.watched_dropProbe host _)
  have hlatest : Latest (work.calls b) _ := work.latest (b := b) latest_nil
  rw [hreport, hwatched]
  exact reported_reportOf hlatest _

/-- A panic whose backtrace ends in a function that the test called. -/
def unbalancedPanic : Panic :=
  ⟨"unbalanced", some ("t.rs", 7), "   0: m::check\n             at ./t.rs:3:5\n"⟩

/-- A body that watches two values, one of them twice, and then panics. -/
def unbalanced : FuzzBody ScriptedWorker := fun _ _ => do
  .ofBench (Bench.watch "supply" "10")
  .ofBench (Bench.watch "holder" "0xabc")
  .ofBench (Bench.watch "supply" "11")
  throw (.panic unbalancedPanic)

/-- What it does at its bench. -/
def unbalancedWork (task : WorkerTask) : WatchWork (unbalanced ScriptedWorker.host task) :=
  .after (.watch "supply" "10") fun _ => .after (.watch "holder" "0xabc") fun _ =>
    .after (.watch "supply" "11") fun _ => .failing (.panic unbalancedPanic)

/-- What a run of this body reports. -/
def unbalancedReport : Option Envelope :=
  ((runBody ScriptedWorker.host ⟨"m", "t", []⟩ unbalanced default ⟨"", 1⟩ none).run {}).1

/-- The place of the panic is not where its backtrace ends, so a frame is added, and that one has
the latest values. -/
theorem runBody_reported_unbalanced : ∃ e, unbalancedReport = some e ∧
    e.frames = [⟨"./t.rs", 3, "m::check", []⟩,
      ⟨"t.rs", 7, "m::t", [("supply", "11"), ("holder", "0xabc")]⟩] ∧
    e.Reports "m::t" [("supply", "10"), ("holder", "0xabc"), ("supply", "11")]
      (.panic unbalancedPanic) := by
  have hframes : unbalancedReport.map (·.frames) = some [⟨"./t.rs", 3, "m::check", []⟩,
      ⟨"t.rs", 7, "m::t", [("supply", "11"), ("holder", "0xabc")]⟩] := by
    decide +kernel
  obtain ⟨e, he, hframes⟩ := Option.map_eq_some_iff.1 hframes
  have h : Reported "m::t" [("supply", "10"), ("holder", "0xabc"), ("supply", "11")]
      (.error (.panic unbalancedPanic)) unbalancedReport :=
    runBody_reported ScriptedWorker.host ⟨"m", "t", []⟩ default unbalanced
      (unbalancedWork default) ⟨"", 1⟩ none {}
  rw [he] at h
  cases h with
  | failed h => exact ⟨e, he, hframes, h⟩

end Worker

end FuzzCampaign
