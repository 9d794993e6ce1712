import FuzzCampaign.Proofs.Incidents
import FuzzCampaign.Proofs.Invariance
import Mathlib.Data.List.DropRight

/-!
# Checks of workers

A worker of which no completion was found is checked: whether it has exited, and if it is gone, what
the clock shows. The record of a campaign is read as the checks of its workers, and the history of a
worker says since when it has been gone without a break.

* `Check`, `Check.gone?`; `Mark`: what counts in the history of a worker;
* `goneSince?`: when the unbroken run of checks began that found the worker gone; `Expired`: a check
  at which the period of grace is over; `Unexpired`;
* `vigil`, `marksIn`, `marksOf`: the checks in a record, and those of one worker;
  **`exists_marksIn_check`**: no check is left out;
* `KnownSince`: what an orchestrator knows of a worker agrees with the worker's history.
-/

namespace FuzzCampaign

/-! ## Histories -/

/-- A check of a worker: how the worker had exited, if it had, whether its link was closed, and what
the clock showed if the worker was gone. -/
structure Check where
  status? : Option String
  closed : Bool
  times : List Nat
  deriving DecidableEq, Repr

/-- What is said of a worker that a check finds gone. -/
def Check.gone? (c : Check) : Option String :=
  c.status?.or (if c.closed then some Campaign.linkClosed else none)

/-- What counts in the history of a worker. -/
inductive Mark
  | checked (c : Check)
  /-- The worker got its decision, and the wait for its last completion began. -/
  | restarted
  deriving DecidableEq, Repr

/-- Whether a worker was found gone. -/
def Mark.isGone : Mark → Bool
  | .checked c => c.gone?.isSome
  | .restarted => false

/-- When a check began. -/
def Mark.begun? : Mark → Option Nat
  | .checked c => c.times.head?
  | .restarted => none

/-- When the unbroken run of checks began with which a history ends and that found the worker
gone. -/
def goneSince? (history : List Mark) : Option Nat :=
  (history.rtakeWhile Mark.isGone).head?.bind Mark.begun?

/-- A check that finds a worker gone whose history so far is given, and gone for the whole period of
grace. -/
structure Expired (grace : Duration) (history : List Mark) (c : Check) (status : String) :
    Prop where
  gone : c.gone? = some status
  elapsed : ∃ since now, goneSince? (history ++ [.checked c]) = some since ∧
    c.times.getLast? = some now ∧ grace.nanoseconds ≤ now - since

/-- The history of one of several workers. -/
def marksOf (i : UInt64) (marks : List (UInt64 × Mark)) : List Mark :=
  marks.filterMap fun m => if m.1 = i then some m.2 else none

/-- At no check is the period of grace over. -/
def Unexpired (grace : Duration) (marks : List (UInt64 × Mark)) : Prop :=
  ∀ before i c after, marks = before ++ (i, .checked c) :: after →
    ∀ status, ¬Expired grace (marksOf i before) c status

section

variable {grace : Duration} {history : List Mark} {c : Check} {m : Mark} {i j : UInt64}
  {marks : List (UInt64 × Mark)} {since? : Option Nat} {since : Nat}

@[simp] theorem marksOf_snoc_self : marksOf i (marks ++ [(i, m)]) = marksOf i marks ++ [m] := by
  simp [marksOf]

theorem marksOf_snoc_of_ne (h : j ≠ i) : marksOf j (marks ++ [(i, m)]) = marksOf j marks := by
  simp [marksOf, h.symm]

theorem unexpired_nil : Unexpired grace [] := by
  intro before i c after h
  simp at h

theorem Unexpired.snoc (h : Unexpired grace marks)
    (hm : ∀ c, m = .checked c → ∀ status, ¬Expired grace (marksOf i marks) c status) :
    Unexpired grace (marks ++ [(i, m)]) := by
  intro before j c after heq
  rcases snoc_eq_append_cons heq with ⟨-, hlast, rfl⟩ | ⟨after', -, rfl⟩
  · cases hlast
    exact hm c rfl
  · exact h before j c after' rfl

/-! ### What is known of a worker -/

/-- Since when a worker is known to be gone agrees with its history. -/
def KnownSince (history : List Mark) (since? : Option Nat) : Prop :=
  (history.rtakeWhile Mark.isGone).head?.map Mark.begun? = since?.map some

theorem KnownSince.eq (h : KnownSince history since?) : goneSince? history = since? := by
  unfold goneSince?
  unfold KnownSince at h
  rcases hhead : (history.rtakeWhile Mark.isGone).head? with _ | m
  · rw [hhead] at h
    cases since? with
    | none => rfl
    | some since => cases h
  · rw [hhead] at h
    cases since? with
    | none => cases h
    | some since => exact Option.some.inj h

/-- **The count begins anew** with a check that finds the worker running and connected, and with the
wait for its last completion. -/
theorem knownSince_snoc_none (hm : m.isGone = false) : KnownSince (history ++ [m]) none := by
  rw [KnownSince, List.rtakeWhile_concat_neg _ _ _ (by simp [hm])]
  rfl

/-- **The count goes on** with a check that finds the worker gone, or begins with it. -/
theorem KnownSince.snoc_gone (h : KnownSince history since?) (hc : c.gone?.isSome)
    (hsince : since?.or c.times.head? = some since) :
    KnownSince (history ++ [.checked c]) (some since) := by
  unfold KnownSince at h ⊢
  rw [List.rtakeWhile_concat_pos Mark.isGone history (.checked c) hc]
  rcases hrun : history.rtakeWhile Mark.isGone with _ | ⟨first, run⟩
  · rw [hrun] at h
    cases since? with
    | none => exact congrArg some hsince
    | some since => cases h
  · rw [hrun] at h
    cases since? with
    | none => cases h
    | some since => cases hsince; exact h

end

/-! ## Checks in a record -/

/-- What the last deeds of a record are about: a worker of which no completion was found, a check of
a worker, or anything else. -/
inductive Attention
  | elsewhere
  | polled (i : UInt64) (closed : Bool)
  | checking (i : UInt64) (c : Check)

/-- What has been read of a record: the marks so far, and what its last deeds are about. -/
structure Vigil where
  past : List (UInt64 × Mark)
  attention : Attention

namespace Vigil

/-- The marks so far, with the check that the last deeds are about. -/
def marks : Vigil → List (UInt64 × Mark)
  | ⟨past, .checking i c⟩ => past ++ [(i, .checked c)]
  | ⟨past, _⟩ => past

/-- Read a deed. A worker of which nothing was found is checked in the next deeds. -/
def note (v : Vigil) (d : CampaignDeed) : Vigil :=
  match v.attention, d with
  | .checking i c, .readClock time =>
    ⟨v.past, .checking i { c with times := c.times ++ [time] }⟩
  | .polled i closed, .looked j (.ok status?) =>
    ⟨v.past, if j = i then .checking i ⟨status?, closed, []⟩ else .elsewhere⟩
  | _, .polled i .empty => ⟨v.marks, .polled i false⟩
  | _, .polled i .disconnected => ⟨v.marks, .polled i true⟩
  | _, .commanded i (.decision _) (.ok ()) => ⟨v.marks ++ [(i, .restarted)], .elsewhere⟩
  | _, _ => ⟨v.marks, .elsewhere⟩

end Vigil

/-- What is read of a record. -/
def vigil (log : List CampaignDeed) : Vigil := log.foldl Vigil.note ⟨[], .elsewhere⟩

/-- The checks in a record and the workers that got their decisions, in order. -/
def marksIn (log : List CampaignDeed) : List (UInt64 × Mark) := (vigil log).marks

/-- Whether a deed begins a check, or the wait for a last completion. -/
def CampaignDeed.opens : CampaignDeed → Bool
  | .polled _ .empty | .polled _ .disconnected | .commanded _ (.decision _) (.ok ()) => true
  | _ => false

/-- Whether a deed may belong to a check that was begun. -/
def CampaignDeed.isGlance : CampaignDeed → Bool
  | .looked .. | .readClock _ => true
  | _ => false

section

variable {log : List CampaignDeed} {d : CampaignDeed} {marks : List (UInt64 × Mark)} {i : UInt64}
  {closed : Bool} {c : Check}

theorem vigil_snoc (log : List CampaignDeed) (d : CampaignDeed) :
    vigil (log ++ [d]) = (vigil log).note d :=
  List.foldl_append

theorem marksIn_of_elsewhere (h : vigil log = ⟨marks, .elsewhere⟩) : marksIn log = marks := by
  rw [marksIn, h]
  rfl

theorem marksIn_of_checking (h : vigil log = ⟨marks, .checking i c⟩) :
    marksIn log = marks ++ [(i, .checked c)] := by
  rw [marksIn, h]
  rfl

theorem vigil_snoc_of_turn (hopens : d.opens = false) (hglance : d.isGlance = false) :
    vigil (log ++ [d]) = ⟨marksIn log, .elsewhere⟩ := by
  rw [vigil_snoc, marksIn]
  rcases vigil log with ⟨past, _ | ⟨i, closed⟩ | ⟨i, c⟩⟩ <;>
    rcases d with _ | _ | _ | ⟨j, _ | _, _ | _⟩ | ⟨j, _ | _ | _⟩ | _ | _ | _ | _ | _ <;>
      first | rfl | (cases hopens; done) | cases hglance

/-- After the end of a check only certain deeds count. -/
theorem vigil_snoc_of_elsewhere (h : vigil log = ⟨marks, .elsewhere⟩) (hopens : d.opens = false) :
    vigil (log ++ [d]) = ⟨marks, .elsewhere⟩ := by
  rw [vigil_snoc, h]
  rcases d with _ | _ | _ | ⟨j, _ | _, _ | _⟩ | ⟨j, _ | _ | _⟩ | _ | _ | _ | _ | _ <;>
    first | rfl | cases hopens

theorem vigil_snoc_polled (log : List CampaignDeed) (i : UInt64) (closed : Bool) :
    vigil (log ++ [.polled i (if closed then .disconnected else .empty)]) =
      ⟨marksIn log, .polled i closed⟩ := by
  rw [vigil_snoc, marksIn]
  rcases vigil log with ⟨past, _ | _ | _⟩ <;> cases closed <;> rfl

theorem vigil_snoc_looked (h : vigil log = ⟨marks, .polled i closed⟩) (status? : Option String) :
    vigil (log ++ [.looked i (.ok status?)]) = ⟨marks, .checking i ⟨status?, closed, []⟩⟩ := by
  rw [vigil_snoc, h]
  exact congrArg (Vigil.mk marks) (if_pos rfl)

theorem vigil_snoc_readClock (h : vigil log = ⟨marks, .checking i c⟩) (time : Nat) :
    vigil (log ++ [.readClock time]) =
      ⟨marks, .checking i { c with times := c.times ++ [time] }⟩ := by
  rw [vigil_snoc, h]
  rfl

theorem vigil_snoc_decision (i : UInt64) (attach : Bool) (h : vigil log = ⟨marks, .elsewhere⟩) :
    vigil (log ++ [.commanded i (.decision attach) (.ok ())]) =
      ⟨marks ++ [(i, .restarted)], .elsewhere⟩ := by
  rw [vigil_snoc, h]
  rfl

theorem marksIn_snoc_of_turn (hopens : d.opens = false) (hglance : d.isGlance = false) :
    marksIn (log ++ [d]) = marksIn log :=
  marksIn_of_elsewhere (vigil_snoc_of_turn hopens hglance)

theorem marksIn_append_of_turns {l : List CampaignDeed}
    (h : ∀ d ∈ l, d.opens = false ∧ d.isGlance = false) : marksIn (log ++ l) = marksIn log := by
  induction l using List.reverseRecOn with
  | nil => rw [List.append_nil]
  | append_singleton l d ih =>
    obtain ⟨hopens, hglance⟩ := h d (by simp)
    rw [← List.append_assoc, marksIn_snoc_of_turn hopens hglance]
    exact ih fun d hd => h d (List.mem_append_left _ hd)

end

/-! ### No check is left out -/

/-- A deed adds to the marks, or it is a look at the clock in a check. -/
theorem Vigil.marks_note (v : Vigil) (d : CampaignDeed) :
    (∃ l, (v.note d).marks = v.marks ++ l) ∨
      ∃ past i c time, v = ⟨past, .checking i c⟩ ∧ d = .readClock time := by
  rcases v with ⟨past, _ | ⟨i, closed⟩ | ⟨i, c⟩⟩
  · left
    rcases d with _ | _ | _ | ⟨j, _ | _, _ | _⟩ | ⟨j, _ | _ | _⟩ | _ | _ | _ | _ | _ <;>
      first | exact ⟨[], (List.append_nil _).symm⟩ | exact ⟨_, rfl⟩
  · left
    rcases d with _ | ⟨j, _ | status?⟩ | _ | ⟨j, _ | _, _ | _⟩ | ⟨j, _ | _ | _⟩ | _ | _ | _ | _ | _
    case looked.ok =>
      by_cases heq : j = i
      · exact ⟨[(i, .checked ⟨status?, closed, []⟩)], by simp [Vigil.note, Vigil.marks, heq]⟩
      · exact ⟨[], by simp [Vigil.note, Vigil.marks, heq]⟩
    all_goals first | exact ⟨[], (List.append_nil _).symm⟩ | exact ⟨_, rfl⟩
  · rcases d with _ | _ | _ | ⟨j, _ | _, _ | _⟩ | ⟨j, _ | _ | _⟩ | _ | _ | _ | time | _
    case readClock => exact .inr ⟨past, i, c, time, rfl, rfl⟩
    all_goals
      left
      first | exact ⟨[], (List.append_nil _).symm⟩ | exact ⟨_, rfl⟩

/-- **Every look at a worker of which nothing was found is a check**, with what the deeds before it
and after it say of its link and of the clock. -/
theorem exists_marksIn_check (before after : List CampaignDeed) (i : UInt64) (closed : Bool)
    (status? : Option String) :
    ∃ times rest, marksIn (before ++ .polled i (if closed then .disconnected else .empty) ::
        .looked i (.ok status?) :: after) =
      marksIn before ++ (i, .checked ⟨status?, closed, times⟩) :: rest := by
  induction after using List.reverseRecOn with
  | nil =>
    have hlooked := vigil_snoc_looked (vigil_snoc_polled before i closed) status?
    rw [List.append_assoc] at hlooked
    exact ⟨[], [], marksIn_of_checking hlooked⟩
  | append_singleton after d ih =>
    obtain ⟨times, rest, hmarks⟩ := ih
    rw [← List.cons_append, ← List.cons_append, ← List.append_assoc, marksIn, vigil_snoc]
    rw [marksIn] at hmarks
    rcases (vigil _).marks_note d with ⟨l, hl⟩ | ⟨past, j, c, time, hvigil, rfl⟩
    · exact ⟨times, rest ++ l, by rw [hl, hmarks, List.append_assoc, List.cons_append]⟩
    · -- the look at the clock belongs to the last check, which may be this one
      rw [hvigil] at hmarks ⊢
      rcases snoc_eq_append_cons hmarks with ⟨rfl, heq, hpast⟩ | ⟨rest', rfl, hpast⟩
      · cases heq
        exact ⟨times ++ [time], [], congrArg (· ++ _) hpast⟩
      · refine ⟨times, rest' ++ [(j, .checked { c with times := c.times ++ [time] })], ?_⟩
        exact (congrArg (· ++ _) hpast).trans (List.append_assoc ..)

/-- **While workers are ended nothing counts.** -/
theorem CampaignHost.ends_vigil {σ : Type} (host : CampaignHost σ) (marks : List (UInt64 × Mark)) :
    host.recorded.Ends fun r => vigil r.deeds = ⟨marks, .elsewhere⟩ where
  status _ _ h := vigil_snoc_of_elsewhere h rfl
  kill _ _ h := vigil_snoc_of_elsewhere h rfl
  shutdown _ _ h := vigil_snoc_of_elsewhere h rfl
  now _ h := vigil_snoc_of_elsewhere h rfl
  sleep _ _ h := vigil_snoc_of_elsewhere h rfl

end FuzzCampaign
