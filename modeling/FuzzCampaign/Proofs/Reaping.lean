import FuzzCampaign.Proofs.Record
import Mathlib.Data.List.Chain

/-!
# The record of a reaping

The orchestrator sees to the end of a worker by reading the clock and looking at the worker until it
has exited, and kills it when its time is up or it cannot be looked at. In a record, a reaping of a
worker is recognized by its beginning: nowhere else is the worker looked at right after the clock is
read.

* `CampaignDeed.about?`, `OnlyAbout`, `LeftAlone`: the workers that deeds are about;
* `Reaping`: the passage of a record that is a reaping;
* `Calm`: records without a reaping; **`Reaping.unique`**, `ReapedOnce`: records with one;
* `signalsOf`, `reportsOf`: the completions and outcomes that were taken; `Finished`.
-/

namespace FuzzCampaign

/-! ## Deeds -/

/-- The worker that a deed is about. -/
def CampaignDeed.about? : CampaignDeed → Option UInt64
  | .started task _ => some task.index
  | .looked i _ | .killed i | .commanded i _ _ | .polled i _ | .informed i _ | .gathered i _
  | .asked i _ _ => some i
  | .readClock _ | .slept _ => none

def CampaignDeed.start? : CampaignDeed → Option UInt64
  | .started task (.ok ()) => some task.index
  | _ => none

/-- Whether a deed is a look at a worker or its end. -/
def CampaignDeed.reaps : CampaignDeed → Bool
  | .looked .. | .killed _ => true
  | _ => false

/-- The workers that were started. -/
def startedIn (l : List CampaignDeed) : List UInt64 := l.filterMap CampaignDeed.start?

/-- No worker is started, and nothing is done with any other. -/
def OnlyAbout (i : UInt64) (l : List CampaignDeed) : Prop :=
  ∀ d ∈ l, d.start? = none ∧ (d.about? = none ∨ d.about? = some i)

/-- Nothing is done with the worker, except that its coverage is taken. -/
def LeftAlone (i : UInt64) (l : List CampaignDeed) : Prop :=
  ∀ d ∈ l, d.about? = some i → ∃ snapshots, d = .gathered i snapshots

section

variable {i j : UInt64} {l l' : List CampaignDeed} {d : CampaignDeed}

@[simp] theorem startedIn_append : startedIn (l ++ l') = startedIn l ++ startedIn l' :=
  List.filterMap_append

theorem onlyAbout_nil : OnlyAbout i [] := List.forall_mem_nil _

theorem OnlyAbout.append (h : OnlyAbout i l) (h' : OnlyAbout i l') : OnlyAbout i (l ++ l') :=
  fun d hd => (List.mem_append.1 hd).elim (h d) (h' d)

theorem OnlyAbout.cons (h : OnlyAbout i l) (hd : d.start? = none)
    (habout : d.about? = none ∨ d.about? = some i) : OnlyAbout i (d :: l) := by
  intro d' hd'
  rcases List.mem_cons.1 hd' with rfl | hd'
  · exact ⟨hd, habout⟩
  · exact h d' hd'

theorem OnlyAbout.startedIn_eq (h : OnlyAbout i l) : startedIn l = [] :=
  List.filterMap_eq_nil_iff.2 fun d hd => (h d hd).1

theorem OnlyAbout.leftAlone (h : OnlyAbout j l) (hne : i ≠ j) : LeftAlone i l := by
  intro d hd habout
  rcases (h d hd).2 with hnone | hsome
  · rw [hnone] at habout
    cases habout
  · rw [hsome] at habout
    exact absurd (Option.some.inj habout).symm hne

theorem leftAlone_nil : LeftAlone i [] := List.forall_mem_nil _

theorem LeftAlone.append (h : LeftAlone i l) (h' : LeftAlone i l') : LeftAlone i (l ++ l') :=
  fun d hd => (List.mem_append.1 hd).elim (h d) (h' d)

theorem leftAlone_gathered (i : UInt64) (snapshots : List Snapshot) :
    LeftAlone i [.gathered i snapshots] := by
  intro d hd _
  exact ⟨snapshots, List.mem_singleton.1 hd⟩

end

/-! ## Reapings -/

/-- The looks at a worker that is about to exit, up to a deadline. -/
inductive LooksUntil (i : UInt64) (deadline : Nat) : List CampaignDeed → Prop
  | exited (status : String) : LooksUntil i deadline [.looked i (.ok (some status))]
  | refused (e : CampaignError) : LooksUntil i deadline [.looked i (.error e), .killed i]
  | late {time} (h : deadline ≤ time) :
    LooksUntil i deadline [.looked i (.ok none), .readClock time, .killed i]
  | waiting {time l} (h : time < deadline) (hrest : LooksUntil i deadline l) : LooksUntil i deadline
    (.looked i (.ok none) :: .readClock time :: .slept Campaign.reapInterval :: l)

/-- The passage of a record that is a reaping: it ends when the worker is seen to have exited, or
with the one kill, because the worker could not be looked at or its time was up. -/
def Reaping (timeout : Duration) (i : UInt64) (l : List CampaignDeed) : Prop :=
  ∃ start looks, l = .readClock start :: looks ∧ LooksUntil i (start + timeout.nanoseconds) looks

/-- Two deeds in a row that do not begin a reaping. -/
def Apart (i : UInt64) (a b : CampaignDeed) : Prop :=
  ∀ time r, ¬(a = .readClock time ∧ b = .looked i r)

/-- There is no reaping of the worker, nor is it killed. -/
structure Steady (i : UInt64) (l : List CampaignDeed) : Prop where
  chain : l.IsChain (Apart i)
  alive : CampaignDeed.killed i ∉ l

/-- There is no reaping of the worker, nor can one begin right before. -/
structure Calm (i : UInt64) (l : List CampaignDeed) : Prop extends Steady i l where
  head : ∀ r, l.head? ≠ some (.looked i r)

section

variable {i j : UInt64} {deadline : Nat} {timeout : Duration} {l l' m m' : List CampaignDeed}
  {d : CampaignDeed}

theorem LooksUntil.onlyAbout (h : LooksUntil i deadline l) : OnlyAbout i l := by
  induction h with
  | exited status => exact onlyAbout_nil.cons rfl (.inr rfl)
  | refused e => exact (onlyAbout_nil.cons rfl (.inr rfl)).cons rfl (.inr rfl)
  | late _ =>
    exact ((onlyAbout_nil.cons rfl (.inr rfl)).cons rfl (.inl rfl)).cons rfl (.inr rfl)
  | waiting _ _ ih => exact ((ih.cons rfl (.inl rfl)).cons rfl (.inl rfl)).cons rfl (.inr rfl)

theorem Reaping.onlyAbout (h : Reaping timeout i l) : OnlyAbout i l := by
  obtain ⟨start, looks, rfl, hlooks⟩ := h
  exact hlooks.onlyAbout.cons rfl (.inl rfl)

theorem LooksUntil.exists_look (h : LooksUntil i deadline l) :
    ∃ r rest, l = .looked i r :: rest := by
  cases h with
  | exited status => exact ⟨_, _, rfl⟩
  | refused e => exact ⟨_, _, rfl⟩
  | late _ => exact ⟨_, _, rfl⟩
  | waiting _ _ => exact ⟨_, _, rfl⟩

theorem LooksUntil.eq_of_append (h : LooksUntil i deadline l) (h' : LooksUntil i deadline l')
    (heq : l ++ m = l' ++ m') : l = l' := by
  induction h generalizing l' with
  | exited status => cases h' <;> simp_all
  | refused e => cases h' <;> simp_all
  | @late time hlate =>
    cases h' with
    | waiting hlt _ =>
      simp only [List.cons_append, List.cons.injEq, CampaignDeed.readClock.injEq, true_and] at heq
      omega
    | _ => simp_all
  | @waiting time l hlt _ ih =>
    cases h' with
    | waiting _ hrest =>
      simp only [List.cons_append, List.cons.injEq, CampaignDeed.readClock.injEq, true_and] at heq
      rw [heq.1, ih hrest heq.2]
    | late hlate =>
      simp only [List.cons_append, List.cons.injEq, CampaignDeed.readClock.injEq, true_and] at heq
      omega
    | _ => simp_all

/-! ### Records without a reaping -/

theorem apart_of_ne (h : ∀ r, d ≠ .looked i r) (a : CampaignDeed) : Apart i a d :=
  fun _ r hd => h r hd.2

theorem ne_looked_of_reaps (i : UInt64) (h : d.reaps = false) (r) : d ≠ .looked i r := by
  rintro rfl
  cases h

theorem ne_killed_of_reaps (i : UInt64) (h : d.reaps = false) : d ≠ .killed i := by
  rintro rfl
  cases h

theorem calm_nil : Calm i [] := ⟨⟨.nil, List.not_mem_nil⟩, nofun⟩

theorem Calm.steady_cons (h : Calm i l) (hd : d ≠ .killed i) : Steady i (d :: l) := by
  refine ⟨?_, ?_⟩
  · rcases l with _ | ⟨b, l⟩
    · exact .singleton d
    · refine List.isChain_cons_cons.2 ⟨apart_of_ne (fun r hb => ?_) d, h.chain⟩
      exact h.head r (congrArg some hb)
  · rw [List.mem_cons, not_or]
    exact ⟨fun heq => hd heq.symm, h.alive⟩

theorem Steady.calm_cons (h : Steady i l) (hd : d.about? ≠ none) (hreaps : d.reaps = false) :
    Calm i (d :: l) := by
  have hkill := ne_killed_of_reaps i hreaps
  refine ⟨⟨?_, ?_⟩, fun r heq => ne_looked_of_reaps i hreaps r (Option.some.inj heq)⟩
  · rcases l with _ | ⟨b, l⟩
    · exact .singleton d
    · refine List.isChain_cons_cons.2 ⟨fun time r ⟨hclock, _⟩ => hd ?_, h.chain⟩
      rw [hclock]
      rfl
  · rw [List.mem_cons, not_or]
    exact ⟨fun heq => hkill heq.symm, h.alive⟩

theorem Calm.append (h : Calm i l) (h' : Calm i l') : Calm i (l ++ l') := by
  refine ⟨⟨List.isChain_append.2 ⟨h.chain, h'.chain, fun a _ b hb => ?_⟩, ?_⟩, fun r => ?_⟩
  · exact apart_of_ne (fun r heq => h'.head r (heq ▸ hb)) a
  · rw [List.mem_append, not_or]
    exact ⟨h.alive, h'.alive⟩
  · rcases l with _ | ⟨a, l⟩
    · exact h'.head r
    · exact h.head r

/-- While it is left alone. -/
theorem LeftAlone.calm (h : LeftAlone i l) : Calm i l := by
  induction l with
  | nil => exact calm_nil
  | cons d l ih =>
    have hl := ih fun d' hd' => h d' (List.mem_cons_of_mem _ hd')
    have hd := h d List.mem_cons_self
    refine ⟨hl.steady_cons ?_, fun r heq => ?_⟩
    · rintro rfl
      obtain ⟨snapshots, hgathered⟩ := hd rfl
      cases hgathered
    · cases Option.some.inj heq
      obtain ⟨snapshots, hgathered⟩ := hd rfl
      cases hgathered

theorem calm_readClock (h : Calm i l) (time : Nat) : Calm i (.readClock time :: l) :=
  ⟨h.steady_cons nofun, fun _ heq => by cases Option.some.inj heq⟩

theorem calm_of_started (h : ∀ d ∈ l, ∃ task answer, d = .started task answer) : Calm i l := by
  induction l with
  | nil => exact calm_nil
  | cons d l ih =>
    obtain ⟨task, answer, rfl⟩ := h d List.mem_cons_self
    have hl := ih fun d' hd' => h d' (List.mem_cons_of_mem _ hd')
    exact ⟨hl.steady_cons nofun, fun _ heq => by cases Option.some.inj heq⟩

/-! ### Records with one reaping -/

theorem isChain_cons_of_ne (hd : ∀ time, d ≠ .readClock time) (h : l.IsChain (Apart i)) :
    (d :: l).IsChain (Apart i) := by
  rcases l with _ | ⟨b, l⟩
  · exact .singleton d
  · exact List.isChain_cons_cons.2 ⟨fun time _ hclock => hd time hclock.1, h⟩

theorem isChain_readClock (h : l.IsChain (Apart i)) (hl : ∀ r, l.head? ≠ some (.looked i r))
    (time : Nat) : (CampaignDeed.readClock time :: l).IsChain (Apart i) := by
  rcases l with _ | ⟨b, l⟩
  · exact .singleton _
  · exact List.isChain_cons_cons.2 ⟨apart_of_ne (fun r hb => hl r (congrArg some hb)) _, h⟩

/-- In the looks no reaping begins, nor in what follows if it is not about the worker. -/
theorem LooksUntil.isChain (h : LooksUntil i deadline l) (hm : LeftAlone i m) :
    (l ++ m).IsChain (Apart i) := by
  have hrest := hm.calm.chain
  induction h with
  | exited status => exact isChain_cons_of_ne (fun _ h => by cases h) hrest
  | refused e =>
    have hkill := isChain_cons_of_ne (d := .killed i) (fun _ h => by cases h) hrest
    exact isChain_cons_of_ne (fun _ h => by cases h) hkill
  | late _ =>
    have hkill := isChain_cons_of_ne (d := .killed i) (fun _ h => by cases h) hrest
    refine isChain_cons_of_ne (fun _ h => by cases h) (isChain_readClock hkill ?_ _)
    intro r heq
    cases Option.some.inj heq
  | waiting _ _ ih =>
    have hsleep := isChain_cons_of_ne (d := .slept Campaign.reapInterval) (fun _ h => by cases h) ih
    refine isChain_cons_of_ne (fun _ h => by cases h) (isChain_readClock hsleep ?_ _)
    intro r heq
    cases Option.some.inj heq

theorem not_begins_of_isChain (h : l.IsChain (Apart i)) {before after : List CampaignDeed}
    {time : Nat} {r : Except CampaignError (Option String)}
    (heq : l = before ++ .readClock time :: .looked i r :: after) : False :=
  List.isChain_iff_forall_rel_of_append_cons_cons.1 h heq time r ⟨rfl, rfl⟩

/-- **A reaping is recognized**: if nothing before is a reaping and the worker is left alone
afterwards, then it is the only one. -/
theorem Reaping.unique {before after before' after' : List CampaignDeed} (h : Reaping timeout i l)
    (hbefore : Calm i before) (hafter : LeftAlone i after) (h' : Reaping timeout i l')
    (heq : before ++ l ++ after = before' ++ l' ++ after') : before' = before ∧ l' = l := by
  obtain ⟨start, looks, rfl, hlooks⟩ := h
  obtain ⟨start', looks', rfl, hlooks'⟩ := h'
  have hchain := hlooks.isChain hafter
  obtain ⟨r', rest', hrest'⟩ := hlooks'.exists_look
  have hsame : before' = before → before' = before ∧
      CampaignDeed.readClock start' :: looks' = .readClock start :: looks := by
    rintro rfl
    rw [List.append_assoc, List.append_assoc, List.append_cancel_left_eq, List.cons_append,
      List.cons_append, List.cons.injEq, CampaignDeed.readClock.injEq] at heq
    obtain ⟨rfl, heq⟩ := heq
    exact ⟨rfl, by rw [hlooks.eq_of_append hlooks' heq]⟩
  rw [List.append_assoc, List.append_assoc] at heq
  rcases List.append_eq_append_iff.1 heq with ⟨x, hx, hrest⟩ | ⟨x, hx, hrest⟩
  · rcases x with _ | ⟨a, x⟩
    · exact hsame (by simpa using hx)
    · -- the other one begins after the beginning of this one
      rw [List.cons_append, List.cons_append, List.cons.injEq, hrest'] at hrest
      exact (not_begins_of_isChain hchain hrest.2).elim
  · rcases x with _ | ⟨a, _ | ⟨b, x⟩⟩
    · exact hsame (by simpa using hx.symm)
    · rw [hrest'] at hrest
      cases hrest
    · -- the other one begins before this one
      rw [hrest', List.cons_append, List.cons_append, List.cons_append, List.cons_append,
        List.cons.injEq, List.cons.injEq] at hrest
      obtain ⟨rfl, rfl, -⟩ := hrest
      exact (not_begins_of_isChain hbefore.chain hx).elim

/-- A record in which the worker is reaped, after a part of which `how` holds. -/
def Reaped (timeout : Duration) (i : UInt64) (how : List CampaignDeed → Prop)
    (deeds : List CampaignDeed) : Prop :=
  ∃ before l after, deeds = before ++ l ++ after ∧ Calm i before ∧ Reaping timeout i l ∧
    LeftAlone i after ∧ how before

/-- A record with one reaping of the worker, which is not killed before and left alone afterwards;
of what comes before the reaping `how` holds. -/
def ReapedOnce (timeout : Duration) (i : UInt64) (how : List CampaignDeed → Prop)
    (deeds : List CampaignDeed) : Prop :=
  ∃ before l after, deeds = before ++ l ++ after ∧ Reaping timeout i l ∧ how before ∧
    .killed i ∉ before ∧ LeftAlone i after ∧
    ∀ before' l' after', deeds = before' ++ l' ++ after' → Reaping timeout i l' →
      before' = before ∧ l' = l

variable {how how' : List CampaignDeed → Prop} {deeds : List CampaignDeed}

theorem Reaped.once (h : Reaped timeout i how deeds) : ReapedOnce timeout i how deeds := by
  obtain ⟨before, l, after, rfl, hcalm, hreaping, hafter, hhow⟩ := h
  exact ⟨before, l, after, rfl, hreaping, hhow, hcalm.alive, hafter,
    fun _ _ _ heq h' => hreaping.unique hcalm hafter h' heq⟩

theorem Reaped.imp (h : Reaped timeout i how deeds) (himp : ∀ l, how l → how' l) :
    Reaped timeout i how' deeds := by
  obtain ⟨before, l, after, heq, hcalm, hreaping, hafter, hhow⟩ := h
  exact ⟨before, l, after, heq, hcalm, hreaping, hafter, himp _ hhow⟩

theorem Reaped.append (h : Reaped timeout i how deeds) (hl : LeftAlone i l) :
    Reaped timeout i how (deeds ++ l) := by
  obtain ⟨before, ds, after, rfl, hcalm, hreaping, hafter, hhow⟩ := h
  exact ⟨before, ds, after ++ l, by simp, hcalm, hreaping, hafter.append hl, hhow⟩

/-! ## Completions and outcomes -/

def CampaignDeed.isSignal (i : UInt64) : CampaignDeed → Bool
  | .polled j (.got ()) => j = i
  | _ => false

def CampaignDeed.report? (i : UInt64) : CampaignDeed → Option (Option Envelope)
  | .informed j (.got report) => if j = i then some report else none
  | _ => none

/-- How many completions of the worker were taken. -/
def signalsOf (i : UInt64) (l : List CampaignDeed) : Nat := l.countP (CampaignDeed.isSignal i)

/-- The outcomes of the worker that were taken. -/
def reportsOf (i : UInt64) (l : List CampaignDeed) : List (Option Envelope) :=
  l.filterMap (CampaignDeed.report? i)

@[simp] theorem signalsOf_append : signalsOf i (l ++ l') = signalsOf i l + signalsOf i l' :=
  List.countP_append

@[simp] theorem reportsOf_append : reportsOf i (l ++ l') = reportsOf i l ++ reportsOf i l' :=
  List.filterMap_append

@[simp] theorem signalsOf_cons :
    signalsOf i (d :: l) = (d.isSignal i).toNat + signalsOf i l := by
  unfold signalsOf
  rw [List.countP_cons]
  cases d.isSignal i <;> simp [Nat.add_comm]

@[simp] theorem reportsOf_cons :
    reportsOf i (d :: l) = (d.report? i).toList ++ reportsOf i l := by
  unfold reportsOf
  rw [List.filterMap_cons]
  cases d.report? i <;> rfl

@[simp] theorem signalsOf_nil : signalsOf i [] = 0 := rfl

@[simp] theorem reportsOf_nil : reportsOf i [] = [] := rfl

theorem LeftAlone.signalsOf_eq (h : LeftAlone i l) : signalsOf i l = 0 := by
  refine List.countP_eq_zero.2 fun d hd => ?_
  rcases d with _ | _ | _ | _ | ⟨j, _ | _ | _⟩ | _ | _ | _ | _ | _ <;> simp [CampaignDeed.isSignal]
  rintro rfl
  obtain ⟨snapshots, hgathered⟩ := h _ hd rfl
  cases hgathered

theorem LeftAlone.reportsOf_eq (h : LeftAlone i l) : reportsOf i l = [] := by
  refine List.filterMap_eq_nil_iff.2 fun d hd => ?_
  rcases d with _ | _ | _ | _ | _ | ⟨j, _ | _ | _⟩ | _ | _ | _ | _ <;> simp [CampaignDeed.report?]
  rintro rfl
  obtain ⟨snapshots, hgathered⟩ := h _ hd rfl
  cases hgathered

theorem LooksUntil.reportsOf_eq (h : LooksUntil j deadline l) : reportsOf i l = [] := by
  induction h with
  | exited status => rfl
  | refused e => rfl
  | late _ => rfl
  | waiting _ _ ih => exact ih

/-- All outcomes of a worker are taken before it is reaped. -/
theorem Reaped.exists_reportsOf (h : Reaped timeout i how deeds) :
    ∃ before, how before ∧ reportsOf i deeds = reportsOf i before := by
  obtain ⟨before, l, after, rfl, -, ⟨start, looks, rfl, hlooks⟩, hafter, hhow⟩ := h
  refine ⟨before, hhow, ?_⟩
  rw [reportsOf_append, reportsOf_append, hafter.reportsOf_eq, List.append_nil]
  exact (congrArg (reportsOf i before ++ ·) hlooks.reportsOf_eq).trans (List.append_nil _)

end

/-- How many completions a worker signals that ends with the verdict. -/
def Verdict.completions : Verdict → Nat
  | .passed => 1
  | .failed .. => 2

/-- The outcome that a verdict is about. -/
def Verdict.report? : Verdict → Option Envelope
  | .passed => none
  | .failed e _ => some e

/-- All completions of the worker were taken, and the outcome of its verdict. -/
def Finished (i : UInt64) (v : Verdict) (deeds : List CampaignDeed) : Prop :=
  signalsOf i deeds = v.completions ∧ reportsOf i deeds = [v.report?]

end FuzzCampaign
