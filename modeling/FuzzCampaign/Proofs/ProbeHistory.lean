import FuzzCampaign.Proofs.CoverageSum
import FuzzCampaign.Proofs.Record
import Mathlib.Data.List.DropRight
import Mathlib.Data.List.Induction

/-!
# The history of a probe

A probe keeps two coverages side by side, one of which is cleared whenever a transaction begins.
What it holds is told by the calls made to it, in any order and number: the sums of the counts, up
to the largest count, and the names that came first. This holds at every export, and of the message
that a probe leaves when it is given up.

* `ProbeCall`, `ProbeCall.perform`: what a body does with its probe;
* `ProbeCall.recordedAt`, `ProbeCall.sinceOpened`: what calls counted at a place, and the calls of
  the current transaction;
* `Coverage.Collects`, `Coverage.Collects.hit`: coverage that holds what calls counted;
* `Snapshot.Tells`, **`Snapshot.Tells.unique`**: the snapshot of what calls counted;
* `ProbeCall.Exported`: each export hands over one message, of what was counted before it;
* **`ProbeCall.Traced.perform`**: one call; **`ProbeCall.run_history`**: all calls to a probe, and
  its end.
-/

namespace FuzzCampaign

/-- What a body does with its probe; a single hit is a count of one. -/
inductive ProbeCall
  | hit (file : String) (position : Position) (name : String) (n : UInt64)
  | openTransaction
  | exportCoverage
  deriving DecidableEq

namespace ProbeCall

variable {σ : Type}

/-- Make a call at the bench; whether an export gets through makes no difference. -/
def perform (host : WorkerHost σ) : ProbeCall → StateM (Bench σ) Unit
  | .hit file position name n => Bench.hit file position name n
  | .openTransaction => Bench.openTransaction
  | .exportCoverage => discard (Bench.exportCoverage host)

/-- What a call counts at a place; no hits count nothing. -/
def records? (file : String) (p : Position) : ProbeCall → Option FunctionHits
  | .hit file' p' name n => if (file = file' ∧ p = p') ∧ n ≠ 0 then some ⟨name, n⟩ else none
  | _ => none

/-- What calls counted at a place, one after the other. -/
def recordedAt (file : String) (p : Position) (calls : List ProbeCall) : List FunctionHits :=
  calls.filterMap (records? file p)

/-- All hits of a list. -/
def sumHits (l : List FunctionHits) : Nat := (l.map (·.hits.toNat)).sum

/-- The calls since a transaction was begun last, or all of them. -/
def sinceOpened (calls : List ProbeCall) : List ProbeCall := calls.rtakeWhile (· ≠ .openTransaction)

theorem recordedAt_concat (file : String) (p : Position) (calls : List ProbeCall) (c : ProbeCall) :
    recordedAt file p (calls ++ [c]) = recordedAt file p calls ++ (c.records? file p).toList := by
  rw [recordedAt, List.filterMap_append]
  cases h : c.records? file p <;> simp [recordedAt, h]

@[simp] theorem sumHits_append (l l' : List FunctionHits) :
    sumHits (l ++ l') = sumHits l + sumHits l' := by
  simp [sumHits]

@[simp] theorem sumHits_singleton (f : FunctionHits) : sumHits [f] = f.hits.toNat := by
  simp [sumHits]

theorem sumHits_sinceOpened_le (file : String) (p : Position) (calls : List ProbeCall) :
    sumHits (recordedAt file p (sinceOpened calls)) ≤ sumHits (recordedAt file p calls) :=
  (((List.rtakeWhile_suffix _ calls).sublist.filterMap _).map _).sum_le_sum
    fun _ _ => Nat.zero_le _

end ProbeCall

open ProbeCall

/-! ## What calls counted -/

namespace Coverage

/-- Coverage holds what calls counted: at every place the sum of the counts, or the largest count,
and the name that came first. It leaves no trace of anything else. -/
structure Collects (c : Coverage) (calls : List ProbeCall) : Prop where
  hits : ∀ file p, ((c.hits? file p).getD 0).toNat =
    min (sumHits (recordedAt file p calls)) (word64 - 1)
  name : ∀ file p, (c.record? file p).map (·.name) = (recordedAt file p calls).head?.map (·.name)
  reduced : c.Reduced

theorem collects_nil : Collects .empty [] where
  hits _ _ := rfl
  name _ _ := rfl
  reduced := ⟨nofun, nofun⟩

theorem Collects.skip {c : Coverage} {calls : List ProbeCall} (h : c.Collects calls)
    {call : ProbeCall} (hcall : ∀ file p, call.records? file p = none) :
    c.Collects (calls ++ [call]) := by
  have hsame : ∀ file p, recordedAt file p (calls ++ [call]) = recordedAt file p calls := by
    intro file p
    rw [recordedAt_concat, hcall, Option.toList_none, List.append_nil]
  exact ⟨fun file p => by rw [hsame]; exact h.hits file p,
    fun file p => by rw [hsame]; exact h.name file p, h.reduced⟩

theorem toNat_hits_countHits (name : String) (n : UInt64) (o : Option FunctionHits) :
    (Probe.countHits name n o).hits.toNat =
      min (((o.map (·.hits)).getD 0 : UInt64).toNat + n.toNat) (word64 - 1) := by
  cases o <;> exact toNat_addSaturating _ _

theorem name_countHits (name : String) (n : UInt64) (o : Option FunctionHits) :
    (Probe.countHits name n o).name = (o.map (·.name)).getD name := by
  cases o <;> rfl

/-- Hits that are counted add to the sum of their place, and give it a name if it has none. -/
theorem Collects.hit {c : Coverage} {calls : List ProbeCall} (h : c.Collects calls) (file : String)
    (p : Position) (name : String) {n : UInt64} (hn : n ≠ 0) :
    (c.update file p (Probe.countHits name n)).Collects (calls ++ [.hit file p name n]) := by
  have hpositive : 0 < n.toNat := by
    rw [Nat.pos_iff_ne_zero, ne_eq, ← UInt64.toNat_zero, UInt64.toNat_inj]
    exact hn
  refine ⟨fun file' p' => ?_, fun file' p' => ?_, h.reduced.update file p ?_⟩
  · rw [hits?, record?_update, recordedAt_concat, records?]
    by_cases hplace : file' = file ∧ p' = p
    · obtain ⟨rfl, rfl⟩ := hplace
      have hbefore := h.hits file' p'
      simp only [and_self, if_true, hn, ne_eq, not_false_eq_true, Option.map_some,
        Option.getD_some, toNat_hits_countHits, Option.toList_some, sumHits_append,
        sumHits_singleton]
      rw [hits?] at hbefore
      omega
    · simpa only [hits?, hplace, false_and, if_false, Option.toList_none, List.append_nil] using
        h.hits file' p'
  · rw [record?_update, recordedAt_concat, records?, List.head?_append]
    by_cases hplace : file' = file ∧ p' = p
    · obtain ⟨rfl, rfl⟩ := hplace
      simp only [and_self, if_true, hn, ne_eq, not_false_eq_true, Option.map_some, name_countHits,
        h.name file' p']
      cases (recordedAt file' p' calls).head? <;> rfl
    · simpa only [hplace, false_and, if_false, Option.toList_none, List.head?_nil,
        Option.or_none] using h.name file' p'
  · have hlargest : word64 - 1 = 18446744073709551615 := rfl
    have hcount := toNat_hits_countHits name n (c.record? file p)
    intro hzero
    rw [hzero, UInt64.toNat_zero] at hcount
    omega

theorem Collects.unique {c d : Coverage} {calls : List ProbeCall} (hc : c.Collects calls)
    (hd : d.Collects calls) : c = d := by
  refine hc.reduced.ext hd.reduced fun file p => ?_
  have hname := (hc.name file p).trans (hd.name file p).symm
  have hhits := (hc.hits file p).trans (hd.hits file p).symm
  rw [hits?, hits?, UInt64.toNat_inj] at hhits
  rcases hf : c.record? file p with _ | f <;> rcases hg : d.record? file p with _ | g <;>
    rw [hf, hg] at hname hhits
  · cases hname
  · cases hname
  · obtain ⟨name, hits⟩ := f
    obtain ⟨name', hits'⟩ := g
    cases Option.some.inj hname
    cases hhits
    rfl

end Coverage

namespace Snapshot

/-- A snapshot of what calls counted: in all, and since a transaction was begun last. Each place of
the current transaction has at least as many hits in all. -/
structure Tells (s : Snapshot) (calls : List ProbeCall) : Prop where
  full : s.full.Collects calls
  perTransaction : s.perTransaction.Collects (sinceOpened calls)
  contained : ∀ file p f, s.perTransaction.record? file p = some f →
    ∃ g, s.full.record? file p = some g ∧ f.hits ≤ g.hits

/-- The current transaction is part of the run. -/
theorem tells_of_collects {s : Snapshot} {calls : List ProbeCall} (hfull : s.full.Collects calls)
    (htransaction : s.perTransaction.Collects (sinceOpened calls)) : s.Tells calls := by
  refine ⟨hfull, htransaction, fun file p f hf => ?_⟩
  have hpositive := htransaction.reduced.hit file p f hf
  have hhits := htransaction.hits file p
  have hhitsFull := hfull.hits file p
  have hle := sumHits_sinceOpened_le file p calls
  rw [Coverage.hits?, hf, Option.map_some, Option.getD_some] at hhits
  rw [Coverage.hits?] at hhitsFull
  rcases hg : s.full.record? file p with _ | g
  · rw [hg, Option.map_none, Option.getD_none, UInt64.toNat_zero] at hhitsFull
    rw [ne_eq, ← UInt64.toNat_inj, UInt64.toNat_zero] at hpositive
    omega
  · rw [hg, Option.map_some, Option.getD_some] at hhitsFull
    exact ⟨g, rfl, UInt64.le_iff_toNat_le.2 (by omega)⟩

/-- **Calls have one snapshot.** -/
theorem Tells.unique {s s' : Snapshot} {calls : List ProbeCall} (h : s.Tells calls)
    (h' : s'.Tells calls) : s = s' := by
  obtain ⟨full, perTransaction⟩ := s
  obtain ⟨full', perTransaction'⟩ := s'
  cases h.full.unique h'.full
  cases h.perTransaction.unique h'.perTransaction
  rfl

end Snapshot

/-! ## One call more -/

namespace ProbeCall

theorem sinceOpened_concat (calls : List ProbeCall) {c : ProbeCall} (hc : c ≠ .openTransaction) :
    sinceOpened (calls ++ [c]) = sinceOpened calls ++ [c] :=
  List.rtakeWhile_concat_pos _ _ _ (decide_eq_true hc)

theorem sinceOpened_openTransaction (calls : List ProbeCall) :
    sinceOpened (calls ++ [.openTransaction]) = [] :=
  List.rtakeWhile_concat_neg _ _ _ (by simp)

end ProbeCall

namespace Probe

variable {p : Probe} {calls : List ProbeCall}

theorem tells_start (block : UInt64) : (start block).snapshot.Tells [] :=
  Snapshot.tells_of_collects Coverage.collects_nil Coverage.collects_nil

theorem tells_skip (h : p.snapshot.Tells calls) {c : ProbeCall} (hc : c ≠ .openTransaction)
    (hrecords : ∀ file p, c.records? file p = none) : p.snapshot.Tells (calls ++ [c]) := by
  refine Snapshot.tells_of_collects (h.full.skip hrecords) ?_
  rw [sinceOpened_concat calls hc]
  exact h.perTransaction.skip hrecords

theorem tells_hit (h : p.snapshot.Tells calls) (file : String) (position : Position) (name : String)
    (n : UInt64) :
    (p.hit file position name n).snapshot.Tells (calls ++ [.hit file position name n]) := by
  unfold hit
  split_ifs with hn
  · exact tells_skip h nofun fun file' p' => if_neg fun hplace => hplace.2 hn
  · refine Snapshot.tells_of_collects (h.full.hit file position name hn) ?_
    rw [sinceOpened_concat calls (c := .hit file position name n) nofun]
    exact h.perTransaction.hit file position name hn

theorem tells_openTransaction (h : p.snapshot.Tells calls) :
    p.openTransaction.snapshot.Tells (calls ++ [.openTransaction]) := by
  refine Snapshot.tells_of_collects (h.full.skip fun _ _ => rfl) ?_
  rw [sinceOpened_openTransaction]
  exact Coverage.collects_nil

/-- The name that came first stays, hits stop at the largest count, and a transaction begins without
either. -/
example :
    let place : Position := ⟨1, 2, 3, 4⟩
    let p := (((start 7).hit "c" place "f" maxCount).openTransaction).hit "c" place "g" 1
    p.full.record? "c" place = some ⟨"f", maxCount⟩ ∧
      p.perTransaction.record? "c" place = some ⟨"g", 1⟩ := by decide +kernel

end Probe

/-! ## All calls -/

namespace ProbeCall

/-- Each export handed over one message, the snapshot of what was counted before it, and no other
call handed over any. -/
inductive Exported : List ProbeCall → List WorkerDeed → Prop
  | start : Exported [] []
  | silent {calls : List ProbeCall} {deeds : List WorkerDeed} {c : ProbeCall} :
    Exported calls deeds → c ≠ .exportCoverage → Exported (calls ++ [c]) deeds
  | message {calls : List ProbeCall} {deeds : List WorkerDeed} {s : Snapshot}
    (answer : Except CampaignError Unit) : Exported calls deeds → s.Tells calls →
    Exported (calls ++ [.exportCoverage]) (deeds ++ [.said (.coverage s) answer])

variable {σ : Type}

/-- The bench has a probe that tells the calls made to it, whose exports have been handed over. -/
def Traced (deeds : List WorkerDeed) (calls : List ProbeCall) (b : Bench (Recorded WorkerDeed σ)) :
    Prop :=
  ∃ p reports, b.probe? = some p ∧ p.snapshot.Tells calls ∧
    b.world.deeds = deeds ++ reports ∧ Exported calls reports

/-- **One call more**, whether sending succeeds or not. -/
theorem Traced.perform (host : WorkerHost σ) {deeds : List WorkerDeed} {calls : List ProbeCall}
    {b : Bench (Recorded WorkerDeed σ)} (h : Traced deeds calls b) (c : ProbeCall) :
    Traced deeds (calls ++ [c]) ((c.perform host.recorded).run b).2 := by
  obtain ⟨w, client, generator, watched, argument?, probe?⟩ := b
  obtain ⟨p, reports, hprobe, htells, hdeeds, hexported⟩ := h
  dsimp only at hprobe hdeeds
  subst hprobe
  cases c with
  | hit file position name n =>
    exact ⟨_, reports, rfl, Probe.tells_hit htells file position name n, hdeeds,
      hexported.silent nofun⟩
  | openTransaction =>
    exact ⟨_, reports, rfl, Probe.tells_openTransaction htells, hdeeds, hexported.silent nofun⟩
  | exportCoverage =>
    let answer := ((host.send (.coverage p.snapshot)).run w.world).1
    refine ⟨p, reports ++ [.said (.coverage p.snapshot) answer], rfl,
      Probe.tells_skip htells nofun fun _ _ => rfl, ?_, hexported.message answer htells⟩
    rw [← List.append_assoc, ← hdeeds]
    rfl

theorem traced_run (host : WorkerHost σ) (block : UInt64) (calls : List ProbeCall)
    (b : Bench (Recorded WorkerDeed σ)) :
    Traced b.world.deeds calls
      ((forM calls (perform host.recorded)).run { b with probe? := some (.start block) }).2 := by
  induction calls using List.reverseRecOn with
  | nil =>
    exact ⟨.start block, [], rfl, Probe.tells_start block, (List.append_nil _).symm, .start⟩
  | append_singleton calls c ih =>
    rw [List.forM_append]
    exact ih.perform host c

theorem deeds_dropProbe (host : WorkerHost σ) {b : Bench (Recorded WorkerDeed σ)} {p : Probe}
    (h : b.probe? = some p) : ∃ answer, ((Bench.dropProbe host.recorded).run b).2.world.deeds =
      b.world.deeds ++ if p.full.isEmpty then [] else [.said (.coverage p.snapshot) answer] := by
  obtain ⟨w, client, generator, watched, argument?, probe?⟩ := b
  obtain rfl : probe? = some p := h
  refine ⟨((host.send (.coverage p.snapshot)).run w.world).1, ?_⟩
  cases hempty : p.full.isEmpty with
  | true =>
    have hfarewell : p.farewell = none := if_pos hempty
    simp only [Bench.dropProbe, StateT.run_bind, StateT.run_get, StateT.run_set, pure_bind,
      Option.bind_some, hfarewell, if_true, List.append_nil]
    rfl
  | false =>
    have hfarewell : p.farewell = some p.snapshot := if_neg (by simp [hempty])
    simp only [Bench.dropProbe, StateT.run_bind, StateT.run_get, StateT.run_set, pure_bind,
      Option.bind_some, hfarewell, Bool.false_eq_true, if_false]
    rfl

/-- **What a probe holds, exports and leaves is told by the calls to it**, of any kind, order and
number, whether anything gets through or not. The probe holds the one snapshot of the calls, each
export has handed over that of the calls before it, and the end of a probe that has counted anything
hands over the last. -/
theorem run_history (host : WorkerHost σ) (block : UInt64) (calls : List ProbeCall)
    (b : Bench (Recorded WorkerDeed σ)) :
    let b' := ((forM calls (perform host.recorded)).run { b with probe? := some (.start block) }).2
    ∃ p reports answer, b'.probe? = some p ∧
      p.snapshot.Tells calls ∧ (∀ s : Snapshot, s.Tells calls → s = p.snapshot) ∧
      b'.world.deeds = b.world.deeds ++ reports ∧ Exported calls reports ∧
      ((Bench.dropProbe host.recorded).run b').2.world.deeds = b.world.deeds ++ reports ++
        if p.full.isEmpty then [] else [.said (.coverage p.snapshot) answer] := by
  obtain ⟨p, reports, hprobe, htells, hdeeds, hexported⟩ := traced_run host block calls b
  obtain ⟨answer, hend⟩ := deeds_dropProbe host hprobe
  rw [hdeeds] at hend
  exact ⟨p, reports, answer, hprobe, htells, fun s hs => hs.unique htells, hdeeds, hexported, hend⟩

end ProbeCall

end FuzzCampaign
