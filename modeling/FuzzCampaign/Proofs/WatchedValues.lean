import FuzzCampaign.Worker.Bench
import Mathlib.Data.List.Basic

/-!
# Watched values

A body watches values under names until it ends. What is left of its calls is the latest value of
each name, in the order in which the names were first watched.

* `Latest`, `Latest.watch`: what is left of calls;
* `WatchWork`, `WatchWork.calls`: what a body does, as far as watched values are concerned;
* **`WatchWork.latest`**: the values that it leaves;
* `Bench.watched_dropProbe`, `Bench.watched_dropArgument`: the end of a probe watches nothing.
-/

namespace FuzzCampaign

variable {σ : Type}

/-! ## Latest values -/

/-- The values that calls leave watched: each name once, in the order of first watching, with the
value of its last call. -/
structure Latest (calls values : List (String × String)) : Prop where
  names : values.map Prod.fst = (calls.map Prod.fst).eraseDups
  value : ∀ name, values.lookup name = calls.reverse.lookup name

namespace Bench

theorem lookup_cons_ite (n : String) (w : String × String) (r : List (String × String)) :
    (w :: r).lookup n = if n = w.1 then some w.2 else r.lookup n := by
  by_cases h : n = w.1
  · rw [if_pos h, List.lookup_cons, beq_iff_eq.2 h]
  · rw [if_neg h, List.lookup_cons, beq_eq_false_iff_ne.2 h]

theorem map_fst_addWatched (name value : String) (l : List (String × String)) :
    (addWatched name value l).map Prod.fst =
      if name ∈ l.map Prod.fst then l.map Prod.fst else l.map Prod.fst ++ [name] := by
  induction l with
  | nil => rfl
  | cons w r ih =>
    rw [addWatched]
    by_cases h : w.1 = name
    · rw [if_pos h, if_pos (by simp [h])]
      rfl
    · have hmem : name ∈ (w :: r).map Prod.fst ↔ name ∈ r.map Prod.fst := by
        simp [Ne.symm h]
      rw [if_neg h, List.map_cons, ih]
      split_ifs with hr hcons hcons
      · rfl
      · exact absurd (hmem.2 hr) hcons
      · exact absurd (hmem.1 hcons) hr
      · rfl

theorem lookup_addWatched (name value : String) (l : List (String × String)) (n : String) :
    (addWatched name value l).lookup n = if n = name then some value else l.lookup n := by
  induction l with
  | nil => exact lookup_cons_ite n (name, value) []
  | cons w r ih =>
    rw [addWatched]
    by_cases hw : w.1 = name
    · rw [if_pos hw, lookup_cons_ite, lookup_cons_ite, hw]
      split_ifs <;> rfl
    · rw [if_neg hw, lookup_cons_ite, lookup_cons_ite, ih]
      split_ifs with h hn
      · exact absurd (h.symm.trans hn) hw
      all_goals rfl

end Bench

theorem latest_nil : Latest [] [] := ⟨rfl, fun _ => rfl⟩

theorem Latest.watch {calls values : List (String × String)} (h : Latest calls values)
    (name value : String) :
    Latest (calls ++ [(name, value)]) (Bench.addWatched name value values) where
  names := by
    rw [Bench.map_fst_addWatched, List.map_append, List.eraseDups_append, h.names]
    by_cases hmem : name ∈ calls.map Prod.fst
    · rw [if_pos (List.mem_eraseDups.2 hmem)]
      simp [List.removeAll, hmem]
    · rw [if_neg fun hname => hmem (List.mem_eraseDups.1 hname)]
      simp [List.removeAll, hmem, List.eraseDups_cons]
  value n := by
    rw [Bench.lookup_addWatched, List.reverse_append, h.value]
    exact (Bench.lookup_cons_ite n (name, value) _).symm

/-- A name keeps its place when it is watched again. -/
example : Bench.addWatched "supply" "11" [("supply", "10"), ("holder", "0xabc")] =
    [("supply", "11"), ("holder", "0xabc")] := by
  decide

/-! ## Bodies -/

/-- What a body does at its bench: whatever it likes, but it watches values by calls only. -/
inductive WatchWork : {α : Type} → BodyAction σ α → Type 1
  | done {α : Type} (a : α) : WatchWork (pure a)
  /-- It fails or panics. -/
  | failing {α : Type} (failure : BodyFailure) : WatchWork (throw failure : BodyAction σ α)
  | after {α β : Type} {act : BodyAction σ α} {f : α → BodyAction σ β} :
    WatchWork act → (∀ a, WatchWork (f a)) → WatchWork (act >>= f)
  /-- It goes on after a failure or a panic. -/
  | recovering {α : Type} {act : BodyAction σ α} {f : BodyFailure → BodyAction σ α} :
    WatchWork act → (∀ e, WatchWork (f e)) → WatchWork (tryCatch act f)
  | watch (name value : String) : WatchWork (.ofBench (Bench.watch name value))
  /-- It does something that watches nothing. -/
  | elsewhere {α : Type} (q : StateM (Bench σ) α) (h : ∀ b, (q.run b).2.watched = b.watched) :
    WatchWork (.ofBench q)

namespace WatchWork

/-- The names and values that it watches from a bench on, one after the other. -/
def calls : {α : Type} → {act : BodyAction σ α} → WatchWork act → Bench σ → List (String × String)
  | _, _, done _, _ | _, _, failing _, _ | _, _, elsewhere _ _, _ => []
  | _, _, watch name value, _ => [(name, value)]
  | _, _, @after _ _ _ act _ work next, b =>
    work.calls b ++
      match act.run.run b with
      | (.ok a, b') => (next a).calls b'
      | (.error _, _) => []
  | _, _, @recovering _ _ act _ work next, b =>
    work.calls b ++
      match act.run.run b with
      | (.ok _, _) => []
      | (.error e, b') => (next e).calls b'

/-- **The values that are watched at the end** are the latest ones. -/
theorem latest {α : Type} {act : BodyAction σ α} (work : WatchWork act)
    {past : List (String × String)} {b : Bench σ} (h : Latest past b.watched) :
    Latest (past ++ work.calls b) (act.run.run b).2.watched := by
  induction work generalizing past b with
  | done a => exact (List.append_nil past).symm ▸ h
  | failing failure => exact (List.append_nil past).symm ▸ h
  | @after α β act f work next ih ihf =>
    have hact := ih h
    rw [calls, ← List.append_assoc]
    change Latest _ ((act.run >>= ExceptT.bindCont f).run b).2.watched
    rw [StateT.run_bind]
    rcases hrun : act.run.run b with ⟨e | a, b'⟩
    · rw [hrun] at hact
      exact (List.append_nil _).symm ▸ hact
    · rw [hrun] at hact
      exact ihf a hact
  | @recovering α act f work next ih ihf =>
    have hact := ih h
    rw [calls, ← List.append_assoc, ExceptT.run_tryCatch, StateT.run_bind]
    rcases hrun : act.run.run b with ⟨e | a, b'⟩
    · rw [hrun] at hact
      exact ihf e hact
    · rw [hrun] at hact
      exact (List.append_nil _).symm ▸ hact
  | watch name value => exact h.watch name value
  | elsewhere q hq =>
    rw [calls, List.append_nil]
    exact (hq b).symm ▸ h

/-- What was watched before a failure stays watched when a body recovers. -/
example (b : Bench Unit) :
    (recovering ((watch "supply" "10").after fun _ => failing (α := Unit) (.error ⟨"off", []⟩))
      fun _ => watch "holder" "0xabc").calls b = [("supply", "10"), ("holder", "0xabc")] :=
  rfl

end WatchWork

namespace Bench

theorem watched_farewell (host : WorkerHost σ) (s? : Option Snapshot) (b : Bench σ) :
    ((match s? with
      | some s => discard (report host s)
      | none => return () : StateM (Bench σ) Unit).run b).2.watched = b.watched := by
  cases s? <;> rfl

theorem watched_dropProbe (host : WorkerHost σ) (b : Bench σ) :
    ((dropProbe host).run b).2.watched = b.watched :=
  watched_farewell host (b.probe?.bind (·.farewell)) { b with probe? := none }

theorem watched_dropArgument (host : WorkerHost σ) (b : Bench σ) :
    ((dropArgument host).run b).2.watched = b.watched :=
  watched_farewell host (b.argument?.bind (·.farewell)) { b with argument? := none }

end Bench

end FuzzCampaign
